import Mathlib.Algebra.GroupWithZero.Nat
import NetSim.Lib.PyText

/-!
# Lines of a text that is cut

A text that is cut in two and whose parts are decoded and split on their own has the same lines if the
first part ends with a line. A cut anywhere else adds a line or a character, and nothing takes it away
again, so the sizes of the lines tell.

* `linesFrom_cut`: what a cut between two characters costs.
* `size_pending`: what a cut within a character costs.
* `splitlines_cut`: the two together, for the bytes of a text.
-/

namespace PyText

open Utf8

/-! ## The sizes of lines -/

/-- The number of the lines and of their characters. -/
def size (l : List Str) : ℕ := (l.map fun line => line.length + 1).sum

theorem size_cons (line : Str) (l : List Str) : size (line :: l) = line.length + 1 + size l := List.sum_cons

theorem size_append (l l' : List Str) : size (l ++ l') = size l + size l' :=
  (congrArg List.sum List.map_append).trans List.sum_append

/-- A line break ends the line. -/
theorem linesFrom_break (line : Str) {isCr : Bool} {c : Char} (rest : Str) (hcrlf : ¬ (isCr = true ∧ c = '\n'))
    (hc : isLineBreak c = true) : linesFrom line isCr (c :: rest) = line :: linesFrom [] (c = '\r') rest :=
  (if_neg hcrlf).trans (if_pos hc)

/-- Another character goes into the line. -/
theorem linesFrom_plain (line : Str) (isCr : Bool) {c : Char} (rest : Str) (hc : isLineBreak c = false) :
    linesFrom line isCr (c :: rest) = linesFrom (line ++ [c]) false rest := by
  have hcrlf : ¬ (isCr = true ∧ c = '\n') := by
    rintro ⟨-, rfl⟩
    exact absurd hc (by decide)
  exact (if_neg hcrlf).trans (if_neg (ne_true_of_eq_false hc))

/-- A line that has begun adds its characters to the first line of the rest. -/
theorem size_linesFrom (line : Str) {s : Str} (hs : s ≠ []) :
    size (linesFrom line false s) = line.length + size (splitlines s) := by
  induction s generalizing line with
  | nil => exact absurd rfl hs
  | cons c rest ih =>
    unfold splitlines
    cases hbreak : isLineBreak c with
    | true =>
      have hcrlf : ¬ (false = true ∧ c = '\n') := fun h => Bool.false_ne_true h.1
      rw [linesFrom_break line rest hcrlf hbreak, linesFrom_break [] rest hcrlf hbreak, size_cons, size_cons,
        List.length_nil]
      exact Nat.add_assoc _ _ _
    | false =>
      rw [linesFrom_plain line false rest hbreak, linesFrom_plain [] false rest hbreak]
      cases rest with
      | nil =>
        have hone : ∀ line : Str, size (linesFrom (line ++ [c]) false []) = line.length + 2 := by
          intro line
          rw [linesFrom, if_neg (List.append_ne_nil_of_right_ne_nil _ (List.cons_ne_nil _ _)), size_cons,
            List.length_append]
          rfl
        rw [hone, hone, List.length_nil]
      | cons c' rest =>
        rw [ih (line ++ [c]) (List.cons_ne_nil _ _), ih ([] ++ [c]) (List.cons_ne_nil _ _),
          List.length_append, List.length_append, List.length_nil]
        omega

/-- A line that has begun adds at least its characters. -/
theorem le_size_linesFrom (line s : Str) : line.length + size (splitlines s) ≤ size (linesFrom line false s) := by
  cases s with
  | nil =>
    have hnil : size (splitlines []) = 0 := rfl
    rw [hnil, linesFrom]
    split
    · rename_i hline
      rw [hline]
      exact Nat.le_refl 0
    · rw [size_cons]
      omega
  | cons c rest => exact (size_linesFrom line (List.cons_ne_nil c rest)).ge

/-- Behind a carriage return, a line feed is not a line. -/
theorem linesFrom_cr (s : Str) : (s.head? ≠ some '\n' ∧ linesFrom [] true s = splitlines s) ∨
    (s.head? = some '\n' ∧ size (linesFrom [] true s) < size (splitlines s)) := by
  cases s with
  | nil => exact .inl ⟨nofun, rfl⟩
  | cons c rest =>
    by_cases hc : c = '\n'
    · right
      subst hc
      have hfresh : splitlines ('\n' :: rest) = [] :: splitlines rest := rfl
      have hcr : linesFrom [] true ('\n' :: rest) = splitlines rest := rfl
      rw [hfresh, hcr, size_cons]
      exact ⟨rfl, by omega⟩
    · left
      refine ⟨fun hhead => hc (Option.some.inj hhead), ?_⟩
      unfold splitlines
      cases hbreak : isLineBreak c with
      | true =>
        rw [linesFrom_break [] rest (fun h => hc h.2) hbreak, linesFrom_break [] rest (fun h => hc h.2) hbreak]
      | false => rw [linesFrom_plain [] true rest hbreak, linesFrom_plain [] false rest hbreak]

/-- The first character of a text adds two at most: itself and a line. -/
theorem size_linesFrom_cons_le (line : Str) (isCr : Bool) (c : Char) (rest : Str) :
    size (linesFrom line isCr (c :: rest)) ≤ line.length + 2 + size (splitlines rest) := by
  -- A line that is not empty when the text ends is one more.
  have hle : ∀ line : Str, size (linesFrom line false rest) ≤ line.length + 1 + size (splitlines rest) := by
    intro line
    cases rest with
    | nil =>
      rw [linesFrom]
      split
      · exact Nat.zero_le _
      · exact Nat.le_refl _
    | cons c' rest =>
      rw [size_linesFrom line (List.cons_ne_nil _ _)]
      omega
  rw [linesFrom]
  split
  · have hline := hle line
    omega
  · split
    · rw [size_cons]
      cases decide (c = '\r') with
      | false =>
        have hsame : size (linesFrom [] false rest) = size (splitlines rest) := rfl
        omega
      | true =>
        rcases linesFrom_cr rest with ⟨-, hsame⟩ | ⟨-, hlt⟩
        · rw [hsame]
          omega
        · omega
    · have hline := hle (line ++ [c])
      rw [List.length_append, List.length_singleton] at hline
      omega

/-! ## Where a text ends -/

theorem linesAfter_append (line : Str) (isCr : Bool) (s t : Str) : linesAfter line isCr (s ++ t) =
    linesAfter (linesAfter line isCr s).1 (linesAfter line isCr s).2 t := by
  induction s generalizing line isCr with
  | nil => rfl
  | cons c rest ih =>
    rw [List.cons_append, linesAfter, linesAfter]
    split
    · exact ih _ _
    · split
      · exact ih _ _
      · exact ih _ _

/-- Behind a carriage return, the line is new. -/
theorem linesAfter_cr (line : Str) (isCr : Bool) (hcr : isCr = true → line = []) (s : Str) :
    (linesAfter line isCr s).2 = true → (linesAfter line isCr s).1 = [] := by
  induction s generalizing line isCr with
  | nil => exact hcr
  | cons c rest ih =>
    rw [linesAfter]
    split
    · exact ih _ _ fun h => absurd h Bool.false_ne_true
    · split
      · exact ih _ _ fun _ => rfl
      · exact ih _ _ fun h => absurd h Bool.false_ne_true

/-- A text ends with a line, and the text behind it goes on with a new one. -/
def EndsLine (s t : Str) : Prop :=
  ∃ c, s.getLast? = some c ∧ isLineBreak c = true ∧ ¬ (c = '\r' ∧ t.head? = some '\n')

/-- The state behind a text tells whether it ends with a line. -/
theorem endsLine_iff {s : Str} (hs : s ≠ []) (t : Str) : EndsLine s t ↔
    (linesAfter [] false s).1 = [] ∧ ¬ ((linesAfter [] false s).2 = true ∧ t.head? = some '\n') := by
  obtain ⟨s, c, rfl⟩ : ∃ s' c, s = s' ++ [c] := ⟨_, _, (List.dropLast_concat_getLast hs).symm⟩
  have hcr := linesAfter_cr [] false (fun _ => rfl) s
  rw [linesAfter_append]
  generalize linesAfter [] false s = state at hcr
  have hends : EndsLine (s ++ [c]) t ↔ isLineBreak c = true ∧ ¬ (c = '\r' ∧ t.head? = some '\n') := by
    unfold EndsLine
    rw [List.getLast?_concat]
    constructor
    · rintro ⟨c', hc', hends⟩
      obtain rfl := Option.some.inj hc'
      exact hends
    · exact fun h => ⟨c, rfl, h⟩
  rw [hends, linesAfter]
  by_cases hcrlf : state.2 = true ∧ c = '\n'
  · -- The line feed goes with the carriage return.
    obtain ⟨hstate, rfl⟩ := hcrlf
    rw [if_pos ⟨hstate, rfl⟩, linesAfter]
    exact ⟨fun _ => ⟨hcr hstate, fun h => Bool.false_ne_true h.1⟩,
      fun _ => ⟨rfl, fun h => absurd h.1 (by decide)⟩⟩
  · rw [if_neg hcrlf]
    cases hbreak : isLineBreak c with
    | true =>
      rw [if_pos rfl, linesAfter]
      exact ⟨fun h => ⟨rfl, fun h' => h.2 ⟨of_decide_eq_true h'.1, h'.2⟩⟩,
        fun h => ⟨rfl, fun h' => h.2 ⟨decide_eq_true h'.1, h'.2⟩⟩⟩
    | false =>
      rw [if_neg Bool.false_ne_true, linesAfter]
      exact ⟨fun h => absurd h.1 Bool.false_ne_true,
        fun h => absurd h.1 (List.append_ne_nil_of_right_ne_nil _ (List.cons_ne_nil _ _))⟩

/-! ## What a cut costs -/

/-- **What a cut costs** in the middle of a line, or of a carriage return and a line feed, if the text is cut
between two characters. -/
theorem linesFrom_cut (line : Str) (isCr : Bool) (hcr : isCr = true → line = []) {s : Str} (hs : s ≠ []) :
    (line = [] ∧ ¬ (isCr = true ∧ s.head? = some '\n') ∧ linesFrom line isCr s = splitlines s) ∨
      (¬ (line = [] ∧ ¬ (isCr = true ∧ s.head? = some '\n')) ∧
        size (linesFrom line isCr s) < size (linesFrom line isCr []) + size (splitlines s)) := by
  by_cases hline : line = []
  · subst hline
    cases isCr with
    | false => exact .inl ⟨rfl, fun h => Bool.false_ne_true h.1, rfl⟩
    | true =>
      rcases linesFrom_cr s with ⟨hhead, hsame⟩ | ⟨hhead, hlt⟩
      · exact .inl ⟨rfl, fun h => hhead h.2, hsame⟩
      · right
        have hnil : size (linesFrom [] true []) = 0 := rfl
        rw [hnil, Nat.zero_add]
        exact ⟨fun h => h.2 ⟨rfl, hhead⟩, hlt⟩
  · right
    obtain rfl : isCr = false := Bool.eq_false_iff.2 fun h => hline (hcr h)
    refine ⟨fun h => hline h.1, ?_⟩
    rw [size_linesFrom line hs, linesFrom, if_neg hline, size_cons]
    have hnil : size ([] : List Str) = 0 := rfl
    omega

theorem linesFrom_replicate (line q : Str) (n : ℕ) :
    linesFrom line false (List.replicate n replacement ++ q) =
      linesFrom (line ++ List.replicate n replacement) false q := by
  induction n generalizing line with
  | zero => exact congrArg (linesFrom · false q) (List.append_nil line).symm
  | succ n ih =>
    rw [List.replicate_succ, List.cons_append, linesFrom_plain line false _ (by decide), ih, List.append_assoc,
      List.singleton_append]

/-- **In the middle of a character**, a cut leaves more than the whole text. -/
theorem size_pending (line : Str) (isCr : Bool) (p : Pending) {v : List UInt8} (hv : v ≠ []) :
    size (linesFrom line isCr (decodeFrom (some p) v)) <
      size (linesFrom line isCr (flush (some p))) + size (splitlines (decode v)) := by
  have hflush : linesFrom line isCr (flush (some p)) = [line ++ [replacement]] := by
    rw [flush, linesFrom_plain line isCr [] (by decide), linesFrom,
      if_neg (List.append_ne_nil_of_right_ne_nil _ (List.cons_ne_nil _ _))]
  have hsize : size [line ++ [replacement]] = line.length + 2 := by
    rw [size_cons, List.length_append]
    rfl
  rw [hflush, hsize]
  rcases decodeFrom_pending p v with hnot | ⟨c, n, q, hq, hrest⟩
  · -- What comes does not go on with the character.
    rw [hnot, linesFrom_plain line isCr _ (by decide), size_linesFrom _ (decode_ne_nil hv), List.length_append,
      List.length_singleton]
    omega
  · -- It does, so its first bytes are replaced if it is read on its own.
    have hwhole := size_linesFrom_cons_le line isCr c q
    have hcut := le_size_linesFrom ([] ++ List.replicate (n + 1) replacement) q
    rw [← linesFrom_replicate, List.nil_append, List.length_replicate] at hcut
    rw [hq, hrest]
    unfold splitlines at hcut hwhole ⊢
    omega

/-- The lines of a text, from the state behind its first part. -/
theorem splitlines_append (u v : List UInt8) : splitlines (decode (u ++ v)) = linesOut [] false (out none u) ++
    linesFrom (linesAfter [] false (out none u)).1 (linesAfter [] false (out none u)).2
      (decodeFrom (after none u) v) := by
  unfold decode splitlines
  rw [decodeFrom_append, linesFrom_append]

/-- **What a cut between two chunks does.** -/
theorem splitlines_cut {u v : List UInt8} (hu : u ≠ []) (hv : v ≠ []) :
    (EndsLine (decode u) (decode v) ∧
        splitlines (decode (u ++ v)) = splitlines (decode u) ++ splitlines (decode v)) ∨
      (¬ EndsLine (decode u) (decode v) ∧
        size (splitlines (decode (u ++ v))) < size (splitlines (decode u)) + size (splitlines (decode v))) := by
  have hfirst := splitlines_append u []
  have hdecode : decode u = out none u ++ flush (after none u) := decodeFrom_eq none u
  rw [List.append_nil, decodeFrom] at hfirst
  rw [splitlines_append, hfirst, List.append_assoc, size_append, size_append, Nat.add_assoc]
  cases hafter : after none u with
  | none =>
    have hout : decode u = out none u := by
      rw [hdecode, hafter]
      exact List.append_nil _
    have hcut := linesFrom_cut (linesAfter [] false (out none u)).1 (linesAfter [] false (out none u)).2
      (linesAfter_cr [] false (fun _ => rfl) _) (decode_ne_nil hv)
    rw [endsLine_iff (decode_ne_nil hu), hout]
    refine hcut.imp ?_ ?_
    · rintro ⟨hline, hcrlf, heq⟩
      have hnil : linesFrom (linesAfter [] false (out none u)).1 (linesAfter [] false (out none u)).2
          (flush none) = [] := if_pos hline
      rw [hnil, List.nil_append]
      exact ⟨⟨hline, hcrlf⟩, congrArg _ heq⟩
    · rintro ⟨hends, hlt⟩
      exact ⟨hends, Nat.add_lt_add_left hlt _⟩
  | some p =>
    right
    constructor
    · rintro ⟨c, hc, hbreak, -⟩
      rw [hdecode, hafter, flush, List.getLast?_concat] at hc
      obtain rfl := Option.some.inj hc
      exact absurd hbreak (by decide)
    · exact Nat.add_lt_add_left (size_pending _ _ p hv) _

end PyText
