import Mathlib.Algebra.Order.Ring.Rat
import Mathlib.Data.List.Basic
import Mathlib.Data.Rat.Defs
import Mathlib.Tactic.Common

/-!
# Texts in Python

The methods of `str` on lists of characters, `float` of a text, and a row of `csv.reader`. Of the
letters that `upper` changes, those are taken whose upper case is ASCII; of the digits that `float`
reads, those of ASCII. Doubles are taken exactly.

* `split_join`: splitting undoes joining.
* `strip_of_ends`: a text without blanks at its ends is not stripped.
* `linesFrom_append`: `splitlines` reads a text from left to right.
-/

namespace PyText

abbrev Str := List Char

/-! ## Blanks -/

/-- `str.isspace`, of a character. -/
def isSpace (c : Char) : Bool :=
  (0x09 ≤ c.toNat ∧ c.toNat ≤ 0x0D) ∨ (0x1C ≤ c.toNat ∧ c.toNat ≤ 0x20) ∨ c.toNat = 0x85 ∨
    c.toNat = 0xA0 ∨ c.toNat = 0x1680 ∨ (0x2000 ≤ c.toNat ∧ c.toNat ≤ 0x200A) ∨ c.toNat = 0x2028 ∨
    c.toNat = 0x2029 ∨ c.toNat = 0x202F ∨ c.toNat = 0x205F ∨ c.toNat = 0x3000

/-- `str.strip`. -/
def strip (s : Str) : Str := ((s.dropWhile isSpace).reverse.dropWhile isSpace).reverse

/-- A text has no blanks at its ends. -/
def NoBlankEnds (s : Str) : Prop := (∀ c ∈ s.head?, isSpace c = false) ∧ ∀ c ∈ s.getLast?, isSpace c = false

instance (s : Str) : Decidable (NoBlankEnds s) :=
  @instDecidableAnd _ _ (Option.decidableForallMem s.head?) (Option.decidableForallMem s.getLast?)

theorem dropWhile_of_head {p : Char → Bool} {s : Str} (h : ∀ c ∈ s.head?, p c = false) :
    s.dropWhile p = s := by
  cases s with
  | nil => rfl
  | cons c rest => exact List.dropWhile_cons_of_neg (ne_true_of_eq_false (h c rfl))

theorem strip_of_ends {s : Str} (h : NoBlankEnds s) : strip s = s := by
  unfold strip
  rw [dropWhile_of_head h.1, dropWhile_of_head (by rw [List.head?_reverse]; exact h.2),
    List.reverse_reverse]

/-- A blank at the end is stripped. -/
theorem strip_append {s : Str} (h : NoBlankEnds s) (hne : s ≠ []) {c : Char} (hc : isSpace c = true) :
    strip (s ++ [c]) = s := by
  unfold strip
  have hhead : ∀ c' ∈ (s ++ [c]).head?, isSpace c' = false := by
    intro c' hc'
    rw [List.head?_append_of_ne_nil _ hne] at hc'
    exact h.1 c' hc'
  rw [dropWhile_of_head hhead, List.reverse_append, List.reverse_singleton, List.singleton_append,
    List.dropWhile_cons_of_pos hc, dropWhile_of_head (by rw [List.head?_reverse]; exact h.2),
    List.reverse_reverse]

/-! ## Splitting -/

/-- `str.split`, at a character. -/
def split (sep : Char) : Str → List Str
  | [] => [[]]
  | c :: rest =>
    if c = sep then [] :: split sep rest
    else
      match split sep rest with
      | [] => [[c]]
      | part :: parts => (c :: part) :: parts

/-- `sep.join`, with a character. -/
def join (sep : Char) : List Str → Str
  | [] => []
  | [part] => part
  | part :: parts => part ++ sep :: join sep parts

theorem split_cons {sep : Char} {part : Str} (h : sep ∉ part) (rest : Str) :
    split sep (part ++ sep :: rest) = part :: split sep rest := by
  induction part with
  | nil => exact if_pos rfl
  | cons c part ih =>
    obtain ⟨hc, hpart⟩ := not_or.1 (mt List.mem_cons.2 h)
    rw [List.cons_append, split, if_neg (Ne.symm hc), ih hpart]

theorem split_of_not_mem {sep : Char} {part : Str} (h : sep ∉ part) : split sep part = [part] := by
  induction part with
  | nil => rfl
  | cons c part ih =>
    obtain ⟨hc, hpart⟩ := not_or.1 (mt List.mem_cons.2 h)
    rw [split, if_neg (Ne.symm hc), ih hpart]

theorem split_join {sep : Char} {parts : List Str} (hne : parts ≠ []) (h : ∀ part ∈ parts, sep ∉ part) :
    split sep (join sep parts) = parts := by
  induction parts with
  | nil => exact absurd rfl hne
  | cons part parts ih =>
    have hpart := h part List.mem_cons_self
    cases parts with
    | nil => exact split_of_not_mem hpart
    | cons part' parts =>
      rw [join, split_cons hpart, ih (List.cons_ne_nil _ _) fun p hp => h p (List.mem_cons_of_mem _ hp)]
      exact nofun

/-- Only the parts can put blanks at the ends. -/
theorem noBlankEnds_join {sep : Char} (hsep : isSpace sep = false) {parts : List Str}
    (h : ∀ part ∈ parts, NoBlankEnds part) : NoBlankEnds (join sep parts) := by
  induction parts with
  | nil => exact ⟨nofun, nofun⟩
  | cons part parts ih =>
    have hpart := h part List.mem_cons_self
    cases parts with
    | nil => exact hpart
    | cons part' parts =>
      obtain ⟨-, hlast⟩ := ih fun p hp => h p (List.mem_cons_of_mem _ hp)
      rw [join]
      constructor
      · intro c hc
        cases part with
        | nil =>
          obtain rfl := Option.some.inj hc
          exact hsep
        | cons c' part => exact hpart.1 c hc
      · intro c hc
        rw [List.getLast?_append_of_ne_nil _ (List.cons_ne_nil _ _), List.getLast?_cons] at hc
        cases hend : (join sep (part' :: parts)).getLast? with
        | none =>
          rw [hend] at hc
          obtain rfl := Option.some.inj hc
          exact hsep
        | some c' =>
          rw [hend] at hc
          exact hlast c (hend.trans hc)
      · exact nofun

/-! ## Lines -/

/-- The line breaks of `str.splitlines`. -/
def isLineBreak (c : Char) : Bool :=
  (0x0A ≤ c.toNat ∧ c.toNat ≤ 0x0D) ∨ (0x1C ≤ c.toNat ∧ c.toNat ≤ 0x1E) ∨ c.toNat = 0x85 ∨
    c.toNat = 0x2028 ∨ c.toNat = 0x2029

/-- `str.splitlines` in the middle of a text: the characters of the line so far, and whether the last
character was a carriage return, which goes with a line feed behind it. -/
def linesFrom (line : Str) (isCr : Bool) : Str → List Str
  | [] => if line = [] then [] else [line]
  | c :: rest =>
    if isCr ∧ c = '\n' then linesFrom line false rest
    else if isLineBreak c then line :: linesFrom [] (c = '\r') rest
    else linesFrom (line ++ [c]) false rest

/-- `str.splitlines`. -/
def splitlines (s : Str) : List Str := linesFrom [] false s

/-- The lines that are complete. -/
def linesOut (line : Str) (isCr : Bool) : Str → List Str
  | [] => []
  | c :: rest =>
    if isCr ∧ c = '\n' then linesOut line false rest
    else if isLineBreak c then line :: linesOut [] (c = '\r') rest
    else linesOut (line ++ [c]) false rest

/-- Where the text ends: the line so far, and whether the last character was a carriage return. -/
def linesAfter (line : Str) (isCr : Bool) : Str → Str × Bool
  | [] => (line, isCr)
  | c :: rest =>
    if isCr ∧ c = '\n' then linesAfter line false rest
    else if isLineBreak c then linesAfter [] (c = '\r') rest
    else linesAfter (line ++ [c]) false rest

theorem linesFrom_append (line : Str) (isCr : Bool) (s t : Str) : linesFrom line isCr (s ++ t) =
    linesOut line isCr s ++ linesFrom (linesAfter line isCr s).1 (linesAfter line isCr s).2 t := by
  induction s generalizing line isCr with
  | nil => rfl
  | cons c rest ih =>
    rw [List.cons_append, linesFrom, linesOut, linesAfter]
    split
    · exact ih _ _
    · split
      · rw [ih]
        rfl
      · exact ih _ _

/-! ## Upper case -/

/-- `str.upper`, of a character. -/
def upperChar (c : Char) : Str :=
  if 'a' ≤ c ∧ c ≤ 'z' then [Char.ofNat (c.toNat - 32)]
  else if c = 'ı' then ['I']
  else if c = 'ſ' then ['S']
  else if c = 'ß' then ['S', 'S']
  else if c = 'ﬀ' then ['F', 'F']
  else if c = 'ﬁ' then ['F', 'I']
  else if c = 'ﬂ' then ['F', 'L']
  else if c = 'ﬃ' then ['F', 'F', 'I']
  else if c = 'ﬄ' then ['F', 'F', 'L']
  else if c = 'ﬅ' ∨ c = 'ﬆ' then ['S', 'T']
  else [c]

/-- `str.upper`. -/
def upper (s : Str) : Str := s.flatMap upperChar

/-! ## Numbers -/

/-- A double. -/
inductive PyFloat
  | finite (q : ℚ)
  | inf (isNegative : Bool)
  | nan
deriving DecidableEq, Repr

namespace PyFloat

/-- `<`, against a finite number. -/
def lt : PyFloat → ℚ → Bool
  | .finite q, r => q < r
  | .inf isNegative, _ => isNegative
  | .nan, _ => false

/-- `*`, with a positive finite number. -/
def mul : PyFloat → ℚ → PyFloat
  | .finite q, r => .finite (q * r)
  | .inf isNegative, _ => .inf isNegative
  | .nan, _ => .nan

def neg : PyFloat → PyFloat
  | .finite q => .finite (-q)
  | .inf isNegative => .inf !isNegative
  | .nan => .nan

end PyFloat

/-- The value of decimal digits. -/
def digitsValue (s : Str) : ℕ := s.foldl (fun n c => 10 * n + (c.toNat - 48)) 0

/-- Underscores are left out; each has to stand between two digits. -/
def dropUnderscores : Bool → Str → Option Str
  | _, [] => some []
  | isDigit, '_' :: c :: rest =>
    if isDigit && c.isDigit then (dropUnderscores true rest).map (c :: ·) else none
  | _, ['_'] => none
  | _, c :: rest => (dropUnderscores c.isDigit rest).map (c :: ·)

/-- The sign in front of a number. -/
def takeSign : Str → Bool × Str
  | '-' :: rest => (true, rest)
  | '+' :: rest => (false, rest)
  | s => (false, s)

/-- What is behind the digits of a number: an exponent or nothing. -/
def parseExponent : Str → Option ℤ
  | [] => some 0
  | c :: rest =>
    if c = 'e' ∨ c = 'E' then
      let (isNegative, digits) := takeSign rest
      if digits ≠ [] ∧ digits.all Char.isDigit then
        some (if isNegative then -(digitsValue digits : ℤ) else digitsValue digits)
      else none
    else none

/-- A number without a sign. -/
def parseDecimal (s : Str) : Option ℚ :=
  let whole := s.takeWhile Char.isDigit
  let rest := s.dropWhile Char.isDigit
  let fraction := match rest with
    | '.' :: more => more.takeWhile Char.isDigit
    | _ => []
  let rest := match rest with
    | '.' :: more => more.dropWhile Char.isDigit
    | _ => rest
  if whole = [] ∧ fraction = [] then none
  else (parseExponent rest).map fun e =>
    (digitsValue (whole ++ fraction) : ℚ) * 10 ^ (e - (fraction.length : ℤ))

/-- A number without a sign, or one of the names. -/
def parseUnsigned (s : Str) : Option PyFloat :=
  let name := s.map Char.toLower
  if name = "inf".toList ∨ name = "infinity".toList then some (.inf false)
  else if name = "nan".toList then some .nan
  else (parseDecimal s).map .finite

/-- `float` of a text. -/
def parseFloat (s : Str) : Option PyFloat := do
  let s ← dropUnderscores false (strip s)
  let (isNegative, rest) := takeSign s
  let x ← parseUnsigned rest
  return if isNegative then x.neg else x

/-! ## Rows of `csv.reader` -/

inductive CsvState
  | startRecord
  | startField
  | inField
  | inQuotedField
  | quoteInQuotedField
  | eatCrnl
deriving DecidableEq, Repr

structure CsvReader where
  state : CsvState
  field : Str
  fields : List Str

namespace CsvReader

def save (r : CsvReader) (state : CsvState) : CsvReader := ⟨state, [], r.fields ++ [r.field]⟩

def add (r : CsvReader) (c : Char) (state : CsvState) : CsvReader := ⟨state, r.field ++ [c], r.fields⟩

/-- A character of a field that is not quoted. -/
def plain (r : CsvReader) (c : Char) : CsvReader :=
  if c = '\n' ∨ c = '\r' then r.save .eatCrnl
  else if c = ',' then r.save .startField
  else r.add c .inField

/-- A character of the line. -/
def char (r : CsvReader) (c : Char) : Option CsvReader :=
  match r.state with
  | .startRecord =>
    if c = '\n' ∨ c = '\r' then some { r with state := .eatCrnl }
    else if c = '"' then some { r with state := .inQuotedField }
    else some (r.plain c)
  | .startField => if c = '"' then some { r with state := .inQuotedField } else some (r.plain c)
  | .inField => some (r.plain c)
  | .inQuotedField =>
    if c = '"' then some { r with state := .quoteInQuotedField } else some (r.add c .inQuotedField)
  | .quoteInQuotedField => if c = '"' then some (r.add c .inQuotedField) else some (r.plain c)
  | .eatCrnl => if c = '\n' ∨ c = '\r' then some r else none

/-- The end of the only line. -/
def finish (r : CsvReader) : List Str :=
  match r.state with
  | .startRecord | .eatCrnl => r.fields
  | .startField | .inField | .inQuotedField | .quoteInQuotedField => r.fields ++ [r.field]

end CsvReader

/-- `next(csv.reader([s]))`. -/
def csvRow (s : Str) : Option (List Str) :=
  (s.foldlM CsvReader.char ⟨.startRecord, [], []⟩).map CsvReader.finish

end PyText

/-!
## Decoding UTF-8 with replacement

A decoder that reads bytes one by one and puts a replacement character for each maximal part of an
ill-formed sequence. It is in the middle of a character or between two of them, so what it makes of
the rest of a text differs from what a new decoder makes of it by the characters around the cut only
(`decodeFrom_pending`).
-/

namespace Utf8

/-- The replacement character. -/
def replacement : Char := '\uFFFD'

/-- A sequence that has begun: how many bytes follow the next one, the bounds of the next one, and the
bits so far. The bounds are those of continuation bytes, or tighter. -/
structure Pending where
  missing : ℕ
  low : UInt8
  high : UInt8
  bits : ℕ
  low_ge : 0x80 ≤ low
  high_le : high ≤ 0xBF

/-- Any continuation byte may come next. -/
def Pending.tail (missing bits : ℕ) : Pending :=
  ⟨missing, 0x80, 0xBF, bits, UInt8.le_refl _, UInt8.le_refl _⟩

/-- A first byte. -/
def start (b : UInt8) : List Char × Option Pending :=
  if b < 0x80 then ([Char.ofNat b.toNat], none)
  else if 0xC2 ≤ b ∧ b ≤ 0xDF then ([], some (.tail 0 (b.toNat % 0x20)))
  else if b = 0xE0 then ([], some ⟨1, 0xA0, 0xBF, 0, by decide, by decide⟩)
  else if b = 0xED then ([], some ⟨1, 0x80, 0x9F, 0xD, by decide, by decide⟩)
  else if 0xE1 ≤ b ∧ b ≤ 0xEF then ([], some (.tail 1 (b.toNat % 0x10)))
  else if b = 0xF0 then ([], some ⟨2, 0x90, 0xBF, 0, by decide, by decide⟩)
  else if 0xF1 ≤ b ∧ b ≤ 0xF3 then ([], some (.tail 2 (b.toNat % 8)))
  else if b = 0xF4 then ([], some ⟨2, 0x80, 0x8F, 4, by decide, by decide⟩)
  else ([replacement], none)

/-- A byte that goes on with a sequence. -/
def Pending.accept (p : Pending) (b : UInt8) : List Char × Option Pending :=
  match p.missing with
  | 0 => ([Char.ofNat (p.bits * 0x40 + b.toNat % 0x40)], none)
  | n + 1 => ([], some (.tail n (p.bits * 0x40 + b.toNat % 0x40)))

/-- A byte in the middle of a sequence. One that does not fit ends the sequence and is read again. -/
def Pending.next (p : Pending) (b : UInt8) : List Char × Option Pending :=
  if p.low ≤ b ∧ b ≤ p.high then p.accept b else (replacement :: (start b).1, (start b).2)

def step : Option Pending → UInt8 → List Char × Option Pending
  | none, b => start b
  | some p, b => p.next b

/-- What the end of the input adds. -/
def flush : Option Pending → List Char
  | none => []
  | some _ => [replacement]

/-- The text from a state on. -/
def decodeFrom : Option Pending → List UInt8 → List Char
  | s, [] => flush s
  | s, b :: rest => (step s b).1 ++ decodeFrom (step s b).2 rest

def decode (l : List UInt8) : List Char := decodeFrom none l

/-- The characters that are complete. -/
def out : Option Pending → List UInt8 → List Char
  | _, [] => []
  | s, b :: rest => (step s b).1 ++ out (step s b).2 rest

/-- The state behind the bytes. -/
def after (s : Option Pending) (l : List UInt8) : Option Pending := l.foldl (fun s b => (step s b).2) s

variable {s : Option Pending} {b : UInt8}

theorem decodeFrom_append (s : Option Pending) (u v : List UInt8) :
    decodeFrom s (u ++ v) = out s u ++ decodeFrom (after s u) v := by
  induction u generalizing s with
  | nil => rfl
  | cons b rest ih =>
    rw [List.cons_append, decodeFrom, out, ih, List.append_assoc]
    rfl

theorem decodeFrom_eq (s : Option Pending) (u : List UInt8) :
    decodeFrom s u = out s u ++ flush (after s u) := by
  have happend := decodeFrom_append s u []
  rw [List.append_nil] at happend
  exact happend

/-- A continuation byte does not begin a sequence. -/
theorem start_continuation (hlow : 0x80 ≤ b) (hhigh : b ≤ 0xBF) : start b = ([replacement], none) := by
  have h80 : (0x80 : UInt8).toNat = 0x80 := rfl
  have hbf : (0xBF : UInt8).toNat = 0xBF := rfl
  have hne : ∀ c : UInt8, 0xBF < c.toNat → b ≠ c := by
    rintro c hc rfl
    rw [UInt8.le_iff_toNat_le, hbf] at hhigh
    omega
  have hlt : ∀ c : UInt8, 0xBF < c.toNat → ¬ c ≤ b := by
    intro c hc hle
    rw [UInt8.le_iff_toNat_le] at hle hhigh
    omega
  unfold start
  rw [if_neg (UInt8.not_lt.2 hlow), if_neg (fun h => hlt 0xC2 (by decide) h.1), if_neg (hne _ (by decide)),
    if_neg (hne _ (by decide)), if_neg (fun h => hlt 0xE1 (by decide) h.1), if_neg (hne _ (by decide)),
    if_neg (fun h => hlt 0xF1 (by decide) h.1), if_neg (hne _ (by decide))]

/-- **In the middle of a sequence**, the rest of the input either does not go on with it, or its first bytes
are replaced if it is read on its own. -/
theorem decodeFrom_pending (p : Pending) (v : List UInt8) :
    decodeFrom (some p) v = replacement :: decode v ∨
      ∃ c n q, decodeFrom (some p) v = c :: q ∧ decode v = List.replicate (n + 1) replacement ++ q := by
  induction v generalizing p with
  | nil => exact .inl rfl
  | cons b rest ih =>
    by_cases hfits : p.low ≤ b ∧ b ≤ p.high
    · right
      have hstart := start_continuation (UInt8.le_trans p.low_ge hfits.1)
        (UInt8.le_trans hfits.2 p.high_le)
      have hdecode : decode (b :: rest) = replacement :: decode rest := by
        unfold decode
        rw [decodeFrom, step, hstart]
        rfl
      rw [hdecode, decodeFrom, step, Pending.next, if_pos hfits, Pending.accept]
      cases p.missing with
      | zero => exact ⟨_, 0, decode rest, rfl, rfl⟩
      | succ n =>
        rcases ih (.tail n (p.bits * 0x40 + b.toNat % 0x40)) with hnot | ⟨c, m, q, hq, hrest⟩
        · exact ⟨_, 0, decode rest, hnot, rfl⟩
        · exact ⟨c, m + 1, q, hq, congrArg (replacement :: ·) hrest⟩
    · left
      rw [decodeFrom, step, Pending.next, if_neg hfits]
      rfl

/-- A first byte puts a character out or begins a sequence. -/
theorem start_cases (b : UInt8) : (start b).1 ≠ [] ∨ ∃ p, (start b).2 = some p := by
  let Puts (r : List Char × Option Pending) : Prop := r.1 ≠ [] ∨ ∃ p, r.2 = some p
  have hout : ∀ c, Puts ([c], none) := fun c => .inl (List.cons_ne_nil _ _)
  have hbegins : ∀ p, Puts ([], some p) := fun p => .inr ⟨p, rfl⟩
  have hite : ∀ {c : Prop} [Decidable c] {r r'}, Puts r → Puts r' → Puts (if c then r else r') := by
    intro c _ r r' h h'
    split
    · exact h
    · exact h'
  exact hite (hout _) (hite (hbegins _) (hite (hbegins _) (hite (hbegins _) (hite (hbegins _)
    (hite (hbegins _) (hite (hbegins _) (hite (hbegins _) (hout _))))))))

theorem decodeFrom_some_ne_nil (p : Pending) (l : List UInt8) : decodeFrom (some p) l ≠ [] := by
  rcases decodeFrom_pending p l with h | ⟨c, n, q, h, -⟩ <;> rw [h] <;> exact List.cons_ne_nil _ _

/-- Input leaves text. -/
theorem decode_ne_nil {l : List UInt8} (hl : l ≠ []) : decode l ≠ [] := by
  cases l with
  | nil => exact absurd rfl hl
  | cons b rest =>
    unfold decode
    rw [decodeFrom, step]
    rcases start_cases b with hout | ⟨p, hp⟩
    · exact List.append_ne_nil_of_left_ne_nil hout _
    · rw [hp]
      exact List.append_ne_nil_of_right_ne_nil _ (decodeFrom_some_ne_nil p rest)

end Utf8
