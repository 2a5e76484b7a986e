import Mathlib.Data.List.Basic
import Mathlib.Data.List.Induction
import Mathlib.Order.Lattice
import Mathlib.Tactic.Common

/-!
# The best entry of a list
-/

/-!
## The first least entry of a list with gaps

A scan that keeps the index and the value of the first least entry, over a list some of whose entries are missing.

* `scan_spec`: what the scan finds.
* `scan_eq_some_iff`, `scan_eq_none_iff`: so it is that entry, if there is any.
-/

namespace FirstLeast

variable {β : Type*} [LinearOrder β]

/-- The scan, from index `i` on with the best entry so far. -/
def scan : ℕ → Option (ℕ × β) → List (Option β) → Option (ℕ × β)
  | _, best, [] => best
  | i, best, none :: l => scan (i + 1) best l
  | i, best, some r :: l => scan (i + 1) (if best.all (fun b => r < b.2) then some (i, r) else best) l

/-- An entry that is less than those before it and no greater than those behind it. -/
def IsFirstLeast (l : List (Option β)) (i : ℕ) (r : β) : Prop :=
  l[i]? = some (some r) ∧ ∀ (j : ℕ) (r' : β), l[j]? = some (some r') → r ≤ r' ∧ (j < i → r < r')

/-- What is best of a list. -/
def IsBest (l : List (Option β)) : Option (ℕ × β) → Prop
  | none => ∀ (j : ℕ) (r : β), l[j]? ≠ some (some r)
  | some (i, r) => IsFirstLeast l i r

omit [LinearOrder β] in
theorem getElem?_append_singleton {l : List (Option β)} {x : Option β} {j : ℕ} {r : β} :
    (l ++ [x])[j]? = some (some r) ↔ l[j]? = some (some r) ∨ j = l.length ∧ x = some r := by
  rcases Nat.lt_trichotomy j l.length with h | rfl | h
  · rw [List.getElem?_append_left h]
    constructor
    · exact .inl
    · rintro (h1 | ⟨h1, -⟩)
      · exact h1
      · omega
  · rw [List.getElem?_append_right (Nat.le_refl _), Nat.sub_self, List.getElem?_eq_none (Nat.le_refl _)]
    simp
  · rw [List.getElem?_append_right (by omega), List.getElem?_eq_none (show l.length ≤ j by omega)]
    have h1 : [x][j - l.length]? = none := List.getElem?_eq_none (show [x].length ≤ _ by simp; omega)
    rw [h1]
    simp
    omega

theorem isBest_skip {l : List (Option β)} {best : Option (ℕ × β)} (h : IsBest l best) : IsBest (l ++ [none]) best := by
  have hiff : ∀ (j : ℕ) (r : β), (l ++ [none])[j]? = some (some r) ↔ l[j]? = some (some r) := by
    intro j r
    rw [getElem?_append_singleton]
    simp
  cases best with
  | none =>
    intro j r hj
    exact h j r ((hiff j r).1 hj)
  | some b =>
    obtain ⟨i, r⟩ := b
    exact ⟨(hiff i r).2 h.1, fun j r' hj => h.2 j r' ((hiff j r').1 hj)⟩

omit [LinearOrder β] in
theorem lt_length_of_getElem? {l : List (Option β)} {i : ℕ} {r : β} (h : l[i]? = some (some r)) : i < l.length := by
  by_contra hge
  rw [List.getElem?_eq_none (by omega)] at h
  simp at h

theorem isBest_entry {l : List (Option β)} {best : Option (ℕ × β)} (h : IsBest l best) (r : β) :
    IsBest (l ++ [some r]) (if best.all (fun b => r < b.2) then some (l.length, r) else best) := by
  have hnew : (l ++ [some r])[l.length]? = some (some r) := getElem?_append_singleton.2 (.inr ⟨rfl, rfl⟩)
  cases best with
  | none =>
    refine ⟨hnew, fun j r' hj => ?_⟩
    rcases getElem?_append_singleton.1 hj with h1 | ⟨rfl, h1⟩
    · exact absurd h1 (h j r')
    · obtain rfl := Option.some.inj h1
      exact ⟨le_refl _, fun hlt => absurd hlt (Nat.lt_irrefl _)⟩
  | some b =>
    obtain ⟨i, b⟩ := b
    simp only [Option.all_some, decide_eq_true_eq]
    by_cases hlt : r < b
    · -- the new entry is less than all before it
      rw [if_pos hlt]
      refine ⟨hnew, fun j r' hj => ?_⟩
      rcases getElem?_append_singleton.1 hj with h1 | ⟨rfl, h1⟩
      · have hr : r < r' := lt_of_lt_of_le hlt (h.2 j r' h1).1
        exact ⟨le_of_lt hr, fun _ => hr⟩
      · obtain rfl := Option.some.inj h1
        exact ⟨le_refl _, fun hlt => absurd hlt (Nat.lt_irrefl _)⟩
    · rw [if_neg hlt]
      refine ⟨getElem?_append_singleton.2 (.inl h.1), fun j r' hj => ?_⟩
      rcases getElem?_append_singleton.1 hj with h1 | ⟨rfl, h1⟩
      · exact h.2 j r' h1
      · obtain rfl := Option.some.inj h1
        have hi := lt_length_of_getElem? h.1
        exact ⟨not_lt.1 hlt, fun h2 => by omega⟩

/-- **What the scan finds** is best of all it has seen. -/
theorem scan_spec {pre : List (Option β)} {best : Option (ℕ × β)} (h : IsBest pre best) (l : List (Option β)) :
    IsBest (pre ++ l) (scan pre.length best l) := by
  induction l generalizing pre best with
  | nil =>
    rw [List.append_nil]
    exact h
  | cons x l ih =>
    have happ : pre ++ x :: l = (pre ++ [x]) ++ l := by simp
    have hlen : pre.length + 1 = (pre ++ [x]).length := by simp
    rw [happ]
    cases x with
    | none =>
      rw [scan, hlen]
      exact ih (isBest_skip h)
    | some r =>
      rw [scan, hlen]
      exact ih (isBest_entry h r)

theorem isBest_scan (l : List (Option β)) : IsBest l (scan 0 none l) := by
  have hstart : IsBest ([] : List (Option β)) none := by simp [IsBest]
  exact scan_spec hstart l

/-- There is one first least entry. -/
theorem IsFirstLeast.unique {l : List (Option β)} {i j : ℕ} {r r' : β} (h : IsFirstLeast l i r)
    (h' : IsFirstLeast l j r') : i = j ∧ r = r' := by
  have h1 := h.2 j r' h'.1
  have h2 := h'.2 i r h.1
  have hr : r = r' := le_antisymm h1.1 h2.1
  refine ⟨?_, hr⟩
  rcases Nat.lt_trichotomy i j with hij | hij | hij
  · exact absurd hr (ne_of_gt (h2.2 hij))
  · exact hij
  · exact absurd hr (ne_of_lt (h1.2 hij))

theorem scan_eq_some_iff {l : List (Option β)} {i : ℕ} {r : β} :
    scan 0 none l = some (i, r) ↔ IsFirstLeast l i r := by
  have h := isBest_scan l
  constructor
  · intro hs
    rw [hs] at h
    exact h
  · intro hf
    cases hs : scan 0 none l with
    | none =>
      rw [hs] at h
      exact absurd hf.1 (h i r)
    | some b =>
      rw [hs] at h
      obtain ⟨h1, h2⟩ := IsFirstLeast.unique h hf
      rw [← h1, ← h2]

theorem scan_eq_none_iff {l : List (Option β)} : scan 0 none l = none ↔ ∀ (j : ℕ) (r : β), l[j]? ≠ some (some r) := by
  have h := isBest_scan l
  constructor
  · intro hs
    rw [hs] at h
    exact h
  · intro hall
    cases hs : scan 0 none l with
    | none => rfl
    | some b =>
      rw [hs] at h
      exact absurd h.1 (hall _ _)

end FirstLeast

/-!
## Running maxima

A scan that goes over to each member that replaces the one it has.

* `scan_eq_self`, `scan_mem_of_replaces`: when it stays with the one it has started from.
* `le_scan`: a scan by a measure.
* `foldl_best`: a running maximum from a given start.
-/

namespace RunningMax

variable {ι β : Type*}

section Scan

variable {replaces : ι → ι → Prop} [DecidableRel replaces]

/-- The member that the scan ends with. -/
def scan (replaces : ι → ι → Prop) [DecidableRel replaces] (b : ι) (l : List ι) : ι :=
  l.foldl (fun b x => if replaces b x then x else b) b

theorem scan_cons (b x : ι) (l : List ι) :
    scan replaces b (x :: l) = if replaces b x then scan replaces x l else scan replaces b l := by
  unfold scan
  rw [List.foldl_cons]
  split
  · rfl
  · rfl

theorem scan_append (b : ι) (l l' : List ι) : scan replaces b (l ++ l') = scan replaces (scan replaces b l) l' :=
  List.foldl_append

theorem scan_mem (replaces : ι → ι → Prop) [DecidableRel replaces] (b : ι) (l : List ι) : scan replaces b l = b ∨ scan replaces b l ∈ l := by
  induction l generalizing b with
  | nil => exact .inl rfl
  | cons x l ih =>
    rw [scan_cons]
    split
    · rcases ih x with h | h
      · rw [h]
        exact .inr List.mem_cons_self
      · exact .inr (List.mem_cons_of_mem x h)
    · exact (ih b).imp_right (List.mem_cons_of_mem x)

theorem scan_eq_self {b : ι} {l : List ι} (h : ∀ x ∈ l, ¬ replaces b x) : scan replaces b l = b := by
  induction l with
  | nil => rfl
  | cons x l ih =>
    rw [scan_cons, if_neg (h x List.mem_cons_self)]
    exact ih fun y hy => h y (List.mem_cons_of_mem x hy)

/-- A member that is replaced by one of the list is gone. -/
theorem scan_mem_of_replaces {b x : ι} {l : List ι} (hx : x ∈ l) (h : replaces b x) : scan replaces b l ∈ l := by
  induction l with
  | nil => cases hx
  | cons y l ih =>
    rw [scan_cons]
    by_cases hy : replaces b y
    · rw [if_pos hy]
      rcases scan_mem replaces y l with heq | hmem
      · rw [heq]
        exact List.mem_cons_self
      · exact List.mem_cons_of_mem y hmem
    · rw [if_neg hy]
      rcases List.mem_cons.1 hx with rfl | hx
      · exact absurd h hy
      · exact List.mem_cons_of_mem y (ih hx)

/-- A scan by a measure finds a member of the greatest measure. -/
theorem le_scan [Preorder β] (f : ι → β) (hmono : ∀ b x, replaces b x → f b ≤ f x) (htop : ∀ b x, ¬ replaces b x → f x ≤ f b)
    (b : ι) (l : List ι) : ∀ x ∈ b :: l, f x ≤ f (scan replaces b l) := by
  induction l generalizing b with
  | nil =>
    intro x hx
    rw [List.mem_singleton.1 hx]
    exact le_refl _
  | cons y l ih =>
    intro x hx
    rw [scan_cons]
    split
    case isTrue h =>
      rcases List.mem_cons.1 hx with rfl | hx
      · exact (hmono x y h).trans (ih y y List.mem_cons_self)
      · exact ih y x hx
    case isFalse h =>
      rcases List.mem_cons.1 hx with rfl | hx
      · exact ih x x List.mem_cons_self
      · rcases List.mem_cons.1 hx with rfl | hx
        · exact (htop b x h).trans (ih b b List.mem_cons_self)
        · exact ih b x (List.mem_cons_of_mem b hx)

end Scan

/-- **A running maximum** is the start, or the value of a member that exceeds it, and no member has a greater value. -/
theorem foldl_best [LinearOrder β] (f : ι → β) (s : ι × β) (l : List ι) :
    (∀ x ∈ l, f x ≤ (l.foldl (fun s x => if s.2 < f x then (x, f x) else s) s).2) ∧
      (l.foldl (fun s x => if s.2 < f x then (x, f x) else s) s = s ∨
        (l.foldl (fun s x => if s.2 < f x then (x, f x) else s) s).1 ∈ l ∧
        (l.foldl (fun s x => if s.2 < f x then (x, f x) else s) s).2 =
          f (l.foldl (fun s x => if s.2 < f x then (x, f x) else s) s).1 ∧
        s.2 < (l.foldl (fun s x => if s.2 < f x then (x, f x) else s) s).2) := by
  induction l using List.reverseRecOn with
  | nil => exact ⟨fun x hx => absurd hx List.not_mem_nil, .inl rfl⟩
  | append_singleton l y ih =>
    rw [List.foldl_append, List.foldl_cons, List.foldl_nil]
    generalize l.foldl (fun s x => if s.2 < f x then (x, f x) else s) s = r at ih
    obtain ⟨hall, hr⟩ := ih
    by_cases hy : r.2 < f y
    · rw [if_pos hy]
      refine ⟨fun x hx => ?_, .inr ⟨List.mem_append_right _ (List.mem_singleton.2 rfl), rfl, ?_⟩⟩
      · rcases List.mem_append.1 hx with hx | hx
        · exact (hall x hx).trans (le_of_lt hy)
        · rw [List.mem_singleton.1 hx]
      · rcases hr with rfl | ⟨-, -, hlt⟩
        · exact hy
        · exact hlt.trans hy
    · rw [if_neg hy]
      refine ⟨fun x hx => ?_, hr.imp_right fun h => ⟨List.mem_append_left _ h.1, h.2⟩⟩
      rcases List.mem_append.1 hx with hx | hx
      · exact hall x hx
      · rw [List.mem_singleton.1 hx]
        exact not_lt.1 hy

end RunningMax
