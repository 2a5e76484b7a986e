import Mathlib.Algebra.BigOperators.Group.List.Basic
import Mathlib.Algebra.Ring.Nat
import Mathlib.Data.List.Basic
import Mathlib.Tactic.Common

/-!
# Serving demands from a budget

Demands are served in order. One below what is left of the budget is served in full. One that
reaches it either gets the rest, and ends the budget, or is sent to a fallback budget, from
which the demands after it are served as well.

* `getElem?_serve_of_none`: without a fallback, a demand gets what the ones before it leave.
* `sum_serve_of_none`: without a fallback, the demands get the smaller of their sum and the
  budget.
* `sum_serve_le`: the same bound if every fallback is empty.
* `sum_serve_le_iff`: when the demands get no more than the budget.
-/

namespace Budget

variable (fallback : ℕ → Option ℕ)

/-- What each demand gets. -/
def serve : ℕ → List ℕ → List ℕ
  | _, [] => []
  | left, d :: ds =>
    if 0 < left then
      if d < left then d :: serve (left - d) ds
      else match fallback d with
        | none => left :: serve 0 ds
        | some p => if p < d then p :: serve 0 ds else d :: serve (p - d) ds
    else 0 :: serve 0 ds

/-- The demands get nothing. -/
def ServesNothing : ℕ → List ℕ → Prop
  | _, [] => True
  | left, d :: ds => left = 0 ∨ (d = 0 ∧ ServesNothing left ds) ∨
    (0 < d ∧ left ≤ d ∧ fallback d = some 0)

/-- The first demand that reaches the budget has no fallback, or an empty one, or it takes exactly
what is left and nothing is served from its fallback. -/
def StaysOwn : ℕ → List ℕ → Prop
  | _, [] => True
  | left, d :: ds =>
    if 0 < left then
      if d < left then StaysOwn (left - d) ds
      else match fallback d with
        | none => True
        | some p => p = 0 ∨ (d = left ∧ ServesNothing fallback (p - d) ds)
    else True

variable {fallback}

attribute [local simp] serve ServesNothing StaysOwn

@[simp]
theorem sum_serve_zero (ds : List ℕ) : (serve fallback 0 ds).sum = 0 := by
  induction ds with
  | nil => rfl
  | cons d ds ih => simp [ih]

theorem serve_cons_of_lt {left d : ℕ} (h : d < left) (ds : List ℕ) :
    serve fallback left (d :: ds) = d :: serve fallback (left - d) ds := by
  have hpos : 0 < left := by omega
  rw [serve, if_pos hpos, if_pos h]

/-- A demand that reaches the budget. -/
theorem sum_serve_cons_of_le {left d : ℕ} (hpos : 0 < left) (h : left ≤ d) (ds : List ℕ) :
    (serve fallback left (d :: ds)).sum =
      match fallback d with
      | none => left
      | some p => if p < d then p else d + (serve fallback (p - d) ds).sum := by
  rw [serve, if_pos hpos, if_neg (Nat.not_lt.2 h)]
  cases fallback d with
  | none => simp
  | some p =>
    by_cases hp : p < d
    · simp [hp]
    · simp [hp]

/-- An empty budget gives nothing. -/
theorem serve_zero (ds : List ℕ) : serve fallback 0 ds = ds.map fun _ => 0 := by
  induction ds with
  | nil => rfl
  | cons d ds ih => rw [serve, if_neg (Nat.lt_irrefl 0), ih, List.map_cons]

/-- Without a fallback a demand that reaches the budget gets the rest. -/
theorem serve_cons_of_not_lt {left d : ℕ} (h : ¬ d < left) (ds : List ℕ) :
    serve (fun _ => none) left (d :: ds) = left :: serve (fun _ => none) 0 ds := by
  rw [serve, if_neg h]
  split
  · rfl
  · rw [show left = 0 by omega]

/-- **Without a fallback** a demand gets what the ones before it leave. -/
theorem getElem?_serve_of_none (left : ℕ) (ds : List ℕ) (i : ℕ) :
    (serve (fun _ => none) left ds)[i]? = ds[i]?.map fun d => min d (left - (ds.take i).sum) := by
  induction ds generalizing left i with
  | nil => rfl
  | cons d ds ih =>
    by_cases hlt : d < left
    · rw [serve_cons_of_lt hlt]
      cases i with
      | zero => simp [Nat.min_eq_left (le_of_lt hlt)]
      | succ i =>
        rw [List.getElem?_cons_succ, List.getElem?_cons_succ, ih, List.take_succ_cons, List.sum_cons, Nat.sub_sub]
    · rw [serve_cons_of_not_lt hlt]
      cases i with
      | zero => simp [Nat.min_eq_right (Nat.le_of_not_lt hlt)]
      | succ i =>
        have hleft : ∀ n, left - (d + n) = 0 := fun n => by omega
        rw [List.getElem?_cons_succ, List.getElem?_cons_succ, ih, List.take_succ_cons, List.sum_cons, hleft, Nat.zero_sub]

/-- **Without a fallback** the demands get the smaller of their sum and the budget. -/
theorem sum_serve_of_none {left : ℕ} {ds : List ℕ} (h : ∀ d ∈ ds, fallback d = none) :
    (serve fallback left ds).sum = min ds.sum left := by
  induction ds generalizing left with
  | nil => simp
  | cons d ds ih =>
    have hd := h d List.mem_cons_self
    have hds := fun x hx => h x (List.mem_cons_of_mem _ hx)
    rw [List.sum_cons]
    by_cases hlt : d < left
    · rw [serve_cons_of_lt hlt, List.sum_cons, ih hds]
      omega
    · by_cases hpos : 0 < left
      · rw [sum_serve_cons_of_le hpos (Nat.le_of_not_lt hlt), hd]
        dsimp only
        omega
      · obtain rfl : left = 0 := by omega
        rw [sum_serve_zero]
        omega

/-- A budget above the sum of the demands serves them all. -/
theorem sum_serve_of_lt {left : ℕ} {ds : List ℕ} (h : ds.sum < left) :
    (serve fallback left ds).sum = ds.sum := by
  induction ds generalizing left with
  | nil => rfl
  | cons d ds ih =>
    rw [List.sum_cons] at h
    have hlt : d < left := by omega
    have hrest : ds.sum < left - d := by omega
    rw [serve_cons_of_lt hlt, List.sum_cons, List.sum_cons, ih hrest]

/-- **Empty fallbacks** give nothing beyond the budget. -/
theorem sum_serve_le {left : ℕ} {ds : List ℕ}
    (h : ∀ d ∈ ds, d = 0 ∨ fallback d = none ∨ fallback d = some 0) :
    (serve fallback left ds).sum ≤ min ds.sum left := by
  induction ds generalizing left with
  | nil => simp
  | cons d ds ih =>
    have hds := fun x hx => h x (List.mem_cons_of_mem _ hx)
    rw [List.sum_cons]
    by_cases hlt : d < left
    · have hrest : (serve fallback (left - d) ds).sum ≤ min ds.sum (left - d) := ih hds
      rw [serve_cons_of_lt hlt, List.sum_cons]
      omega
    · by_cases hpos : 0 < left
      · rw [sum_serve_cons_of_le hpos (Nat.le_of_not_lt hlt)]
        rcases h d List.mem_cons_self with hd | hd | hd
        · omega
        · rw [hd]
          dsimp only
          omega
        · have hd0 : 0 < d := by omega
          rw [hd]
          dsimp only
          rw [if_pos hd0]
          exact Nat.zero_le _
      · obtain rfl : left = 0 := by omega
        rw [sum_serve_zero]
        exact Nat.zero_le _

section Covers

variable (hcover : ∀ d p, fallback d = some p → p = 0 ∨ d ≤ p)

include hcover in
theorem sum_serve_eq_zero_iff {left : ℕ} {ds : List ℕ} :
    (serve fallback left ds).sum = 0 ↔ ServesNothing fallback left ds := by
  induction ds generalizing left with
  | nil => simp
  | cons d ds ih =>
    rw [ServesNothing]
    by_cases hlt : d < left
    · rw [serve_cons_of_lt hlt, List.sum_cons]
      constructor
      · intro hsum
        obtain rfl : d = 0 := by omega
        exact .inr (.inl ⟨rfl, ih.1 (by simpa using hsum)⟩)
      · rintro (hleft | ⟨rfl, hrest⟩ | ⟨-, hle, -⟩)
        · omega
        · simpa using ih.2 hrest
        · omega
    · by_cases hpos : 0 < left
      · rw [sum_serve_cons_of_le hpos (Nat.le_of_not_lt hlt)]
        have hd : 0 < d := by omega
        have hle : left ≤ d := Nat.le_of_not_lt hlt
        cases hf : fallback d with
        | none =>
          dsimp only
          constructor
          · intro hsum
            omega
          · rintro (hleft | ⟨hd0, -⟩ | ⟨-, -, hsome⟩)
            · omega
            · omega
            · cases hsome
        | some p =>
          dsimp only
          rcases hcover d p hf with rfl | hp
          · rw [if_pos hd]
            exact ⟨fun _ => .inr (.inr ⟨hd, hle, rfl⟩), fun _ => rfl⟩
          · rw [if_neg (Nat.not_lt.2 hp)]
            constructor
            · intro hsum
              omega
            · rintro (hleft | ⟨hd0, -⟩ | ⟨-, -, hsome⟩)
              · omega
              · omega
              · obtain rfl := Option.some.inj hsome
                omega
      · obtain rfl : left = 0 := by omega
        exact ⟨fun _ => .inl rfl, fun _ => sum_serve_zero _⟩

include hcover in
/-- **The demands get no more than the budget** exactly if it is not left for a fallback that
serves more. -/
theorem sum_serve_le_iff {left : ℕ} {ds : List ℕ} :
    (serve fallback left ds).sum ≤ left ↔ StaysOwn fallback left ds := by
  induction ds generalizing left with
  | nil => simp
  | cons d ds ih =>
    rw [StaysOwn]
    by_cases hpos : 0 < left
    · rw [if_pos hpos]
      by_cases hlt : d < left
      · rw [if_pos hlt, serve_cons_of_lt hlt, List.sum_cons, ← ih]
        omega
      · have hle : left ≤ d := Nat.le_of_not_lt hlt
        have hd : 0 < d := by omega
        rw [if_neg hlt, sum_serve_cons_of_le hpos hle]
        cases hf : fallback d with
        | none => simp
        | some p =>
          dsimp only
          rcases hcover d p hf with rfl | hp
          · rw [if_pos hd]
            exact ⟨fun _ => .inl rfl, fun _ => Nat.zero_le _⟩
          · rw [if_neg (Nat.not_lt.2 hp), ← sum_serve_eq_zero_iff hcover]
            constructor
            · intro hsum
              exact .inr ⟨by omega, by omega⟩
            · rintro (rfl | ⟨rfl, hrest⟩)
              · omega
              · omega
    · obtain rfl : left = 0 := by omega
      rw [if_neg hpos, sum_serve_zero]
      simp

end Covers

end Budget
