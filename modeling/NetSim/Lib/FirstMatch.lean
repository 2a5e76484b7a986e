import Mathlib.Data.List.Basic
import Mathlib.Data.List.Perm.Basic
import Mathlib.Tactic.Common

/-!
# Lists that are searched for their first match

A table kept in a list is read with `find?`, written with `replaceFirst` and cut with `eraseP`, all
of which stop at the first entry that matches.
-/

namespace FirstMatch

variable {α : Type*}

/-- The first entry that matches is replaced. -/
def replaceFirst (p : α → Bool) (b : α) : List α → List α
  | [] => []
  | x :: l => if p x then b :: l else x :: replaceFirst p b l

variable {p q : α → Bool} {l : List α} {a b x : α}

theorem replaceFirst_cons_of_pos (h : p x = true) : replaceFirst p b (x :: l) = b :: l := if_pos h

theorem replaceFirst_cons_of_neg (h : ¬ p x = true) :
    replaceFirst p b (x :: l) = x :: replaceFirst p b l := if_neg h

/-- What is found comes before what else matches. -/
theorem eq_or_rel_of_find? {r : α → α → Prop} (hl : l.Pairwise r) (h : l.find? p = some a) (hx : x ∈ l)
    (hp : p x = true) : a = x ∨ r a x := by
  obtain ⟨-, l₁, l₂, rfl, hfalse⟩ := List.find?_eq_some_iff_append.1 h
  rcases List.mem_append.1 hx with h₁ | h₂
  · have hneg := hfalse x h₁
    rw [hp] at hneg
    cases hneg
  · rcases List.mem_cons.1 h₂ with rfl | h₂
    · exact .inl rfl
    · have hpair := (List.pairwise_append.1 hl).2.1
      exact .inr ((List.pairwise_cons.1 hpair).1 x h₂)

/-- The first match splits the list, and replacing it keeps both parts. -/
theorem replaceFirst_of_find? (h : l.find? p = some a) (b : α) :
    ∃ l₁ l₂, (∀ c ∈ l₁, p c = false) ∧ l = l₁ ++ a :: l₂ ∧ replaceFirst p b l = l₁ ++ b :: l₂ := by
  induction l with
  | nil => cases h
  | cons x l ih =>
    by_cases hx : p x = true
    · rw [List.find?_cons_of_pos hx] at h
      obtain rfl := Option.some.inj h
      exact ⟨[], l, fun _ hc => absurd hc List.not_mem_nil, rfl, replaceFirst_cons_of_pos hx⟩
    · rw [List.find?_cons_of_neg hx] at h
      obtain ⟨l₁, l₂, hfalse, heq, hrep⟩ := ih h
      refine ⟨x :: l₁, l₂, ?_, by rw [heq]; rfl, ?_⟩
      · intro c hc
        rcases List.mem_cons.1 hc with rfl | hc
        · exact Bool.eq_false_iff.2 hx
        · exact hfalse c hc
      · rw [replaceFirst_cons_of_neg hx, hrep]
        rfl

/-- After the replacement the new entry is found, if it matches itself. -/
theorem find?_replaceFirst (h : l.find? p = some a) (hb : p b = true) :
    (replaceFirst p b l).find? p = some b := by
  obtain ⟨l₁, l₂, hfalse, -, hrep⟩ := replaceFirst_of_find? h b
  rw [hrep, List.find?_append, List.find?_eq_none.2 fun c hc => by simp [hfalse c hc],
    List.find?_cons_of_pos hb]
  rfl

/-- What another search finds stays. -/
theorem find?_replaceFirst_of_disjoint (hq : ∀ c, p c = true → q c = false) (hb : q b = false) :
    (replaceFirst p b l).find? q = l.find? q := by
  induction l with
  | nil => rfl
  | cons x l ih =>
    by_cases hx : p x = true
    · rw [replaceFirst_cons_of_pos hx, List.find?_cons_of_neg (by simp [hb]),
        List.find?_cons_of_neg (by simp [hq x hx])]
    · rw [replaceFirst_cons_of_neg hx]
      by_cases hqx : q x = true
      · rw [List.find?_cons_of_pos hqx, List.find?_cons_of_pos hqx]
      · rw [List.find?_cons_of_neg hqx, List.find?_cons_of_neg hqx, ih]

/-- A search by a key that no two members share finds the member with that key. -/
theorem find?_key {β : Type*} [DecidableEq β] {key : α → β} (h : (l.map key).Nodup) (ha : a ∈ l) :
    l.find? (fun x => key x = key a) = some a := by
  induction l with
  | nil => exact absurd ha List.not_mem_nil
  | cons x l ih =>
    obtain ⟨hnot, hrest⟩ := List.nodup_cons.1 h
    rcases List.mem_cons.1 ha with rfl | ha
    · exact List.find?_cons_of_pos (decide_eq_true rfl)
    · have hne : key x ≠ key a := fun heq => hnot (heq ▸ List.mem_map_of_mem ha)
      rw [List.find?_cons_of_neg (by simpa using hne)]
      exact ih hrest ha

/-! ## The first few matches -/

/-- The first `n` members that satisfy `p` are changed. -/
def updateFirst (p : α → Bool) (f : α → α) : ℕ → List α → List α
  | 0, l => l
  | _ + 1, [] => []
  | n + 1, x :: l => if p x then f x :: updateFirst p f n l else x :: updateFirst p f (n + 1) l

variable {f : α → α} {n : ℕ} {y : α}

theorem updateFirst_of_find?_none (h : l.find? p = none) (n : ℕ) : updateFirst p f n l = l := by
  induction l with
  | nil => cases n <;> rfl
  | cons x l ih =>
    rw [List.find?_eq_none] at h
    have hx : ¬ p x = true := h x List.mem_cons_self
    have hl : l.find? p = none := List.find?_eq_none.2 fun y hy => h y (List.mem_cons_of_mem x hy)
    cases n with
    | zero => rfl
    | succ n =>
      unfold updateFirst
      rw [if_neg hx, ih hl]

@[simp] theorem updateFirst_zero (p : α → Bool) (f : α → α) (l : List α) : updateFirst p f 0 l = l := by
  cases l <;> rfl

theorem updateFirst_cons_of_neg (h : p x = false) (f : α → α) (n : ℕ) (l : List α) :
    updateFirst p f n (x :: l) = x :: updateFirst p f n l := by
  have hx : ¬ p x = true := by simp [h]
  cases n with
  | zero => rw [updateFirst_zero, updateFirst_zero]
  | succ n => exact if_neg hx

theorem updateFirst_cons_of_pos (h : p x = true) (f : α → α) (n : ℕ) (l : List α) :
    updateFirst p f (n + 1) (x :: l) = f x :: updateFirst p f n l :=
  if_pos h

/-- Changing the first match, and then the next `n`. -/
theorem updateFirst_succ (h : l.find? p = some a) (hf : p (f a) = false) (n : ℕ) :
    updateFirst p f (n + 1) l = updateFirst p f n (replaceFirst p (f a) l) := by
  induction l with
  | nil => cases h
  | cons x l ih =>
    by_cases hx : p x = true
    · rw [List.find?_cons_of_pos hx] at h
      obtain rfl := Option.some.inj h
      rw [updateFirst_cons_of_pos hx, replaceFirst_cons_of_pos hx, updateFirst_cons_of_neg hf]
    · rw [List.find?_cons_of_neg hx] at h
      rw [replaceFirst_cons_of_neg hx, updateFirst_cons_of_neg (Bool.eq_false_iff.2 hx),
        updateFirst_cons_of_neg (Bool.eq_false_iff.2 hx), ih h]

/-- A projection that the change keeps. -/
theorem map_updateFirst {β : Type*} {g : α → β} (hf : ∀ x, g (f x) = g x) (n : ℕ) (l : List α) :
    (updateFirst p f n l).map g = l.map g := by
  induction l generalizing n with
  | nil => cases n <;> rfl
  | cons x l ih =>
    by_cases hx : p x = true
    · cases n with
      | zero => rw [updateFirst_zero]
      | succ n => rw [updateFirst_cons_of_pos hx, List.map_cons, List.map_cons, ih, hf]
    · rw [updateFirst_cons_of_neg (Bool.eq_false_iff.2 hx), List.map_cons, List.map_cons, ih]

/-- Members that do not match stay, and so do the matches after the first `n`. -/
theorem mem_updateFirst : y ∈ updateFirst p f n l ↔
    y ∈ l ∧ p y = false ∨ y ∈ (l.filter p).drop n ∨ ∃ x ∈ (l.filter p).take n, f x = y := by
  induction l generalizing n with
  | nil => cases n <;> simp [updateFirst]
  | cons x l ih =>
    by_cases hx : p x = true
    · have hne : (y = x ∧ p y = false) ↔ False := by
        refine iff_false_intro fun h => ?_
        rw [h.1, hx] at h
        exact absurd h.2 (by decide)
      rw [List.filter_cons_of_pos hx, List.mem_cons, or_and_right, hne, false_or]
      cases n with
      | zero =>
        rw [updateFirst_zero, List.drop_zero, List.take_zero, List.mem_cons, List.mem_cons, List.mem_filter]
        cases hy : p y with
        | true => simp
        | false => simp [or_comm]
      | succ n =>
        rw [updateFirst_cons_of_pos hx, List.drop_succ_cons, List.take_succ_cons, List.mem_cons, ih,
          List.exists_mem_cons_iff, eq_comm]
        tauto
    · have hself : (y = x ∧ p y = false) ↔ y = x := by
        refine and_iff_left_of_imp fun h => ?_
        rw [h]
        exact Bool.eq_false_iff.2 hx
      rw [updateFirst_cons_of_neg (Bool.eq_false_iff.2 hx), List.filter_cons_of_neg hx, List.mem_cons, ih,
        List.mem_cons, or_and_right, hself]
      tauto

end FirstMatch

/-!
## Greedy pairing

Each entry of a list takes the first entry of another one, not yet taken, that has the same key. Nothing is left exactly
if the two lists have the same keys, each as often (`unmatched_eq_nil_iff`).
-/

namespace Pairing

variable {α κ : Type*} [DecidableEq κ] (key : α → κ)

/-- What is left of the second list. -/
def unmatched (new old : List α) : List α :=
  new.foldl (fun left x => left.eraseP fun y => key x = key y) old

variable {key} {new old : List α} {x y : α}

theorem unmatched_cons (x : α) (new old : List α) :
    unmatched key (x :: new) old = unmatched key new (old.eraseP fun y => key x = key y) := rfl

/-- Each entry takes one at most. -/
theorem length_le_unmatched (new old : List α) : old.length ≤ (unmatched key new old).length + new.length := by
  induction new generalizing old with
  | nil => exact Nat.le_refl _
  | cons x new ih =>
    have hrest := ih (old.eraseP fun y => key x = key y)
    have herase := List.le_length_eraseP (p := fun y => key x = key y) (l := old)
    rw [unmatched_cons, List.length_cons]
    omega

/-- An entry that takes one. -/
theorem perm_of_taken (hy : y ∈ old) (hkey : key x = key y) :
    (old.map key).Perm (key x :: (old.eraseP fun y => key x = key y).map key) := by
  obtain ⟨z, l₁, l₂, -, hz, hold, herase⟩ :=
    List.exists_of_eraseP (p := fun y => key x = key y) hy (decide_eq_true hkey)
  have hzkey : key x = key z := of_decide_eq_true hz
  rw [herase, hold, List.map_append, List.map_append, List.map_cons, ← hzkey]
  exact List.perm_middle

theorem unmatched_eq_nil_iff (hlength : new.length = old.length) :
    unmatched key new old = [] ↔ (new.map key).Perm (old.map key) := by
  induction new generalizing old with
  | nil =>
    have hnil : old = [] := List.eq_nil_of_length_eq_zero hlength.symm
    rw [hnil]
    exact ⟨fun _ => .refl [], fun _ => rfl⟩
  | cons x new ih =>
    rw [List.length_cons] at hlength
    rw [unmatched_cons, List.map_cons]
    by_cases htaken : ∃ y ∈ old, key x = key y
    · obtain ⟨y, hy, hkey⟩ := htaken
      have hperm := perm_of_taken hy hkey
      have herased := hperm.length_eq
      rw [List.length_map, List.length_cons, List.length_map] at herased
      rw [ih (by omega), hperm.congr_right, List.perm_cons]
    · -- Too few entries remain for all that is left to be taken.
      have hsame : (old.eraseP fun y => key x = key y) = old :=
        List.eraseP_of_forall_not fun y hy hkey => htaken ⟨y, hy, of_decide_eq_true hkey⟩
      rw [hsame]
      constructor
      · intro hnil
        have hle : old.length ≤ (unmatched key new old).length + new.length := length_le_unmatched new old
        rw [hnil, List.length_nil] at hle
        omega
      · intro hperm
        obtain ⟨y, hy, hkey⟩ := List.mem_map.1 (hperm.mem_iff.1 List.mem_cons_self)
        exact absurd ⟨y, hy, hkey.symm⟩ htaken

end Pairing
