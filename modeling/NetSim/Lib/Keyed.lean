import Mathlib.Data.List.Basic
import Mathlib.Data.List.Induction
import Mathlib.Data.List.Nodup
import Mathlib.Data.List.Perm.Basic
import Mathlib.Order.Bounds.Basic
import Mathlib.Order.Lattice
import Mathlib.Tactic.Common

/-!
# Lists and tables by key
-/

/-!
## The entries of a key

The entries of a list that have a key, in their order.
-/

namespace Keyed

variable {α κ : Type*} [DecidableEq κ] (key : α → κ)

def entries (list : List α) (k : κ) : List α := list.filter fun x => key x = k

variable {key} {list : List α} {x : α} {k : κ}

@[simp] theorem entries_nil (k : κ) : entries key [] k = [] := rfl

theorem mem_entries : x ∈ entries key list k ↔ x ∈ list ∧ key x = k := by
  unfold entries
  rw [List.mem_filter, decide_eq_true_iff]

theorem entries_append (l l' : List α) : entries key (l ++ l') k = entries key l k ++ entries key l' k :=
  List.filter_append l l'

theorem entries_cons_self (x : α) (l : List α) : entries key (x :: l) (key x) = x :: entries key l (key x) :=
  List.filter_cons_of_pos (decide_eq_true rfl)

theorem entries_cons_of_ne (h : key x ≠ k) (l : List α) : entries key (x :: l) k = entries key l k := by
  unfold entries
  rw [List.filter_cons_of_neg]
  rw [decide_eq_true_iff]
  exact h

/-- An entry behind the others. -/
theorem entries_concat_self (l : List α) (x : α) : entries key (l ++ [x]) (key x) = entries key l (key x) ++ [x] := by
  rw [entries_append, entries_cons_self]
  rfl

theorem entries_concat_of_ne (h : key x ≠ k) (l : List α) : entries key (l ++ [x]) k = entries key l k := by
  rw [entries_append, entries_cons_of_ne h]
  exact List.append_nil _

/-- The first entry of a key is found by a search. -/
theorem find?_eq_head? (list : List α) (k : κ) : list.find? (fun x => key x = k) = (entries key list k).head? :=
  List.head?_filter.symm

theorem entries_eq_nil_iff : entries key list k = [] ↔ ∀ x ∈ list, key x ≠ k := by
  unfold entries
  rw [List.filter_eq_nil_iff]
  simp only [decide_eq_true_iff, ne_eq]

/-- Only the keys of the entries matter. -/
theorem entries_congr {key' : α → κ} (h : ∀ x ∈ list, key' x = key x) : entries key' list k = entries key list k := by
  unfold entries
  apply List.filter_congr
  intro x hx
  rw [h x hx]

end Keyed

/-!
## Queues with the newest entry of each key

Entries come one after another. A queue is to hold one entry for each key that came, than which none that came is newer.

* `append_iff`, `replace_iff`, `keep_iff`: exactly when it is right to add an entry that comes, to put it in the place of
  another one, and to leave the queue as it is.
-/

namespace Newest

open Keyed

variable {α κ : Type*} [DecidableEq κ] (key : α → κ) (newer : α → α → Prop)

/-- Every entry came, and every key that came has one entry; `newer x e` says that `x` is newer than `e`. -/
structure NewestPerKey (came list : List α) : Prop where
  mem_came : ∀ e ∈ list, e ∈ came
  newest : ∀ x ∈ came, ∃ e, entries key list (key x) = [e] ∧ ∀ y ∈ came, key y = key x → ¬ newer y e

variable {key newer} {came list pre post : List α} {x m e : α} {k : κ}

/-! ## The three ways to take an entry -/

theorem NewestPerKey.nil : NewestPerKey key newer [] [] :=
  ⟨fun _ he => absurd he List.not_mem_nil, fun _ hx => absurd hx List.not_mem_nil⟩

theorem NewestPerKey.entries_eq_nil_or (h : NewestPerKey key newer came list) (k : κ) :
    entries key list k = [] ∨ ∃ e, entries key list k = [e] := by
  cases hentries : entries key list k with
  | nil => exact .inl rfl
  | cons e rest =>
    have hmem : e ∈ entries key list k := by
      rw [hentries]
      exact List.mem_cons_self
    obtain ⟨helist, hekey⟩ := mem_entries.1 hmem
    obtain ⟨e', he', -⟩ := h.newest e (h.mem_came e helist)
    rw [hekey, hentries] at he'
    exact .inr ⟨e', he'⟩

/-- Adding an entry is right if there is none of its key. -/
theorem NewestPerKey.append_iff (hirrefl : ∀ x, ¬ newer x x) (h : NewestPerKey key newer came list) :
    NewestPerKey key newer (x :: came) (list ++ [x]) ↔ entries key list (key x) = [] := by
  constructor
  · intro h'
    obtain ⟨e, he, -⟩ := h'.newest x List.mem_cons_self
    rw [entries_concat_self] at he
    have hlength := congrArg List.length he
    rw [List.length_append, List.length_singleton, List.length_singleton] at hlength
    exact List.eq_nil_of_length_eq_zero (by omega)
  · intro hnil
    have hnone : ∀ y ∈ came, key y ≠ key x := by
      intro y hy hkey
      obtain ⟨e, he, -⟩ := h.newest y hy
      rw [hkey, hnil] at he
      cases he
    refine ⟨fun e he => ?_, fun y hy => ?_⟩
    · rcases List.mem_append.1 he with he | he
      · exact List.mem_cons_of_mem x (h.mem_came e he)
      · rw [List.mem_singleton.1 he]
        exact List.mem_cons_self
    · rcases List.mem_cons.1 hy with rfl | hold
      · refine ⟨y, ?_, fun z hz hkey => ?_⟩
        · rw [entries_concat_self, hnil, List.nil_append]
        · rcases List.mem_cons.1 hz with rfl | hz
          · exact hirrefl z
          · exact absurd hkey (hnone z hz)
      · obtain ⟨e, he, hnewest⟩ := h.newest y hold
        refine ⟨e, ?_, fun z hz hkey => ?_⟩
        · rw [entries_concat_of_ne (fun hkey => hnone y hold hkey.symm), he]
        · rcases List.mem_cons.1 hz with rfl | hz
          · exact absurd hkey.symm (hnone y hold)
          · exact hnewest z hz hkey

/-- Leaving the queue as it is is right if the entry of the key is at least as new. -/
theorem NewestPerKey.keep_iff (h : NewestPerKey key newer came list) :
    NewestPerKey key newer (x :: came) list ↔ ∃ e, entries key list (key x) = [e] ∧ ¬ newer x e := by
  constructor
  · intro h'
    obtain ⟨e, he, hnewest⟩ := h'.newest x List.mem_cons_self
    exact ⟨e, he, hnewest x List.mem_cons_self rfl⟩
  · rintro ⟨e, he, hnewer⟩
    refine ⟨fun a ha => List.mem_cons_of_mem x (h.mem_came a ha), fun y hy => ?_⟩
    by_cases hkey : key y = key x
    · rw [hkey]
      refine ⟨e, he, fun z hz hzkey => ?_⟩
      rcases List.mem_cons.1 hz with rfl | hz
      · exact hnewer
      · obtain ⟨e', he', hnewest⟩ := h.newest z hz
        rw [hzkey, he] at he'
        cases he'
        exact hnewest z hz rfl
    · rcases List.mem_cons.1 hy with rfl | hy
      · exact absurd rfl hkey
      · obtain ⟨e', he', hnewest⟩ := h.newest y hy
        refine ⟨e', he', fun z hz hzkey => ?_⟩
        rcases List.mem_cons.1 hz with rfl | hz
        · exact absurd hzkey.symm hkey
        · exact hnewest z hz hzkey

/-- Putting an entry in the place of one than which it is no older is right if the two have the same key. -/
theorem NewestPerKey.replace_iff (hirrefl : ∀ x, ¬ newer x x)
    (h : NewestPerKey key newer came (pre ++ m :: post)) (hnewer : ∀ z, newer z x → newer z m) :
    NewestPerKey key newer (x :: came) (pre ++ post ++ [x]) ↔ key m = key x := by
  have hm : m ∈ came := h.mem_came m (List.mem_append_right pre List.mem_cons_self)
  obtain ⟨e, he, hnewest⟩ := h.newest m hm
  rw [entries_append, entries_cons_self] at he
  have hlength : (entries key pre (key m)).length + (entries key post (key m)).length = 0 := by
    have hone := congrArg List.length he
    rw [List.length_append, List.length_cons, List.length_singleton] at hone
    omega
  have hpre : entries key pre (key m) = [] := List.eq_nil_of_length_eq_zero (by omega)
  have hpost : entries key post (key m) = [] := List.eq_nil_of_length_eq_zero (by omega)
  rw [hpre, hpost] at he
  cases he
  constructor
  · intro h'
    by_contra hne
    obtain ⟨e', he', -⟩ := h'.newest m (List.mem_cons_of_mem x hm)
    rw [entries_concat_of_ne (fun hkey => hne hkey.symm), entries_append, hpre, hpost] at he'
    cases he'
  · intro hkey
    refine ⟨fun a ha => ?_, fun y hy => ?_⟩
    · rcases List.mem_append.1 ha with ha | ha
      · refine List.mem_cons_of_mem x (h.mem_came a ?_)
        rcases List.mem_append.1 ha with ha | ha
        · exact List.mem_append_left _ ha
        · exact List.mem_append_right _ (List.mem_cons_of_mem m ha)
      · rw [List.mem_singleton.1 ha]
        exact List.mem_cons_self
    · by_cases hykey : key y = key x
      · rw [hykey]
        refine ⟨x, ?_, fun z hz hzkey => ?_⟩
        · rw [entries_concat_self, ← hkey, entries_append, hpre, hpost]
          rfl
        · rcases List.mem_cons.1 hz with rfl | hz
          · exact hirrefl z
          · exact fun hzx => hnewest z hz (hzkey.trans hkey.symm) (hnewer z hzx)
      · rcases List.mem_cons.1 hy with rfl | hy
        · exact absurd rfl hykey
        · obtain ⟨e', he', hnewest'⟩ := h.newest y hy
          have hmkey : key m ≠ key y := fun hmy => hykey (hmy.symm.trans hkey)
          rw [entries_append, entries_cons_of_ne hmkey] at he'
          refine ⟨e', ?_, fun z hz hzkey => ?_⟩
          · rw [entries_concat_of_ne (fun hxy => hykey hxy.symm), entries_append, he']
          · rcases List.mem_cons.1 hz with rfl | hz
            · exact absurd hzkey.symm hykey
            · exact hnewest' z hz hzkey

end Newest

/-!
## Stable priority queues

The entries that wait, in the order of their arrival, and a list of them with the highest key first and, of one key, in the
order of arrival.

* `IsStableSort.insert`: an entry that arrives goes behind the entries of no lower key.
* `IsStableSort.head`: the head of the list is the entry of the highest key that arrived first, and the others stay sorted.
-/

namespace StableQueue

open Keyed

variable {α κ : Type*} [LinearOrder κ] (key : α → κ)

/-- Behind the entries of no lower key. -/
def insert (x : α) : List α → List α
  | [] => [x]
  | y :: l => if key y < key x then x :: y :: l else y :: insert x l

/-- **The order of the list**: the keys do not increase, the entries of one key are in the order of arrival, and the entries
are those that wait, each as often. -/
structure IsStableSort (waiting list : List α) : Prop where
  sorted : list.Pairwise fun x y => key y ≤ key x
  stable : ∀ k, entries key list k = entries key waiting k
  perm : list.Perm waiting

variable {key} {waiting list l : List α} {x y : α} {k : κ}

theorem insert_cons_of_lt (h : key y < key x) (l : List α) : insert key x (y :: l) = x :: y :: l := if_pos h

theorem insert_cons_of_le (h : key x ≤ key y) (l : List α) : insert key x (y :: l) = y :: insert key x l :=
  if_neg (not_lt.2 h)

theorem insert_perm (x : α) (l : List α) : (insert key x l).Perm (x :: l) := by
  induction l with
  | nil => exact List.Perm.refl [x]
  | cons y l ih =>
    unfold insert
    split_ifs
    · exact List.Perm.refl _
    · exact (ih.cons y).trans (List.Perm.swap x y l)

theorem insert_sorted (h : l.Pairwise fun x y => key y ≤ key x) :
    (insert key x l).Pairwise fun x y => key y ≤ key x := by
  induction l with
  | nil => exact List.pairwise_singleton _ x
  | cons y l ih =>
    obtain ⟨hy, hl⟩ := List.pairwise_cons.1 h
    by_cases hlt : key y < key x
    · rw [insert_cons_of_lt hlt]
      refine List.pairwise_cons.2 ⟨?_, h⟩
      intro z hz
      rcases List.mem_cons.1 hz with rfl | hz
      · exact le_of_lt hlt
      · exact le_trans (hy z hz) (le_of_lt hlt)
    · have hle : key x ≤ key y := not_lt.1 hlt
      rw [insert_cons_of_le hle]
      refine List.pairwise_cons.2 ⟨?_, ih hl⟩
      intro z hz
      rcases List.mem_cons.1 ((insert_perm x l).mem_iff.1 hz) with rfl | hz
      · exact hle
      · exact hy z hz

/-- The entries of one key, with the new one behind the others. -/
theorem entries_insert (h : l.Pairwise fun x y => key y ≤ key x) (k : κ) :
    entries key (insert key x l) k = entries key (l ++ [x]) k := by
  induction l with
  | nil => rfl
  | cons y l ih =>
    obtain ⟨hy, hl⟩ := List.pairwise_cons.1 h
    by_cases hlt : key y < key x
    · rw [insert_cons_of_lt hlt]
      by_cases hk : key x = k
      · -- every entry of the list has a lower key
        have hnone : entries key (y :: l) k = [] := by
          rw [entries_eq_nil_iff]
          intro z hz hzk
          have hzx : key z = key x := hzk.trans hk.symm
          rcases List.mem_cons.1 hz with rfl | hz
          · exact absurd hzx (ne_of_lt hlt)
          · exact absurd hzx (ne_of_lt (lt_of_le_of_lt (hy z hz) hlt))
        subst hk
        rw [entries_cons_self, entries_concat_self, hnone]
        rfl
      · rw [entries_cons_of_ne hk, entries_concat_of_ne hk]
    · rw [insert_cons_of_le (not_lt.1 hlt), List.cons_append]
      by_cases hk : key y = k
      · subst hk
        rw [entries_cons_self, entries_cons_self, ih hl]
      · rw [entries_cons_of_ne hk, entries_cons_of_ne hk, ih hl]

/-! ## The operations -/

theorem IsStableSort.nil : IsStableSort key [] [] := ⟨List.Pairwise.nil, fun _ => rfl, List.Perm.refl []⟩

/-- **An arrival.** -/
theorem IsStableSort.insert (h : IsStableSort key waiting list) (x : α) :
    IsStableSort key (waiting ++ [x]) (insert key x list) := by
  refine ⟨insert_sorted h.sorted, fun k => ?_, ?_⟩
  · rw [entries_insert h.sorted, entries_append, entries_append, h.stable k]
  · exact (insert_perm x list).trans ((h.perm.cons x).trans (List.perm_append_singleton x waiting).symm)

/-- **A departure.** -/
theorem IsStableSort.head (h : IsStableSort key waiting (x :: l)) :
    ∃ before behind, waiting = before ++ x :: behind ∧ (∀ y ∈ before, key y < key x) ∧
      (∀ y ∈ behind, key y ≤ key x) ∧ IsStableSort key (before ++ behind) l := by
  obtain ⟨hx, hl⟩ := List.pairwise_cons.1 h.sorted
  have hmax : ∀ y ∈ waiting, key y ≤ key x := by
    intro y hy
    rcases List.mem_cons.1 (h.perm.mem_iff.2 hy) with rfl | hy
    · exact le_refl _
    · exact hx y hy
  have hfirst : entries key waiting (key x) = x :: entries key l (key x) := by
    rw [← h.stable (key x), entries_cons_self]
  obtain ⟨before, behind, rfl, hbefore, -, hbehind⟩ := List.filter_eq_cons_iff.1 hfirst
  have hne : ∀ y ∈ before, key y ≠ key x := fun y hy hkey => hbefore y hy (decide_eq_true hkey)
  refine ⟨before, behind, rfl, fun y hy => ?_, fun y hy => ?_, hl, fun k => ?_, ?_⟩
  · exact lt_of_le_of_ne (hmax y (List.mem_append_left _ hy)) (hne y hy)
  · exact hmax y (List.mem_append_right _ (List.mem_cons_of_mem x hy))
  · rw [entries_append]
    by_cases hk : key x = k
    · subst hk
      rw [entries_eq_nil_iff.2 hne, List.nil_append]
      exact hbehind.symm
    · have hstable := h.stable k
      rw [entries_cons_of_ne hk, entries_append, entries_cons_of_ne hk] at hstable
      exact hstable
  · exact (h.perm.trans List.perm_middle).cons_inv

/-- Only the keys of the entries matter. -/
theorem IsStableSort.congr {key' : α → κ} (h : IsStableSort key waiting list) (heq : ∀ x ∈ waiting, key' x = key x) :
    IsStableSort key' waiting list := by
  have hlist : ∀ x ∈ list, key' x = key x := fun x hx => heq x (h.perm.mem_iff.1 hx)
  refine ⟨h.sorted.imp_of_mem fun hx hy hle => ?_, fun k => ?_, h.perm⟩
  · rw [hlist _ hx, hlist _ hy]
    exact hle
  · rw [entries_congr hlist, entries_congr heq]
    exact h.stable k

end StableQueue

/-!
## The best entry of each key

A list that keeps, of all entries of a key, the first one of the least cost. An entry that cannot be used drops
what costs more, but is not kept itself.

* `keys_nodup`: each key is in it once.
* `mem_bests`, `exists_bests`: with the least cost, if some cheapest entry of the key can be used.
-/

namespace KeepBest

variable {α κ : Type*} [DecidableEq κ] (key : α → κ) (cost : α → ℕ) (usable : α → Bool)

/-- One more entry. -/
def insert (best : List α) (new : α) : List α :=
  if ∃ old ∈ best, key old = key new ∧ cost old ≤ cost new then best
  else best.filter (fun old => key old ≠ key new) ++ if usable new then [new] else []

/-- The best entries of a list. -/
def bests (l : List α) : List α := l.foldl (insert key cost usable) []

variable {key cost usable} {best l : List α} {new x y : α}

theorem bests_append :
    bests key cost usable (l ++ [x]) = insert key cost usable (bests key cost usable l) x := by
  unfold bests
  rw [List.foldl_append]
  rfl

theorem insert_of_kept (h : ∃ old ∈ best, key old = key new ∧ cost old ≤ cost new) :
    insert key cost usable best new = best := if_pos h

theorem insert_of_improved (h : ¬ ∃ old ∈ best, key old = key new ∧ cost old ≤ cost new) :
    insert key cost usable best new =
      best.filter (fun old => key old ≠ key new) ++ if usable new then [new] else [] := if_neg h

/-- What an improvement leaves and adds. -/
theorem mem_improved (h : x ∈ best.filter (fun old => key old ≠ key new) ++ if usable new then [new] else []) :
    x ∈ best ∧ key x ≠ key new ∨ x = new ∧ usable new = true := by
  rcases List.mem_append.1 h with h | h
  · obtain ⟨hmem, hne⟩ := List.mem_filter.1 h
    exact .inl ⟨hmem, of_decide_eq_true hne⟩
  · split at h
    · rename_i husable
      exact .inr ⟨List.mem_singleton.1 h, husable⟩
    · exact absurd h List.not_mem_nil

theorem keys_nodup : ((bests key cost usable l).map key).Nodup := by
  induction l using List.reverseRecOn with
  | nil => exact List.nodup_nil
  | append_singleton l x ih =>
    rw [bests_append]
    by_cases h : ∃ old ∈ bests key cost usable l, key old = key x ∧ cost old ≤ cost x
    · rwa [insert_of_kept h]
    · rw [insert_of_improved h, List.map_append, List.nodup_append]
      refine ⟨ih.sublist (List.filter_sublist.map key), ?_, ?_⟩
      · split
        · exact List.nodup_singleton _
        · exact List.nodup_nil
      · rintro a ha b hb rfl
        obtain ⟨y, hy, rfl⟩ := List.mem_map.1 ha
        have hne := of_decide_eq_true (List.mem_filter.1 hy).2
        split at hb
        · exact hne (List.mem_singleton.1 hb)
        · exact absurd hb List.not_mem_nil

/-- An entry that is kept came and can be used. -/
theorem mem_bests (h : x ∈ bests key cost usable l) : x ∈ l ∧ usable x = true := by
  induction l using List.reverseRecOn with
  | nil => cases h
  | append_singleton l z ih =>
    rw [bests_append] at h
    by_cases hz : ∃ old ∈ bests key cost usable l, key old = key z ∧ cost old ≤ cost z
    · rw [insert_of_kept hz] at h
      exact (ih h).imp_left (List.mem_append_left _)
    · rw [insert_of_improved hz] at h
      rcases mem_improved h with ⟨hmem, -⟩ | ⟨rfl, husable⟩
      · exact (ih hmem).imp_left (List.mem_append_left _)
      · exact ⟨List.mem_append_right _ (List.mem_singleton_self x), husable⟩

/-- An entry of the least cost of its key that can be used leaves one with its cost. -/
theorem exists_bests (hy : y ∈ l) (husable : usable y = true) (hle : ∀ z ∈ l, key z = key y → cost y ≤ cost z) :
    ∃ x ∈ bests key cost usable l, key x = key y ∧ cost x = cost y := by
  induction l using List.reverseRecOn with
  | nil => cases hy
  | append_singleton l z ih =>
    rw [bests_append]
    have hkeep : ∀ x ∈ bests key cost usable l, key x = key y → cost y ≤ cost x :=
      fun x hx hkey => hle x (List.mem_append_left _ (mem_bests hx).1) hkey
    by_cases hz : ∃ old ∈ bests key cost usable l, key old = key z ∧ cost old ≤ cost z
    · rw [insert_of_kept hz]
      rcases List.mem_append.1 hy with hy | hy
      · exact ih hy fun x hx => hle x (List.mem_append_left _ hx)
      · obtain rfl := List.mem_singleton.1 hy
        obtain ⟨old, hold, hkey, hcost⟩ := hz
        exact ⟨old, hold, hkey, le_antisymm hcost (hkeep old hold hkey)⟩
    · rw [insert_of_improved hz]
      rcases List.mem_append.1 hy with hy | hy
      · obtain ⟨x, hx, hkey, hcost⟩ := ih hy fun x hx => hle x (List.mem_append_left _ hx)
        refine ⟨x, List.mem_append_left _ (List.mem_filter.2 ⟨hx, decide_eq_true fun hsame => ?_⟩), hkey, hcost⟩
        -- the new one would be better than the cheapest
        have hlez := hle z (List.mem_append_right _ (List.mem_singleton_self z)) (hsame.symm.trans hkey)
        exact hz ⟨x, hx, hsame, hcost.trans_le hlez⟩
      · obtain rfl := List.mem_singleton.1 hy
        rw [if_pos husable]
        exact ⟨y, List.mem_append_right _ (List.mem_singleton_self y), rfl, rfl⟩

/-- An entry and those with other keys. -/
theorem perm_cons_filter (hnd : (l.map key).Nodup) (hx : x ∈ l) :
    l.Perm (x :: l.filter fun y => key y ≠ key x) := by
  obtain ⟨l₁, l₂, rfl⟩ := List.append_of_mem hx
  have hperm : (l₁ ++ x :: l₂).Perm (x :: (l₁ ++ l₂)) := List.perm_middle
  have hnot := (List.nodup_cons.1 ((hperm.map key).nodup_iff.1 hnd)).1
  have hkeep : (l₁ ++ x :: l₂).filter (fun y => key y ≠ key x) = l₁ ++ l₂ := by
    rw [List.filter_append, List.filter_cons_of_neg (by simp), ← List.filter_append, List.filter_eq_self]
    intro y hy
    simp only [decide_eq_true_eq]
    intro heq
    apply hnot
    rw [← heq]
    exact List.mem_map_of_mem hy
  rwa [hkeep]

/-- The only entry of its key. -/
theorem filter_eq_singleton (hnd : (l.map key).Nodup) (hx : x ∈ l) :
    l.filter (fun y => key y = key x) = [x] := by
  have hperm := (perm_cons_filter hnd hx).filter fun y => key y = key x
  have hnone : l.filter (fun y => decide (key y = key x) && decide (key y ≠ key x)) = [] := by
    rw [List.filter_eq_nil_iff]
    intro y _
    simp
  rw [List.filter_cons_of_pos (by simp), List.filter_filter, hnone] at hperm
  exact List.perm_singleton.1 hperm

end KeepBest

/-!
## Tables that keep the most recent entry

A table is offered entries one after another and keeps an entry for each key: the offered one if it is
newer than the stored one. If being newer respects a rank, the rank of the entry that is kept in the end
is the greatest one offered (`isGreatest_foldl`), so the order of the offers does not matter
(`view_foldl_eq`).
-/

namespace Latest

variable {κ α N : Type*} [DecidableEq κ] (key : α → κ) (newer : α → α → Prop) [DecidableRel newer]

/-- The entry that is kept of a stored and an offered one. -/
def latest (stored : Option α) (a : α) : α := stored.elim a fun o => if newer o a then a else o

/-- The table after an offer. -/
def offer (t : κ → Option α) (a : α) : κ → Option α :=
  fun k => if key a = k then some (latest newer (t k) a) else t k

variable {key newer}

theorem offer_key (t : κ → Option α) (a : α) :
    offer key newer t a (key a) = some (latest newer (t (key a)) a) := if_pos rfl

theorem offer_of_ne {t : κ → Option α} {a : α} {k : κ} (h : key a ≠ k) :
    offer key newer t a k = t k := if_neg h

theorem latest_eq_or (newer : α → α → Prop) [DecidableRel newer] (stored : Option α) (a : α) :
    latest newer stored a = a ∨ stored = some (latest newer stored a) := by
  cases stored with
  | none => exact Or.inl rfl
  | some o =>
    by_cases h : newer o a
    · exact Or.inl (if_pos h)
    · exact Or.inr (congrArg some (if_neg h).symm)

/-- A table is its offer if the entry for the key of the offer is right and the others are kept. -/
theorem eq_offer_iff {t t' : κ → Option α} {a : α} (hframe : ∀ k, key a ≠ k → t' k = t k) :
    t' = offer key newer t a ↔ t' (key a) = some (latest newer (t (key a)) a) := by
  constructor
  · intro h
    rw [h, offer_key]
  · intro h
    funext k
    by_cases hk : key a = k
    · rw [← hk, h, offer_key]
    · rw [hframe k hk, offer_of_ne hk]

variable {t : κ → Option α} {l : List α} {k : κ} {b : α}

/-- What a table has for a key and what it is offered for it. -/
def Entry (key : α → κ) (t : κ → Option α) (l : List α) (k : κ) (a : α) : Prop :=
  t k = some a ∨ a ∈ l ∧ key a = k

/-- The entry that is kept in the end was there or was offered. -/
theorem entry_foldl (h : l.foldl (offer key newer) t k = some b) : Entry key t l k b := by
  induction l generalizing t with
  | nil => exact Or.inl h
  | cons a l ih =>
    rcases ih h with hc | ⟨hc, hck⟩
    · by_cases hk : key a = k
      · subst hk
        rw [offer_key] at hc
        obtain rfl := Option.some.inj hc
        rcases latest_eq_or newer (t (key a)) a with heq | hold
        · rw [heq]
          exact Or.inr ⟨List.mem_cons_self, rfl⟩
        · exact Or.inl hold
      · rw [offer_of_ne hk] at hc
        exact Or.inl hc
    · exact Or.inr ⟨List.mem_cons_of_mem _ hc, hck⟩

/-- A table has no entry for a key that it had none for and was offered none for. -/
theorem foldl_eq_none_iff :
    l.foldl (offer key newer) t k = none ↔ ¬ ∃ a, Entry key t l k a := by
  have hempty : l.foldl (offer key newer) t k = none ↔ t k = none ∧ ∀ a ∈ l, key a ≠ k := by
    induction l generalizing t with
    | nil => simp
    | cons a l ih =>
      rw [List.foldl_cons, ih]
      by_cases hk : key a = k
      · subst hk
        simp [offer_key]
      · rw [offer_of_ne hk]
        simp [hk]
  rw [hempty, Option.eq_none_iff_forall_ne_some, ← forall_and, not_exists]
  unfold Entry
  exact forall_congr' fun a => by tauto

section rank

variable [LinearOrder N] {rank : α → N}

theorem rank_le_latest (hnewer : ∀ o a, newer o a → rank o ≤ rank a)
    (hnot : ∀ o a, ¬ newer o a → rank a ≤ rank o) (stored : Option α) (a : α) :
    rank a ≤ rank (latest newer stored a) ∧ ∀ o, stored = some o → rank o ≤ rank (latest newer stored a) := by
  cases stored with
  | none => exact ⟨le_rfl, fun o ho => by cases ho⟩
  | some o =>
    by_cases h : newer o a
    · have hkept : latest newer (some o) a = a := if_pos h
      rw [hkept]
      exact ⟨le_rfl, fun o' ho' => by cases ho'; exact hnewer o a h⟩
    · have hkept : latest newer (some o) a = o := if_neg h
      rw [hkept]
      exact ⟨hnot o a h, fun o' ho' => by cases ho'; exact le_rfl⟩

/-- Nothing that was there or was offered has a higher rank than the entry that is kept in the end. -/
theorem rank_le_foldl (hnewer : ∀ o a, newer o a → rank o ≤ rank a)
    (hnot : ∀ o a, ¬ newer o a → rank a ≤ rank o) (h : l.foldl (offer key newer) t k = some b) {x : α}
    (hx : Entry key t l k x) : rank x ≤ rank b := by
  induction l generalizing t x with
  | nil =>
    rcases hx with hx | ⟨hx, -⟩
    · obtain rfl : x = b := Option.some.inj (hx.symm.trans h)
      exact le_rfl
    · cases hx
  | cons a l ih =>
    have hlatest := rank_le_latest hnewer hnot (t (key a)) a
    rcases hx with hx | ⟨hx, hxk⟩
    · by_cases hk : key a = k
      · subst hk
        exact (hlatest.2 x hx).trans (ih h (Or.inl (offer_key t a)))
      · exact ih h (Or.inl (by rw [offer_of_ne hk]; exact hx))
    · rcases List.mem_cons.1 hx with rfl | hx
      · subst hxk
        exact hlatest.1.trans (ih h (Or.inl (offer_key t x)))
      · exact ih h (Or.inr ⟨hx, hxk⟩)

/-- The entry that is kept in the end has the greatest rank. -/
theorem isGreatest_foldl (hnewer : ∀ o a, newer o a → rank o ≤ rank a)
    (hnot : ∀ o a, ¬ newer o a → rank a ≤ rank o) (h : l.foldl (offer key newer) t k = some b) :
    IsGreatest {n | ∃ a, Entry key t l k a ∧ rank a = n} (rank b) := by
  refine ⟨⟨b, entry_foldl h, rfl⟩, ?_⟩
  rintro n ⟨x, hx, rfl⟩
  exact rank_le_foldl hnewer hnot h hx

/-- Two tables that have or are offered the same entries for a key, up to a view that tells entries of
different ranks apart and entries of one rank not, have the same entry in the end. -/
theorem view_foldl_eq {V : Type*} {view : α → V} {newer' : α → α → Prop} [DecidableRel newer']
    {t' : κ → Option α} {l' : List α}
    (hnewer : ∀ o a, newer o a → rank o ≤ rank a) (hnot : ∀ o a, ¬ newer o a → rank a ≤ rank o)
    (hnewer' : ∀ o a, newer' o a → rank o ≤ rank a) (hnot' : ∀ o a, ¬ newer' o a → rank a ≤ rank o)
    (hrank : ∀ a a', view a = view a' → rank a = rank a')
    (hident : ∀ a a', Entry key t' l' k a → Entry key t' l' k a' → rank a = rank a' → view a = view a')
    (h : ∀ v, (∃ a, Entry key t l k a ∧ view a = v) ↔ ∃ a, Entry key t' l' k a ∧ view a = v) :
    (l.foldl (offer key newer) t k).map view = (l'.foldl (offer key newer') t' k).map view := by
  have hsome : (∃ a, Entry key t l k a) ↔ ∃ a, Entry key t' l' k a := by
    constructor
    · rintro ⟨a, ha⟩
      obtain ⟨a', ha', -⟩ := (h (view a)).1 ⟨a, ha, rfl⟩
      exact ⟨a', ha'⟩
    · rintro ⟨a, ha⟩
      obtain ⟨a', ha', -⟩ := (h (view a)).2 ⟨a, ha, rfl⟩
      exact ⟨a', ha'⟩
  cases hb : l.foldl (offer key newer) t k with
  | none => rw [foldl_eq_none_iff.2 (hsome.not.1 (foldl_eq_none_iff.1 hb))]
  | some b =>
    cases hb' : l'.foldl (offer key newer') t' k with
    | none => exact absurd (hsome.1 ⟨b, entry_foldl hb⟩) (foldl_eq_none_iff.1 hb')
    | some b' =>
      obtain ⟨c, hc, hcb⟩ := (h (view b)).1 ⟨b, entry_foldl hb, rfl⟩
      obtain ⟨c', hc', hcb'⟩ := (h (view b')).2 ⟨b', entry_foldl hb', rfl⟩
      have hle : rank b ≤ rank b' := hrank c b hcb ▸ rank_le_foldl hnewer' hnot' hb' hc
      have hge : rank b' ≤ rank b := hrank c' b' hcb' ▸ rank_le_foldl hnewer hnot hb hc'
      have heq : rank c = rank b' := (hrank c b hcb).trans (le_antisymm hle hge)
      have hview : view c = view b' := hident c b' hc (entry_foldl hb') heq
      exact congrArg some (hcb.symm.trans hview)

end rank

end Latest
