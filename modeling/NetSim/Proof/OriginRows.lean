import Mathlib.Data.List.Nodup
import NetSim.Lib.Machine
import NetSim.Proof.Flooding
import NetSim.Proof.LsdbUpdate
import NetSim.Spec.OspfOrigin

/-!
# The LSAs that rows point to

Installing an LSA over another one moves the rows that point to the LSA that arrives, which no row does, and frees the stored
one; removing an LSA moves no row. So every row points to a stored LSA in the runs in which no row points to an LSA that is
freed, and every other step breaks this (`lsOrigin_current`).
-/

namespace NetSim.Ospf

open FirstMatch

namespace OriginState

variable {ospf : Pds} {s s' : OriginState} {areaId a : UInt32} {lsType t : LsType} {list : List LsaInstance}
  {lsa : LsaHdr} {x newLSA : ℕ} {gone added : ℕ → Prop}

/-! ## Addresses -/

/-- An address of an LSA in the database of an area. -/
def Stores (s : OriginState) (areaId : UInt32) (addr : ℕ) : Prop := ∃ lsType, ∃ l ∈ s.lsdb areaId lsType, l.addr = addr

/-- **No row is stale**: the origin of each row is stored in the database of its area. -/
def Current (s : OriginState) : Prop := ∀ row ∈ s.rows, s.Stores row.row.areaId.intIp row.lsOrigin

/-- Each stored LSA is allocated, at an address of its own. -/
structure Distinct (s : OriginState) : Prop where
  nodup : ∀ areaId lsType, ((s.lsdb areaId lsType).map LsaInstance.addr).Nodup
  apart : ∀ a t a' t' l l', l ∈ s.lsdb a t → l' ∈ s.lsdb a' t' → l.addr = l'.addr → a = a' ∧ t = t'
  allocated : ∀ a t, ∀ l ∈ s.lsdb a t, l.addr ∈ s.heap

theorem Distinct.not_stores (h : s.Distinct) (hx : x ∉ s.heap) (a : UInt32) : ¬ s.Stores a x := by
  rintro ⟨t, l, hl, rfl⟩
  exact hx (h.allocated a t l hl)

theorem withList_self (s : OriginState) (areaId : UInt32) (lsType : LsType) (list : List LsaInstance) :
    (s.withList areaId lsType list).lsdb areaId lsType = list := by
  unfold withList
  dsimp only
  rw [Function.update_self, Function.update_self]

theorem withList_of_ne (h : ¬ (a = areaId ∧ t = lsType)) :
    (s.withList areaId lsType list).lsdb a t = s.lsdb a t := by
  unfold withList
  dsimp only
  by_cases ha : a = areaId
  · subst ha
    rw [Function.update_self, Function.update_of_ne fun ht => h ⟨rfl, ht⟩]
  · rw [Function.update_of_ne ha]

/-- What a list stores with some addresses gone and others added. -/
theorem stores_withList_iff (hd : s.Distinct) (hgone : ∀ x, gone x → ∃ l ∈ s.lsdb areaId lsType, l.addr = x)
    (hlist : ∀ x, (∃ l ∈ list, l.addr = x) ↔ ((∃ l ∈ s.lsdb areaId lsType, l.addr = x) ∧ ¬ gone x) ∨ added x) :
    (s.withList areaId lsType list).Stores a x ↔ (s.Stores a x ∧ ¬ gone x) ∨ (a = areaId ∧ added x) := by
  constructor
  · rintro ⟨t, l, hl, rfl⟩
    by_cases heq : a = areaId ∧ t = lsType
    · obtain ⟨rfl, rfl⟩ := heq
      rw [withList_self] at hl
      rcases (hlist l.addr).1 ⟨l, hl, rfl⟩ with ⟨hold, hkept⟩ | hadded
      · exact .inl ⟨⟨t, hold⟩, hkept⟩
      · exact .inr ⟨rfl, hadded⟩
    · rw [withList_of_ne heq] at hl
      refine .inl ⟨⟨t, l, hl, rfl⟩, fun hgoneAddr => ?_⟩
      obtain ⟨l', hl', haddr⟩ := hgone l.addr hgoneAddr
      exact heq (hd.apart a t areaId lsType l l' hl hl' haddr.symm)
  · rintro (⟨⟨t, l, hl, rfl⟩, hkept⟩ | ⟨rfl, hadded⟩)
    · by_cases heq : a = areaId ∧ t = lsType
      · obtain ⟨rfl, rfl⟩ := heq
        refine ⟨t, ?_⟩
        rw [withList_self]
        exact (hlist l.addr).2 (.inl ⟨⟨l, hl, rfl⟩, hkept⟩)
      · refine ⟨t, l, ?_, rfl⟩
        rw [withList_of_ne heq]
        exact hl
    · refine ⟨lsType, ?_⟩
      rw [withList_self]
      exact (hlist x).2 (.inr hadded)

/-- **Freeing**: rows that point to stored LSAs go on to do so if none points to what is gone. -/
theorem current_withList_iff (hd : s.Distinct) (hcurrent : s.Current)
    (hgone : ∀ x, gone x → ∃ l ∈ s.lsdb areaId lsType, l.addr = x)
    (hlist : ∀ x, (∃ l ∈ list, l.addr = x) ↔ ((∃ l ∈ s.lsdb areaId lsType, l.addr = x) ∧ ¬ gone x) ∨ added x)
    (hadded : ∀ x, added x → x ∉ s.heap) :
    (∀ row ∈ s.rows, (s.withList areaId lsType list).Stores row.row.areaId.intIp row.lsOrigin) ↔
      ∀ row ∈ s.rows, ¬ gone row.lsOrigin := by
  constructor
  · intro h row hrow
    rcases (stores_withList_iff hd hgone hlist).1 (h row hrow) with ⟨-, hkept⟩ | ⟨-, hnew⟩
    · exact hkept
    · exact absurd (hcurrent row hrow) (hd.not_stores (hadded _ hnew) _)
  · intro h row hrow
    exact (stores_withList_iff hd hgone hlist).2 (.inl ⟨hcurrent row hrow, h row hrow⟩)

/-- Addresses that are new or were in the list stay apart from the others. -/
theorem Distinct.withList {heap : List ℕ} {rows : List OriginRow} (hd : s.Distinct)
    (hnodup : (list.map LsaInstance.addr).Nodup) (hgone : ∀ x, gone x → ∃ l ∈ s.lsdb areaId lsType, l.addr = x)
    (hlist : ∀ x, (∃ l ∈ list, l.addr = x) ↔ ((∃ l ∈ s.lsdb areaId lsType, l.addr = x) ∧ ¬ gone x) ∨ added x)
    (hadded : ∀ x, added x → x ∉ s.heap) (hheap : ∀ x, (x ∈ s.heap ∧ ¬ gone x) ∨ added x → x ∈ heap) :
    OriginState.Distinct ⟨(s.withList areaId lsType list).lsdb, heap, rows⟩ := by
  have hother : ∀ a t l l', l ∈ list → l' ∈ s.lsdb a t → l.addr = l'.addr → a = areaId ∧ t = lsType := by
    intro a t l l' hl hl' haddr
    rcases (hlist l.addr).1 ⟨l, hl, rfl⟩ with ⟨⟨l₀, hl₀, heq⟩, -⟩ | hnew
    · exact hd.apart a t areaId lsType l' l₀ hl' hl₀ (haddr.symm.trans heq.symm)
    · have hfresh := hadded l.addr hnew
      rw [haddr] at hfresh
      exact absurd (hd.allocated a t l' hl') hfresh
  refine ⟨fun a t => ?_, fun a t a' t' l l' hl hl' haddr => ?_, fun a t l hl => ?_⟩
  · by_cases heq : a = areaId ∧ t = lsType
    · obtain ⟨rfl, rfl⟩ := heq
      dsimp only
      rw [withList_self]
      exact hnodup
    · dsimp only
      rw [withList_of_ne heq]
      exact hd.nodup a t
  · dsimp only at hl hl'
    by_cases heq : a = areaId ∧ t = lsType
    · obtain ⟨rfl, rfl⟩ := heq
      rw [withList_self] at hl
      by_cases heq' : a' = a ∧ t' = t
      · exact ⟨heq'.1.symm, heq'.2.symm⟩
      · rw [withList_of_ne heq'] at hl'
        have hsame := hother a' t' l l' hl hl' haddr
        exact ⟨hsame.1.symm, hsame.2.symm⟩
    · rw [withList_of_ne heq] at hl
      by_cases heq' : a' = areaId ∧ t' = lsType
      · obtain ⟨rfl, rfl⟩ := heq'
        rw [withList_self] at hl'
        exact hother a t l' l hl' hl haddr.symm
      · rw [withList_of_ne heq'] at hl'
        exact hd.apart a t a' t' l l' hl hl' haddr
  · apply hheap
    have hstores : (s.withList areaId lsType list).Stores a l.addr := ⟨t, l, hl, rfl⟩
    rcases (stores_withList_iff hd hgone hlist).1 hstores with ⟨⟨t', l', hl', haddr⟩, hkept⟩ | ⟨-, hnew⟩
    · rw [← haddr] at hkept ⊢
      exact .inl ⟨hd.allocated a t' l' hl', hkept⟩
    · exact .inr hnew

/-! ## Installing -/

variable {now : ℚ} {message copy hdr l : LsaInstance} {l₁ l₂ : List LsaInstance} {rows : List OriginRow}

theorem mem_middle : l ∈ l₁ ++ hdr :: l₂ ↔ l = hdr ∨ l ∈ l₁ ++ l₂ :=
  List.perm_middle.mem_iff.trans List.mem_cons

theorem addr_ne_of_nodup (h : ((l₁ ++ hdr :: l₂).map LsaInstance.addr).Nodup) (hl : l ∈ l₁ ++ l₂) : l.addr ≠ hdr.addr := by
  rw [List.map_append, List.map_cons, List.nodup_middle, ← List.map_append, List.nodup_cons] at h
  exact fun heq => h.1 (heq ▸ List.mem_map_of_mem hl)

/-- The addresses of a list in which one LSA takes the place of another one. -/
theorem replaced_addresses (copy : LsaInstance) (h : ((l₁ ++ hdr :: l₂).map LsaInstance.addr).Nodup) (x : ℕ) :
    (∃ l ∈ l₁ ++ copy :: l₂, l.addr = x) ↔ ((∃ l ∈ l₁ ++ hdr :: l₂, l.addr = x) ∧ ¬ x = hdr.addr) ∨ x = copy.addr := by
  constructor
  · rintro ⟨l, hl, rfl⟩
    rcases mem_middle.1 hl with rfl | hl
    · exact .inr rfl
    · exact .inl ⟨⟨l, mem_middle.2 (.inr hl), rfl⟩, addr_ne_of_nodup h hl⟩
  · rintro (⟨⟨l, hl, rfl⟩, hne⟩ | rfl)
    · rcases mem_middle.1 hl with rfl | hl
      · exact absurd rfl hne
      · exact ⟨l, mem_middle.2 (.inr hl), rfl⟩
    · exact ⟨copy, mem_middle.2 (.inl rfl), rfl⟩

/-- The addresses of a list with one LSA more. -/
theorem added_addresses (copy : LsaInstance) (l : List LsaInstance) (x : ℕ) :
    (∃ c ∈ l ++ [copy], c.addr = x) ↔ ((∃ c ∈ l, c.addr = x) ∧ ¬ False) ∨ x = copy.addr := by
  constructor
  · rintro ⟨c, hc, rfl⟩
    rcases List.mem_append.1 hc with hc | hc
    · exact .inl ⟨⟨c, hc, rfl⟩, id⟩
    · rw [List.mem_singleton.1 hc]
      exact .inr rfl
  · rintro (⟨⟨c, hc, rfl⟩, -⟩ | rfl)
    · exact ⟨c, List.mem_append_left _ hc, rfl⟩
    · exact ⟨copy, List.mem_append_right _ List.mem_cons_self, rfl⟩

theorem found_address {p : LsaInstance → Bool} (h : list.find? p = some hdr) (x : ℕ) (hx : x = hdr.addr) :
    ∃ l ∈ list, l.addr = x :=
  ⟨hdr, List.mem_of_find?_eq_some h, hx.symm⟩

/-- No row points to an LSA that arrives, so no row is moved. -/
theorem assignNewLSAIntoLSOrigin_of_ne {lsa newLSA : ℕ} (h : ∀ row ∈ rows, row.lsOrigin ≠ lsa) :
    assignNewLSAIntoLSOrigin lsa newLSA rows = rows := by
  unfold assignNewLSAIntoLSOrigin
  have hid : ∀ row ∈ rows, (if row.lsOrigin = lsa then { row with lsOrigin := newLSA } else row) = row :=
    fun row hrow => if_neg (h row hrow)
  rw [List.map_congr_left hid, List.map_id']

/-- The copy that is stored. -/
def copyAt (newLSA : ℕ) (now : ℚ) (message : LsaInstance) : LsaInstance := ⟨newLSA, { message.hdr with time := now }⟩

theorem install_of_none (hfind : (s.lsdb areaId message.hdr.lsType).find? message.hdr.sameIdAs = none) :
    s.install ospf now newLSA areaId message = (true,
      { s.withList areaId message.hdr.lsType (s.lsdb areaId message.hdr.lsType ++ [copyAt newLSA now message]) with
        heap := newLSA :: s.heap }) := by
  unfold install
  dsimp only
  rw [hfind]
  rfl

theorem install_of_unchanged (hfind : (s.lsdb areaId message.hdr.lsType).find? message.hdr.sameIdAs = some hdr)
    (hsame : isContentChanged ospf message.hdr hdr.hdr = false) :
    s.install ospf now newLSA areaId message = (false, s) := by
  unfold install
  dsimp only
  rw [hfind]
  dsimp only
  rw [hsame]
  rfl

/-- The copy takes the place of the stored LSA, and no row is moved. -/
theorem install_of_changed (hd : s.Distinct) (hcurrent : s.Current) (hmessage : message.addr ∉ s.heap)
    (hfind : (s.lsdb areaId message.hdr.lsType).find? message.hdr.sameIdAs = some hdr)
    (hchanged : isContentChanged ospf message.hdr hdr.hdr = true) :
    ∃ l₁ l₂, s.lsdb areaId message.hdr.lsType = l₁ ++ hdr :: l₂ ∧
      s.install ospf now newLSA areaId message = (true,
        { s.withList areaId message.hdr.lsType (l₁ ++ copyAt newLSA now message :: l₂) with
          heap := newLSA :: s.heap.filter (· ≠ hdr.addr) }) := by
  have hrows : assignNewLSAIntoLSOrigin message.addr newLSA s.rows = s.rows := by
    apply assignNewLSAIntoLSOrigin_of_ne
    intro row hrow heq
    have hstores := hcurrent row hrow
    rw [heq] at hstores
    exact hd.not_stores hmessage _ hstores
  obtain ⟨l₁, l₂, -, hsplit, hreplace⟩ := replaceFirst_of_find? hfind (copyAt newLSA now message)
  refine ⟨l₁, l₂, hsplit, ?_⟩
  unfold copyAt at hreplace
  unfold install
  dsimp only
  rw [hfind]
  dsimp only
  rw [hchanged, if_pos rfl, hreplace, hrows, ite_self]
  rfl

/-- The condition for an installation: no row points to the LSA that it frees. -/
def SparesInstall (ospf : Pds) (s : OriginState) (areaId : UInt32) (message : LsaInstance) : Prop :=
  ∀ hdr ∈ (s.lsdb areaId message.hdr.lsType).find? message.hdr.sameIdAs,
    isContentChanged ospf message.hdr hdr.hdr = true → ∀ row ∈ s.rows, row.lsOrigin ≠ hdr.addr

instance decidableSparesInstall (ospf : Pds) (s : OriginState) (areaId : UInt32) (message : LsaInstance) :
    Decidable (s.SparesInstall ospf areaId message) :=
  inferInstanceAs (Decidable (∀ hdr ∈ (s.lsdb areaId message.hdr.lsType).find? message.hdr.sameIdAs,
    isContentChanged ospf message.hdr hdr.hdr = true → ∀ row ∈ s.rows, row.lsOrigin ≠ hdr.addr))

theorem current_install_iff (hd : s.Distinct) (hcurrent : s.Current) (hnew : newLSA ∉ s.heap)
    (hmessage : message.addr ∉ s.heap) :
    (s.install ospf now newLSA areaId message).2.Current ↔ s.SparesInstall ospf areaId message := by
  unfold SparesInstall
  have hfresh : ∀ x, x = newLSA → x ∉ s.heap := fun x hx => hx ▸ hnew
  cases hfind : (s.lsdb areaId message.hdr.lsType).find? message.hdr.sameIdAs with
  | none =>
    rw [install_of_none hfind]
    have hiff := current_withList_iff hd hcurrent (fun _ hx => absurd hx id)
      (added_addresses (copyAt newLSA now message) (s.lsdb areaId message.hdr.lsType)) hfresh
    refine hiff.trans ⟨fun _ hdr hhdr => ?_, fun _ row _ => id⟩
    cases hhdr
  | some hdr =>
    by_cases hchanged : isContentChanged ospf message.hdr hdr.hdr = true
    · obtain ⟨l₁, l₂, hsplit, hinstall⟩ := install_of_changed hd hcurrent hmessage hfind hchanged
      rw [hinstall]
      have hlist := replaced_addresses (copyAt newLSA now message) (hsplit ▸ hd.nodup areaId message.hdr.lsType)
      rw [← hsplit] at hlist
      refine (current_withList_iff hd hcurrent (found_address hfind) hlist hfresh).trans
        ⟨fun h hdr' hhdr' _ => ?_, fun h => ?_⟩
      · cases hhdr'
        exact h
      · exact h hdr rfl hchanged
    · rw [install_of_unchanged hfind (Bool.eq_false_iff.2 hchanged)]
      refine ⟨fun _ hdr' hhdr' hchanged' => ?_, fun _ => hcurrent⟩
      cases hhdr'
      exact absurd hchanged' hchanged

theorem Distinct.install (hd : s.Distinct) (hcurrent : s.Current) (hnew : newLSA ∉ s.heap)
    (hmessage : message.addr ∉ s.heap) : (s.install ospf now newLSA areaId message).2.Distinct := by
  have hfresh : ∀ x, x = newLSA → x ∉ s.heap := fun x hx => hx ▸ hnew
  have hnodup := hd.nodup areaId message.hdr.lsType
  have hunused : ∀ l ∈ s.lsdb areaId message.hdr.lsType, l.addr ≠ newLSA :=
    fun l hl heq => hnew (heq ▸ hd.allocated areaId _ l hl)
  cases hfind : (s.lsdb areaId message.hdr.lsType).find? message.hdr.sameIdAs with
  | none =>
    rw [install_of_none hfind]
    refine hd.withList ?_ (fun _ hx => absurd hx id)
      (added_addresses (copyAt newLSA now message) (s.lsdb areaId message.hdr.lsType)) hfresh fun x hx => ?_
    · rw [List.map_append, List.map_singleton]
      refine List.nodup_append.2 ⟨hnodup, List.nodup_singleton _, fun x hx y hy heq => ?_⟩
      obtain ⟨l, hl, haddr⟩ := List.mem_map.1 hx
      exact hunused l hl (haddr.trans (heq.trans (List.mem_singleton.1 hy)))
    · rcases hx with ⟨hx, -⟩ | rfl
      · exact List.mem_cons_of_mem newLSA hx
      · exact List.mem_cons_self
  | some hdr =>
    by_cases hchanged : isContentChanged ospf message.hdr hdr.hdr = true
    · obtain ⟨l₁, l₂, hsplit, hinstall⟩ := install_of_changed hd hcurrent hmessage hfind hchanged
      rw [hinstall]
      rw [hsplit] at hnodup hunused
      have hlist := replaced_addresses (copyAt newLSA now message) hnodup
      rw [← hsplit] at hlist
      refine hd.withList ?_ (found_address hfind) hlist hfresh fun x hx => ?_
      · rw [List.map_append, List.map_cons, List.nodup_middle, ← List.map_append, List.nodup_cons] at hnodup ⊢
        refine ⟨fun hmem => ?_, hnodup.2⟩
        obtain ⟨l, hl, haddr⟩ := List.mem_map.1 hmem
        exact hunused l (mem_middle.2 (.inr hl)) haddr
      · rcases hx with ⟨hx, hne⟩ | rfl
        · exact List.mem_cons_of_mem newLSA (List.mem_filter.2 ⟨hx, decide_eq_true hne⟩)
        · exact List.mem_cons_self
    · rw [install_of_unchanged hfind (Bool.eq_false_iff.2 hchanged)]
      exact hd

/-! ## Removing -/

/-- The condition for a removal: no row points to an LSA that it frees. -/
def SparesRemoval (s : OriginState) (areaId : UInt32) (lsa : LsaHdr) : Prop :=
  ∀ row ∈ s.rows, ¬ ∃ l ∈ s.lsdb areaId lsa.lsType, lsa.sameIdAs l = true ∧ l.addr = row.lsOrigin

instance decidableSparesRemoval (s : OriginState) (areaId : UInt32) (lsa : LsaHdr) :
    Decidable (s.SparesRemoval areaId lsa) :=
  inferInstanceAs (Decidable (∀ row ∈ s.rows,
    ¬ ∃ l ∈ s.lsdb areaId lsa.lsType, lsa.sameIdAs l = true ∧ l.addr = row.lsOrigin))

/-- The addresses that a removal leaves. -/
theorem removed_addresses (h : (list.map LsaInstance.addr).Nodup) (lsa : LsaHdr) (x : ℕ) :
    (∃ l ∈ list.filter fun l => !lsa.sameIdAs l, l.addr = x) ↔
      ((∃ l ∈ list, l.addr = x) ∧ ¬ ∃ l ∈ list, lsa.sameIdAs l = true ∧ l.addr = x) ∨ False := by
  constructor
  · rintro ⟨l, hl, rfl⟩
    obtain ⟨hlist, hkept⟩ := List.mem_filter.1 hl
    refine .inl ⟨⟨l, hlist, rfl⟩, ?_⟩
    rintro ⟨l', hl', hsame, haddr⟩
    have heq : l' = l := List.inj_on_of_nodup_map h hl' hlist haddr
    rw [heq] at hsame
    rw [hsame] at hkept
    cases hkept
  · rintro (⟨⟨l, hl, rfl⟩, hkept⟩ | hfalse)
    · refine ⟨l, List.mem_filter.2 ⟨hl, ?_⟩, rfl⟩
      rw [Bool.not_eq_true']
      exact Bool.eq_false_iff.2 fun hsame => hkept ⟨l, hl, hsame, rfl⟩
    · exact absurd hfalse id

theorem current_removeLSA_iff (hd : s.Distinct) (hcurrent : s.Current) :
    (s.removeLSA areaId lsa).Current ↔ s.SparesRemoval areaId lsa :=
  current_withList_iff hd hcurrent (fun _ ⟨l, hl, _, haddr⟩ => ⟨l, hl, haddr⟩)
    (removed_addresses (hd.nodup areaId lsa.lsType) lsa) fun _ hx => absurd hx id

theorem Distinct.removeLSA (hd : s.Distinct) (areaId : UInt32) (lsa : LsaHdr) : (s.removeLSA areaId lsa).Distinct := by
  refine hd.withList ?_ (fun _ ⟨l, hl, _, haddr⟩ => ⟨l, hl, haddr⟩)
    (removed_addresses (hd.nodup areaId lsa.lsType) lsa) (fun _ hx => absurd hx id) fun x hx => ?_
  · exact (hd.nodup areaId lsa.lsType).sublist (List.filter_sublist.map LsaInstance.addr)
  · rcases hx with ⟨hx, hkept⟩ | hfalse
    · refine List.mem_filter.2 ⟨hx, ?_⟩
      rw [Bool.not_eq_true', List.any_eq_false]
      intro l hl hl'
      rw [Bool.and_eq_true, beq_iff_eq] at hl'
      exact hkept ⟨l, hl, hl'.1, hl'.2⟩
    · exact absurd hfalse id

/-! ## The routing table -/

/-- Without `LSOrigin` it is `ospf_rtTable_addRoute` of the routes. -/
theorem addRoute_row (ospf : Pds) (rows : List OriginRow) (newRoute : OriginRow) :
    (addRoute ospf rows newRoute).map (List.map OriginRow.row) =
      NetSim.Ospf.addRoute ospf (rows.map OriginRow.row) newRoute.row := by
  unfold addRoute NetSim.Ospf.addRoute
  dsimp only
  generalize (if newRoute.row.destType != .network then _ else _ : Option ℕ) = place
  cases place with
  | none =>
    dsimp only [Option.bind_none]
    rw [Option.map_some, List.map_append]
    rfl
  | some i =>
    rw [Option.bind_some, Option.bind_some, List.getElem?_map]
    cases rows[i]? with
    | none =>
      dsimp only [Option.map_none]
      rw [Option.map_some, List.map_append]
      rfl
    | some row =>
      dsimp only [Option.map_some]
      rw [Option.map_map]
      congr 1
      funext same
      exact List.map_set

/-- A row of the new table is an old one or the new one. -/
theorem mem_addRoute {newRoute row : OriginRow} {rows' : List OriginRow} (h : addRoute ospf rows newRoute = some rows')
    (hrow : row ∈ rows') :
    row ∈ rows ∨ (row.lsOrigin = newRoute.lsOrigin ∧ row.row.areaId = newRoute.row.areaId) := by
  unfold addRoute at h
  dsimp only at h
  split at h
  · obtain ⟨same, -, rfl⟩ := Option.map_eq_some_iff.1 h
    rcases List.mem_or_eq_of_mem_set hrow with hold | rfl
    · exact .inl hold
    · exact .inr ⟨rfl, rfl⟩
  · rw [← Option.some.inj h] at hrow
    rcases List.mem_append.1 hrow with hold | hnew
    · exact .inl hold
    · rw [List.mem_singleton.1 hnew]
      exact .inr ⟨rfl, rfl⟩

/-- Rows that were there before, or that differ from them in their flags, stay current. -/
theorem Current.withRows (h : s.Current)
    (hrows : ∀ row ∈ rows, s.Stores row.row.areaId.intIp row.lsOrigin ∨
      ∃ old ∈ s.rows, row.lsOrigin = old.lsOrigin ∧ row.row.areaId = old.row.areaId) :
    OriginState.Current { s with rows := rows } := by
  intro row hrow
  rcases hrows row hrow with hstores | ⟨old, hold, horigin, harea⟩
  · exact hstores
  · have hcurrent := h old hold
    rw [← horigin, ← harea] at hcurrent
    exact hcurrent

theorem Distinct.withRows (h : s.Distinct) (rows : List OriginRow) : OriginState.Distinct { s with rows := rows } :=
  ⟨h.nodup, h.apart, h.allocated⟩

end OriginState

/-! ## Runs -/

/-- An LSA that arrives is installed, with an address for its copy; an LSA is removed; a row of a vertex, whose LSA is in
the list of a type, is added; rows are freed or invalidated. -/
inductive OriginEvent
  | install (now : ℚ) (newLSA : ℕ) (areaId : UInt32) (lsa : LsaInstance)
  | remove (areaId : UInt32) (lsa : LsaHdr)
  | addRoute (lsType : LsType) (newRoute : OriginRow)
  | freeRoute (row : ℕ)
  | freeAllInvalidRoute
  | invalidateRoutingTable

namespace OriginState

variable {ospf : Pds} {s s' : OriginState}

def step (ospf : Pds) (s : OriginState) : OriginEvent → Option OriginState
  | .install now newLSA areaId lsa =>
    if lsa.hdr.lsType.IsStored ∧ newLSA ∉ s.heap ∧ lsa.addr ∉ s.heap then
      some (s.install ospf now newLSA areaId lsa).2
    else none
  | .remove areaId lsa => some (s.removeLSA areaId lsa)
  | .addRoute lsType newRoute =>
    if (s.lsdb newRoute.row.areaId.intIp lsType).any fun l => l.addr == newRoute.lsOrigin then
      (addRoute ospf s.rows newRoute).map fun rows => { s with rows := rows }
    else none
  | .freeRoute row => some { s with rows := s.rows.eraseIdx row }
  | .freeAllInvalidRoute => some { s with rows := s.rows.filter fun row => row.row.flag != .invalid }
  | .invalidateRoutingTable =>
    some { s with rows := s.rows.map fun row => { row with row := { row.row with flag := .invalid } } }

/-- Nothing is stored at the start. -/
def machine (ospf : Pds) : Machine OriginState OriginEvent where
  init s := (∀ areaId lsType, s.lsdb areaId lsType = []) ∧ s.rows = []
  step := step ospf

/-- What an event has to meet: no row points to an LSA that it frees. -/
def Spares (ospf : Pds) (s : OriginState) : OriginEvent → Prop
  | .install _ _ areaId lsa => s.SparesInstall ospf areaId lsa
  | .remove areaId lsa => s.SparesRemoval areaId lsa
  | _ => True

instance decidableSpares (ospf : Pds) (s : OriginState) : (e : OriginEvent) → Decidable (s.Spares ospf e)
  | .install _ _ areaId lsa => decidableSparesInstall ospf s areaId lsa
  | .remove areaId lsa => decidableSparesRemoval s areaId lsa
  | .addRoute _ _ => inferInstanceAs (Decidable True)
  | .freeRoute _ => inferInstanceAs (Decidable True)
  | .freeAllInvalidRoute => inferInstanceAs (Decidable True)
  | .invalidateRoutingTable => inferInstanceAs (Decidable True)

/-- **One step**: it keeps the rows current exactly under the condition. -/
theorem step_current_iff {e : OriginEvent} (hd : s.Distinct) (hcurrent : s.Current) (hstep : step ospf s e = some s') :
    s'.Distinct ∧ (s'.Current ↔ s.Spares ospf e) := by
  cases e with
  | install now newLSA areaId lsa =>
    unfold step at hstep
    dsimp only at hstep
    split_ifs at hstep with hfresh
    rw [← Option.some.inj hstep]
    exact ⟨hd.install hcurrent hfresh.2.1 hfresh.2.2, current_install_iff hd hcurrent hfresh.2.1 hfresh.2.2⟩
  | remove areaId lsa =>
    rw [← Option.some.inj hstep]
    exact ⟨hd.removeLSA areaId lsa, current_removeLSA_iff hd hcurrent⟩
  | addRoute lsType newRoute =>
    unfold step at hstep
    dsimp only at hstep
    split_ifs at hstep with hvertex
    obtain ⟨rows, hadd, rfl⟩ := Option.map_eq_some_iff.1 hstep
    refine ⟨hd.withRows rows, fun _ => trivial, fun _ => hcurrent.withRows fun row hrow => ?_⟩
    rcases mem_addRoute hadd hrow with hold | ⟨horigin, harea⟩
    · exact .inr ⟨row, hold, rfl, rfl⟩
    · obtain ⟨l, hl, haddr⟩ := List.any_eq_true.1 hvertex
      refine .inl ⟨lsType, l, ?_, ?_⟩
      · rw [harea]
        exact hl
      · rw [horigin]
        exact beq_iff_eq.1 haddr
  | freeRoute row =>
    rw [← Option.some.inj hstep]
    refine ⟨hd.withRows _, fun _ => trivial, fun _ => hcurrent.withRows fun row' hrow' => ?_⟩
    exact .inr ⟨row', List.mem_of_mem_eraseIdx hrow', rfl, rfl⟩
  | freeAllInvalidRoute =>
    rw [← Option.some.inj hstep]
    refine ⟨hd.withRows _, fun _ => trivial, fun _ => hcurrent.withRows fun row hrow => ?_⟩
    exact .inr ⟨row, (List.mem_filter.1 hrow).1, rfl, rfl⟩
  | invalidateRoutingTable =>
    rw [← Option.some.inj hstep]
    refine ⟨hd.withRows _, fun _ => trivial, fun _ => hcurrent.withRows fun row hrow => ?_⟩
    obtain ⟨old, hold, rfl⟩ := List.mem_map.1 hrow
    exact .inr ⟨old, hold, rfl, rfl⟩

theorem init_current (h : (machine ospf).init s) : s.Distinct ∧ s.Current := by
  obtain ⟨hlists, hrows⟩ := h
  refine ⟨⟨fun a t => ?_, fun a t a' t' l l' hl => ?_, fun a t l hl => ?_⟩, fun row hrow => ?_⟩
  · rw [hlists a t]
    exact List.nodup_nil
  · rw [hlists a t] at hl
    cases hl
  · rw [hlists a t] at hl
    cases hl
  · rw [hrows] at hrow
    cases hrow

theorem current_of_reachOn (h : (machine ospf).ReachOn (Spares ospf) s) : s.Distinct ∧ s.Current := by
  have hinit : ∀ s, (machine ospf).init s → s.Distinct ∧ s.Current := fun _ => init_current
  refine h.inv (I := fun s => s.Distinct ∧ s.Current) hinit fun s e s' hs hok hstep => ?_
  obtain ⟨hdistinct, hiff⟩ := step_current_iff hs.1 hs.2 hstep
  exact ⟨hdistinct, hiff.2 hok⟩

end OriginState

/-- **The origins of routes**: in every run whose steps free no LSA that a row points to, each row points to an LSA that is
stored in the database of its area, and every other step that is possible there breaks this. -/
theorem lsOrigin_current (ospf : Pds) (s : OriginState)
    (h : (OriginState.machine ospf).ReachOn (OriginState.Spares ospf) s) :
    s.Current ∧ ∀ e s', OriginState.step ospf s e = some s' → (s'.Current ↔ s.Spares ospf e) := by
  obtain ⟨hdistinct, hcurrent⟩ := OriginState.current_of_reachOn h
  exact ⟨hcurrent, fun e s' hstep => (OriginState.step_current_iff hdistinct hcurrent hstep).2⟩

/-- An LSA of router 7 with a stub link that arrives. -/
def arrived (addr : ℕ) (seq : UInt32) (metric : UInt16) : LsaInstance :=
  ⟨addr, { routerLsaOf 7 seq with length := 36, lsaInfo := ⟨0, [⟨⟨0, 50⟩, ⟨0, anyDest⟩, .stub, metric⟩]⟩ }⟩

/-- A row for the stub link of the LSA at an address. -/
def rowFrom (lsOrigin metric : ℕ) : OriginRow :=
  ⟨⟨.network, ⟨0, 50⟩, ⟨0, anyDest⟩, ⟨0, 0⟩, .intraArea, metric, some ⟨0, 7⟩, 1, ⟨0, 7⟩, .invalid⟩, lsOrigin⟩

/-- An LSA is installed, and its row is freed before another instance of it comes and gets a row. -/
theorem lsOrigin_current_reinstalled : ∃ s : OriginState, s.rows.map OriginRow.lsOrigin = [101] ∧ s.Current := by
  have hinit : (OriginState.machine (twoNeighborRouter .p2p .p2p)).ReachOn
      (OriginState.Spares (twoNeighborRouter .p2p .p2p)) ⟨fun _ _ => [], [], []⟩ := .init ⟨fun _ _ => rfl, rfl⟩
  have hrun := Machine.ReachOn.of_execOn [.install 0 100 0 (arrived 1 5 1), .addRoute .routerLsa (rowFrom 100 2),
    .freeRoute 0, .install 0 101 0 (arrived 2 6 2), .addRoute .routerLsa (rowFrom 101 3)] hinit rfl
  exact ⟨_, rfl, (lsOrigin_current _ _ hrun).1⟩

/-- Another instance of an LSA comes while a row points to the stored one. -/
theorem row_points_to_freed : ∃ s : OriginState, (OriginState.machine (twoNeighborRouter .p2p .p2p)).Reach s ∧
    s.rows.map OriginRow.lsOrigin = [100] ∧ 100 ∉ s.heap ∧ ¬ s.Current := by
  have hinit : (OriginState.machine (twoNeighborRouter .p2p .p2p)).Reach ⟨fun _ _ => [], [], []⟩ :=
    .init ⟨fun _ _ => rfl, rfl⟩
  have hrun := Machine.Reach.of_exec
    [.install 0 100 0 (arrived 1 5 1), .addRoute .routerLsa (rowFrom 100 2), .install 0 101 0 (arrived 2 6 2)] hinit rfl
  refine ⟨_, hrun, rfl, by decide, fun h => ?_⟩
  obtain ⟨lsType, l, hl, haddr⟩ := h { rowFrom 100 2 with row := { (rowFrom 100 2).row with flag := .new } } (.head _)
  have hlist : l = OriginState.copyAt 101 0 (arrived 2 6 2) := by
    cases lsType with
    | routerLsa => exact List.mem_singleton.1 hl
    | _ => cases hl
  rw [hlist] at haddr
  exact absurd haddr (by decide)

end NetSim.Ospf
