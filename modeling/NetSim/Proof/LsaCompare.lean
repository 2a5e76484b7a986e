import NetSim.Lib.FirstMatch
import NetSim.Spec.OspfLsa

/-!
# Comparisons of LSAs
-/

/-!
## Recency of advertisements

`ospf_lsa_compare` reads the sequence numbers and the ages only, puts the higher number first and finds
an LSA as recent as itself.
-/

namespace NetSim.Ospf

variable {ospf : Pds} {oldLS newLS : LsaHdr}

/-- The comparison reads two fields. -/
theorem lsaCompare_congr {oldLS' newLS' : LsaHdr} (hold : oldLS.lsSequenceNumber = oldLS'.lsSequenceNumber)
    (hnew : newLS.lsSequenceNumber = newLS'.lsSequenceNumber) (holdAge : oldLS.lsAge = oldLS'.lsAge)
    (hnewAge : newLS.lsAge = newLS'.lsAge) :
    lsaCompare ospf oldLS newLS = lsaCompare ospf oldLS' newLS' := by
  unfold lsaCompare
  rw [hold, hnew, holdAge, hnewAge]

theorem lsaCompare_of_seq_lt (h : oldLS.lsSequenceNumber < newLS.lsSequenceNumber) :
    lsaCompare ospf oldLS newLS = 1 := by
  unfold lsaCompare
  exact if_pos h

theorem lsaCompare_of_seq_gt (h : newLS.lsSequenceNumber < oldLS.lsSequenceNumber) :
    lsaCompare ospf oldLS newLS = -1 := by
  have hlt : ¬ newLS.lsSequenceNumber > oldLS.lsSequenceNumber := by
    simp only [gt_iff_lt, UInt32.lt_iff_toNat_lt] at h ⊢
    omega
  unfold lsaCompare
  rw [if_neg hlt]
  exact if_pos h

@[simp] theorem lsaCompare_self (lsa : LsaHdr) : lsaCompare ospf lsa lsa = 0 := by
  have hage : ¬ (maskDoNotAge ospf lsa.lsAge ≥ ospf.lsaMaxAge ∧
      maskDoNotAge ospf lsa.lsAge < ospf.lsaMaxAge) := by
    simp only [ge_iff_le, UInt16.le_iff_toNat_le, UInt16.lt_iff_toNat_lt]
    omega
  unfold lsaCompare
  simp [hage]

/-- A more recent instance has no lower sequence number. -/
theorem seq_le_of_lsaCompare_pos (h : 0 < lsaCompare ospf oldLS newLS) :
    oldLS.lsSequenceNumber ≤ newLS.lsSequenceNumber := by
  by_contra hlt
  have hgt : newLS.lsSequenceNumber < oldLS.lsSequenceNumber := by
    simp only [UInt32.le_iff_toNat_le, UInt32.lt_iff_toNat_lt] at hlt ⊢
    omega
  rw [lsaCompare_of_seq_gt hgt] at h
  omega

/-- An instance that is no more recent has no higher sequence number. -/
theorem seq_le_of_lsaCompare_nonpos (h : lsaCompare ospf oldLS newLS ≤ 0) :
    newLS.lsSequenceNumber ≤ oldLS.lsSequenceNumber := by
  by_contra hlt
  have hgt : oldLS.lsSequenceNumber < newLS.lsSequenceNumber := by
    simp only [UInt32.le_iff_toNat_le, UInt32.lt_iff_toNat_lt] at hlt ⊢
    omega
  rw [lsaCompare_of_seq_lt hgt] at h
  omega

end NetSim.Ospf

/-!
## Changes of the body of a router LSA

`ospf_rlsa_isBodyChanged` compares the links as multisets, but their ids by the place in memory where they are. It sees a
change where there is none if the same links have their ids in other places, and is right otherwise
(`bodyChanged_exact_iff`).
-/

namespace NetSim.Ospf

open Pairing

variable {mem : ℕ → UInt32} {new old : Rlsa}

/-! ## Values and places -/

/-- A link by value. -/
def RlsaLink.value (link : RlsaLink) : UInt32 × UInt32 × LinkType × UInt16 :=
  (link.linkId.intIp, link.linkData.intIp, link.type, link.metric)

/-- A link with the place of its id. -/
def RlsaLink.placed (link : RlsaLink) : ℕ × UInt32 × LinkType × UInt16 :=
  (link.linkId.ptr, link.linkData.intIp, link.type, link.metric)

/-- The VEB flags agree, and the links are the same multiset of values. -/
def SameBody (new old : Rlsa) : Prop :=
  new.veb = old.veb ∧ (new.rlsaLink.map RlsaLink.value).Perm (old.rlsaLink.map RlsaLink.value)

/-- The links can be paired with links that agree in data, type and metric and have their ids in the same place. -/
def SamePlaces (new old : Rlsa) : Prop :=
  (new.rlsaLink.map RlsaLink.placed).Perm (old.rlsaLink.map RlsaLink.placed)

/-- A body whose link ids are read from a memory. -/
structure RlsaIn (mem : ℕ → UInt32) where
  rlsa : Rlsa
  ids : ∀ link ∈ rlsa.rlsaLink, link.linkId.intIp = mem link.linkId.ptr

/-! ## What the code compares -/

theorem matches_eq (link : RlsaLink) : link.matches = fun oldLink => decide (link.placed = oldLink.placed) := by
  funext oldLink
  unfold RlsaLink.matches RlsaLink.placed Ip.same
  rw [Bool.eq_iff_iff, decide_eq_true_iff]
  simp only [Bool.and_eq_true, beq_iff_eq, Prod.mk.injEq]
  constructor
  · rintro ⟨⟨⟨hid, htype⟩, hdata⟩, hmetric⟩
    exact ⟨hid, hdata, htype, hmetric⟩
  · rintro ⟨hid, hdata, htype, hmetric⟩
    exact ⟨⟨⟨hid, htype⟩, hdata⟩, hmetric⟩

theorem unmatchedLinks_eq (newLink oldLink : List RlsaLink) :
    unmatchedLinks newLink oldLink = unmatched RlsaLink.placed newLink oldLink := by
  unfold unmatchedLinks unmatched
  simp only [matches_eq]

/-- **The comparison of the code**. -/
theorem rlsaIsBodyChanged_eq_false_iff :
    rlsaIsBodyChanged new old = false ↔ new.veb = old.veb ∧ SamePlaces new old := by
  unfold rlsaIsBodyChanged SamePlaces
  by_cases hlength : new.rlsaLink.length = old.rlsaLink.length
  · by_cases hveb : new.veb = old.veb
    · rw [← unmatched_eq_nil_iff hlength, ← unmatchedLinks_eq, hlength, hveb]
      simp
    · simp [hveb]
  · have hperm : ¬ (new.rlsaLink.map RlsaLink.placed).Perm (old.rlsaLink.map RlsaLink.placed) := by
      intro hperm
      have hmap := hperm.length_eq
      rw [List.length_map, List.length_map] at hmap
      exact hlength hmap
    simp [hlength, hperm]

/-- Links in the same places have the same values. -/
theorem SamePlaces.value {new old : RlsaIn mem} (h : SamePlaces new.rlsa old.rlsa) :
    (new.rlsa.rlsaLink.map RlsaLink.value).Perm (old.rlsa.rlsaLink.map RlsaLink.value) := by
  have hread : ∀ body : RlsaIn mem, body.rlsa.rlsaLink.map RlsaLink.value =
      (body.rlsa.rlsaLink.map RlsaLink.placed).map fun seen => (mem seen.1, seen.2) := by
    intro body
    rw [List.map_map]
    apply List.map_congr_left
    intro link hlink
    unfold RlsaLink.value RlsaLink.placed
    rw [body.ids link hlink]
    rfl
  rw [hread new, hread old]
  exact h.map _

/-- **The comparison of router LSA bodies**: it is the equality of flags and multisets of links exactly if, where these
agree, the ids of the links are in the same places. -/
theorem bodyChanged_exact_iff (mem : ℕ → UInt32) (new old : RlsaIn mem) :
    (rlsaIsBodyChanged new.rlsa old.rlsa = false ↔ SameBody new.rlsa old.rlsa) ↔
      (SameBody new.rlsa old.rlsa → SamePlaces new.rlsa old.rlsa) := by
  rw [rlsaIsBodyChanged_eq_false_iff]
  constructor
  · intro hexact hsame
    exact (hexact.2 hsame).2
  · intro hplaces
    refine ⟨fun hseen => ⟨hseen.1, hseen.2.value⟩, fun hsame => ⟨hsame.1, hplaces hsame⟩⟩

/-- A body with one link, whose id is in the place. -/
def oneLinkBody (ptr : ℕ) : RlsaIn (fun _ => 2) where
  rlsa := ⟨0, [⟨⟨ptr, 2⟩, ⟨0, 7⟩, .pointToPoint, 1⟩]⟩
  ids link hlink := by rw [List.mem_singleton.1 hlink]

/-- The same link, with its id in two places. -/
theorem same_link_changed :
    SameBody (oneLinkBody 1).rlsa (oneLinkBody 2).rlsa ∧
      rlsaIsBodyChanged (oneLinkBody 1).rlsa (oneLinkBody 2).rlsa = true :=
  ⟨⟨rfl, .refl _⟩, rfl⟩

end NetSim.Ospf
