import NetSim.Lib.Keyed
import NetSim.Proof.LsdbUpdate

/-!
# The database keeps the latest instances

The step of `ospf_handle_LSUPDATE` for an LSA that is not refused is an offer to the table of stored
instances exactly if the content changes when, and only when, the LSA is the more recent one
(`handleLsa_offers_iff`): a more recent instance with the same content is not recorded, and an older one
with another content is. An update whose LSAs all meet this leaves the latest instances, in whatever
order they come (`handleLsUpdate_latest`).
-/

namespace NetSim.Ospf

open Latest

variable {stack : Stack} {now : ℚ} {inIf : ℕ} {src : Ip} {s s' : Router} {lsa : LsaHdr}

/-! ## Settings -/

/-- The routers differ in their interfaces only. -/
def SameSettings (ospf ospf' : Pds) : Prop := ∃ ifs, ospf' = { ospf with ospfIf := ifs }

theorem SameSettings.refl (ospf : Pds) : SameSettings ospf ospf := ⟨ospf.ospfIf, rfl⟩

theorem SameSettings.trans {o₁ o₂ o₃ : Pds} (h : SameSettings o₁ o₂) (h' : SameSettings o₂ o₃) :
    SameSettings o₁ o₃ := by
  obtain ⟨ifs, rfl⟩ := h
  obtain ⟨ifs', rfl⟩ := h'
  exact ⟨ifs', rfl⟩

theorem withCurrentNeighbor_settings (ospf : Pds) (neigh : Neighbor) :
    SameSettings ospf (withCurrentNeighbor inIf src ospf neigh) := by
  unfold withCurrentNeighbor
  split
  · exact ⟨_, rfl⟩
  · exact SameSettings.refl ospf

theorem lsdbUpdateEnd_settings {ret : Option Bool} {r : Bool}
    (h : lsdbUpdateEnd stack s lsa ret = some (s', r)) : SameSettings s.ospf s'.ospf := by
  unfold lsdbUpdateEnd at h
  cases ret with
  | none =>
    obtain ⟨rfl, -⟩ := Prod.mk.inj (Option.some.inj h)
    exact SameSettings.refl _
  | some ret =>
    dsimp only at h
    split at h
    · rw [Option.map_eq_some_iff] at h
      obtain ⟨s₂, hs₂, h⟩ := h
      obtain ⟨rfl, -⟩ := Prod.mk.inj h
      unfold lsdbUpdateSelfOriginated at hs₂
      simp only [Option.bind_eq_bind, Option.bind_eq_some_iff, Option.pure_def] at hs₂
      obtain ⟨flush, -, hs₂⟩ := hs₂
      split at hs₂
      · simp only [Option.bind_eq_some_iff] at hs₂
        obtain ⟨⟨ospf', maxAgeList', lsa'⟩, hflush, hs₂⟩ := hs₂
        obtain rfl := Option.some.inj hs₂
        exact (lsaFlush_frame hflush).settings
      · simp only [Option.bind_eq_some_iff] at hs₂
        obtain ⟨list, -, old, -, hs₂⟩ := hs₂
        obtain rfl := Option.some.inj hs₂
        exact SameSettings.refl _
    · obtain ⟨rfl, -⟩ := Prod.mk.inj (Option.some.inj h)
      exact SameSettings.refl _

theorem lsdbUpdate_settings {r : Bool} (h : lsdbUpdate stack now inIf src s lsa = some (s', r)) :
    SameSettings s.ospf s'.ospf := by
  unfold lsdbUpdate at h
  split at h
  · simp only [Option.bind_eq_bind, Option.bind_eq_some_iff] at h
    obtain ⟨⟨ret, s₁⟩, hupd, hend⟩ := h
    refine SameSettings.trans ?_ (lsdbUpdateEnd_settings hend)
    unfold lsdbUpdateLSAList at hupd
    dsimp only at hupd
    split at hupd
    · cases hupd
    split at hupd
    · obtain ⟨-, rfl⟩ := Prod.mk.inj (Option.some.inj hupd)
      exact SameSettings.refl _
    · simp only [Option.bind_eq_bind, Option.bind_eq_some_iff, Option.pure_def] at hupd
      obtain ⟨⟨ospf', back⟩, hflood, hupd⟩ := hupd
      obtain ⟨-, rfl⟩ := Prod.mk.inj (Option.some.inj hupd)
      exact (lsaFlood_frame hflood).settings
  · exact lsdbUpdateEnd_settings h

theorem handleLsa_settings {b : Bool} (h : handleLsa stack now inIf src s lsa = some (s', b)) :
    SameSettings s.ospf s'.ospf := by
  unfold handleLsa at h
  split at h
  · obtain ⟨rfl, -⟩ := Prod.mk.inj (Option.some.inj h)
    exact SameSettings.refl _
  dsimp only at h
  split at h
  · obtain ⟨rfl, -⟩ := Prod.mk.inj (Option.some.inj h)
    exact SameSettings.refl _
  split at h
  · rw [Option.map_eq_some_iff] at h
    obtain ⟨⟨s₁, r⟩, hupd, h⟩ := h
    obtain ⟨rfl, -⟩ := Prod.mk.inj h
    exact lsdbUpdate_settings hupd
  · simp only [Option.bind_eq_bind, Option.bind_eq_some_iff] at h
    obtain ⟨neigh, -, h⟩ := h
    split at h
    · obtain ⟨rfl, -⟩ := Prod.mk.inj (Option.some.inj h)
      exact SameSettings.refl _
    · obtain ⟨rfl, -⟩ := Prod.mk.inj (Option.some.inj h)
      exact withCurrentNeighbor_settings _ _

/-! ## One step -/

/-- An LSA of age MaxAge that is not stored and that no neighbour may be waiting for. -/
def Dropped (s : Router) (lsa : LsaHdr) : Prop :=
  hasMaxAge s.ospf lsa = true ∧ s.area.stored lsa.key = none ∧
    isAnyNeighborInExchangeOrLoadingState s.ospf = false

/-- The LSA is on the request list of the neighbour it comes from although it is already stored. -/
def EndsUpdate (inIf : ℕ) (src : Ip) (s : Router) (lsa : LsaHdr) : Prop :=
  (∃ o ∈ s.area.stored lsa.key, lsaCompare s.ospf o lsa = 0) ∧
    ∃ neigh ∈ currentNeighbor inIf src s.ospf, (lsReqSearchFromList neigh lsa).isSome

instance (s : Router) (lsa : LsaHdr) : Decidable (Dropped s lsa) := inferInstanceAs (Decidable (_ ∧ _))

instance (s : Router) (lsa : LsaHdr) : Decidable (EndsUpdate inIf src s lsa) :=
  inferInstanceAs (Decidable (_ ∧ _))

/-- The step for an LSA leaves the database alone or updates it. -/
theorem handleLsa_cases {b : Bool} (h : handleLsa stack now inIf src s lsa = some (s', b)) :
    (s'.area = s.area ∧ (¬ lsa.lsType.IsStored ∨ Dropped s lsa ∨
      ∃ o ∈ s.area.stored lsa.key, lsaCompare s.ospf o lsa = 0)) ∨
    ((lsa.lsType.IsStored ∧ ¬ Dropped s lsa ∧
        ∀ o ∈ s.area.stored lsa.key, lsaCompare s.ospf o lsa ≠ 0) ∧
      ((Refused stack now s lsa ∧ s'.area = s.area) ∨
        ¬ Refused stack now s lsa ∧ s.area.Stores s'.area lsa (updated stack now s lsa))) := by
  unfold handleLsa at h
  split at h
  · rename_i hbad
    obtain ⟨rfl, -⟩ := Prod.mk.inj (Option.some.inj h)
    have hext : lsa.lsType = .asExternalLsa := by
      unfold validateLsa at hbad
      simp only [Bool.not_not, Bool.and_eq_true, beq_iff_eq] at hbad
      exact hbad.1
    exact Or.inl ⟨rfl, Or.inl (by simp [hext, LsType.IsStored])⟩
  dsimp only at h
  rw [lsdbLookup_eq] at h
  split at h
  · rename_i hdrop
    obtain ⟨rfl, -⟩ := Prod.mk.inj (Option.some.inj h)
    rw [Bool.and_eq_true, Bool.and_eq_true, Option.isNone_iff_eq_none, Bool.not_eq_true'] at hdrop
    exact Or.inl ⟨rfl, Or.inr (Or.inl ⟨hdrop.1.1, hdrop.1.2, hdrop.2⟩)⟩
  rename_i hdrop
  have hdrop : ¬ Dropped s lsa := by
    intro hd
    exact hdrop (by simp [hd.1, hd.2.1, hd.2.2])
  split at h
  · rename_i hrecent
    rw [Option.map_eq_some_iff] at h
    obtain ⟨⟨s₁, r⟩, hupd, h⟩ := h
    obtain ⟨rfl, -⟩ := Prod.mk.inj h
    have hne : ∀ o ∈ s.area.stored lsa.key, lsaCompare s.ospf o lsa ≠ 0 := by
      intro o ho
      rw [Option.mem_def] at ho
      rw [ho] at hrecent
      simpa [isMoreRecent] using hrecent
    by_cases htype : lsa.lsType.IsStored
    · refine Or.inr ⟨⟨htype, hdrop, hne⟩, ?_⟩
      rcases lsdbUpdate_stores htype hupd with ⟨href, rfl⟩ | hstores
      · exact Or.inl ⟨href, rfl⟩
      · exact Or.inr hstores
    · -- a type without a list: nothing is stored, and an LSA of the router itself has no old instance
      have hlist : s.area.list? lsa.lsType = none := by
        rw [← Option.not_isSome_iff_eq_none, isSome_list?_iff]
        exact htype
      refine Or.inl ⟨?_, Or.inl htype⟩
      unfold lsdbUpdate lsdbUpdateEnd at hupd
      rw [hlist] at hupd
      dsimp only at hupd
      split at hupd
      · rw [Option.map_eq_some_iff] at hupd
        obtain ⟨s₂, hs₂, hupd⟩ := hupd
        obtain ⟨rfl, -⟩ := Prod.mk.inj hupd
        rcases lsdbUpdateSelfOriginated_cases hs₂ with ⟨hf, -⟩ | ⟨-, old, hold, -⟩
        · unfold isFlush at hf
          split at hf
          · rename_i hnet
            exact absurd (by rw [hnet]; trivial) htype
          · cases hf
        · rw [stored_of_none hlist] at hold
          cases hold
      · obtain ⟨rfl, -⟩ := Prod.mk.inj (Option.some.inj hupd)
        rfl
  · rename_i hrecent
    simp only [Option.bind_eq_bind, Option.bind_eq_some_iff] at h
    obtain ⟨neigh, -, h⟩ := h
    have harea : s'.area = s.area := by
      split at h
      · obtain ⟨rfl, -⟩ := Prod.mk.inj (Option.some.inj h)
        rfl
      · obtain ⟨rfl, -⟩ := Prod.mk.inj (Option.some.inj h)
        rfl
    refine Or.inl ⟨harea, Or.inr (Or.inr ?_)⟩
    cases hold : s.area.stored lsa.key with
    | none => simp [hold, isMoreRecent] at hrecent
    | some o => exact ⟨o, rfl, by simpa [hold, isMoreRecent] using hrecent⟩

theorem handleLsa_goesOn {b : Bool} (h : handleLsa stack now inIf src s lsa = some (s', b))
    (hends : ¬ EndsUpdate inIf src s lsa) : b = true := by
  unfold handleLsa at h
  split at h
  · exact (Prod.mk.inj (Option.some.inj h)).2.symm
  dsimp only at h
  rw [lsdbLookup_eq] at h
  split at h
  · exact (Prod.mk.inj (Option.some.inj h)).2.symm
  split at h
  · rw [Option.map_eq_some_iff] at h
    obtain ⟨⟨s₁, r⟩, -, h⟩ := h
    exact (Prod.mk.inj h).2.symm
  · rename_i hrecent
    simp only [Option.bind_eq_bind, Option.bind_eq_some_iff] at h
    obtain ⟨neigh, hneigh, h⟩ := h
    split at h
    · rename_i hreq
      refine absurd ⟨?_, neigh, hneigh, hreq⟩ hends
      cases hold : s.area.stored lsa.key with
      | none => simp [hold, isMoreRecent] at hrecent
      | some o => exact ⟨o, rfl, by simpa [hold, isMoreRecent] using hrecent⟩
    · exact (Prod.mk.inj (Option.some.inj h)).2.symm

/-! ## When a step is an offer -/

/-- The second instance is the more recent one. -/
def MoreRecent (ospf : Pds) (o a : LsaHdr) : Prop := 0 < lsaCompare ospf o a

instance (ospf : Pds) : DecidableRel (MoreRecent ospf) := fun o a =>
  inferInstanceAs (Decidable (0 < lsaCompare ospf o a))

/-- The LSA as it is stored. -/
def stamped (now : ℚ) (lsa : LsaHdr) : LsaHdr := { lsa with time := now }

/-- The table after an LSA is offered to it. -/
abbrev offerLsa (ospf : Pds) (t : LsaKey → Option LsaHdr) (a : LsaHdr) : LsaKey → Option LsaHdr :=
  offer LsaHdr.key (MoreRecent ospf) t a

/-- The states in which the step for an LSA keeps the more recent instance. A stored instance is kept or
replaced as its content tells, and the router's own LSA gets a number of its own. -/
def KeepsLatest (stack : Stack) (s : Router) (lsa : LsaHdr) : Prop :=
  match s.area.stored lsa.key with
  | none => lsa.lsType.IsStored ∧ ¬ Dropped s lsa ∧ ¬ Advances stack s lsa
  | some o => lsaCompare s.ospf o lsa = 0 ∨
      (¬ Advances stack s lsa ∧ (0 < lsaCompare s.ospf o lsa ↔ isContentChanged s.ospf lsa o = true)) ∨
      (Advances stack s lsa ∧ lsaCompare s.ospf o lsa < 0 ∧ isContentChanged s.ospf lsa o = false ∧
        o.lsSequenceNumber = lsa.lsSequenceNumber + 1)

instance (s : Router) (lsa : LsaHdr) : Decidable (KeepsLatest stack s lsa) := by
  unfold KeepsLatest
  split <;> infer_instance

theorem RlsaLink.matches_self (link : RlsaLink) : link.matches link = true := by
  simp [RlsaLink.matches]

theorem rlsaIsBodyChanged_self (rlsa : Rlsa) : rlsaIsBodyChanged rlsa rlsa = false := by
  have hnil : ∀ links : List RlsaLink, unmatchedLinks links links = [] := by
    intro links
    induction links with
    | nil => rfl
    | cons link links ih =>
      unfold unmatchedLinks at ih ⊢
      rw [List.foldl_cons, List.eraseP_cons_of_pos link.matches_self]
      exact ih
  simp [rlsaIsBodyChanged, hnil]

/-- The content of an LSA with another number and time is the same. -/
theorem isContentChanged_eq_false {ospf : Pds} {o : LsaHdr} (h : lsa.options = o.options)
    (hage : lsa.lsAge = o.lsAge) (hlen : lsa.length = o.length) (hinfo : lsa.lsaInfo = o.lsaInfo) :
    isContentChanged ospf lsa o = false := by
  unfold isContentChanged hasMaxAge lsaIsBodyChanged
  rw [h, hage, hlen, hinfo]
  cases lsa.lsType <;> simp [rlsaIsBodyChanged_self]

/-- The number that an own LSA gets is not the received one. -/
theorem advanced_ne (m : LsaHdr) : advanced lsa m ≠ stamped now lsa := by
  intro h
  have hseq := congrArg LsaHdr.lsSequenceNumber h
  have hnat := congrArg UInt32.toNat (show lsa.lsSequenceNumber + 1 = lsa.lsSequenceNumber from hseq)
  rw [UInt32.toNat_add] at hnat
  have hlt := lsa.lsSequenceNumber.toNat_lt
  have hone : (1 : UInt32).toNat = 1 := rfl
  omega

/-- A stored instance is not the received one, unless they are equally recent. -/
theorem ne_stamped {o : LsaHdr} (h : lsaCompare s.ospf o lsa ≠ 0) : o ≠ stamped now lsa := by
  rintro rfl
  have hcongr : lsaCompare s.ospf (stamped now lsa) lsa = lsaCompare s.ospf lsa lsa :=
    lsaCompare_congr rfl rfl rfl rfl
  exact h (hcongr.trans (lsaCompare_self lsa))

theorem latest_stamped (ospf : Pds) (o lsa : LsaHdr) :
    latest (MoreRecent ospf) (some o) (stamped now lsa) =
      if 0 < lsaCompare ospf o lsa then stamped now lsa else o := rfl

/-- **The step for an LSA that is not refused is an offer in exactly the states of `KeepsLatest`.** -/
theorem handleLsa_offers_iff {b : Bool} (h : handleLsa stack now inIf src s lsa = some (s', b))
    (href : ¬ Refused stack now s lsa) :
    s'.area.stored = offerLsa s.ospf s.area.stored (stamped now lsa) ↔ KeepsLatest stack s lsa := by
  have hcases := handleLsa_cases h
  have hframe : ∀ k, (stamped now lsa).key ≠ k → s'.area.stored k = s.area.stored k := by
    intro k hk
    rcases hcases with ⟨harea, -⟩ | ⟨-, ⟨-, harea⟩ | ⟨-, hstores⟩⟩
    · rw [harea]
    · rw [harea]
    · exact hstores.2 k hk
  rw [eq_offer_iff hframe]
  change s'.area.stored lsa.key = some (latest _ (s.area.stored lsa.key) _) ↔ _
  unfold KeepsLatest
  rcases hcases with ⟨harea, hwhy⟩ | ⟨⟨htype, hdrop, hne⟩, ⟨hr, -⟩ | ⟨-, hstored, -⟩⟩
  · -- the database stays as it is
    rw [harea]
    cases hold : s.area.stored lsa.key with
    | none =>
      have hno : ¬ (lsa.lsType.IsStored ∧ ¬ Dropped s lsa ∧ ¬ Advances stack s lsa) := by
        rintro ⟨htype, hdrop, -⟩
        rcases hwhy with h | h | ⟨o, ho, -⟩
        · exact h htype
        · exact hdrop h
        · rw [hold] at ho
          cases ho
      simp [hno]
    | some o =>
      have hzero : lsaCompare s.ospf o lsa = 0 := by
        rcases hwhy with h | h | ⟨o', ho', hzero⟩
        · rw [← isSome_list?_iff, Option.not_isSome_iff_eq_none] at h
          rw [stored_of_none h] at hold
          cases hold
        · rw [h.2.1] at hold
          cases hold
        · obtain rfl : o = o' := Option.some.inj (hold.symm.trans ho')
          exact hzero
      simp [latest_stamped, hzero]
  · exact absurd hr href
  · -- the LSA is installed, and the router's own one gets a number of its own
    rw [hstored, Option.some.injEq]
    unfold updated
    cases hold : s.area.stored lsa.key with
    | none =>
      change (if Advances stack s lsa then advanced lsa (stamped now lsa) else stamped now lsa) =
        stamped now lsa ↔ _
      by_cases hadv : Advances stack s lsa
      · simp [hadv, advanced_ne]
      · simp [hadv, htype, hdrop]
    | some o =>
      have hc : lsaCompare s.ospf o lsa ≠ 0 := hne o hold
      have hos : o ≠ stamped now lsa := ne_stamped hc
      change (if Advances stack s lsa
        then advanced lsa (if isContentChanged s.ospf lsa o then stamped now lsa else o)
        else if isContentChanged s.ospf lsa o then stamped now lsa else o) = _ ↔ _
      rw [latest_stamped]
      by_cases hadv : Advances stack s lsa
      · have hadvanced : advanced lsa o = o ↔ o.lsSequenceNumber = lsa.lsSequenceNumber + 1 := by
          constructor
          · intro h
            exact (congrArg LsaHdr.lsSequenceNumber h).symm
          · intro h
            unfold advanced
            rw [← h]
        by_cases hpos : 0 < lsaCompare s.ospf o lsa
        · have hneg : ¬ lsaCompare s.ospf o lsa < 0 := by omega
          simp [hadv, hpos, hneg, hc, advanced_ne]
        · have hneg : lsaCompare s.ospf o lsa < 0 := by omega
          by_cases hch : isContentChanged s.ospf lsa o = true
          · -- an instance that equals the stored one has no other content
            have hne : advanced lsa (stamped now lsa) ≠ o := by
              rintro rfl
              have hsame : isContentChanged s.ospf lsa (advanced lsa (stamped now lsa)) = false :=
                isContentChanged_eq_false rfl rfl rfl rfl
              rw [hsame] at hch
              cases hch
            simp [hadv, hpos, hch, hc, hne]
          · rw [Bool.not_eq_true] at hch
            simp [hadv, hpos, hneg, hch, hc, hadvanced]
      · by_cases hpos : 0 < lsaCompare s.ospf o lsa
        · by_cases hch : isContentChanged s.ospf lsa o = true
          · simp [hadv, hpos, hch]
          · simp [hadv, hpos, hch, hos, hc]
        · by_cases hch : isContentChanged s.ospf lsa o = true
          · simp [hadv, hpos, hch, hos.symm, hc]
          · simp [hadv, hpos, hch]

theorem handleLsa_refused {b : Bool} (h : handleLsa stack now inIf src s lsa = some (s', b))
    (href : Refused stack now s lsa) : s'.area = s.area := by
  rcases handleLsa_cases h with ⟨harea, -⟩ | ⟨-, ⟨-, harea⟩ | ⟨hnot, -⟩⟩
  · exact harea
  · exact harea
  · exact absurd href hnot

/-! ## A whole update -/

/-- The states before the LSAs that the loop gets to. -/
def processed (stack : Stack) (now : ℚ) (inIf : ℕ) (src : Ip) : Router → List LsaHdr → List (Router × LsaHdr)
  | _, [] => []
  | s, lsa :: lsas => (s, lsa) :: match handleLsa stack now inIf src s lsa with
    | some (s', true) => processed stack now inIf src s' lsas
    | _ => []

/-- The LSAs that are not refused. -/
def unrefused (stack : Stack) (now : ℚ) (inIf : ℕ) (src : Ip) (s : Router) (lsas : List LsaHdr) :
    List LsaHdr :=
  ((processed stack now inIf src s lsas).filter fun p => ¬ Refused stack now p.1 p.2).map Prod.snd

/-- The state before an LSA lets the step keep the more recent instance, or refuses the LSA, and does not
end the update. -/
def MeetsLatest (stack : Stack) (now : ℚ) (inIf : ℕ) (src : Ip) (p : Router × LsaHdr) : Prop :=
  (Refused stack now p.1 p.2 ∨ KeepsLatest stack p.1 p.2) ∧ ¬ EndsUpdate inIf src p.1 p.2

instance (p : Router × LsaHdr) : Decidable (MeetsLatest stack now inIf src p) :=
  inferInstanceAs (Decidable (_ ∧ _))

/-- The loop goes on after an LSA that meets the condition. -/
theorem handleLsas_cons {lsas : List LsaHdr} {b : Bool}
    (h : handleLsas stack now inIf src s (lsa :: lsas) = some (s', b))
    (hmeets : ∀ p ∈ processed stack now inIf src s (lsa :: lsas), MeetsLatest stack now inIf src p) :
    ∃ s₁, handleLsa stack now inIf src s lsa = some (s₁, true) ∧
      handleLsas stack now inIf src s₁ lsas = some (s', b) ∧
      processed stack now inIf src s (lsa :: lsas) = (s, lsa) :: processed stack now inIf src s₁ lsas := by
  have hhead := hmeets (s, lsa) (by unfold processed; exact List.mem_cons_self)
  unfold handleLsas at h
  simp only [Option.bind_eq_bind, Option.bind_eq_some_iff] at h
  obtain ⟨⟨s₁, b₁⟩, hstep, h⟩ := h
  obtain rfl : b₁ = true := handleLsa_goesOn hstep hhead.2
  exact ⟨s₁, hstep, h, by rw [processed, hstep]⟩

/-- Every LSA of an update that meets the condition is processed. -/
theorem map_snd_processed {lsas : List LsaHdr} {b : Bool}
    (h : handleLsas stack now inIf src s lsas = some (s', b))
    (hmeets : ∀ p ∈ processed stack now inIf src s lsas, MeetsLatest stack now inIf src p) :
    (processed stack now inIf src s lsas).map Prod.snd = lsas := by
  induction lsas generalizing s with
  | nil => rfl
  | cons lsa lsas ih =>
    obtain ⟨s₁, -, hrest, hproc⟩ := handleLsas_cons h hmeets
    rw [hproc, List.map_cons, ih hrest fun p hp => hmeets p (by rw [hproc]; exact List.mem_cons_of_mem _ hp)]

theorem handleLsas_stored {lsas : List LsaHdr} {b : Bool}
    (h : handleLsas stack now inIf src s lsas = some (s', b))
    (hmeets : ∀ p ∈ processed stack now inIf src s lsas, MeetsLatest stack now inIf src p) :
    s'.area.stored =
      ((unrefused stack now inIf src s lsas).map (stamped now)).foldl (offerLsa s.ospf) s.area.stored := by
  induction lsas generalizing s with
  | nil =>
    obtain ⟨rfl, -⟩ := Prod.mk.inj (Option.some.inj h)
    rfl
  | cons lsa lsas ih =>
    obtain ⟨s₁, hstep, hrest, hproc⟩ := handleLsas_cons h hmeets
    rw [hproc] at hmeets
    have hstored := ih hrest fun p hp => hmeets p (List.mem_cons_of_mem _ hp)
    obtain ⟨ifs, hifs⟩ := handleLsa_settings hstep
    have hoffer : offerLsa s₁.ospf = offerLsa s.ospf := by
      rw [hifs]
      rfl
    rw [hoffer] at hstored
    unfold unrefused at hstored ⊢
    rw [hproc, hstored]
    by_cases href : Refused stack now s lsa
    · rw [List.filter_cons_of_neg (by simpa using href), handleLsa_refused hstep href]
    · have hkeeps : KeepsLatest stack s lsa :=
        (hmeets (s, lsa) List.mem_cons_self).1.resolve_left href
      rw [List.filter_cons_of_pos (by simpa using href), (handleLsa_offers_iff hstep href).2 hkeeps]
      rfl

/-- An update from a neighbour in state Exchange or higher whose LSAs all meet the condition. -/
structure LatestRun (stack : Stack) (now : ℚ) (inIf : ℕ) (src : Ip) (s : Router) (lsas : List LsaHdr)
    (s' : Router) : Prop where
  run : handleLsUpdate stack now inIf src s lsas = some s'
  neighbor : ∃ neigh ∈ currentNeighbor inIf src s.ospf, NeighState.exchange.val ≤ neigh.state.val
  meets : ∀ p ∈ processed stack now inIf src s lsas, MeetsLatest stack now inIf src p

theorem LatestRun.loop {lsas : List LsaHdr} (r : LatestRun stack now inIf src s lsas s') :
    ∃ s₁ b, handleLsas stack now inIf src s lsas = some (s₁, b) ∧ s'.area = s₁.area := by
  obtain ⟨neigh, hneigh, hstate⟩ := r.neighbor
  have h := r.run
  unfold handleLsUpdate at h
  rw [Option.mem_def] at hneigh
  have hlt : ¬ neigh.state.val < NeighState.exchange.val := by omega
  simp only [hneigh, Option.bind_eq_bind, Option.bind_some, if_neg hlt, Option.bind_eq_some_iff] at h
  obtain ⟨⟨s₁, b⟩, hloop, neigh', -, h⟩ := h
  refine ⟨s₁, b, hloop, ?_⟩
  obtain rfl := Option.some.inj h
  split
  · rfl
  · rfl

theorem LatestRun.stored {lsas : List LsaHdr} (r : LatestRun stack now inIf src s lsas s') :
    s'.area.stored =
      ((unrefused stack now inIf src s lsas).map (stamped now)).foldl (offerLsa s.ospf) s.area.stored := by
  obtain ⟨s₁, b, hloop, harea⟩ := r.loop
  rw [harea]
  exact handleLsas_stored hloop r.meets

/-- An LSA without its age and the time of its installation. -/
def LsaHdr.contents (lsa : LsaHdr) : LsaHdr := { lsa with lsAge := 0, time := 0 }

/-- What a router has stored for a key or is offered by an update. -/
abbrev Offered (stack : Stack) (now : ℚ) (inIf : ℕ) (src : Ip) (s : Router) (lsas : List LsaHdr)
    (k : LsaKey) (a : LsaHdr) : Prop :=
  Entry LsaHdr.key s.area.stored ((unrefused stack now inIf src s lsas).map (stamped now)) k a

theorem seq_le_of_moreRecent {ospf : Pds} (o a : LsaHdr) (h : MoreRecent ospf o a) :
    o.lsSequenceNumber.toNat ≤ a.lsSequenceNumber.toNat :=
  UInt32.le_iff_toNat_le.1 (seq_le_of_lsaCompare_pos h)

theorem seq_le_of_not_moreRecent {ospf : Pds} (o a : LsaHdr) (h : ¬ MoreRecent ospf o a) :
    a.lsSequenceNumber.toNat ≤ o.lsSequenceNumber.toNat :=
  UInt32.le_iff_toNat_le.1 (seq_le_of_lsaCompare_nonpos (not_lt.1 h))

/-- **An update whose LSAs all meet the condition leaves the latest instances.** Each LSA that is not
refused replaces the stored instance of its key if and only if it is more recent; the number stored in the
end is the greatest one; and two routers that start with the same database and take in the same LSAs, in
any order, end with the same database, provided that key and number identify an instance. -/
theorem handleLsUpdate_latest {lsas : List LsaHdr} (r : LatestRun stack now inIf src s lsas s') :
    (processed stack now inIf src s lsas).map Prod.snd = lsas ∧
    s'.area.stored =
      ((unrefused stack now inIf src s lsas).map (stamped now)).foldl (offerLsa s.ospf) s.area.stored ∧
    (∀ k b, s'.area.stored k = some b →
      IsGreatest {n | ∃ a, Offered stack now inIf src s lsas k a ∧ a.lsSequenceNumber.toNat = n}
        b.lsSequenceNumber.toNat) ∧
    ∀ (stack' : Stack) (now' : ℚ) (inIf' : ℕ) (src' : Ip) (t : Router) (lsas' : List LsaHdr) (t' : Router),
      LatestRun stack' now' inIf' src' t lsas' t' →
      (∀ k, (s.area.stored k).map LsaHdr.contents = (t.area.stored k).map LsaHdr.contents) →
      (∀ a, a ∈ unrefused stack now inIf src s lsas ↔ a ∈ unrefused stack' now' inIf' src' t lsas') →
      (∀ k a a', Offered stack' now' inIf' src' t lsas' k a → Offered stack' now' inIf' src' t lsas' k a' →
        a.lsSequenceNumber = a'.lsSequenceNumber → a.contents = a'.contents) →
      ∀ k, (s'.area.stored k).map LsaHdr.contents = (t'.area.stored k).map LsaHdr.contents := by
  obtain ⟨s₁, b₁, hloop, -⟩ := r.loop
  refine ⟨map_snd_processed hloop r.meets, r.stored, ?_, ?_⟩
  · intro k b hb
    rw [r.stored] at hb
    exact isGreatest_foldl seq_le_of_moreRecent seq_le_of_not_moreRecent hb
  · intro stack' now' inIf' src' t lsas' t' r' hdb hsame hident k
    rw [r.stored, r'.stored]
    refine view_foldl_eq seq_le_of_moreRecent seq_le_of_not_moreRecent seq_le_of_moreRecent
      seq_le_of_not_moreRecent ?_ ?_ ?_
    · intro a a' h
      have hseq : a.contents.lsSequenceNumber = a'.contents.lsSequenceNumber := by rw [h]
      exact congrArg UInt32.toNat hseq
    · intro a a' ha ha' h
      exact hident k a a' ha ha' (UInt32.toNat_inj.1 h)
    · intro v
      have hstored : (∃ a, s.area.stored k = some a ∧ a.contents = v) ↔
          ∃ a, t.area.stored k = some a ∧ a.contents = v := by
        rw [← Option.map_eq_some_iff, ← Option.map_eq_some_iff, hdb]
      have hoffered : (∃ a, (a ∈ (unrefused stack now inIf src s lsas).map (stamped now) ∧
          a.key = k) ∧ a.contents = v) ↔
          ∃ a, (a ∈ (unrefused stack' now' inIf' src' t lsas').map (stamped now') ∧ a.key = k) ∧
            a.contents = v := by
        simp only [List.mem_map]
        constructor
        · rintro ⟨-, ⟨⟨a, ha, rfl⟩, hk⟩, hv⟩
          exact ⟨_, ⟨⟨a, (hsame a).1 ha, rfl⟩, hk⟩, hv⟩
        · rintro ⟨-, ⟨⟨a, ha, rfl⟩, hk⟩, hv⟩
          exact ⟨_, ⟨⟨a, (hsame a).2 ha, rfl⟩, hk⟩, hv⟩
      unfold Entry
      simp only [or_and_right, exists_or]
      rw [hstored, hoffered]

/-! ## A database with one LSA -/

/-- An area whose database has these router LSAs. -/
def routerArea (routerLSAList : List LsaHdr) : AreaDs where
  areaId := ⟨0, 0⟩
  routerLSAList := routerLSAList
  nwLSAList := []
  routerSummaryLSAList := []
  nwSummaryLSAList := []
  maxAgeList := []
  extRoutingCapability := false

/-- A stack that knows no address. -/
def noStack : Stack := ⟨fun _ => false, fun _ => 0, fun _ => 0, fun _ _ _ => false⟩

/-- A router that has stored the instance 5 of an LSA of router 7. -/
def storedRouter : Router :=
  ⟨twoNeighborRouter .p2p .p2p, routerArea [stamped 1 (routerLsaOf 7 5)]⟩

/-- The LSA of router 7 with another content. -/
def changedLsa (seq : UInt32) : LsaHdr := { routerLsaOf 7 seq with options := 1 }

theorem handleLsUpdate_latest_stored :
    ∃ s', handleLsUpdate noStack 10000000 1 ⟨0, 2⟩ storedRouter [changedLsa 6, routerLsaOf 8 1] = some s' ∧
      s'.area.stored = ((unrefused noStack 10000000 1 ⟨0, 2⟩ storedRouter
        [changedLsa 6, routerLsaOf 8 1]).map (stamped 10000000)).foldl (offerLsa storedRouter.ospf)
          storedRouter.area.stored := by
  have hrun : (handleLsUpdate noStack 10000000 1 ⟨0, 2⟩ storedRouter
      [changedLsa 6, routerLsaOf 8 1]).isSome := by decide +kernel
  obtain ⟨s', hs'⟩ := Option.isSome_iff_exists.1 hrun
  have r : LatestRun noStack 10000000 1 ⟨0, 2⟩ storedRouter [changedLsa 6, routerLsaOf 8 1] s' :=
    ⟨hs', ⟨fullNeighbor 2, by decide, by decide⟩, by decide +kernel⟩
  exact ⟨s', hs', (handleLsUpdate_latest r).2.1⟩

/-- A more recent instance with the stored content is not recorded, and an older one with another content
replaces the stored one. -/
theorem handleLsUpdate_regresses :
    ((handleLsUpdate noStack 10000000 1 ⟨0, 2⟩ storedRouter [routerLsaOf 7 6]).map fun s =>
        (s.area.stored (.routerLsa, 7, 7)).map LsaHdr.lsSequenceNumber) = some (some 5) ∧
      ((handleLsUpdate noStack 10000000 1 ⟨0, 2⟩ storedRouter [changedLsa 4]).map fun s =>
        (s.area.stored (.routerLsa, 7, 7)).map LsaHdr.lsSequenceNumber) = some (some 4) := by
  decide +kernel

end NetSim.Ospf
