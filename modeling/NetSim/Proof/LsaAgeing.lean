import NetSim.Proof.LsdbLatest
import NetSim.Spec.OspfAge

/-!
# What ageing does to the database

An event `OSPF_INCREMENTAGE` changes each entry of the database on its own (`aged`) and keeps its key, so
it maps the table of stored instances (`handleIncrementAge_stored`), unless the entry is one that demand
circuits keep from ageing.
-/

namespace NetSim.Ospf

variable {ospf ospf' : Pds} {now : ℚ} {areaId : Ip} {maxAgeList maxAgeList' : List LsaHdr} {hdr hdr' : LsaHdr}
  {s s' : Router}

/-! ## One entry -/

/-- The entry when its age has been raised. -/
def raised (ospf : Pds) (hdr : LsaHdr) : LsaHdr :=
  { hdr with lsAge := assignNewLSAge ospf hdr.lsAge (tempAge ospf hdr) }

/-- A refreshed instance. -/
def refreshed (now : ℚ) (hdr : LsaHdr) : LsaHdr :=
  { hdr with lsSequenceNumber := hdr.lsSequenceNumber + 1, lsAge := 0, time := now }

/-- The entry after `ospf_LSDB_IncrementLSAgeInLSAList`. -/
def aged (ospf : Pds) (now : ℚ) (hdr : LsaHdr) : LsaHdr :=
  if hasMaxAge ospf hdr then hdr
  else if isRefreshDue ospf hdr then
    if hdr.lsSequenceNumber = maxSequenceNumber then { hdr with lsAge := ospf.lsaMaxAge }
    else refreshed now hdr
  else raised ospf hdr

theorem lsaFlush_flushed {flushed : LsaHdr}
    (h : lsaFlush ospf areaId maxAgeList hdr = some (ospf', maxAgeList', flushed)) :
    flushed = { hdr with lsAge := ospf.lsaMaxAge } := by
  unfold lsaFlush at h
  split at h
  · rename_i hmax
    obtain ⟨-, h⟩ := Prod.mk.inj (Option.some.inj h)
    obtain ⟨-, rfl⟩ := Prod.mk.inj h
    rw [beq_iff_eq] at hmax
    rw [← hmax]
  · simp only [Option.bind_eq_bind, Option.bind_eq_some_iff, Option.pure_def] at h
    obtain ⟨⟨o, b⟩, -, h⟩ := h
    obtain ⟨-, h⟩ := Prod.mk.inj (Option.some.inj h)
    exact (Prod.mk.inj h).2.symm

theorem lsdbRefreshLSA_spec
    (h : lsdbRefreshLSA ospf now areaId maxAgeList hdr = some (ospf', maxAgeList', hdr')) :
    SameSettings ospf ospf' ∧ hdr' = if hdr.lsSequenceNumber = maxSequenceNumber
      then { hdr with lsAge := ospf.lsaMaxAge } else refreshed now hdr := by
  unfold lsdbRefreshLSA at h
  split at h
  · rename_i hmax
    rw [if_pos (beq_iff_eq.1 hmax)]
    exact ⟨(lsaFlush_frame h).settings, lsaFlush_flushed h⟩
  · rename_i hmax
    rw [if_neg fun heq => hmax (beq_iff_eq.2 heq)]
    simp only [Option.bind_eq_bind, Option.bind_eq_some_iff, Option.pure_def] at h
    obtain ⟨⟨o, b⟩, hflood, h⟩ := h
    obtain ⟨rfl, h'⟩ := Prod.mk.inj (Option.some.inj h)
    exact ⟨(lsaFlood_frame hflood).settings, (Prod.mk.inj h').2.symm⟩

theorem incrementLSAge_spec
    (h : incrementLSAge ospf now areaId maxAgeList hdr = some (ospf', maxAgeList', hdr')) :
    SameSettings ospf ospf' ∧ hdr' = aged ospf now hdr := by
  unfold incrementLSAge at h
  unfold aged
  split at h
  · rename_i hmax
    obtain ⟨rfl, h'⟩ := Prod.mk.inj (Option.some.inj h)
    rw [if_pos hmax]
    exact ⟨SameSettings.refl _, (Prod.mk.inj h').2.symm⟩
  rename_i hmax
  rw [if_neg hmax]
  dsimp only at h
  split at h
  · rename_i hdue
    rw [if_pos hdue]
    have hspec := lsdbRefreshLSA_spec h
    exact hspec
  rename_i hdue
  rw [if_neg hdue]
  split at h
  · simp only [Option.bind_eq_bind, Option.bind_eq_some_iff, Option.pure_def] at h
    obtain ⟨⟨o, b⟩, hflood, h⟩ := h
    obtain ⟨rfl, h'⟩ := Prod.mk.inj (Option.some.inj h)
    exact ⟨(lsaFlood_frame hflood).settings, (Prod.mk.inj h').2.symm⟩
  · obtain ⟨rfl, h'⟩ := Prod.mk.inj (Option.some.inj h)
    exact ⟨SameSettings.refl _, (Prod.mk.inj h').2.symm⟩

/-! ## The lists -/

theorem SameSettings.aged (h : SameSettings ospf ospf') (now : ℚ) :
    Ospf.aged ospf' now = Ospf.aged ospf now := by
  obtain ⟨ifs, rfl⟩ := h
  rfl

theorem incrementLSAgeInLSAList_spec {list list' : List LsaHdr}
    (h : incrementLSAgeInLSAList now areaId ospf maxAgeList list = some (ospf', maxAgeList', list')) :
    SameSettings ospf ospf' ∧ list' = list.map (aged ospf now) := by
  induction list generalizing ospf maxAgeList maxAgeList' list' with
  | nil =>
    obtain ⟨rfl, h'⟩ := Prod.mk.inj (Option.some.inj h)
    exact ⟨SameSettings.refl _, (Prod.mk.inj h').2.symm⟩
  | cons hdr list ih =>
    unfold incrementLSAgeInLSAList at h
    simp only [Option.bind_eq_bind, Option.bind_eq_some_iff, Option.pure_def] at h
    obtain ⟨⟨o₁, m₁, hdr₁⟩, hhead, ⟨o₂, m₂, list₂⟩, htail, h⟩ := h
    obtain ⟨rfl, h'⟩ := Prod.mk.inj (Option.some.inj h)
    obtain ⟨-, rfl⟩ := Prod.mk.inj h'
    obtain ⟨hset, rfl⟩ := incrementLSAge_spec hhead
    obtain ⟨hset', rfl⟩ := ih htail
    rw [hset.aged]
    exact ⟨hset.trans hset', rfl⟩

theorem Router.incrementLSAge_spec {t : LsType} (h : s.incrementLSAge now t = some s') :
    SameSettings s.ospf s'.ospf ∧
      s'.area.list? t = (s.area.list? t).map (List.map (aged s.ospf now)) ∧
      ∀ t', t ≠ t' → s'.area.list? t' = s.area.list? t' := by
  unfold Router.incrementLSAge at h
  simp only [Option.bind_eq_bind, Option.bind_eq_some_iff, Option.pure_def] at h
  obtain ⟨list, hlist, ⟨o, m, list'⟩, hloop, h⟩ := h
  obtain rfl := Option.some.inj h
  obtain ⟨hset, rfl⟩ := incrementLSAgeInLSAList_spec hloop
  have hmax : ∀ t', ({ s.area.withList t (list.map (aged s.ospf now)) with maxAgeList := m }
      : AreaDs).list? t' = (s.area.withList t (list.map (aged s.ospf now))).list? t' := by
    intro t'
    cases t' <;> rfl
  refine ⟨hset, ?_, ?_⟩
  · have hsome : (s.area.list? t).isSome := by rw [hlist]; rfl
    rw [hlist]
    exact (hmax t).trans (list?_withList hsome)
  · intro t' ht'
    exact (hmax t').trans (list?_withList_of_ne ht')

/-- The loops over the lists of some types. -/
theorem foldlM_incrementLSAge_spec {types : List LsType} (hnodup : types.Nodup)
    (h : types.foldlM (Router.incrementLSAge now) s = some s') :
    SameSettings s.ospf s'.ospf ∧ ∀ t, s'.area.list? t =
      if t ∈ types then (s.area.list? t).map (List.map (aged s.ospf now)) else s.area.list? t := by
  induction types generalizing s with
  | nil =>
    obtain rfl := Option.some.inj h
    exact ⟨SameSettings.refl _, fun t => by simp⟩
  | cons u types ih =>
    simp only [List.foldlM_cons, Option.bind_eq_bind, Option.bind_eq_some_iff] at h
    obtain ⟨s₁, hhead, htail⟩ := h
    obtain ⟨hset, hsame, hother⟩ := Router.incrementLSAge_spec hhead
    obtain ⟨hset', hlists⟩ := ih (List.nodup_cons.1 hnodup).2 htail
    refine ⟨hset.trans hset', ?_⟩
    intro t
    rw [hlists t, hset.aged]
    by_cases ht : u = t
    · subst ht
      rw [if_neg (List.nodup_cons.1 hnodup).1, if_pos List.mem_cons_self, hsame]
    · have hmem : t ∈ u :: types ↔ t ∈ types := by
        rw [List.mem_cons]
        exact or_iff_right fun h => ht h.symm
      rw [hother t ht]
      simp only [hmem]

theorem aged_hasIds (ospf : Pds) (now : ℚ) (hdr : LsaHdr) (ids : UInt32 × UInt32) :
    (aged ospf now hdr).hasIds ids = hdr.hasIds ids := by
  unfold aged
  split
  · rfl
  split
  · split
    · rfl
    · rfl
  · rfl

/-- Ageing the lists maps the table. -/
theorem stored_map_aged {area area' : AreaDs}
    (h : ∀ t, area'.list? t = (area.list? t).map (List.map (aged ospf now))) (k : LsaKey) :
    area'.stored k = (area.stored k).map (aged ospf now) := by
  unfold AreaDs.stored
  rw [h]
  cases area.list? k.1 with
  | none => rfl
  | some list =>
    change (list.map (aged ospf now)).find? (LsaHdr.hasIds k.2) = (list.find? (LsaHdr.hasIds k.2)).map _
    rw [List.find?_map]
    congr 2
    funext hdr
    exact aged_hasIds ospf now hdr k.2

/-! ## Ages -/

theorem and_doNotAge_eq_zero {x : UInt16} (h : x < 0x8000) : x &&& doNotAge = 0 := by
  rw [← UInt16.toNat_inj, UInt16.toNat_and]
  have hlt : x.toNat < 2 ^ 15 := UInt16.lt_iff_toNat_lt.1 h
  refine Nat.eq_of_testBit_eq fun j => ?_
  change (x.toNat &&& 2 ^ 15).testBit j = (0 : ℕ).testBit j
  rw [Nat.testBit_and, Nat.testBit_two_pow, Nat.zero_testBit]
  by_cases hj : 15 = j
  · subst hj
    rw [Nat.testBit_lt_two_pow hlt]
    rfl
  · simp [hj]

theorem or_and_not_doNotAge_le (x : UInt16) : (doNotAge ||| x) &&& ~~~doNotAge ≤ x := by
  have heq : (doNotAge ||| x) &&& ~~~doNotAge = x &&& ~~~doNotAge := by
    rw [← UInt16.toBitVec_inj]
    ext j hj
    simp only [UInt16.toBitVec_and, UInt16.toBitVec_or, UInt16.toBitVec_not, BitVec.getElem_and,
      BitVec.getElem_or, BitVec.getElem_not]
    cases doNotAge.toBitVec[j] with
    | true => simp
    | false => simp
  rw [heq]
  exact UInt16.and_le_left

/-- An age that is not marked is its own mask. -/
theorem maskDoNotAge_of_not {x : UInt16} (h : checkForDoNotAge ospf x = false) : maskDoNotAge ospf x = x := by
  unfold maskDoNotAge
  rw [h]
  rfl

theorem maskDoNotAge_le (ospf : Pds) (x : UInt16) : maskDoNotAge ospf x ≤ x := by
  unfold maskDoNotAge
  split
  · exact UInt16.and_le_left
  · exact UInt16.le_refl x

theorem tempAge_le (ospf : Pds) (hdr : LsaHdr) : tempAge ospf hdr ≤ ospf.lsaMaxAge := by
  unfold tempAge
  dsimp only
  generalize (if checkForDoNotAge ospf hdr.lsAge then maskDoNotAge ospf hdr.lsAge
    else maskDoNotAge ospf hdr.lsAge + ageIncrement ospf) = age
  split
  · exact UInt16.le_refl _
  · rename_i hgt
    rw [gt_iff_lt, UInt16.lt_iff_toNat_lt] at hgt
    rw [UInt16.le_iff_toNat_le]
    omega

theorem maskDoNotAge_assignNewLSAge_le (ospf : Pds) (old new : UInt16) :
    maskDoNotAge ospf (assignNewLSAge ospf old new) ≤ new := by
  unfold assignNewLSAge
  by_cases hold : checkForDoNotAge ospf old = true
  · rw [if_pos hold]
    unfold maskDoNotAge
    split
    · exact or_and_not_doNotAge_le new
    · rename_i hnew
      -- the mark that is put back is read back
      unfold checkForDoNotAge at hold hnew
      split at hold
      · rename_i hdc
        rw [if_pos hdc, bne_iff_ne, not_not] at hnew
        have hbit : (doNotAge ||| new) &&& doNotAge = doNotAge := by
          rw [← UInt16.toBitVec_inj]
          ext j hj
          simp only [UInt16.toBitVec_and, UInt16.toBitVec_or, BitVec.getElem_and, BitVec.getElem_or]
          cases doNotAge.toBitVec[j] with
          | true => simp
          | false => simp
        rw [hbit] at hnew
        cases hnew
      · cases hold
  · rw [if_neg hold]
    exact maskDoNotAge_le ospf new

/-- No age of the database is above `LSAMaxAge`. -/
def AgesBounded (s : Router) : Prop :=
  ∀ t list, s.area.list? t = some list → ∀ hdr ∈ list, maskDoNotAge s.ospf hdr.lsAge ≤ s.ospf.lsaMaxAge

theorem aged_age_le (ospf : Pds) (now : ℚ) (hdr : LsaHdr) :
    maskDoNotAge ospf (aged ospf now hdr).lsAge ≤ ospf.lsaMaxAge := by
  unfold aged
  split
  · rename_i hmax
    unfold hasMaxAge at hmax
    rw [beq_iff_eq.1 hmax]
    exact UInt16.le_refl _
  split
  · split
    · exact maskDoNotAge_le ospf _
    · exact UInt16.le_trans (maskDoNotAge_le ospf 0) UInt16.zero_le
  · exact UInt16.le_trans (maskDoNotAge_assignNewLSAge_le ospf _ _) (tempAge_le ospf hdr)

/-- The entries of a key are not marked as entries that do not age. -/
def AgesOn (s : Router) (k : LsaKey) : Prop :=
  ∀ t list, s.area.list? t = some list → ∀ hdr ∈ list, hdr.key = k →
    checkForDoNotAge s.ospf hdr.lsAge = false

theorem checkForDoNotAge_of_lt {x : UInt16} (h : ospf.supportDC = true → x < 0x8000) :
    checkForDoNotAge ospf x = false := by
  unfold checkForDoNotAge
  split
  · rename_i hdc
    rw [and_doNotAge_eq_zero (h hdc)]
    rfl
  · rfl

/-- An entry that is not marked stays so. -/
theorem checkForDoNotAge_aged (hmax : ospf.supportDC = true → ospf.lsaMaxAge < 0x8000)
    (h : checkForDoNotAge ospf hdr.lsAge = false) :
    checkForDoNotAge ospf (aged ospf now hdr).lsAge = false := by
  unfold aged
  split
  · exact h
  split
  · split
    · exact checkForDoNotAge_of_lt hmax
    · have hzero : (0 : UInt16) < 0x8000 := by decide
      exact checkForDoNotAge_of_lt fun _ => hzero
  · have hage : (raised ospf hdr).lsAge = tempAge ospf hdr := by
      unfold raised assignNewLSAge
      rw [h]
      rfl
    rw [hage]
    refine checkForDoNotAge_of_lt fun hdc => ?_
    have hle := tempAge_le ospf hdr
    have hlt := hmax hdc
    rw [UInt16.lt_iff_toNat_lt] at hlt ⊢
    rw [UInt16.le_iff_toNat_le] at hle
    omega

/-! ## Stale entries -/

/-- Entries are removed, and none that is found for some keys. -/
structure Clears (P : LsaKey → Prop) (s s' : Router) : Prop where
  settings : SameSettings s.ospf s'.ospf
  sublists : ∀ t list', s'.area.list? t = some list' →
    ∃ list, s.area.list? t = some list ∧ list'.Sublist list
  stored : ∀ k, P k → s'.area.stored k = s.area.stored k

variable {P : LsaKey → Prop} {k : LsaKey}

theorem Clears.refl (P : LsaKey → Prop) (s : Router) : Clears P s s :=
  ⟨SameSettings.refl _, fun _ list h => ⟨list, h, List.Sublist.refl list⟩, fun _ _ => rfl⟩

theorem Clears.trans {s₁ s₂ s₃ : Router} (h : Clears P s₁ s₂) (h' : Clears P s₂ s₃) : Clears P s₁ s₃ := by
  refine ⟨h.settings.trans h'.settings, ?_, fun k hk => (h'.stored k hk).trans (h.stored k hk)⟩
  intro t list₃ h₃
  obtain ⟨list₂, h₂, hsub⟩ := h'.sublists t list₃ h₃
  obtain ⟨list₁, h₁, hsub'⟩ := h.sublists t list₂ h₂
  exact ⟨list₁, h₁, hsub.trans hsub'⟩

theorem SameSettings.checkForDoNotAge (h : SameSettings ospf ospf') :
    Ospf.checkForDoNotAge ospf' = Ospf.checkForDoNotAge ospf := by
  obtain ⟨ifs, rfl⟩ := h
  rfl

theorem Clears.agesOn (h : Clears P s s') (hon : AgesOn s k) : AgesOn s' k := by
  intro t list' hlist' hdr hmem hkey
  obtain ⟨list, hlist, hsub⟩ := h.sublists t list' hlist'
  rw [h.settings.checkForDoNotAge]
  exact hon t list hlist hdr (hsub.subset hmem) hkey

theorem Clears.agesBounded (h : Clears P s s') (hb : AgesBounded s) : AgesBounded s' := by
  intro t list' hlist' hdr hmem
  obtain ⟨list, hlist, hsub⟩ := h.sublists t list' hlist'
  obtain ⟨ifs, hifs⟩ := h.settings
  rw [hifs]
  exact hb t list hlist hdr (hsub.subset hmem)

/-- Removing an LSA leaves the entries of the other keys. -/
theorem lsdbRemoveLSA_clears {ospf' : Pds} (hset : SameSettings s.ospf ospf') (maxAgeList : List LsaHdr)
    (hP : ∀ k, P k → hdr.key ≠ k) :
    Clears P s ⟨ospf', lsdbRemoveLSA { s.area with maxAgeList := maxAgeList } hdr⟩ := by
  have hlists : ∀ t, ({ s.area with maxAgeList := maxAgeList } : AreaDs).list? t = s.area.list? t := by
    intro t
    cases t <;> rfl
  have hstored : ({ s.area with maxAgeList := maxAgeList } : AreaDs).stored = s.area.stored :=
    AreaDs.stored_congr hlists
  refine ⟨hset, ?_, ?_⟩
  · intro t list' h
    rw [← hlists]
    dsimp only at h
    unfold lsdbRemoveLSA at h
    split at h
    · rename_i list hlist
      by_cases ht : hdr.lsType = t
      · subst ht
        have hsome : (({ s.area with maxAgeList := maxAgeList } : AreaDs).list? hdr.lsType).isSome := by
          rw [hlist]
          rfl
        rw [list?_withList hsome] at h
        obtain rfl := Option.some.inj h
        exact ⟨list, hlist, List.filter_sublist⟩
      · rw [list?_withList_of_ne ht] at h
        exact ⟨list', h, List.Sublist.refl _⟩
    · exact ⟨list', h, List.Sublist.refl _⟩
  · intro k hPk
    rw [← hstored]
    dsimp only
    unfold lsdbRemoveLSA AreaDs.stored
    split
    · rename_i list hlist
      by_cases ht : hdr.lsType = k.1
      · have hids : hdr.key.2 ≠ k.2 := fun h => hP k hPk (Prod.ext ht h)
        have hsome : (({ s.area with maxAgeList := maxAgeList } : AreaDs).list? hdr.lsType).isSome := by
          rw [hlist]
          rfl
        rw [← ht, list?_withList hsome, hlist, Option.bind_some, Option.bind_some, List.find?_filter]
        congr 1
        funext l
        -- an entry that is found does not have the ids that are removed
        rw [Bool.eq_iff_iff, decide_eq_true_eq]
        refine and_iff_right_of_imp fun hl => ?_
        have hno : l.hasIds hdr.key.2 = false := LsaHdr.hasIds_disjoint hids.symm l hl
        unfold LsaHdr.hasIds LsaHdr.key at hno
        unfold LsaHdr.sameId Ip.same
        rw [hno]
        rfl
      · rw [list?_withList_of_ne ht]
    · rfl

theorem removeStaleDoNotAge_clears
    (hon : ∀ k, P k → hdr.key = k → checkForDoNotAge s.ospf hdr.lsAge = false)
    (h : removeStaleDoNotAge now s hdr = some s') : Clears P s s' := by
  unfold removeStaleDoNotAge at h
  split at h
  · rename_i hstale
    have hk : ∀ k, P k → hdr.key ≠ k := by
      intro k hPk hk
      rw [hon k hPk hk] at hstale
      cases hstale
    simp only [Option.bind_eq_bind, Option.bind_eq_some_iff, Option.pure_def] at h
    obtain ⟨⟨ospf', m, flushed⟩, hflush, h⟩ := h
    obtain rfl := Option.some.inj h
    obtain rfl := lsaFlush_flushed hflush
    have hk' : ∀ k, P k → ({ hdr with lsAge := s.ospf.lsaMaxAge } : LsaHdr).key ≠ k := hk
    exact lsdbRemoveLSA_clears (lsaFlush_frame hflush).settings m hk'
  · obtain rfl := Option.some.inj h
    exact Clears.refl P s

theorem foldlM_removeStale_clears {list : List LsaHdr}
    (hon : ∀ hdr ∈ list, ∀ k, P k → hdr.key = k → checkForDoNotAge s.ospf hdr.lsAge = false)
    (h : list.foldlM (removeStaleDoNotAge now) s = some s') : Clears P s s' := by
  induction list generalizing s with
  | nil =>
    obtain rfl := Option.some.inj h
    exact Clears.refl P s
  | cons hdr list ih =>
    simp only [List.foldlM_cons, Option.bind_eq_bind, Option.bind_eq_some_iff] at h
    obtain ⟨s₁, hhead, htail⟩ := h
    have hclears := removeStaleDoNotAge_clears (hon hdr List.mem_cons_self) hhead
    refine hclears.trans (ih ?_ htail)
    intro l hl k hPk hk
    rw [hclears.settings.checkForDoNotAge]
    exact hon l (List.mem_cons_of_mem _ hl) k hPk hk

theorem foldlM_removeStaleLSA_clears {types : List LsType} (hon : ∀ k, P k → AgesOn s k)
    (h : types.foldlM (removeStaleDoNotAgeLSA now) s = some s') : Clears P s s' := by
  induction types generalizing s with
  | nil =>
    obtain rfl := Option.some.inj h
    exact Clears.refl P s
  | cons t types ih =>
    simp only [List.foldlM_cons, Option.bind_eq_bind, Option.bind_eq_some_iff] at h
    obtain ⟨s₁, hhead, htail⟩ := h
    unfold removeStaleDoNotAgeLSA at hhead
    simp only [Option.bind_eq_bind, Option.bind_eq_some_iff] at hhead
    obtain ⟨list, hlist, hloop⟩ := hhead
    have hlist' : ∀ hdr ∈ list, ∀ k, P k → hdr.key = k → checkForDoNotAge s.ospf hdr.lsAge = false :=
      fun hdr hmem k hPk hk => hon k hPk t list hlist hdr hmem hk
    have hclears := foldlM_removeStale_clears hlist' hloop
    exact hclears.trans (ih (fun k hPk => hclears.agesOn (hon k hPk)) htail)

/-! ## The event -/

theorem ageingOrder_spec {s₁ : Router} (h : ageingOrder.foldlM (Router.incrementLSAge now) s = some s₁) :
    SameSettings s.ospf s₁.ospf ∧
      ∀ t, s₁.area.list? t = (s.area.list? t).map (List.map (aged s.ospf now)) := by
  have hnodup : ageingOrder.Nodup := by decide
  obtain ⟨hset, hlists⟩ := foldlM_incrementLSAge_spec hnodup h
  refine ⟨hset, ?_⟩
  intro t
  rw [hlists t]
  cases t with
  | asExternalLsa => rfl
  | undefined => rfl
  | _ => rfl

theorem aged_key (ospf : Pds) (now : ℚ) (hdr : LsaHdr) : (aged ospf now hdr).key = hdr.key := by
  unfold aged LsaHdr.key
  split
  · rfl
  split
  · split <;> rfl
  · rfl

/-- **An ageing event ages the stored instance of a key, if its entries age.** -/
theorem handleIncrementAge_stored (hmax : s.ospf.supportDC = true → s.ospf.lsaMaxAge < 0x8000)
    (hon : AgesOn s k) (h : handleIncrementAge now s = some s') :
    SameSettings s.ospf s'.ospf ∧ AgesOn s' k ∧
      s'.area.stored k = (s.area.stored k).map (aged s.ospf now) := by
  unfold handleIncrementAge at h
  simp only [Option.bind_eq_bind, Option.bind_eq_some_iff] at h
  obtain ⟨s₁, hloops, h⟩ := h
  obtain ⟨hset, hlists⟩ := ageingOrder_spec hloops
  have hon₁ : AgesOn s₁ k := by
    intro t list' hlist' hdr hmem hkey
    rw [hlists t, Option.map_eq_some_iff] at hlist'
    obtain ⟨list, hlist, rfl⟩ := hlist'
    obtain ⟨old, hold, rfl⟩ := List.mem_map.1 hmem
    rw [aged_key] at hkey
    rw [hset.checkForDoNotAge]
    exact checkForDoNotAge_aged hmax (hon t list hlist old hold hkey)
  have hstored := stored_map_aged hlists k
  split at h
  · have hclears : Clears (AgesOn s₁) s₁ s' := foldlM_removeStaleLSA_clears (fun _ hk => hk) h
    exact ⟨hset.trans hclears.settings, hclears.agesOn hon₁, (hclears.stored k hon₁).trans hstored⟩
  · obtain rfl := Option.some.inj h
    exact ⟨hset, hon₁, hstored⟩

/-- **No age exceeds `LSAMaxAge` after an ageing event.** -/
theorem handleIncrementAge_agesBounded (h : handleIncrementAge now s = some s') : AgesBounded s' := by
  unfold handleIncrementAge at h
  simp only [Option.bind_eq_bind, Option.bind_eq_some_iff] at h
  obtain ⟨s₁, hloops, h⟩ := h
  obtain ⟨⟨ifs, hifs⟩, hlists⟩ := ageingOrder_spec hloops
  have hb : AgesBounded s₁ := by
    intro t list' hlist' hdr hmem
    rw [hlists t, Option.map_eq_some_iff] at hlist'
    obtain ⟨list, -, rfl⟩ := hlist'
    obtain ⟨old, -, rfl⟩ := List.mem_map.1 hmem
    rw [hifs]
    exact aged_age_le s.ospf now old
  split at h
  · have hclears : Clears (fun _ => False) s₁ s' :=
      foldlM_removeStaleLSA_clears (fun _ hk => absurd hk id) h
    exact hclears.agesBounded hb
  · obtain rfl := Option.some.inj h
    exact hb

end NetSim.Ospf
