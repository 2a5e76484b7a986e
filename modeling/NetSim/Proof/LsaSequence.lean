import NetSim.Proof.OwnRefresh

/-!
# The sequence numbers of the router's own router LSA

The instances that a run emits, by originations and by refreshes. Each takes the number after the stored
one, so they are in order as long as the stored one is replaced each time and the numbers do not wrap.

* `ownInstances_ordered` — each instance is more recent than those before, and the last sequence number is
  flushed before anything else is emitted.
-/

namespace NetSim.Ospf

open FirstMatch

variable {s s' s₀ : Router} {k : LsaKey} {hdr : LsaHdr} {now : ℚ} {o : Origination} {emitted : Option LsaHdr}

/-! ## The stored instance in an origination -/

/-- The key of the router LSA of the router itself. -/
def ownKey (s : Router) : LsaKey := (.routerLsa, s.ospf.routerId.intIp, s.ospf.routerId.intIp)

/-- The LSA that an origination sends. -/
def Origination.lsa (o : Origination) (ospf : Pds) (seq : UInt32) : LsaHdr :=
  { o.blank ospf.routerId with
    lsSequenceNumber := seq
    lsAge := if o.isFlush then ospf.lsaMaxAge else 0
    length := 20 + o.rlsaSize }

/-- The number that a new instance takes. -/
def nextSequence (old : Option LsaHdr) : UInt32 :=
  old.elim initialSequenceNumber fun hdr => hdr.lsSequenceNumber + 1

/-- The stored instance keeps an origination from sending: it has the last number or is expired. -/
def HoldsBack (ospf : Pds) (hdr : LsaHdr) : Prop :=
  hdr.lsSequenceNumber = maxSequenceNumber ∧ maskDoNotAge ospf hdr.lsAge < ospf.lsaMaxAge ∨
    hasMaxAge ospf hdr = true

theorem findOldLsa_ownKey (s : Router) :
    findOldLsa s.area.routerLSAList s.ospf.routerId s.ospf.routerId = s.area.stored (ownKey s) :=
  rfl

theorem find?_ownKey (h : s.area.stored (ownKey s) = some hdr) :
    s.area.routerLSAList.find? hdr.sameId = some hdr ∧ hdr.key.2 = (ownKey s).2 := by
  have hfind : s.area.routerLSAList.find? (LsaHdr.hasIds (ownKey s).2) = some hdr := h
  have hids := List.find?_some hfind
  unfold LsaHdr.hasIds at hids
  rw [Bool.and_eq_true, beq_iff_eq, beq_iff_eq] at hids
  have hkey : hdr.key.2 = (ownKey s).2 := Prod.ext hids.1 hids.2
  rw [LsaHdr.sameId_eq, hkey]
  exact ⟨hfind, rfl⟩

/-- Members of a list with an entry replaced. -/
theorem mem_replaceFirst {p : LsaHdr → Bool} {new x : LsaHdr} {l : List LsaHdr} (hx : x ∈ replaceFirst p new l) :
    x = new ∨ x ∈ l := by
  induction l with
  | nil => exact .inr hx
  | cons y l ih =>
    by_cases hy : p y = true
    · rw [replaceFirst_cons_of_pos hy] at hx
      rcases List.mem_cons.1 hx with hx | hx
      · exact .inl hx
      · exact .inr (List.mem_cons_of_mem _ hx)
    · rw [replaceFirst_cons_of_neg hy] at hx
      rcases List.mem_cons.1 hx with hx | hx
      · exact .inr (List.mem_cons.2 (.inl hx))
      · exact (ih hx).imp_right (List.mem_cons_of_mem _)

/-- A changed list of router LSAs keeps the entries of a key unmarked if the new entry is. -/
theorem AgesOn.withRouterList {ospf' : Pds} {list : List LsaHdr} {new : LsaHdr} (hon : AgesOn s k) (maxAgeList : List LsaHdr)
    (hset : SameSettings s.ospf ospf') (hnew : checkForDoNotAge s.ospf new.lsAge = false)
    (hlist : ∀ x ∈ list, x = new ∨ x ∈ s.area.routerLSAList) :
    AgesOn ⟨ospf', { s.area with routerLSAList := list, maxAgeList := maxAgeList }⟩ k := by
  intro t l hl x hx hkey
  rw [hset.checkForDoNotAge]
  cases t with
  | routerLsa =>
    obtain rfl := Option.some.inj hl
    rcases hlist x hx with rfl | hmem
    · exact hnew
    · exact hon .routerLsa _ rfl x hmem hkey
  | networkLsa => exact hon .networkLsa l hl x hx hkey
  | summaryLsaRouter => exact hon .summaryLsaRouter l hl x hx hkey
  | summaryLsaNetwork => exact hon .summaryLsaNetwork l hl x hx hkey
  | asExternalLsa => cases hl
  | undefined => cases hl

/-- What an origination does to the stored instance, and what it sends. -/
structure Originates (s : Router) (o : Origination) (s' : Router) (emitted : Option LsaHdr) : Prop where
  settings : SameSettings s.ospf s'.ospf
  sends : ∀ l, emitted = some l →
    l = o.lsa s.ospf (nextSequence (s.area.stored (ownKey s))) ∧
      s'.area.stored (ownKey s) = some (installed s.ospf o.now l (s.area.stored (ownKey s))) ∧
      ∀ hdr, s.area.stored (ownKey s) = some hdr → ¬ HoldsBack s.ospf hdr
  holds : emitted = none → ∃ hdr, s.area.stored (ownKey s) = some hdr ∧ HoldsBack s.ospf hdr ∧
    s'.area.stored (ownKey s) = some { hdr with lsAge := if hasMaxAge s.ospf hdr then hdr.lsAge else s.ospf.lsaMaxAge }
  ages : ∀ k, (s.ospf.supportDC = true → s.ospf.lsaMaxAge < 0x8000) → AgesOn s k → AgesOn s' k

theorem checkForDoNotAge_origination (hmax : s.ospf.supportDC = true → s.ospf.lsaMaxAge < 0x8000)
    (o : Origination) (seq : UInt32) : checkForDoNotAge s.ospf (o.lsa s.ospf seq).lsAge = false := by
  have hzero : (0 : UInt16) < 0x8000 := by decide
  refine checkForDoNotAge_of_lt fun hdc => ?_
  change (if o.isFlush then s.ospf.lsaMaxAge else 0) < 0x8000
  split
  · exact hmax hdc
  · exact hzero

theorem sendRouterLSA_originates (seq : UInt32) (hseq : seq = nextSequence (s.area.stored (ownKey s)))
    (hfree : ∀ hdr, s.area.stored (ownKey s) = some hdr → ¬ HoldsBack s.ospf hdr)
    (h : sendRouterLSA s o (o.lsa s.ospf seq) = some s') :
    Originates s o s' (some (o.lsa s.ospf seq)) := by
  unfold sendRouterLSA at h
  simp only [Option.bind_eq_bind, Option.bind_eq_some_iff, Option.pure_def] at h
  obtain ⟨⟨ospf', back⟩, hflood, h⟩ := h
  obtain rfl := Option.some.inj h
  have hset := (lsaFlood_frame hflood).settings
  have hlist : ({ s with ospf := ospf' } : Router).area.list? (o.lsa s.ospf seq).lsType =
      some s.area.routerLSAList := rfl
  have hstores := (install_stores o.now hlist).1
  have hkey : (o.lsa s.ospf seq).key = ownKey s := rfl
  have hinst : installed ospf' o.now (o.lsa s.ospf seq) (s.area.stored (ownKey s)) =
      installed s.ospf o.now (o.lsa s.ospf seq) (s.area.stored (ownKey s)) := by
    obtain ⟨ifs, rfl⟩ := hset
    rfl
  rw [hkey] at hstores
  refine ⟨hset, ?_, fun hnone => absurd hnone (Option.some_ne_none _), ?_⟩
  · intro l hl
    obtain rfl := Option.some.inj hl
    exact ⟨by rw [hseq], hstores.trans (congrArg some hinst), hfree⟩
  · intro k hmax hon
    have hnew : checkForDoNotAge s.ospf (stamped o.now (o.lsa s.ospf seq)).lsAge = false :=
      checkForDoNotAge_origination hmax o seq
    have hlists : ∀ x ∈ (lsdbInstall ospf' o.now (o.lsa s.ospf seq) s.area.routerLSAList s.area.maxAgeList).2.1,
        x = stamped o.now (o.lsa s.ospf seq) ∨ x ∈ s.area.routerLSAList := by
      intro x hx
      unfold lsdbInstall at hx
      dsimp only at hx
      split at hx
      · split at hx
        · exact mem_replaceFirst hx
        · exact .inr hx
      · rcases List.mem_append.1 hx with hx | hx
        · exact .inr hx
        · exact .inl (List.mem_singleton.1 hx)
    have hafter := hon.withRouterList
      (lsdbInstall ospf' o.now (o.lsa s.ospf seq) s.area.routerLSAList s.area.maxAgeList).2.2 hset hnew hlists
    exact hafter

theorem originateRouterLSA_spec (h : originateRouterLSA s o = some (s', emitted)) : Originates s o s' emitted := by
  unfold originateRouterLSA at h
  simp only [Option.bind_eq_bind, Option.bind_eq_some_iff] at h
  obtain ⟨⟨s₁, lsa⟩, hupd, h⟩ := h
  rw [findOldLsa_ownKey] at hupd
  unfold updateLsaHdr at hupd
  dsimp only at hupd
  cases hold : s.area.stored (ownKey s) with
  | none =>
    rw [hold] at hupd
    obtain ⟨rfl, rfl⟩ := Prod.mk.inj (Option.some.inj hupd)
    simp only [Option.bind_eq_some_iff, Option.pure_def] at h
    obtain ⟨s₂, hsend, h⟩ := h
    obtain ⟨rfl, rfl⟩ := Prod.mk.inj (Option.some.inj h)
    exact sendRouterLSA_originates initialSequenceNumber (by rw [hold]; rfl)
      (fun hdr hhdr => by rw [hold] at hhdr; cases hhdr) hsend
  | some old =>
    rw [hold] at hupd
    dsimp only at hupd
    split at hupd
    · -- the last number: the stored instance is flushed
      rename_i hlast
      rw [Bool.and_eq_true, beq_iff_eq, decide_eq_true_eq] at hlast
      simp only [Option.bind_eq_bind, Option.bind_eq_some_iff, Option.pure_def] at hupd
      obtain ⟨⟨ospf', m, flushed⟩, hflush, hupd⟩ := hupd
      obtain ⟨rfl, rfl⟩ := Prod.mk.inj (Option.some.inj hupd)
      obtain ⟨rfl, rfl⟩ := Prod.mk.inj (Option.some.inj h)
      obtain rfl := lsaFlush_flushed hflush
      obtain ⟨hfind, hids⟩ := find?_ownKey hold
      have hset := (lsaFlush_frame hflush).settings
      have hkey : ({ old with lsAge := s.ospf.lsaMaxAge } : LsaHdr).key.2 = old.key.2 := rfl
      have hnew := (find?_replaceFirst_ids hkey hfind).1
      rw [LsaHdr.sameId_eq, hids] at hnew
      have hyoung : hasMaxAge s.ospf old = false := by
        unfold hasMaxAge
        rw [beq_eq_false_iff_ne]
        intro heq
        have hlt := hlast.2
        rw [heq, UInt16.lt_iff_toNat_lt] at hlt
        omega
      refine ⟨hset, fun l hl => absurd hl.symm (Option.some_ne_none l), fun _ => ⟨old, hold, .inl hlast, ?_⟩, ?_⟩
      · rw [hyoung]
        unfold AreaDs.stored
        change (replaceFirst old.sameId _ s.area.routerLSAList).find? _ = _
        rw [LsaHdr.sameId_eq, hids]
        exact hnew
      · intro k hmax hon
        have hnew : checkForDoNotAge s.ospf ({ old with lsAge := s.ospf.lsaMaxAge } : LsaHdr).lsAge = false :=
          checkForDoNotAge_of_lt hmax
        exact hon.withRouterList m hset hnew fun x hx => mem_replaceFirst hx
    split at hupd
    · -- expired: nothing happens
      rename_i hexp
      obtain ⟨rfl, rfl⟩ := Prod.mk.inj (Option.some.inj hupd)
      obtain ⟨rfl, rfl⟩ := Prod.mk.inj (Option.some.inj h)
      have hmaxAge : hasMaxAge s.ospf old = true := hexp
      refine ⟨SameSettings.refl _, fun l hl => absurd hl.symm (Option.some_ne_none l), fun _ => ⟨old, hold, .inr hmaxAge, ?_⟩, ?_⟩
      · rw [hmaxAge, if_pos rfl]
        exact hold
      · exact fun k _ hon => hon
    · rename_i hlast hexp
      obtain ⟨rfl, rfl⟩ := Prod.mk.inj (Option.some.inj hupd)
      simp only [Option.bind_eq_some_iff, Option.pure_def] at h
      obtain ⟨s₂, hsend, h⟩ := h
      obtain ⟨rfl, rfl⟩ := Prod.mk.inj (Option.some.inj h)
      refine sendRouterLSA_originates (old.lsSequenceNumber + 1) (by rw [hold]; rfl) ?_ hsend
      intro hdr hhdr hback
      obtain rfl := Option.some.inj (hold.symm.trans hhdr)
      rcases hback with ⟨hnum, hage⟩ | hmaxAge
      · refine hlast ?_
        rw [hnum, decide_eq_true hage]
        rfl
      · exact hexp hmaxAge

/-! ## Runs -/

/-- A router and the instances that it has emitted, the last one at the end. -/
structure OwnHistory where
  router : Router
  instances : List LsaHdr

inductive OwnEvent where
  | originate (o : Origination)
  | age (now : ℚ)

/-- The instance that an ageing event floods for the router's own router LSA. -/
def refreshedInstance (s : Router) (now : ℚ) : Option LsaHdr :=
  (s.area.stored (ownKey s)).bind fun hdr =>
    if !hasMaxAge s.ospf hdr && isRefreshDue s.ospf hdr && hdr.lsSequenceNumber != maxSequenceNumber then
      some (refreshed now hdr)
    else none

/-- Originations and ageing events from a state on. -/
def ownInstances (s₀ : Router) : Machine OwnHistory OwnEvent where
  init h := h = ⟨s₀, []⟩
  step h
    | .originate o =>
      (originateRouterLSA h.router o).map fun out => ⟨out.1, h.instances ++ out.2.toList⟩
    | .age now =>
      (handleIncrementAge now h.router).map fun s =>
        ⟨s, h.instances ++ (refreshedInstance h.router now).toList⟩

/-- The stored instance is not the last before the numbers wrap, and an origination changes its content. -/
def Renumbers (h : OwnHistory) (e : OwnEvent) : Prop :=
  ∀ hdr, h.router.area.stored (ownKey h.router) = some hdr → hdr.lsSequenceNumber ≠ 0xFFFFFFFF ∧
    ∀ o, e = .originate o → isContentChanged h.router.ospf (o.lsa h.router.ospf 0) hdr = true

/-- Entries of the key age in the database, so that none is removed. -/
structure OwnAges (s : Router) : Prop where
  ages : AgesOn s (ownKey s)
  unmarked : s.ospf.supportDC = true → s.ospf.lsaMaxAge < 0x8000

/-- The instances are in order and the stored one is not older than any. -/
structure InOrder (s₀ : Router) (h : OwnHistory) : Prop extends OwnAges h.router where
  settings : SameSettings s₀.ospf h.router.ospf
  pairs : h.instances.Pairwise fun old new => lsaCompare s₀.ospf old new = 1
  first : ∀ hdr, s₀.area.stored (ownKey s₀) = some hdr → ∀ new ∈ h.instances, lsaCompare s₀.ospf hdr new = 1
  newest : ∀ old, old ∈ h.instances ∨ s₀.area.stored (ownKey s₀) = some old →
    ∃ hdr, h.router.area.stored (ownKey h.router) = some hdr ∧ old.lsSequenceNumber ≤ hdr.lsSequenceNumber

theorem SameSettings.ownKey {s s' : Router} (h : SameSettings s.ospf s'.ospf) : Ospf.ownKey s' = Ospf.ownKey s := by
  obtain ⟨ifs, hifs⟩ := h
  unfold Ospf.ownKey
  rw [hifs]

/-- A next instance that takes the number after the stored one, and replaces it. -/
theorem InOrder.emit {h : OwnHistory} (ho : InOrder s₀ h) (hages : OwnAges s')
    (hset : SameSettings h.router.ospf s'.ospf) {new stored' : LsaHdr}
    (hnum : new.lsSequenceNumber = nextSequence (h.router.area.stored (ownKey h.router)))
    (hwrap : ∀ hdr, h.router.area.stored (ownKey h.router) = some hdr → hdr.lsSequenceNumber ≠ 0xFFFFFFFF)
    (hstored : s'.area.stored (ownKey s') = some stored')
    (hsame : stored'.lsSequenceNumber = new.lsSequenceNumber) :
    InOrder s₀ ⟨s', h.instances ++ [new]⟩ := by
  -- the earlier instances have lower numbers
  have hlt : ∀ old, old ∈ h.instances ∨ s₀.area.stored (ownKey s₀) = some old →
      old.lsSequenceNumber < new.lsSequenceNumber := by
    intro old hold
    obtain ⟨hdr, hhdr, hle⟩ := ho.newest old hold
    have hne := hwrap hdr hhdr
    rw [hhdr] at hnum
    have hsucc : new.lsSequenceNumber.toNat = hdr.lsSequenceNumber.toNat + 1 := by
      rw [hnum]
      change (hdr.lsSequenceNumber + 1).toNat = _
      have hbound := hdr.lsSequenceNumber.toNat_lt
      have hne' : hdr.lsSequenceNumber.toNat ≠ 4294967295 := fun heq => hne (UInt32.toNat_inj.1 heq)
      rw [UInt32.toNat_add, UInt32.toNat_one, Nat.mod_eq_of_lt (by omega)]
    rw [UInt32.le_iff_toNat_le] at hle
    rw [UInt32.lt_iff_toNat_lt]
    omega
  refine ⟨hages, ho.settings.trans hset, ?_, ?_, ?_⟩
  · refine List.pairwise_append.2 ⟨ho.pairs, List.pairwise_singleton _ _, ?_⟩
    intro old hold x hx
    rw [List.mem_singleton.1 hx]
    exact lsaCompare_of_seq_lt (hlt old (.inl hold))
  · intro hdr hhdr x hx
    rcases List.mem_append.1 hx with hx | hx
    · exact ho.first hdr hhdr x hx
    · rw [List.mem_singleton.1 hx]
      exact lsaCompare_of_seq_lt (hlt hdr (.inr hhdr))
  · intro old hold
    refine ⟨stored', hstored, ?_⟩
    rw [hsame, UInt32.le_iff_toNat_le]
    rcases hold with hold | hold
    · rcases List.mem_append.1 hold with hold | hold
      · have h' := UInt32.lt_iff_toNat_lt.1 (hlt old (.inl hold))
        omega
      · rw [List.mem_singleton.1 hold]
    · have h' := UInt32.lt_iff_toNat_lt.1 (hlt old (.inr hold))
      omega

/-- A step that emits nothing and keeps the stored number. -/
theorem InOrder.quiet {h : OwnHistory} (ho : InOrder s₀ h) (hages : OwnAges s')
    (hset : SameSettings h.router.ospf s'.ospf)
    (hkeep : ∀ hdr, h.router.area.stored (ownKey h.router) = some hdr →
      ∃ hdr', s'.area.stored (ownKey s') = some hdr' ∧ hdr'.lsSequenceNumber = hdr.lsSequenceNumber) :
    InOrder s₀ ⟨s', h.instances ++ []⟩ := by
  rw [List.append_nil]
  refine ⟨hages, ho.settings.trans hset, ho.pairs, ho.first, ?_⟩
  intro old hold
  obtain ⟨hdr, hhdr, hle⟩ := ho.newest old hold
  obtain ⟨hdr', hhdr', hsame⟩ := hkeep hdr hhdr
  exact ⟨hdr', hhdr', hsame.symm ▸ hle⟩

/-- **An origination keeps the order.** -/
theorem InOrder.originate {h h' : OwnHistory} (ho : InOrder s₀ h) (hok : Renumbers h (.originate o))
    (hstep : (ownInstances s₀).step h (.originate o) = some h') : InOrder s₀ h' := by
  obtain ⟨⟨s', emitted⟩, hrun, rfl⟩ := Option.map_eq_some_iff.1 hstep
  have hspec := originateRouterLSA_spec hrun
  have hkey := hspec.settings.ownKey
  have hages : OwnAges s' := by
    obtain ⟨ifs, hifs⟩ := hspec.settings
    refine ⟨?_, ?_⟩
    · rw [hkey]
      exact hspec.ages _ ho.unmarked ho.ages
    · rw [hifs]
      exact ho.unmarked
  cases emitted with
  | none =>
    refine ho.quiet hages hspec.settings ?_
    intro hdr hhdr
    obtain ⟨hdr', hhdr', -, hstored⟩ := hspec.holds rfl
    obtain rfl := Option.some.inj (hhdr.symm.trans hhdr')
    rw [hkey]
    exact ⟨_, hstored, rfl⟩
  | some new =>
    obtain ⟨hnew, hstored, -⟩ := hspec.sends new rfl
    rw [← hkey] at hstored
    refine ho.emit hages hspec.settings (by rw [hnew]; rfl) (fun hdr hhdr => (hok hdr hhdr).1) hstored ?_
    -- the content has changed, so the new instance is stored
    rw [hkey]
    unfold installed
    cases hold : h.router.area.stored (ownKey h.router) with
    | none => rfl
    | some old =>
      have hchanged : isContentChanged h.router.ospf new old = true := by
        rw [hnew]
        exact (hok old hold).2 o rfl
      dsimp only [Option.elim_some]
      rw [if_pos hchanged]

/-- **An ageing event keeps the order.** -/
theorem InOrder.age {h h' : OwnHistory} (ho : InOrder s₀ h) (hok : Renumbers h (.age now))
    (hstep : (ownInstances s₀).step h (.age now) = some h') : InOrder s₀ h' := by
  obtain ⟨s', hrun, rfl⟩ := Option.map_eq_some_iff.1 hstep
  obtain ⟨hset, hon, hstored⟩ := handleIncrementAge_stored ho.unmarked ho.ages hrun
  have hkey := hset.ownKey
  have hages : OwnAges s' := by
    obtain ⟨ifs, hifs⟩ := hset
    refine ⟨?_, ?_⟩
    · rw [hkey]
      exact hon
    · rw [hifs]
      exact ho.unmarked
  unfold refreshedInstance
  cases hold : h.router.area.stored (ownKey h.router) with
  | none =>
    refine ho.quiet hages hset ?_
    intro hdr hhdr
    rw [hold] at hhdr
    cases hhdr
  | some hdr =>
    rw [hold, Option.map_some, ← hkey] at hstored
    rw [Option.bind_some]
    by_cases hmax : hasMaxAge h.router.ospf hdr = true
    · rw [hmax]
      refine ho.quiet hages hset ?_
      intro hdr' hhdr'
      obtain rfl := Option.some.inj (hold.symm.trans hhdr')
      refine ⟨_, hstored, ?_⟩
      unfold aged
      rw [if_pos hmax]
    by_cases hdue : isRefreshDue h.router.ospf hdr = true
    · by_cases hlast : hdr.lsSequenceNumber = maxSequenceNumber
      · rw [hlast]
        simp only [bne_self_eq_false, Bool.and_false, Bool.false_eq_true, if_false]
        refine ho.quiet hages hset ?_
        intro hdr' hhdr'
        obtain rfl := Option.some.inj (hold.symm.trans hhdr')
        refine ⟨_, hstored, ?_⟩
        unfold aged
        rw [if_neg hmax, if_pos hdue, if_pos hlast]
      · have hrefresh : aged h.router.ospf now hdr = refreshed now hdr := by
          unfold aged
          rw [if_neg hmax, if_pos hdue, if_neg hlast]
        rw [hrefresh] at hstored
        rw [Bool.eq_false_iff.2 hmax, hdue, bne_iff_ne.2 hlast]
        exact ho.emit hages hset (by rw [hold]; rfl) (fun hdr' hhdr' => (hok hdr' hhdr').1) hstored rfl
    · rw [Bool.eq_false_iff.2 hdue]
      simp only [Bool.and_false, Bool.false_and, Bool.false_eq_true, if_false]
      refine ho.quiet hages hset ?_
      intro hdr' hhdr'
      obtain rfl := Option.some.inj (hold.symm.trans hhdr')
      refine ⟨_, hstored, ?_⟩
      unfold aged
      rw [if_neg hmax, if_neg hdue]
      rfl

/-- An ageing event floods no instance with the last number. -/
theorem refreshedInstance_last (hhdr : s.area.stored (ownKey s) = some hdr)
    (hlast : hdr.lsSequenceNumber = maxSequenceNumber) : refreshedInstance s now = none := by
  unfold refreshedInstance
  rw [hhdr, Option.bind_some, hlast]
  simp

/-- It only ages, and is flushed when it would be refreshed. -/
theorem aged_last {ospf : Pds} (now : ℚ) (hlast : hdr.lsSequenceNumber = maxSequenceNumber) :
    ∃ age, aged ospf now hdr = { hdr with lsAge := age } ∧
      (hasMaxAge ospf hdr = false → isRefreshDue ospf hdr = true → age = ospf.lsaMaxAge) := by
  unfold aged
  rw [if_pos hlast]
  split
  · rename_i hmax
    exact ⟨hdr.lsAge, rfl, fun hyoung => absurd (hmax.symm.trans hyoung) nofun⟩
  split
  · exact ⟨ospf.lsaMaxAge, rfl, fun _ _ => rfl⟩
  · rename_i hdue
    exact ⟨_, rfl, fun _ hrefresh => absurd hrefresh hdue⟩

/-- **Sequence numbers order the instances.** In a run whose numbers do not wrap, and whose originations
change the content, each instance is more recent than the one stored at the start and than those emitted
before. Where the stored instance has the last number nothing is emitted: an origination flushes it, and an
ageing event ages it, and flushes it when it is due for a refresh. -/
theorem ownInstances_ordered (hages : OwnAges s₀) :
    (∀ h, (ownInstances s₀).ReachOn Renumbers h →
      (h.instances.Pairwise fun old new => lsaCompare s₀.ospf old new = 1) ∧
      ∀ hdr, s₀.area.stored (ownKey s₀) = some hdr → ∀ new ∈ h.instances, lsaCompare s₀.ospf hdr new = 1) ∧
    (∀ s o out hdr, s.area.stored (ownKey s) = some hdr → hdr.lsSequenceNumber = maxSequenceNumber →
      maskDoNotAge s.ospf hdr.lsAge < s.ospf.lsaMaxAge → originateRouterLSA s o = some out →
        out.2 = none ∧ out.1.area.stored (ownKey s) = some { hdr with lsAge := s.ospf.lsaMaxAge }) ∧
    ∀ h now hdr h', h.router.area.stored (ownKey h.router) = some hdr → hdr.lsSequenceNumber = maxSequenceNumber →
      (ownInstances s₀).step h (.age now) = some h' → h'.instances = h.instances ∧
        (OwnAges h.router → ∃ age, h'.router.area.stored (ownKey h.router) = some { hdr with lsAge := age } ∧
          (hasMaxAge h.router.ospf hdr = false → isRefreshDue h.router.ospf hdr = true →
            age = h.router.ospf.lsaMaxAge)) := by
  refine ⟨?_, ?_, ?_⟩
  · intro h hrun
    have horder : InOrder s₀ h := by
      refine hrun.inv ?_ ?_
      · rintro h rfl
        exact ⟨hages, SameSettings.refl _, List.Pairwise.nil, fun _ _ new hnew => absurd hnew List.not_mem_nil,
          fun old hold => ⟨old, hold.resolve_left List.not_mem_nil, UInt32.le_refl _⟩⟩
      · intro h e h' ho hok hstep
        cases e with
        | originate o => exact ho.originate hok hstep
        | age now => exact ho.age hok hstep
    exact ⟨horder.pairs, horder.first⟩
  · intro s o out hdr hhdr hlast hyoung hrun
    have hspec := originateRouterLSA_spec hrun
    have hback : HoldsBack s.ospf hdr := .inl ⟨hlast, hyoung⟩
    have hnone : out.2 = none := by
      cases hout : out.2 with
      | none => rfl
      | some l => exact absurd hback ((hspec.sends l hout).2.2 hdr hhdr)
    obtain ⟨hdr', hhdr', -, hstored⟩ := hspec.holds hnone
    obtain rfl := Option.some.inj (hhdr.symm.trans hhdr')
    have hmax : hasMaxAge s.ospf hdr = false := by
      unfold hasMaxAge
      rw [beq_eq_false_iff_ne]
      intro heq
      rw [heq, UInt16.lt_iff_toNat_lt] at hyoung
      omega
    rw [hmax] at hstored
    exact ⟨hnone, hstored⟩
  · intro h now hdr h' hhdr hlast hstep
    obtain ⟨s', hrun, rfl⟩ := Option.map_eq_some_iff.1 hstep
    refine ⟨?_, fun hown => ?_⟩
    · rw [refreshedInstance_last hhdr hlast, Option.toList_none, List.append_nil]
    · obtain ⟨age, hage, hflushed⟩ := aged_last now hlast
      have hstored := (handleIncrementAge_stored hown.unmarked hown.ages hrun).2.2
      rw [hhdr, Option.map_some, hage] at hstored
      exact ⟨age, hstored, hflushed⟩

/-! ## Samples -/

/-- A router that has stored its own router LSA with a number. -/
def numberedRouter (seq : UInt32) : Router :=
  ⟨twoNeighborRouter .p2p .p2p, routerArea [stamped 1 { routerLsaOf 1 seq with lsAge := 0 }]⟩

/-- An origination of a router LSA without links. -/
def linklessOrigination (veb : UInt8) : Origination :=
  { rlsa := ⟨veb, []⟩, rlsaSize := 4, isFlush := false, now := 2, inIf := 1, myIp := ⟨0, 1⟩ }

theorem ownAges_numberedRouter (seq : UInt32) : OwnAges (numberedRouter seq) := by
  refine ⟨?_, fun h => (Bool.false_ne_true h).elim⟩
  intro t list _ hdr _ _
  rfl

theorem ownInstances_ordered_numbered :
    ∃ h, (ownInstances (numberedRouter 5)).step ⟨numberedRouter 5, []⟩ (.originate (linklessOrigination 1)) =
        some h ∧
      ∀ new ∈ h.instances, lsaCompare (numberedRouter 5).ospf (stamped 1 { routerLsaOf 1 5 with lsAge := 0 }) new = 1 := by
  have hstored : (numberedRouter 5).area.stored (ownKey (numberedRouter 5)) =
      some (stamped 1 { routerLsaOf 1 5 with lsAge := 0 }) := by decide
  have hok : Renumbers ⟨numberedRouter 5, []⟩ (.originate (linklessOrigination 1)) := by
    intro hdr hhdr
    obtain rfl := Option.some.inj (hstored.symm.trans hhdr)
    refine ⟨by decide, fun o ho => ?_⟩
    obtain rfl := OwnEvent.originate.inj ho
    decide
  obtain ⟨h, hs⟩ := Option.isSome_iff_exists.1
    (show ((ownInstances (numberedRouter 5)).step ⟨numberedRouter 5, []⟩
      (.originate (linklessOrigination 1))).isSome = true by decide)
  have hrun : (ownInstances (numberedRouter 5)).ReachOn Renumbers h := .step (.init rfl) hok hs
  exact ⟨h, hs, ((ownInstances_ordered (ownAges_numberedRouter 5)).1 h hrun).2 _ hstored⟩

/-- Two originations of the stored content send the same number, and the number after the largest is the
lowest. -/
theorem ownInstances_repeat_and_wrap :
    ((ownInstances (numberedRouter 5)).exec ⟨numberedRouter 5, []⟩
        [.originate (linklessOrigination 0), .originate (linklessOrigination 0)]).map (fun h =>
      (h.instances.map LsaHdr.lsSequenceNumber,
        decide (h.instances.Pairwise fun old new => lsaCompare (numberedRouter 5).ospf old new = 1))) =
        some ([6, 6], false) ∧
      ((ownInstances (numberedRouter 0xFFFFFFFF)).exec ⟨numberedRouter 0xFFFFFFFF, []⟩
        [.originate (linklessOrigination 1)]).map (fun h =>
      (h.instances.map LsaHdr.lsSequenceNumber, h.instances.map fun new =>
        lsaCompare (numberedRouter 0xFFFFFFFF).ospf (routerLsaOf 1 0xFFFFFFFF) new)) = some ([0], [-1]) := by
  refine ⟨?_, ?_⟩
  · decide
  · decide

end NetSim.Ospf
