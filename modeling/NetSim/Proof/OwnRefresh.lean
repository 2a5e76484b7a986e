import NetSim.Lib.Machine
import NetSim.Lib.Stride
import NetSim.Proof.LsaAgeing

/-!
# Refreshing the router's own LSAs

An own LSA is refreshed when its age, raised by the increment, equals `LSRefreshTime`. The age is a
counter with a stride, and a stride that misses the refresh time takes the age to `LSAMaxAge`.

* `ownLsa_refreshed` — if the counter meets the refresh time first, the LSA never expires, and otherwise
  it expires without a refresh; no age exceeds `LSAMaxAge` in any run.
* `refreshFirst_iff_dvd` — the counter meets the refresh time first if the increment divides what is left.
-/

namespace NetSim.Ospf

variable {s s' s₀ : Router} {k : LsaKey} {hdr : LsaHdr} {now : ℚ}

/-- Ageing events from a state on. -/
def ageing (s₀ : Router) : Machine Router ℚ where
  init s := s = s₀
  step s now := handleIncrementAge now s

/-- Ages that go up from `age` by the increment meet the refresh time before `LSAMaxAge`. -/
def RefreshFirst (ospf : Pds) (age : ℕ) : Prop :=
  Stride.MarkFirst 65536 (ageIncrement ospf).toNat (fun x => (x : ℚ) = ospf.lsRefreshTime / second)
    ospf.lsaMaxAge.toNat age

/-- For a refresh time of `R` seconds, and an increment that does not take an age over 16 bits. -/
theorem refreshFirst_iff_dvd {ospf : Pds} {age R : ℕ} (hrefresh : ospf.lsRefreshTime / second = R)
    (hR : R < ospf.lsaMaxAge.toNat) (hage : age < ospf.lsaMaxAge.toNat)
    (hfit : ospf.lsaMaxAge.toNat + (ageIncrement ospf).toNat ≤ 65536) :
    RefreshFirst ospf age ↔
      (ageIncrement ospf).toNat = 0 ∨ age < R ∧ (ageIncrement ospf).toNat ∣ R - age := by
  have hmark : (fun x : ℕ => (x : ℚ) = ospf.lsRefreshTime / second) = fun x => x = R := by
    funext x
    rw [hrefresh, Nat.cast_inj]
  unfold RefreshFirst
  rw [hmark]
  exact Stride.markFirst_iff_dvd hR hage hfit

/-- The stored instance of an LSA of the router itself that has not expired and that ages. -/
structure OwnLsa (s : Router) (k : LsaKey) (hdr : LsaHdr) : Prop where
  stored : s.area.stored k = some hdr
  own : hdr.advertisingRouter.intIp = s.ospf.routerId.intIp
  ages : AgesOn s k
  unmarked : s.ospf.supportDC = true → s.ospf.lsaMaxAge < 0x8000
  young : hdr.lsAge < s.ospf.lsaMaxAge

/-- A refresh of the stored instance has a sequence number to go to. -/
def CanAdvance (k : LsaKey) (s : Router) (_ : ℚ) : Prop :=
  ∀ hdr, s.area.stored k = some hdr → isRefreshDue s.ospf hdr = true → hdr.lsSequenceNumber ≠ maxSequenceNumber

namespace OwnLsa

theorem age_unmarked (h : OwnLsa s k hdr) : checkForDoNotAge s.ospf hdr.lsAge = false := by
  have hyoung := h.young
  refine checkForDoNotAge_of_lt fun hdc => ?_
  have hmax := h.unmarked hdc
  rw [UInt16.lt_iff_toNat_lt] at hyoung hmax ⊢
  omega

/-- The new age is the raised counter, cut at `LSAMaxAge`. -/
theorem tempAge_toNat (h : OwnLsa s k hdr) : (tempAge s.ospf hdr).toNat =
    min s.ospf.lsaMaxAge.toNat ((hdr.lsAge.toNat + (ageIncrement s.ospf).toNat) % 65536) := by
  have hmark := h.age_unmarked
  have hsum : (hdr.lsAge + ageIncrement s.ospf).toNat =
      (hdr.lsAge.toNat + (ageIncrement s.ospf).toNat) % 65536 := UInt16.toNat_add _ _
  unfold tempAge
  rw [hmark, maskDoNotAge_of_not hmark]
  simp only [Bool.false_eq_true, if_false]
  split
  · rename_i hgt
    rw [gt_iff_lt, UInt16.lt_iff_toNat_lt] at hgt
    omega
  · rename_i hle
    rw [gt_iff_lt, UInt16.lt_iff_toNat_lt] at hle
    omega

theorem mask_tempAge (h : OwnLsa s k hdr) : maskDoNotAge s.ospf (tempAge s.ospf hdr) = tempAge s.ospf hdr := by
  refine maskDoNotAge_of_not (checkForDoNotAge_of_lt fun hdc => ?_)
  have hle := tempAge_le s.ospf hdr
  have hmax := h.unmarked hdc
  rw [UInt16.le_iff_toNat_le] at hle
  rw [UInt16.lt_iff_toNat_lt] at hmax ⊢
  omega

/-- A refresh is due when the new age is the refresh time. -/
theorem isRefreshDue_iff (h : OwnLsa s k hdr) :
    isRefreshDue s.ospf hdr = true ↔ ((tempAge s.ospf hdr).toNat : ℚ) = s.ospf.lsRefreshTime / second := by
  have hown : hdr.advertisingRouter.same s.ospf.routerId = true := (Ip.same_iff _ _).2 h.own
  unfold isRefreshDue
  rw [hown, h.mask_tempAge, Bool.true_and, beq_iff_eq]

theorem raised_lsAge (h : OwnLsa s k hdr) : (raised s.ospf hdr).lsAge = tempAge s.ospf hdr := by
  unfold raised assignNewLSAge
  rw [h.age_unmarked]
  rfl

/-- An event refreshes the instance if that is due, and raises its age otherwise. -/
theorem aged_eq (h : OwnLsa s k hdr) (now : ℚ)
    (hseq : isRefreshDue s.ospf hdr = true → hdr.lsSequenceNumber ≠ maxSequenceNumber) :
    aged s.ospf now hdr = if isRefreshDue s.ospf hdr then refreshed now hdr else raised s.ospf hdr := by
  have hyoung := h.young
  have hmax : hasMaxAge s.ospf hdr = false := by
    unfold hasMaxAge
    rw [maskDoNotAge_of_not h.age_unmarked, beq_eq_false_iff_ne]
    intro heq
    rw [UInt16.lt_iff_toNat_lt, heq] at hyoung
    omega
  unfold aged
  rw [hmax]
  simp only [Bool.false_eq_true, if_false]
  by_cases hdue : isRefreshDue s.ospf hdr = true
  · rw [if_pos hdue, if_neg (hseq hdue), if_pos hdue]
  · rw [if_neg hdue, if_neg hdue]

/-- One event, if the instance does not expire in it. -/
theorem event (h : OwnLsa s k hdr)
    (hseq : isRefreshDue s.ospf hdr = true → hdr.lsSequenceNumber ≠ maxSequenceNumber)
    (hlive : isRefreshDue s.ospf hdr = true ∨
      (hdr.lsAge.toNat + (ageIncrement s.ospf).toNat) % 65536 < s.ospf.lsaMaxAge.toNat)
    (hev : handleIncrementAge now s = some s') :
    SameSettings s.ospf s'.ospf ∧
      OwnLsa s' k (if isRefreshDue s.ospf hdr then refreshed now hdr else raised s.ospf hdr) := by
  obtain ⟨hset, hages, hstored⟩ := handleIncrementAge_stored h.unmarked h.ages hev
  rw [h.stored, Option.map_some, h.aged_eq now hseq] at hstored
  have hyoung := h.young
  have htemp := h.tempAge_toNat
  have hraised := h.raised_lsAge
  obtain ⟨ifs, hifs⟩ := hset
  refine ⟨⟨ifs, hifs⟩, hstored, ?_, hages, ?_, ?_⟩
  · rw [hifs]
    split
    · exact h.own
    · exact h.own
  · rw [hifs]
    exact h.unmarked
  · rw [hifs, UInt16.lt_iff_toNat_lt]
    rw [UInt16.lt_iff_toNat_lt] at hyoung
    split
    · change 0 < s.ospf.lsaMaxAge.toNat
      omega
    · rename_i hdue
      have hlt := hlive.resolve_left hdue
      rw [hraised]
      change (tempAge s.ospf hdr).toNat < s.ospf.lsaMaxAge.toNat
      omega

end OwnLsa

/-! ## Runs -/

/-- An own LSA whose ages meet the refresh time first. -/
structure StaysYoung (s : Router) (k : LsaKey) (hdr : LsaHdr) : Prop extends OwnLsa s k hdr where
  now_first : RefreshFirst s.ospf hdr.lsAge.toNat
  then_first : RefreshFirst s.ospf 0

theorem StaysYoung.event (h : StaysYoung s k hdr)
    (hseq : isRefreshDue s.ospf hdr = true → hdr.lsSequenceNumber ≠ maxSequenceNumber)
    (hev : handleIncrementAge now s = some s') :
    StaysYoung s' k (if isRefreshDue s.ospf hdr then refreshed now hdr else raised s.ospf hdr) := by
  have hnext := h.now_first.next_lt
  obtain ⟨⟨ifs, hifs⟩, hown⟩ := h.toOwnLsa.event hseq (.inr hnext) hev
  have htemp := h.tempAge_toNat
  have hdueiff := h.isRefreshDue_iff
  refine ⟨hown, ?_, ?_⟩
  · split
    · rw [hifs]
      exact h.then_first
    · rename_i hdue
      have hage : (tempAge s.ospf hdr).toNat =
          (hdr.lsAge.toNat + (ageIncrement s.ospf).toNat) % 65536 := by omega
      rw [h.raised_lsAge, hage, hifs]
      refine h.now_first.step ?_
      rw [← hage]
      exact fun hmark => hdue (hdueiff.2 hmark)
  · rw [hifs]
    exact h.then_first

/-- **A run keeps the own LSA young.** -/
theorem StaysYoung.run (h : StaysYoung s₀ k hdr) (hrun : (ageing s₀).ReachOn (CanAdvance k) s) :
    ∃ hdr', StaysYoung s k hdr' := by
  refine hrun.inv (I := fun s => ∃ hdr', StaysYoung s k hdr') ?_ ?_
  · rintro s rfl
    exact ⟨hdr, h⟩
  · rintro s now s' ⟨hdr', h'⟩ hok hev
    exact ⟨_, h'.event (hok hdr' h'.stored) hev⟩

theorem agesBounded_run (h : AgesBounded s₀) (hrun : (ageing s₀).Reach s) : AgesBounded s := by
  refine hrun.inv (I := AgesBounded) ?_ ?_
  · rintro s rfl
    exact h
  · intro s now s' _ _ hev
    exact handleIncrementAge_agesBounded hev

/-- Ages that miss the refresh time reach `LSAMaxAge`, after as many events. -/
theorem OwnLsa.expires {start : Router} {n : ℕ} {times : List ℚ} (h : OwnLsa s₀ k hdr)
    (hrefresh : s₀.ospf.lsRefreshTime / second < s₀.ospf.lsaMaxAge.toNat)
    (hpast : s₀.ospf.lsaMaxAge.toNat ≤ (hdr.lsAge.toNat + n * (ageIncrement s₀.ospf).toNat) % 65536)
    (hbefore : ∀ m, 0 < m → m < n →
      (hdr.lsAge.toNat + m * (ageIncrement s₀.ospf).toNat) % 65536 < s₀.ospf.lsaMaxAge.toNat ∧
        ((hdr.lsAge.toNat + m * (ageIncrement s₀.ospf).toNat) % 65536 : ℕ) ≠
          s₀.ospf.lsRefreshTime / second)
    (hlen : times.length = n) (hexec : (ageing start).exec s₀ times = some s) :
    ∃ hdr', s.area.stored k = some hdr' ∧ hdr'.lsAge = s₀.ospf.lsaMaxAge ∧
      hdr'.lsSequenceNumber = hdr.lsSequenceNumber := by
  induction times generalizing s₀ hdr n with
  | nil =>
    obtain rfl : n = 0 := hlen.symm
    have hyoung := h.young
    have hage := hdr.lsAge.toNat_lt
    rw [UInt16.lt_iff_toNat_lt] at hyoung
    rw [zero_mul, add_zero, Nat.mod_eq_of_lt hage] at hpast
    omega
  | cons now times ih =>
    obtain rfl : n = times.length + 1 := hlen.symm
    obtain ⟨s₁, hev, hexec⟩ := Option.bind_eq_some_iff.1 hexec
    have htemp := h.tempAge_toNat
    have hdueiff := h.isRefreshDue_iff
    rcases Nat.eq_zero_or_pos times.length with hlast | hmore
    · -- the last event: the new age is cut
      rw [hlast, zero_add, one_mul] at hpast
      have hmax : (tempAge s₀.ospf hdr).toNat = s₀.ospf.lsaMaxAge.toNat := by omega
      have hdue : ¬ isRefreshDue s₀.ospf hdr = true := by
        rw [hdueiff, hmax]
        exact hrefresh.ne'
      obtain rfl := List.length_eq_zero_iff.1 hlast
      obtain rfl := Option.some.inj hexec
      obtain ⟨-, -, hstored⟩ := handleIncrementAge_stored h.unmarked h.ages hev
      rw [h.stored, Option.map_some, h.aged_eq now fun hd => absurd hd hdue, if_neg hdue] at hstored
      refine ⟨_, hstored, ?_, rfl⟩
      rw [h.raised_lsAge]
      exact UInt16.toNat_inj.1 hmax
    · obtain ⟨hlt, hmiss⟩ := hbefore 1 (by omega) (by omega)
      rw [one_mul] at hlt hmiss
      have hage : (tempAge s₀.ospf hdr).toNat =
          (hdr.lsAge.toNat + (ageIncrement s₀.ospf).toNat) % 65536 := by omega
      have hdue : ¬ isRefreshDue s₀.ospf hdr = true := by
        rw [hdueiff, hage]
        exact hmiss
      obtain ⟨⟨ifs, hifs⟩, hown⟩ := h.event (fun hd => absurd hd hdue) (.inr hlt) hev
      rw [if_neg hdue] at hown
      have hset : s₁.ospf.lsRefreshTime = s₀.ospf.lsRefreshTime ∧ s₁.ospf.lsaMaxAge = s₀.ospf.lsaMaxAge ∧
          ageIncrement s₁.ospf = ageIncrement s₀.ospf := by
        rw [hifs]
        exact ⟨rfl, rfl, rfl⟩
      have hstep : ∀ m, ((raised s₀.ospf hdr).lsAge.toNat + m * (ageIncrement s₁.ospf).toNat) % 65536 =
          (hdr.lsAge.toNat + (m + 1) * (ageIncrement s₀.ospf).toNat) % 65536 := by
        intro m
        rw [h.raised_lsAge, hage, hset.2.2]
        exact Stride.mod_step _ _ _ _
      have hrefresh' : s₁.ospf.lsRefreshTime / second < s₁.ospf.lsaMaxAge.toNat := by
        rw [hset.1, hset.2.1]
        exact hrefresh
      rw [← hset.2.1] at hpast ⊢
      rw [← hstep] at hpast
      obtain ⟨hdr', hstored, hmax, hsame⟩ := ih hown hrefresh' hpast
        (by
          intro m hpos hm
          rw [hstep, hset.1, hset.2.1]
          exact hbefore (m + 1) (by omega) (by omega)) rfl hexec
      exact ⟨hdr', hstored, hmax, hsame⟩

/-- **The router's own LSAs.** If the ages of the stored instance, and those of a refreshed one, meet the
refresh time first, the instance is refreshed before it expires in every run that does not exhaust the
sequence numbers. If they do not, it expires in every long enough run, with the sequence number it has. -/
theorem ownLsa_refreshed (h : OwnLsa s₀ k hdr)
    (hrefresh : s₀.ospf.lsRefreshTime / second < s₀.ospf.lsaMaxAge.toNat) :
    (AgesBounded s₀ → ∀ s, (ageing s₀).Reach s → AgesBounded s) ∧
    (RefreshFirst s₀.ospf hdr.lsAge.toNat → RefreshFirst s₀.ospf 0 →
      ∀ s, (ageing s₀).ReachOn (CanAdvance k) s → ∃ hdr', OwnLsa s k hdr' ∧
        ∀ now s', CanAdvance k s now → (ageing s₀).step s now = some s' →
          s'.area.stored k =
            some (if isRefreshDue s.ospf hdr' then refreshed now hdr' else raised s.ospf hdr')) ∧
    (¬ RefreshFirst s₀.ospf hdr.lsAge.toNat → ∃ n, ∀ times s, times.length = n →
      (ageing s₀).exec s₀ times = some s → ∃ hdr', s.area.stored k = some hdr' ∧
        hdr'.lsAge = s₀.ospf.lsaMaxAge ∧ hdr'.lsSequenceNumber = hdr.lsSequenceNumber) := by
  refine ⟨fun hb s hrun => agesBounded_run hb hrun, ?_, ?_⟩
  · intro hnow hthen s hrun
    have hstart : StaysYoung s₀ k hdr := ⟨h, hnow, hthen⟩
    obtain ⟨hdr', h'⟩ := hstart.run hrun
    refine ⟨hdr', h'.toOwnLsa, ?_⟩
    intro now s' hok hev
    exact (h'.event (hok hdr' h'.stored) hev).stored
  · intro hmiss
    obtain ⟨n, hpast, hbefore⟩ := Stride.exists_of_not_markFirst hmiss
    exact ⟨n, fun times s hlen hexec => h.expires hrefresh hpast hbefore hlen hexec⟩

/-! ## Samples -/

/-- A router with an own LSA and another increment. -/
def ownRouter (incrementTime : ℚ) : Router :=
  ⟨{ twoNeighborRouter .p2p .p2p with incrementTime }, routerArea [{ routerLsaOf 1 5 with lsAge := 0 }]⟩

theorem ownLsa_ownRouter (incrementTime : ℚ) :
    OwnLsa (ownRouter incrementTime) (.routerLsa, 1, 1) { routerLsaOf 1 5 with lsAge := 0 } := by
  have hyoung : (0 : UInt16) < 3600 := by decide
  refine ⟨rfl, rfl, ?_, fun h => (Bool.false_ne_true h).elim, hyoung⟩
  intro t list _ hdr _ _
  rfl

theorem ownLsa_refreshed_each_minute :
    ∃ s, (ageing (ownRouter 60000000)).step (ownRouter 60000000) 1 = some s ∧
      ∃ hdr', OwnLsa s (.routerLsa, 1, 1) hdr' := by
  have hinc : (ageIncrement (ownRouter 60000000).ospf).toNat = 60 := by decide +kernel
  have htime : (ownRouter 60000000).ospf.lsRefreshTime / second = (1800 : ℕ) := by decide +kernel
  have hfirst : RefreshFirst (ownRouter 60000000).ospf 0 := by
    rw [refreshFirst_iff_dvd htime (by decide) (by decide) (by rw [hinc]; decide), hinc]
    exact .inr ⟨by decide, ⟨30, rfl⟩⟩
  have hrefresh : (ownRouter 60000000).ospf.lsRefreshTime / second <
      (ownRouter 60000000).ospf.lsaMaxAge.toNat := by decide +kernel
  have hok : CanAdvance (.routerLsa, 1, 1) (ownRouter 60000000) 1 := by
    intro hdr hstored _
    obtain rfl := Option.some.inj ((ownLsa_ownRouter 60000000).stored.symm.trans hstored)
    decide
  obtain ⟨s, hs⟩ := Option.isSome_iff_exists.1
    (show ((ageing (ownRouter 60000000)).step (ownRouter 60000000) 1).isSome = true by decide +kernel)
  have hrun : (ageing (ownRouter 60000000)).ReachOn (CanAdvance (.routerLsa, 1, 1)) s := .step (.init rfl) hok hs
  obtain ⟨hdr', h', -⟩ := (ownLsa_refreshed (ownLsa_ownRouter 60000000) hrefresh).2.1 hfirst hfirst s hrun
  exact ⟨s, hs, hdr', h'⟩

/-- With an increment of 1000 seconds the refresh time of 1800 seconds is stepped over. -/
theorem ownLsa_expires_unrefreshed :
    OwnLsa (ownRouter 1000000000) (.routerLsa, 1, 1) { routerLsaOf 1 5 with lsAge := 0 } ∧
      (ownRouter 1000000000).ospf.lsRefreshTime / second < (ownRouter 1000000000).ospf.lsaMaxAge.toNat ∧
      ((ageing (ownRouter 1000000000)).exec (ownRouter 1000000000) [1, 2, 3, 4]).map (fun s =>
        (s.area.stored (.routerLsa, 1, 1)).map fun hdr => (hdr.lsAge, hdr.lsSequenceNumber)) =
          some (some (3600, 5)) := by
  refine ⟨ownLsa_ownRouter _, ?_, ?_⟩
  · decide +kernel
  · decide +kernel

end NetSim.Ospf
