import Mathlib.Tactic.Linarith
import Mathlib.Tactic.NormNum
import Mathlib.Tactic.Positivity
import NetSim.Lib.Champion
import NetSim.Spec.Minstrel

/-!
# The rates that Minstrel chooses

* `maxTpRate_highest`, `maxTp2Rate_iff`, `maxProbRate_iff`: the three loops.
* `Sound`: the throughput of a rate is that of its probability, in every run.
* `rates_right_iff`: when an update chooses the right rates.
-/

namespace NetSim.Minstrel

open RunningMax

variable {n : ℕ} {table : RateTable n} {s s' : Station n} {p t : Fin n → ℚ} {first : Fin n}

/-! ## The choice -/

/-- A rate of high probability. -/
def IsHigh (p : Fin n → ℚ) (i : Fin n) : Prop := 95 / 100 ≤ p i

/-- A rate of highest throughput among those of high probability. -/
def IsBest (p t : Fin n → ℚ) (i : Fin n) : Prop := IsHigh p i ∧ ∀ j, IsHigh p j → t j ≤ t i

/-- The last one of them. -/
def IsLastBest (p t : Fin n → ℚ) (i : Fin n) : Prop := IsBest p t i ∧ ∀ j, i < j → IsHigh p j → t j < t i

/-- **What the choice is for**: a rate of highest throughput, another one of highest throughput among the others, and the best
rate of high probability, or one of highest probability if there is none. -/
structure RightChoice (p t : Fin n → ℚ) (s : Station n) : Prop where
  maxTp : ∀ j, t j ≤ t s.maxTpRate
  maxTp2 : s.maxTp2Rate ≠ s.maxTpRate ∧ ∀ j, j ≠ s.maxTpRate → t j ≤ t s.maxTp2Rate
  maxProb : (∃ j, IsHigh p j) → IsBest p t s.maxProbRate
  maxProb_low : (∀ j, ¬ IsHigh p j) → ∀ j, p j ≤ p s.maxProbRate

theorem findMaxTp_spec (t : Fin n → ℚ) (first : Fin n) (l : List (Fin n)) : (∀ x ∈ l, t x ≤ (findMaxTp t first l).2) ∧
    (findMaxTp t first l = (first, 0) ∨ (findMaxTp t first l).1 ∈ l ∧
      (findMaxTp t first l).2 = t (findMaxTp t first l).1 ∧ 0 < (findMaxTp t first l).2) :=
  foldl_best t (first, 0) l

theorem findMaxTp_highest (ht : ∀ i, 0 ≤ t i) (first : Fin n) (l : List (Fin n)) :
    ∀ x ∈ l, t x ≤ t (findMaxTp t first l).1 := by
  obtain ⟨hall, hstart | ⟨-, hvalue, -⟩⟩ := findMaxTp_spec t first l
  · intro x hx
    have hx := hall x hx
    rw [hstart] at hx ⊢
    exact hx.trans (ht first)
  · intro x hx
    rw [← hvalue]
    exact hall x hx

theorem maxTpRate_highest (ht : ∀ i, 0 ≤ t i) (p : Fin n → ℚ) (first : Fin n) (s : Station n) (j : Fin n) :
    t j ≤ t (chooseRates p t first s).maxTpRate :=
  findMaxTp_highest ht first _ j (List.mem_finRange j)

/-- **The second rate** is another one unless all throughputs but that of the first rate are zero. -/
theorem maxTp2Rate_iff (ht : ∀ i, 0 ≤ t i) (p : Fin n → ℚ) (first : Fin n) (s : Station n) :
    ((chooseRates p t first s).maxTp2Rate ≠ (chooseRates p t first s).maxTpRate ∧
      ∀ j, j ≠ (chooseRates p t first s).maxTpRate → t j ≤ t (chooseRates p t first s).maxTp2Rate) ↔
      ∃ i, i ≠ first ∧ 0 < t i := by
  have hbest : ∀ j, t j ≤ t (chooseRates p t first s).maxTpRate := maxTpRate_highest ht p first s
  have hfirst : (chooseRates p t first s).maxTpRate = first ∨ 0 < t (chooseRates p t first s).maxTpRate := by
    obtain ⟨-, hstart | ⟨-, hvalue, hpos⟩⟩ := findMaxTp_spec t first (List.finRange n)
    · exact .inl (congrArg Prod.fst hstart)
    · rw [hvalue] at hpos
      exact .inr hpos
  have hsecond : (chooseRates p t first s).maxTp2Rate =
      (findMaxTp t first ((List.finRange n).filter fun i => i ≠ (chooseRates p t first s).maxTpRate)).1 := rfl
  rw [hsecond]
  generalize (chooseRates p t first s).maxTpRate = best at *
  have hothers := findMaxTp_highest ht first ((List.finRange n).filter fun i => i ≠ best)
  obtain ⟨hall, hcase⟩ := findMaxTp_spec t first ((List.finRange n).filter fun i => i ≠ best)
  have hmem : ∀ j, j ∈ (List.finRange n).filter (fun i => i ≠ best) ↔ j ≠ best := by
    intro j
    rw [List.mem_filter, decide_eq_true_eq]
    exact and_iff_right (List.mem_finRange j)
  constructor
  · rintro ⟨hne, -⟩
    by_contra hnone
    have hzero : ∀ i, i ≠ first → ¬ 0 < t i := fun i hi hpos => hnone ⟨i, hi, hpos⟩
    have hbest0 : best = first := hfirst.resolve_right fun hpos => by
      by_cases heq : best = first
      · rcases hcase with hstart | ⟨hin, hvalue, hpos2⟩
        · rw [hstart] at hne
          exact hne heq.symm
        · rw [hvalue] at hpos2
          exact hzero _ (fun h0 => (hmem _).1 hin (h0.trans heq.symm)) hpos2
      · exact hzero best heq hpos
    rcases hcase with hstart | ⟨hin, hvalue, hpos⟩
    · rw [hstart] at hne
      exact hne hbest0.symm
    · rw [hvalue] at hpos
      exact hzero _ (fun h0 => (hmem _).1 hin (h0.trans hbest0.symm)) hpos
  · rintro ⟨i, hi, hpos⟩
    refine ⟨?_, fun j hj => hothers j ((hmem j).2 hj)⟩
    rcases hcase with hstart | ⟨hin, -, -⟩
    · rw [hstart] at hall ⊢
      -- only the rate of highest throughput can be positive
      have hib : i = best := by
        by_contra hne
        exact absurd (hall i ((hmem i).2 hne)) (not_le.2 hpos)
      exact fun heq => hi (hib.trans heq.symm)
    · exact (hmem _).1 hin

/-- The rate `x` takes the place of the rate `b` in the third loop. -/
def Replaces (p t : Fin n → ℚ) (b x : Fin n) : Prop := 95 / 100 ≤ p x ∧ t b ≤ t x ∨ p b ≤ p x

instance (p t : Fin n → ℚ) : DecidableRel (Replaces p t) := fun b x =>
  inferInstanceAs (Decidable (95 / 100 ≤ p x ∧ t b ≤ t x ∨ p b ≤ p x))

theorem findMaxProb_eq (p t : Fin n → ℚ) (b x : Fin n) :
    findMaxProb p t (b, p b) x = if Replaces p t b x then (x, p x) else (b, p b) := by
  unfold findMaxProb
  dsimp only
  by_cases h₁ : 95 / 100 ≤ p x ∧ t b ≤ t x
  · have hreplaces : Replaces p t b x := .inl h₁
    rw [if_pos h₁, if_pos hreplaces]
  · by_cases h₂ : p b ≤ p x
    · have hreplaces : Replaces p t b x := .inr h₂
      rw [if_neg h₁, if_pos h₂, if_pos hreplaces]
    · have hstays : ¬ Replaces p t b x := not_or.2 ⟨h₁, h₂⟩
      rw [if_neg h₁, if_neg h₂, if_neg hstays]

theorem foldl_findMaxProb (p t : Fin n → ℚ) (b : Fin n) (l : List (Fin n)) :
    l.foldl (findMaxProb p t) (b, p b) = (scan (Replaces p t) b l, p (scan (Replaces p t) b l)) := by
  induction l generalizing b with
  | nil => rfl
  | cons x l ih =>
    rw [List.foldl_cons, findMaxProb_eq, scan_cons]
    split
    · exact ih x
    · exact ih b

/-- The first rate is always taken. -/
theorem maxProbRate_eq (hp : ∀ i, 0 ≤ p i) (t : Fin n → ℚ) (first : Fin n) (s : Station n) {x : Fin n} {l : List (Fin n)}
    (h : List.finRange n = x :: l) : (chooseRates p t first s).maxProbRate = scan (Replaces p t) x l := by
  have hstep : findMaxProb p t (first, 0) x = (x, p x) := by
    unfold findMaxProb
    split
    · rfl
    · rw [if_pos (hp x)]
  have hrate : (chooseRates p t first s).maxProbRate = ((List.finRange n).foldl (findMaxProb p t) (first, 0)).1 := rfl
  rw [hrate, h, List.foldl_cons, hstep, foldl_findMaxProb]

theorem IsLastBest.unique {m m' : Fin n} (h : IsLastBest p t m) (h' : IsLastBest p t m') : m = m' := by
  rcases lt_trichotomy m m' with hlt | heq | hlt
  · exact absurd (h.2 m' hlt h'.1.1) (not_lt.2 (h'.1.2 m h.1.1))
  · exact heq
  · exact absurd (h'.2 m hlt h.1.1) (not_lt.2 (h.1.2 m' h'.1.1))

/-- There is a last best rate in a list, if there is one of high probability. -/
theorem exists_last (p t : Fin n → ℚ) {l : List (Fin n)} (h : ∃ j ∈ l, IsHigh p j) : ∃ l₁ m l₂, l = l₁ ++ m :: l₂ ∧ IsHigh p m ∧
    (∀ j ∈ l, IsHigh p j → t j ≤ t m) ∧ ∀ j ∈ l₂, IsHigh p j → t j < t m := by
  induction l with
  | nil =>
    obtain ⟨j, hj, -⟩ := h
    cases hj
  | cons a l ih =>
    by_cases hl : ∃ j ∈ l, IsHigh p j
    · obtain ⟨l₁, m, l₂, rfl, hm, hall, hlast⟩ := ih hl
      by_cases ha : IsHigh p a ∧ t m < t a
      · refine ⟨[], a, l₁ ++ m :: l₂, rfl, ha.1, fun j hj hhigh => ?_, fun j hj hhigh => (hall j hj hhigh).trans_lt ha.2⟩
        rcases List.mem_cons.1 hj with rfl | hj
        · exact le_refl _
        · exact (hall j hj hhigh).trans (le_of_lt ha.2)
      · refine ⟨a :: l₁, m, l₂, rfl, hm, fun j hj hhigh => ?_, hlast⟩
        rcases List.mem_cons.1 hj with rfl | hj
        · exact not_lt.1 fun hlt => ha ⟨hhigh, hlt⟩
        · exact hall j hj hhigh
    · obtain ⟨j, hj, hhigh⟩ := h
      have hnone : ∀ j ∈ l, ¬ IsHigh p j := fun j hj hhigh => hl ⟨j, hj, hhigh⟩
      rcases List.mem_cons.1 hj with rfl | hj
      · refine ⟨[], j, l, rfl, hhigh, fun i hi hi' => ?_, fun i hi hi' => absurd hi' (hnone i hi)⟩
        rcases List.mem_cons.1 hi with rfl | hi
        · exact le_refl _
        · exact absurd hi' (hnone i hi)
      · exact absurd hhigh (hnone j hj)

/-- What comes behind a rate in the table is greater. -/
theorem mem_behind_iff {l₁ l₂ : List (Fin n)} {m : Fin n} (h : List.finRange n = l₁ ++ m :: l₂) (j : Fin n) : j ∈ l₂ ↔ m < j := by
  have hsorted : (List.finRange n).Pairwise (· < ·) := List.pairwise_lt_finRange n
  rw [h, List.pairwise_append, List.pairwise_cons] at hsorted
  obtain ⟨-, ⟨hbehind, -⟩, hbefore⟩ := hsorted
  refine ⟨hbehind j, fun hlt => ?_⟩
  have hj : j ∈ l₁ ++ m :: l₂ := h ▸ List.mem_finRange j
  rcases List.mem_append.1 hj with hj | hj
  · exact absurd (hbefore j hj m List.mem_cons_self) (not_lt.2 (le_of_lt hlt))
  · rcases List.mem_cons.1 hj with rfl | hj
    · exact absurd hlt (lt_irrefl j)
    · exact hj

/-- No rate behind the last best one has a probability as high as its own. -/
def LastHighest (p t : Fin n → ℚ) : Prop := ∀ m, IsLastBest p t m → ∀ j, m < j → IsHigh p j → p j < p m

/-- **The third rate** is the best one exactly if no rate behind the last best one takes its place. -/
theorem maxProbRate_iff (hp : ∀ i, 0 ≤ p i) (t : Fin n → ℚ) (first : Fin n) (s : Station n) (hhigh : ∃ j, IsHigh p j) :
    IsBest p t (chooseRates p t first s).maxProbRate ↔ LastHighest p t := by
  obtain ⟨j, hj⟩ := hhigh
  obtain ⟨l₁, m, l₂, hsplit, hm, hall, hlast⟩ := exists_last p t ⟨j, List.mem_finRange j, hj⟩
  have hbest : IsLastBest p t m := ⟨⟨hm, fun i => hall i (List.mem_finRange i)⟩,
    fun i hi => hlast i ((mem_behind_iff hsplit i).2 hi)⟩
  -- the last best rate is taken when the loop comes to it
  have hscan : (chooseRates p t first s).maxProbRate = scan (Replaces p t) m l₂ := by
    cases l₁ with
    | nil => exact maxProbRate_eq hp t first s hsplit
    | cons x l₁ =>
      have hcons : List.finRange n = x :: (l₁ ++ m :: l₂) := hsplit
      have hreplaces : Replaces p t (scan (Replaces p t) x l₁) m := by
        by_cases hb : IsHigh p (scan (Replaces p t) x l₁)
        · exact .inl ⟨hm, hbest.1.2 _ hb⟩
        · exact .inr (le_of_lt (lt_of_lt_of_le (not_le.1 hb) hm))
      rw [maxProbRate_eq hp t first s hcons, scan_append, scan_cons, if_pos hreplaces]
  rw [hscan]
  constructor
  · intro hresult m' hm' i hi hihigh
    obtain rfl := hm'.unique hbest
    by_contra hge
    have hreplaces : Replaces p t m' i := .inr (not_lt.1 hge)
    have hmem := scan_mem_of_replaces ((mem_behind_iff hsplit i).2 hi) hreplaces
    exact absurd (hresult.2 m' hm) (not_le.2 (hlast _ hmem hresult.1))
  · intro hhighest
    rw [scan_eq_self fun i hi => ?_]
    · exact hbest.1
    · have hi' := (mem_behind_iff hsplit i).1 hi
      rintro (⟨hihigh, hle⟩ | hle)
      · exact absurd hle (not_le.2 (hlast i hi hihigh))
      · have hihigh : IsHigh p i := le_trans hm hle
        exact absurd hle (not_le.2 (hhighest m hbest i hi' hihigh))

/-- Without a rate of high probability it is one of highest probability. -/
theorem maxProbRate_low (hp : ∀ i, 0 ≤ p i) (t : Fin n → ℚ) (first : Fin n) (s : Station n) (hlow : ∀ j, ¬ IsHigh p j)
    (j : Fin n) : p j ≤ p (chooseRates p t first s).maxProbRate := by
  have hle : ∀ b x, Replaces p t b x ↔ p b ≤ p x :=
    fun b x => ⟨fun h => h.resolve_left fun hand => hlow x hand.1, .inr⟩
  cases hl : List.finRange n with
  | nil =>
    have hj := List.mem_finRange j
    rw [hl] at hj
    cases hj
  | cons x l =>
    rw [maxProbRate_eq hp t first s hl]
    refine le_scan p (fun b x h => (hle b x).1 h) (fun b x h => le_of_not_ge fun hge => h ((hle b x).2 hge)) x l j ?_
    rw [← hl]
    exact List.mem_finRange j

/-- **The choice is right** exactly if a rate other than the first has a positive throughput, and no rate behind the last best
one has a probability as high as its own. -/
theorem chooseRates_iff (hp : ∀ i, 0 ≤ p i) (ht : ∀ i, 0 ≤ t i) (first : Fin n) (s : Station n) :
    RightChoice p t (chooseRates p t first s) ↔ (∃ i, i ≠ first ∧ 0 < t i) ∧ LastHighest p t := by
  constructor
  · intro h
    refine ⟨(maxTp2Rate_iff ht p first s).1 h.maxTp2, fun m hm => ?_⟩
    have hhigh : ∃ j, IsHigh p j := ⟨m, hm.1.1⟩
    exact (maxProbRate_iff hp t first s hhigh).1 (h.maxProb hhigh) m hm
  · rintro ⟨hpos, hlast⟩
    exact ⟨maxTpRate_highest ht p first s, (maxTp2Rate_iff ht p first s).2 hpos,
      fun hhigh => (maxProbRate_iff hp t first s hhigh).2 hlast, maxProbRate_low hp t first s⟩

/-! ## Runs -/

theorem RateTable.trTime_pos (table : RateTable n) (i : Fin n) : 0 < table.trTime i := by
  unfold RateTable.trTime
  split
  case isTrue => norm_num
  case isFalse h => exact lt_of_le_of_ne (table.perfectTrTime_nonneg i) (Ne.symm h)

theorem RateTable.throughput_nonneg (table : RateTable n) (i : Fin n) (q : ℚ) : 0 ≤ table.throughput i q := by
  unfold RateTable.throughput
  split
  case isTrue => exact le_refl 0
  case isFalse h =>
    have hpos := table.trTime_pos i
    have hq : 0 ≤ q := by linarith
    positivity

theorem RateTable.throughput_pos_iff (table : RateTable n) (i : Fin n) (q : ℚ) : 0 < table.throughput i q ↔ 1 / 10 ≤ q := by
  unfold RateTable.throughput
  split
  case isTrue h => exact ⟨fun hlt => absurd hlt (lt_irrefl 0), fun hle => absurd h (not_lt.2 hle)⟩
  case isFalse h =>
    have hpos := table.trTime_pos i
    have hq : 0 < q := by linarith
    exact ⟨fun _ => not_lt.1 h, fun _ => by positivity⟩

/-- The probability of a rate when the packets since the last update are counted. -/
def RateInfo.nextProb (r : RateInfo) : ℚ := if r.currNumAttempt = 0 then r.ewmaProb else r.newProb

theorem RateInfo.nextProb_nonneg {r : RateInfo} (h : 0 ≤ r.ewmaProb) : 0 ≤ r.nextProb := by
  have hshare : 0 ≤ r.successShare := by
    unfold RateInfo.successShare
    positivity
  unfold RateInfo.nextProb
  split
  · exact h
  · unfold RateInfo.newProb ewmaWeight
    split
    · exact hshare
    · have hrest : (0 : ℚ) ≤ 100 - 25 := by norm_num
      positivity

/-- The statistics of a row are sound: the throughput is that of the probability. -/
def RateInfo.Sound (table : RateTable n) (i : Fin n) (r : RateInfo) : Prop :=
  0 ≤ r.ewmaProb ∧ r.throughput = table.throughput i r.ewmaProb

theorem updateRate_ewmaProb (table : RateTable n) (i : Fin n) (r : RateInfo) :
    (table.updateRate i r).ewmaProb = r.nextProb := by
  unfold RateTable.updateRate RateInfo.nextProb
  dsimp only
  by_cases h : r.currNumAttempt = 0
  · rw [if_neg (not_not.2 h), if_pos h]
    split
    · rfl
    · rfl
  · rw [if_pos h, if_neg h]
    split
    · rfl
    · rfl

theorem updateRate_throughput (table : RateTable n) (i : Fin n) (r : RateInfo) :
    (table.updateRate i r).throughput = if r.currNumAttempt = 0 then r.throughput else table.throughput i r.newProb := by
  unfold RateTable.updateRate
  dsimp only
  by_cases h : r.currNumAttempt = 0
  · rw [if_neg (not_not.2 h), if_pos h]
    split
    · rfl
    · rfl
  · rw [if_pos h, if_neg h]
    split
    · rfl
    · rfl

theorem RateInfo.Sound.updateRate {i : Fin n} {r : RateInfo} (h : r.Sound table i) : (table.updateRate i r).Sound table i := by
  unfold RateInfo.Sound
  rw [updateRate_ewmaProb, updateRate_throughput]
  refine ⟨RateInfo.nextProb_nonneg h.1, ?_⟩
  unfold RateInfo.nextProb
  split
  · exact h.2
  · rfl

/-- Nothing but counters has changed. -/
structure SameRates (s s' : Station n) : Prop where
  isInitialized : s'.isInitialized = s.isInitialized
  ewmaProb : ∀ i, (s'.minstrelTable i).ewmaProb = (s.minstrelTable i).ewmaProb
  throughput : ∀ i, (s'.minstrelTable i).throughput = (s.minstrelTable i).throughput
  maxTpRate : s'.maxTpRate = s.maxTpRate
  maxTp2Rate : s'.maxTp2Rate = s.maxTp2Rate
  maxProbRate : s'.maxProbRate = s.maxProbRate

theorem SameRates.trans {s₁ s₂ s₃ : Station n} (h : SameRates s₁ s₂) (h' : SameRates s₂ s₃) : SameRates s₁ s₃ where
  isInitialized := h'.isInitialized.trans h.isInitialized
  ewmaProb i := (h'.ewmaProb i).trans (h.ewmaProb i)
  throughput i := (h'.throughput i).trans (h.throughput i)
  maxTpRate := h'.maxTpRate.trans h.maxTpRate
  maxTp2Rate := h'.maxTp2Rate.trans h.maxTp2Rate
  maxProbRate := h'.maxProbRate.trans h.maxProbRate

theorem SameRates.refl (s : Station n) : SameRates s s := ⟨rfl, fun _ => rfl, fun _ => rfl, rfl, rfl, rfl⟩

/-- A change of counters in a row. -/
theorem sameRates_modify (s : Station n) (i : Fin n) {f : RateInfo → RateInfo}
    (h : ∀ r, (f r).ewmaProb = r.ewmaProb ∧ (f r).throughput = r.throughput) : SameRates s (s.modify i f) := by
  have hrow : ∀ j, ((s.modify i f).minstrelTable j).ewmaProb = (s.minstrelTable j).ewmaProb ∧
      ((s.modify i f).minstrelTable j).throughput = (s.minstrelTable j).throughput := by
    intro j
    unfold Station.modify
    dsimp only
    by_cases hj : j = i
    · rw [hj, Function.update_self]
      exact h _
    · rw [Function.update_of_ne hj]
      exact ⟨rfl, rfl⟩
  exact ⟨rfl, fun j => (hrow j).1, fun j => (hrow j).2, rfl, rfl, rfl⟩

theorem sameRates_updateRate (table : RateTable n) (s : Station n) : SameRates s (updateRate table s) := by
  have hmodify := sameRates_modify { s with longRetry := s.longRetry + 1, totalPacketCount := s.totalPacketCount + 1 } s.trRate
    (f := fun r => { r with currNumAttempt := r.currNumAttempt + 1 }) fun _ => ⟨rfl, rfl⟩
  exact ⟨rfl, hmodify.ewmaProb, hmodify.throughput, rfl, rfl, rfl⟩

theorem sameRates_getNextSample (table : RateTable n) (s : Station n) : SameRates s (getNextSample table s).2 := by
  unfold getNextSample
  dsimp only
  split
  · exact ⟨rfl, fun _ => rfl, fun _ => rfl, rfl, rfl, rfl⟩
  · exact ⟨rfl, fun _ => rfl, fun _ => rfl, rfl, rfl, rfl⟩

theorem sameRates_sampleNext (table : RateTable n) (s : Station n) : SameRates s (sampleNext table s).2 := by
  refine (sameRates_getNextSample table s).trans ?_
  unfold sampleNext
  generalize getNextSample table s = next
  obtain ⟨idx, s⟩ := next
  dsimp only
  split
  · exact ⟨rfl, fun _ => rfl, fun _ => rfl, rfl, rfl, rfl⟩
  · split
    · exact ⟨rfl, fun _ => rfl, fun _ => rfl, rfl, rfl, rfl⟩
    · have hmodify := sameRates_modify { s with sampleRate := idx, isSampling := true } idx (f := fun r =>
        { r with sampleLimit := if 0 < r.sampleLimit then r.sampleLimit - 1 else r.sampleLimit }) fun _ => ⟨rfl, rfl⟩
      exact ⟨hmodify.isInitialized, hmodify.ewmaProb, hmodify.throughput, rfl, rfl, rfl⟩

theorem sameRates_findRate (table : RateTable n) (s : Station n) : SameRates s (findRate table s).2 := by
  unfold findRate
  split
  · exact .refl s
  · split
    · obtain h := sameRates_sampleNext table { s with
        samplePacketCount :=
          if (2 * n : ℤ) < s.delta then s.samplePacketCount + UInt64.ofNat (s.delta.toNat - 2 * n) else s.samplePacketCount }
      exact ⟨h.isInitialized, h.ewmaProb, h.throughput, h.maxTpRate, h.maxTp2Rate, h.maxProbRate⟩
    · exact .refl s

/-- **The statistics are sound**: the throughput of each rate is that of its probability. -/
structure Sound (table : RateTable n) (s : Station n) : Prop where
  isInitialized : s.isInitialized = true
  row : ∀ i, (s.minstrelTable i).Sound table i

theorem Sound.same (h : Sound table s) (hsame : SameRates s s') : Sound table s' where
  isInitialized := hsame.isInitialized.trans h.isInitialized
  row i := by
    unfold RateInfo.Sound
    rw [hsame.ewmaProb, hsame.throughput]
    exact h.row i

theorem sameRates_counted (s : Station n) (e : Report) : SameRates s (s.counted e) := by
  cases e with
  | dataOk now =>
    exact sameRates_modify s s.trRate (f := fun r =>
      { r with currNumAttempt := r.currNumAttempt + 1, currNumSuccess := r.currNumSuccess + 1 }) fun _ => ⟨rfl, rfl⟩
  | dataFailed => exact .refl s
  | finalDataFailed now => exact .refl s

/-- What precedes the statistics in a report. -/
def prepared (s : Station n) : Station n := updateRetry (updatePacketCounter s)

theorem sameRates_prepared (s : Station n) : SameRates s (prepared s) := ⟨rfl, fun _ => rfl, fun _ => rfl, rfl, rfl, rfl⟩

theorem sound_chooseRates {p t : Fin n → ℚ} (h : Sound table s) (first : Fin n) : Sound table (chooseRates p t first s) :=
  ⟨h.isInitialized, h.row⟩

theorem Sound.updateTable (h : Sound table s) (now : ℚ) : Sound table (updateTable table now s) :=
  ⟨h.isInitialized, fun i => (h.row i).updateRate⟩

theorem updateStats_eq (h : Sound table s) {now : ℚ} (hdue : s.nextStatsUpdate ≤ now) : updateStats table now s =
    chooseRates (fun i => ((updateTable table now s).minstrelTable i).ewmaProb)
      (fun i => ((updateTable table now s).minstrelTable i).throughput) table.first (updateTable table now s) := by
  unfold Minstrel.updateStats
  rw [if_neg (not_lt.2 hdue), if_neg (by rw [h.isInitialized]; decide)]

theorem Sound.updateStats (h : Sound table s) (now : ℚ) : Sound table (updateStats table now s) := by
  by_cases hdue : now < s.nextStatsUpdate
  · unfold Minstrel.updateStats
    rw [if_pos hdue]
    exact h
  · rw [updateStats_eq h (not_lt.1 hdue)]
    exact sound_chooseRates (h.updateTable now) table.first

/-- **Every report keeps the statistics sound.** -/
theorem Sound.report (h : Sound table s) (e : Report) : Sound table (s.report table e) := by
  have hsettle : ∀ now, Sound table (settle table now (s.counted e)) := fun now => by
    have hstats := ((h.same (sameRates_counted s e)).same (sameRates_prepared _)).updateStats now
    have hfound := hstats.same (sameRates_findRate table _)
    exact ⟨hfound.isInitialized, hfound.row⟩
  unfold Station.report
  rw [h.isInitialized]
  cases e with
  | dataOk now => exact hsettle now
  | dataFailed => exact h.same (sameRates_updateRate table s)
  | finalDataFailed now => exact hsettle now

theorem sound_start (table : RateTable n) (now : ℚ) : Sound table (table.start now) := by
  refine ⟨rfl, fun i => ⟨le_refl 0, ?_⟩⟩
  show (0 : ℚ) = table.throughput i 0
  unfold RateTable.throughput
  rw [if_pos (by norm_num)]

/-- The station after some reports. -/
def RateTable.after (table : RateTable n) (start : ℚ) (reports : List Report) : Station n :=
  reports.foldl (Station.report table) (table.start start)

theorem sound_after (table : RateTable n) (start : ℚ) (reports : List Report) : Sound table (table.after start reports) := by
  induction reports using List.reverseRecOn with
  | nil => exact sound_start table start
  | append_singleton reports e ih =>
    unfold RateTable.after
    rw [List.foldl_append]
    exact ih.report e

/-- The rates are chosen as they should be for the statistics. -/
def ChosenRight (s : Station n) : Prop :=
  RightChoice (fun i => (s.minstrelTable i).ewmaProb) (fun i => (s.minstrelTable i).throughput) s

/-- The time of a report after which the statistics can be updated. -/
def Report.time : Report → Option ℚ
  | .dataOk now => some now
  | .dataFailed => none
  | .finalDataFailed now => some now

/-- The probability of a rate when all packets are counted, the reported one included. -/
def Station.nextProb (s : Station n) (e : Report) (i : Fin n) : ℚ := ((s.counted e).minstrelTable i).nextProb

theorem chosenRight_same (h : SameRates s s') : ChosenRight s' ↔ ChosenRight s := by
  unfold ChosenRight
  rw [funext h.ewmaProb, funext h.throughput]
  constructor
  · rintro ⟨htp, htp2, hprob, hlow⟩
    rw [h.maxTpRate] at htp htp2
    rw [h.maxTp2Rate] at htp2
    rw [h.maxProbRate] at hprob hlow
    exact ⟨htp, htp2, hprob, hlow⟩
  · rintro ⟨htp, htp2, hprob, hlow⟩
    rw [← h.maxTpRate] at htp htp2
    rw [← h.maxTp2Rate] at htp2
    rw [← h.maxProbRate] at hprob hlow
    exact ⟨htp, htp2, hprob, hlow⟩

/-- **An update** chooses the right rates under the condition. -/
theorem updateStats_iff (h : Sound table s) {now : ℚ} (hdue : s.nextStatsUpdate ≤ now) :
    ChosenRight (updateStats table now s) ↔
      (∃ i, i ≠ table.first ∧ 1 / 10 ≤ (s.minstrelTable i).nextProb) ∧
        LastHighest (fun i => (s.minstrelTable i).nextProb) fun i => table.throughput i (s.minstrelTable i).nextProb := by
  have hp : (fun i => ((updateTable table now s).minstrelTable i).ewmaProb) = fun i => (s.minstrelTable i).nextProb :=
    funext fun i => updateRate_ewmaProb table i _
  have ht : (fun i => ((updateTable table now s).minstrelTable i).throughput) =
      fun i => table.throughput i (s.minstrelTable i).nextProb := by
    funext i
    rw [((h.updateTable now).row i).2]
    exact congrArg (table.throughput i) (updateRate_ewmaProb table i _)
  have hchoice := chooseRates_iff (t := fun i => table.throughput i (s.minstrelTable i).nextProb)
    (fun i => RateInfo.nextProb_nonneg (h.row i).1) (fun i => table.throughput_nonneg i _) table.first (updateTable table now s)
  rw [← hp, ← ht] at hchoice
  rw [updateStats_eq h hdue]
  refine (hchoice.trans (and_congr_left' (exists_congr fun i => and_congr_right' ?_))).trans (by rw [hp, ht])
  exact table.throughput_pos_iff i _

/-- **The choice of the rates**: after an update it is right for the statistics exactly if a rate other than the first has a
probability of 10% or more, and no rate behind the last one of highest throughput, of those of 95% or more, has a probability
as high as its own. -/
theorem minstrel_rates_iff (table : RateTable n) (start : ℚ) (reports : List Report) (e : Report) (now : ℚ)
    (he : e.time = some now) (hdue : (table.after start reports).nextStatsUpdate ≤ now) :
    ChosenRight ((table.after start reports).report table e) ↔
      (∃ i, i ≠ table.first ∧ 1 / 10 ≤ (table.after start reports).nextProb e i) ∧
        LastHighest ((table.after start reports).nextProb e)
          fun i => table.throughput i ((table.after start reports).nextProb e i) := by
  have hsound := sound_after table start reports
  generalize table.after start reports = s at *
  have hready := (hsound.same (sameRates_counted s e)).same (sameRates_prepared (s.counted e))
  have hnext : (prepared (s.counted e)).nextStatsUpdate = s.nextStatsUpdate := by
    cases e with
    | dataOk now => rfl
    | dataFailed => rfl
    | finalDataFailed now => rfl
  have hreport : s.report table e = settle table now (s.counted e) := by
    unfold Station.report
    rw [hsound.isInitialized]
    cases e with
    | dataOk now' => rw [← Option.some.inj he]; rfl
    | dataFailed => cases he
    | finalDataFailed now' => rw [← Option.some.inj he]; rfl
  have hsettle : SameRates (updateStats table now (prepared (s.counted e))) (settle table now (s.counted e)) := by
    have hfound := sameRates_findRate table (updateStats table now (prepared (s.counted e)))
    exact ⟨hfound.isInitialized, hfound.ewmaProb, hfound.throughput, hfound.maxTpRate, hfound.maxTp2Rate, hfound.maxProbRate⟩
  rw [hreport, chosenRight_same hsettle]
  exact updateStats_iff hready (hnext ▸ hdue)

theorem two_le_two : 2 ≤ 2 := le_refl 2

theorem twoRates_nonneg (i : Fin 2) : (0 : ℚ) ≤ if i.val = 0 then 2000 else 1000 := by
  split
  · norm_num
  · norm_num

/-- Two rates, of which the second one is the faster. -/
def twoRates : RateTable 2 where
  perfectTrTime i := if i.val = 0 then 2000 else 1000
  retryCount _ := 3
  baseRate := ⟨0, Nat.zero_lt_two⟩
  sampleTable _ _ := ⟨1, Nat.one_lt_two⟩
  two_le := two_le_two
  perfectTrTime_nonneg := twoRates_nonneg

/-- A packet comes through at each rate. -/
theorem minstrel_rates_both : ChosenRight ((twoRates.after 0 [.dataOk 100000]).report twoRates (.dataOk 200000)) := by
  refine (minstrel_rates_iff twoRates 0 [.dataOk 100000] (.dataOk 200000) 200000 rfl (by decide +kernel)).2 ⟨?_, ?_⟩
  · exact ⟨⟨1, by decide⟩, by decide, by decide +kernel⟩
  · unfold LastHighest IsLastBest IsBest IsHigh
    decide +kernel

/-- A packet comes through at the first rate, and that is chosen twice. -/
theorem first_rate_twice : ¬ ∀ (table : RateTable 2) (start : ℚ) (reports : List Report) (e : Report) (now : ℚ),
    e.time = some now → (table.after start reports).nextStatsUpdate ≤ now →
    ChosenRight ((table.after start reports).report table e) := by
  intro hall
  have hright := hall twoRates 0 [] (.dataOk 100000) 100000 rfl (by decide +kernel)
  exact absurd hright.maxTp2.1 (by decide +kernel)

end NetSim.Minstrel
