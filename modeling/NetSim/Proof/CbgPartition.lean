import Mathlib.Algebra.BigOperators.Group.List.Basic
import NetSim.Spec.Harq

/-!
# Code block groups

`AllocateCBG` deals the code blocks of a layer out to its groups: each gets the quotient, and the first ones one more as
long as the remainder lasts.

* `sum_cbCounts`: what the loop deals out.
* `loadLayer_counts`: the groups of a loaded layer are those of the loop.
* `cbg_partition`: they partition the code blocks evenly.
-/

namespace NetSim.Harq.HarqProcess

variable {x k n m : ℕ} {r : ℤ}

/-- **The groups of a layer partition its code blocks**, evenly. The code blocks of a group are its error states. -/
structure Partition (nCodeBlock maxCBGCount : ℕ) (b : HarqBuffer) : Prop where
  count : b.cbgList.length = min nCodeBlock maxCBGCount
  sum : (b.cbgList.map fun g => g.cbErrorStatus.length).sum = nCodeBlock
  even : ∀ g ∈ b.cbgList, ∀ g' ∈ b.cbgList, g.cbErrorStatus.length ≤ g'.cbErrorStatus.length + 1
  nonempty : ∀ g ∈ b.cbgList, 0 < g.cbErrorStatus.length

/-! ### The loop -/

theorem length_cbCounts (x : ℕ) (r : ℤ) (k : ℕ) : (cbCounts x r k).length = k := by
  induction k generalizing r with
  | zero => rfl
  | succ k ih =>
    unfold cbCounts
    rw [List.length_cons, ih]

/-- **The loop** deals out the quotient for each group, and the remainder if there are groups for it. -/
theorem sum_cbCounts (x : ℕ) (r : ℤ) (k : ℕ) : (cbCounts x r k).sum = k * x + min r.toNat k := by
  induction k generalizing r with
  | zero =>
    rw [Nat.zero_mul, Nat.min_zero]
    rfl
  | succ k ih =>
    unfold cbCounts
    rw [List.sum_cons, ih, Nat.succ_mul]
    split <;> omega

theorem getElem?_cbCounts (x : ℕ) (r : ℤ) {k i : ℕ} (hi : i < k) :
    (cbCounts x r k)[i]? = some (x + if (i : ℤ) < r then 1 else 0) := by
  induction k generalizing r i with
  | zero => exact absurd hi (Nat.not_lt_zero i)
  | succ k ih =>
    unfold cbCounts
    cases i with
    | zero =>
      rw [List.getElem?_cons_zero]
      by_cases hr : r ≤ 0
      · rw [if_pos hr, if_neg (by omega)]
      · rw [if_neg hr, if_pos (by omega)]
    | succ i =>
      rw [List.getElem?_cons_succ, ih _ (Nat.lt_of_succ_lt_succ hi)]
      congr 2
      apply if_congr _ rfl rfl
      omega

theorem mem_cbCounts {c : ℕ} (hc : c ∈ cbCounts x r k) : x ≤ c ∧ c ≤ x + 1 := by
  obtain ⟨i, hi⟩ := List.getElem?_of_mem hc
  have hlt : i < k := by
    have hlt := (List.getElem?_eq_some_iff.1 hi).1
    rw [length_cbCounts] at hlt
    exact hlt
  rw [getElem?_cbCounts x r hlt] at hi
  obtain rfl := Option.some.inj hi
  split <;> omega

/-! ### The groups of a layer -/

/-- The code blocks of a loaded layer's groups are those of the loop. -/
theorem loadLayer_counts (maxCBGCount : ℕ) (layer : LayerGrant) :
    ((loadLayer maxCBGCount layer).cbgList.map fun g => g.cbErrorStatus.length) =
      layerCbCounts layer.amc.nCodeBlock maxCBGCount := by
  unfold loadLayer layerCbCounts
  dsimp only
  generalize min layer.amc.nCodeBlock maxCBGCount = k
  apply List.ext_getElem?
  intro i
  rw [List.map_map, List.getElem?_map]
  by_cases hi : i < k
  · rw [List.getElem?_range hi, getElem?_cbCounts _ _ hi, Option.map_some]
    unfold cbCount
    simp only [Function.comp_apply, List.length_replicate, Int.ofNat_lt]
  · rw [List.getElem?_eq_none (by rw [List.length_range]; omega),
      List.getElem?_eq_none (by rw [length_cbCounts]; omega), Option.map_none]

/-- A loaded layer's groups. -/
theorem loadLayer_partition (hmax : 0 < m) (layer : LayerGrant) :
    Partition layer.amc.nCodeBlock m (loadLayer m layer) := by
  have hcounts := loadLayer_counts m layer
  have hpos := layer.amc.nCodeBlock_pos
  generalize hk : min layer.amc.nCodeBlock m = k
  have hkpos : 0 < k := by omega
  have hlayer : layerCbCounts layer.amc.nCodeBlock m =
      cbCounts (layer.amc.nCodeBlock / k) ((layer.amc.nCodeBlock % k : ℕ) : ℤ) k := by
    unfold layerCbCounts
    rw [hk]
  have hquotient : 0 < layer.amc.nCodeBlock / k := Nat.div_pos (by omega) hkpos
  -- the size of a group is one of the loop's
  have hsize : ∀ g ∈ (loadLayer m layer).cbgList, layer.amc.nCodeBlock / k ≤ g.cbErrorStatus.length ∧
      g.cbErrorStatus.length ≤ layer.amc.nCodeBlock / k + 1 := by
    intro g hg
    have hmem : g.cbErrorStatus.length ∈ layerCbCounts layer.amc.nCodeBlock m := by
      rw [← hcounts]
      exact List.mem_map_of_mem hg
    rw [hlayer] at hmem
    exact mem_cbCounts hmem
  refine ⟨?_, ?_, ?_, ?_⟩
  · rw [hk, ← length_cbCounts (layer.amc.nCodeBlock / k) ((layer.amc.nCodeBlock % k : ℕ) : ℤ) k, ← hlayer, ← hcounts,
      List.length_map]
  · have hrest : layer.amc.nCodeBlock % k < k := Nat.mod_lt _ hkpos
    have hdiv := Nat.div_add_mod layer.amc.nCodeBlock k
    rw [hcounts, hlayer, sum_cbCounts, Int.toNat_natCast, Nat.min_eq_left (Nat.le_of_lt hrest)]
    exact hdiv
  · intro g hg g' hg'
    have h1 := hsize g hg
    have h2 := hsize g' hg'
    omega
  · intro g hg
    have h1 := hsize g hg
    omega

/-! ### `AllocateCBG` -/

/-- For one UE, `AllocateCBG` is called with the configured maximum. -/
theorem allocateCbg_eq (c : HarqConfig) (p : HarqProcess) (allocatedPRBCount : ℕ) (layers : List LayerGrant) :
    p.allocateCbg c allocatedPRBCount layers =
      if allocatedPRBCount ≠ 0 ∨ p.ndi = false then p.formCbgs c.maxCBGPerTB layers else p.resetCbg := rfl

/-- **The code block groups of a new block partition the code blocks of each layer.** -/
theorem cbg_partition (p : HarqProcess) (hndi : p.ndi = true) (maxCBGCount : ℕ) (hmax : 0 < maxCBGCount)
    (layers : List LayerGrant) :
    List.Forall₂ (fun (layer : LayerGrant) b => Partition layer.amc.nCodeBlock maxCBGCount b) layers
      (p.formCbgs maxCBGCount layers).transmissionBuffer := by
  have hform : (p.formCbgs maxCBGCount layers).transmissionBuffer = layers.map (loadLayer maxCBGCount) := by
    unfold formCbgs
    rw [if_neg (by simp [hndi])]
  rw [hform, List.forall₂_map_right_iff, List.forall₂_same]
  intro layer _
  exact loadLayer_partition hmax layer

/-- Five code blocks, in at most two groups. -/
def fiveBlocks : LayerGrant := ⟨60, ⟨5, 100, Nat.succ_pos 4⟩⟩

theorem cbg_partition_sample :
    List.Forall₂ (fun (layer : LayerGrant) b => Partition layer.amc.nCodeBlock 2 b) [fiveBlocks]
      ({ HarqProcess.init with ndi := true }.formCbgs 2 [fiveBlocks]).transmissionBuffer :=
  cbg_partition { HarqProcess.init with ndi := true } rfl 2 (by decide) [fiveBlocks]

end NetSim.Harq.HarqProcess
