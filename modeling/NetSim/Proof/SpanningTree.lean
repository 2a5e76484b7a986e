import Mathlib.Data.Prod.Lex
import NetSim.Lib.ParentTree
import NetSim.Spec.SpanningTree

/-!
# The spanning tree of the switches

The switch of the lowest id keeps its own id as root, and its BPDUs spread it. A switch that has it hangs from the switch at
its root port: its cost is no less than that of the other one with what this one adds. So the root ports make a tree, and
when no BPDU is on its way any other link is blocked at one end.

But a port that is blocked stays so. The tree is there if no BPDU makes a switch hang from a link that is blocked, and
none makes a switch block a link by which one of its ends hangs.

* `Inv.stays`, `Inv.foreign`, `Inv.adopts`: what a BPDU does, by the answer of `compare_bpdu`.
* `inv_of_reachOn`: the invariant of the runs.
* `spans_of_reachOn`: the spanning tree.
-/

namespace NetSim.Ethernet

open Word

variable {V I : Type} [DecidableEq V] [LinearOrder I]

/-! ## The property and the condition -/

/-- The links between the switches. -/
def Switches.links (T : Switches V I) : SimpleGraph V where
  Adj v w := w ∈ T.ports v
  symm := ⟨fun v w h => T.ports_symm v w h⟩
  loopless := ⟨fun v h => T.ports_irrefl v h⟩

/-- The switch of lowest id. -/
def Switches.IsLowest (T : Switches V I) (root : V) : Prop := ∀ v, T.switchId root ≤ T.switchId v

namespace SptNet

/-- The links whose two end ports are both not blocking. -/
def openLinks (T : Switches V I) (net : SptNet V I) : SimpleGraph V where
  Adj v w := w ∈ T.ports v ∧ (net.switch v).portState w ≠ .blocking ∧ (net.switch w).portState v ≠ .blocking
  symm := ⟨fun v w h => ⟨T.ports_symm v w h.1, h.2.2, h.2.1⟩⟩
  loopless := ⟨fun v h => T.ports_irrefl v h.1⟩

/-- **The spanning tree**: all switches name `root` as root, and the open links are a tree. -/
def Spans (T : Switches V I) (root : V) (net : SptNet V I) : Prop :=
  (∀ v, (net.switch v).spt.rootId = T.switchId root) ∧ (net.openLinks T).IsTree

/-- One end of a link is blocked. -/
def LinkBlocked (net : SptNet V I) (v w : V) : Prop :=
  (net.switch v).portState w = .blocking ∨ (net.switch w).portState v = .blocking

/-- A switch names `root` as root. -/
def Has (T : Switches V I) (root : V) (net : SptNet V I) (v : V) : Prop := (net.switch v).spt.rootId = T.switchId root

/-- A switch that names `root` as root has its root port towards `w`. -/
def Hangs (T : Switches V I) (root : V) (net : SptNet V I) (v w : V) : Prop :=
  net.Has T root v ∧ (net.switch v).spt.rootPort = some w

/-- A BPDU arrives in order: it makes no switch hang from a blocked link, and no switch block a link by which one of its
ends hangs. The cost of the path fits its word. -/
def InOrder (T : Switches V I) (root : V) (net : SptNet V I) (f : BpduFrame V I) : Prop :=
  (compareBpdu f.bpdu (net.switch f.dst).spt (T.switchId f.dst) f.src = .forward → f.bpdu.rootId = T.switchId root →
    ¬ net.LinkBlocked f.src f.dst ∧ T.cost f.dst + f.bpdu.rootPathCost < 4294967296) ∧
  (compareBpdu f.bpdu (net.switch f.dst).spt (T.switchId f.dst) f.src = .block →
    ¬ net.Hangs T root f.src f.dst ∧ ¬ net.Hangs T root f.dst f.src)

/-- The BPDU that is delivered next arrives in order. -/
def Orderly (T : Switches V I) (root : V) (net : SptNet V I) (i : ℕ) : Prop :=
  ∀ f, net.inFlight[i]? = some f → net.InOrder T root f

instance instDecidableLinkBlocked (net : SptNet V I) (v w : V) : Decidable (LinkBlocked net v w) :=
  inferInstanceAs (Decidable (_ ∨ _))

instance instDecidableHangs (T : Switches V I) (root : V) (net : SptNet V I) (v w : V) : Decidable (Hangs T root net v w) :=
  inferInstanceAs (Decidable ((net.switch v).spt.rootId = T.switchId root ∧ _))

instance instDecidableInOrder (T : Switches V I) (root : V) (net : SptNet V I) (f : BpduFrame V I) :
    Decidable (InOrder T root net f) :=
  inferInstanceAs (Decidable ((_ → _ → ¬ LinkBlocked _ _ _ ∧ _ < _) ∧ (_ → ¬ Hangs _ _ _ _ _ ∧ ¬ Hangs _ _ _ _ _)))

instance instDecidableOrderly (T : Switches V I) (root : V) (net : SptNet V I) (i : ℕ) :
    Decidable (Orderly T root net i) :=
  decidable_of_iff (∀ f ∈ net.inFlight[i]?.toList, net.InOrder T root f) (by simp [Orderly])

/-! ## The invariant -/

/-- The cost of a switch's path to the root. -/
def dist (net : SptNet V I) (v : V) : ℕ := (net.switch v).spt.rootPathCost

/-- The switch at the root port. -/
def parent (net : SptNet V I) (v : V) : Option V := (net.switch v).spt.rootPort

/-- The BPDU that a switch has sent to `w` when it took the cost that it has. -/
def current (T : Switches V I) (root : V) (net : SptNet V I) (v w : V) : BpduFrame V I :=
  ⟨v, w, ⟨T.switchId root, T.cost v + net.dist v, T.switchId v⟩⟩

/-- Nothing remains to be decided about a link. -/
def Decided (T : Switches V I) (root : V) (net : SptNet V I) (v w : V) : Prop :=
  net.parent v = some w ∨ net.parent w = some v ∨ net.LinkBlocked v w ∨
    (w ≠ root ∧ net.current T root v w ∈ net.inFlight) ∨ (v ≠ root ∧ net.current T root w v ∈ net.inFlight)

/-- **The invariant** of the runs. -/
structure Inv (T : Switches V I) (root : V) (net : SptNet V I) : Prop where
  lowest : ∀ v, T.switchId root ≤ (net.switch v).spt.rootId
  lowest_frame : ∀ f ∈ net.inFlight, T.switchId root ≤ f.bpdu.rootId
  root_spt : (net.switch root).spt = ⟨T.switchId root, 0, none⟩
  frame : ∀ f ∈ net.inFlight, f.bpdu.rootId = T.switchId root →
    f.dst ∈ T.ports f.src ∧ net.Has T root f.src ∧ T.cost f.src + net.dist f.src ≤ f.bpdu.rootPathCost
  far : ∀ v, v ≠ root → net.Has T root v → T.cost root ≤ net.dist v
  hangs : ∀ v, v ≠ root → net.Has T root v →
    ∃ w, net.parent v = some w ∧ w ∈ T.ports v ∧ net.Has T root w ∧ T.cost w + net.dist w ≤ net.dist v
  -- where costs are zero, the rank `k` tells parents and children apart
  rank : ∃ k : V → ℕ, ∀ v w, v ≠ root → net.Has T root v → net.parent v = some w →
    net.dist w < net.dist v ∨ net.dist w = net.dist v ∧ k w < k v
  told : ∀ v w, w ∈ T.ports v → net.Has T root v → net.parent v ≠ some w →
    net.current T root v w ∈ net.inFlight ∨ net.Has T root w ∧ net.dist w ≤ T.cost v + net.dist v
  decided : ∀ v w, w ∈ T.ports v → net.Has T root v → net.Has T root w → net.Decided T root v w
  opened : ∀ v w, v ≠ root → net.Hangs T root v w → ¬ net.LinkBlocked v w

variable {T : Switches V I} {root : V} {net net' : SptNet V I} {f : BpduFrame V I} {rest : List (BpduFrame V I)}

omit [DecidableEq V] [LinearOrder I] in
theorem LinkBlocked.symm {v w : V} (h : net.LinkBlocked v w) : net.LinkBlocked w v := Or.symm h

omit [DecidableEq V] [LinearOrder I] in
theorem Decided.symm {v w : V} (h : net.Decided T root v w) : net.Decided T root w v := by
  rcases h with hp | hp | hb | hs | hs
  · exact .inr (.inl hp)
  · exact .inl hp
  · exact .inr (.inr (.inl hb.symm))
  · exact .inr (.inr (.inr (.inr hs)))
  · exact .inr (.inr (.inr (.inl hs)))

/-- No BPDU of the root has a cost below what the root itself sends. -/
theorem Inv.far_frame (h : Inv T root net) (hf : f ∈ net.inFlight) (hroot : f.bpdu.rootId = T.switchId root) :
    T.cost root ≤ f.bpdu.rootPathCost := by
  obtain ⟨-, hhas, hcost⟩ := h.frame f hf hroot
  by_cases hsrc : f.src = root
  · rw [hsrc] at hcost
    omega
  · have hfar := h.far f.src hsrc hhas
    omega

/-! ## The start -/

omit [DecidableEq V] in
theorem inv_init (hinj : Function.Injective T.switchId) (hroot : T.IsLowest root) : Inv T root (init T) := by
  have hhas : ∀ v, (init T).Has T root v → v = root := fun v hv => hinj hv
  have hsent : ∀ v w, w ∈ T.ports v → (⟨v, w, T.createBpdu v⟩ : BpduFrame V I) ∈ (init T).inFlight := by
    intro v w hw
    exact List.mem_flatMap.2 ⟨v, T.mem_devices v, List.mem_map.2 ⟨w, hw, rfl⟩⟩
  have hframes : ∀ f ∈ (init T).inFlight, f.dst ∈ T.ports f.src ∧ f.bpdu = T.createBpdu f.src := by
    intro f hf
    obtain ⟨v, -, hf⟩ := List.mem_flatMap.1 hf
    obtain ⟨w, hw, rfl⟩ := List.mem_map.1 hf
    exact ⟨hw, rfl⟩
  refine ⟨hroot, ?_, rfl, ?_, ?_, ?_, ⟨fun _ => 0, ?_⟩, ?_, ?_, ?_⟩
  · intro f hf
    rw [(hframes f hf).2]
    exact hroot f.src
  · intro f hf hid
    obtain ⟨hport, hbpdu⟩ := hframes f hf
    rw [hbpdu] at hid ⊢
    exact ⟨hport, hid, Nat.le_refl _⟩
  · intro v hv hh
    exact absurd (hhas v hh) hv
  · intro v hv hh
    exact absurd (hhas v hh) hv
  · intro v w hv hh
    exact absurd (hhas v hh) hv
  · intro v w hw hh _
    obtain rfl := hhas v hh
    exact .inl (hsent v w hw)
  · intro v w hw hv hw'
    rw [hhas v hv, hhas w hw'] at hw
    exact absurd hw (T.ports_irrefl root)
  · intro v w hv hh
    exact absurd (hhas v hh.1) hv

/-! ## One BPDU -/

section view

omit [DecidableEq V] [LinearOrder I]

variable {v : V} (h : (net'.switch v).spt = (net.switch v).spt)
include h

theorem has_congr : net'.Has T root v ↔ net.Has T root v := by
  unfold Has
  rw [h]

theorem dist_congr : net'.dist v = net.dist v := by
  unfold dist
  rw [h]

theorem parent_congr : net'.parent v = net.parent v := by
  unfold parent
  rw [h]

theorem current_congr (w : V) : net'.current T root v w = net.current T root v w := by
  unfold current
  rw [dist_congr h]

end view

omit [DecidableEq V] in
/-- **A BPDU that changes no root or cost.** If it has the root, its sender needs to tell the switch no more. -/
theorem Inv.stays (h : Inv T root net) (hspt : ∀ v, (net'.switch v).spt = (net.switch v).spt)
    (hsub : ∀ g ∈ net'.inFlight, g ∈ net.inFlight) (hkeep : ∀ g ∈ net.inFlight, g = f ∨ g ∈ net'.inFlight)
    (hblocked : ∀ v w, net.LinkBlocked v w → net'.LinkBlocked v w)
    (hopen : ∀ v w, v ≠ root → net.Hangs T root v w → ¬ net'.LinkBlocked v w)
    (hanswer : f.bpdu.rootId = T.switchId root → net.Has T root f.dst ∧ net.dist f.dst ≤ f.bpdu.rootPathCost ∧
      (f.dst = root ∨ net.parent f.dst = some f.src ∨ net'.LinkBlocked f.src f.dst)) : Inv T root net' := by
  have hhas : ∀ v, net'.Has T root v ↔ net.Has T root v := fun v => has_congr (hspt v)
  have hdist : ∀ v, net'.dist v = net.dist v := fun v => dist_congr (hspt v)
  have hparent : ∀ v, net'.parent v = net.parent v := fun v => parent_congr (hspt v)
  have hcurrent : ∀ v w, net'.current T root v w = net.current T root v w := fun v => current_congr (hspt v)
  -- what a switch has to tell another one is on its way still, or was the BPDU
  have hsaid : ∀ v w, net.current T root v w ∈ net.inFlight → net.current T root v w ∈ net'.inFlight ∨
      net.Has T root w ∧ net.dist w ≤ T.cost v + net.dist v ∧
        (w = root ∨ net.parent w = some v ∨ net'.LinkBlocked v w) := by
    intro v w hmem
    rcases hkeep _ hmem with heq | hmem
    · rw [← heq] at hanswer
      exact .inr (hanswer rfl)
    · exact .inl hmem
  refine ⟨?_, fun g hg => h.lowest_frame g (hsub g hg), ?_, ?_, ?_, ?_, ?_, ?_, ?_, ?_⟩
  · intro v
    rw [hspt]
    exact h.lowest v
  · rw [hspt]
    exact h.root_spt
  · intro g hg hid
    rw [hhas, hdist]
    exact h.frame g (hsub g hg) hid
  · intro v hv hh
    rw [hdist]
    exact h.far v hv ((hhas v).1 hh)
  · intro v hv hh
    obtain ⟨w, hw, hport, hhw, hcost⟩ := h.hangs v hv ((hhas v).1 hh)
    rw [hparent, hdist]
    refine ⟨w, hw, hport, (hhas w).2 hhw, ?_⟩
    rw [hdist]
    exact hcost
  · obtain ⟨k, hk⟩ := h.rank
    refine ⟨k, ?_⟩
    intro v w hv hh hp
    rw [hdist, hdist]
    rw [hparent] at hp
    exact hk v w hv ((hhas v).1 hh) hp
  · intro v w hw hh hp
    rw [hparent] at hp
    rw [hcurrent, hhas, hdist, hdist]
    rcases h.told v w hw ((hhas v).1 hh) hp with hmem | htold
    · rcases hsaid v w hmem with hmem | ⟨hhw, hcost, -⟩
      · exact .inl hmem
      · exact .inr ⟨hhw, hcost⟩
    · exact .inr htold
  · intro v w hw hv hw'
    unfold Decided
    rw [hparent, hparent, hcurrent, hcurrent]
    rcases h.decided v w hw ((hhas v).1 hv) ((hhas w).1 hw') with hp | hp | hb | ⟨hne, hmem⟩ | ⟨hne, hmem⟩
    · exact .inl hp
    · exact .inr (.inl hp)
    · exact .inr (.inr (.inl (hblocked v w hb)))
    · rcases hsaid v w hmem with hmem | ⟨-, -, hroot | hp | hb⟩
      · exact .inr (.inr (.inr (.inl ⟨hne, hmem⟩)))
      · exact absurd hroot hne
      · exact .inr (.inl hp)
      · exact .inr (.inr (.inl hb))
    · rcases hsaid w v hmem with hmem | ⟨-, -, hroot | hp | hb⟩
      · exact .inr (.inr (.inr (.inr ⟨hne, hmem⟩)))
      · exact absurd hroot hne
      · exact .inl hp
      · exact .inr (.inr (.inl hb.symm))
  · intro v w hv hh
    refine hopen v w hv ⟨(hhas v).1 hh.1, ?_⟩
    have hp := hh.2
    rw [hspt] at hp
    exact hp

omit [DecidableEq V] in
/-- **A BPDU with another root**, which a switch takes that has not got `root` yet. -/
theorem Inv.foreign (h : Inv T root net) (hf : f ∈ net.inFlight) (hid : f.bpdu.rootId ≠ T.switchId root)
    (hnot : ¬ net.Has T root f.dst) (hne : f.dst ≠ root)
    (hspt : ∀ v, v ≠ f.dst → (net'.switch v).spt = (net.switch v).spt)
    (hnew : (net'.switch f.dst).spt.rootId = f.bpdu.rootId)
    (hsub : ∀ g ∈ net'.inFlight, g ∈ net.inFlight ∨ g.bpdu.rootId = f.bpdu.rootId)
    (hkeep : ∀ g ∈ net.inFlight, g = f ∨ g ∈ net'.inFlight)
    (hblocked : ∀ v w, net'.LinkBlocked v w ↔ net.LinkBlocked v w) : Inv T root net' := by
  have hnot' : ¬ net'.Has T root f.dst := by
    unfold Has
    rw [hnew]
    exact hid
  have hold : ∀ v, net'.Has T root v → net.Has T root v ∧ (net'.switch v).spt = (net.switch v).spt := by
    intro v hv
    have hv' : v ≠ f.dst := by
      rintro rfl
      exact hnot' hv
    exact ⟨(has_congr (hspt v hv')).1 hv, hspt v hv'⟩
  have hsame : ∀ v, net.Has T root v → net'.Has T root v ∧ (net'.switch v).spt = (net.switch v).spt := by
    intro v hv
    have hv' : v ≠ f.dst := by
      rintro rfl
      exact hnot hv
    exact ⟨(has_congr (hspt v hv')).2 hv, hspt v hv'⟩
  -- the BPDUs with `root` are as before
  have hframe : ∀ g : BpduFrame V I, g.bpdu.rootId = T.switchId root → (g ∈ net'.inFlight ↔ g ∈ net.inFlight) := by
    intro g hg
    constructor
    · intro hmem
      rcases hsub g hmem with hmem | heq
      · exact hmem
      · exact absurd (heq.symm.trans hg) hid
    · intro hmem
      rcases hkeep g hmem with rfl | hmem
      · exact absurd hg hid
      · exact hmem
  refine ⟨?_, ?_, ?_, ?_, ?_, ?_, ?_, ?_, ?_, ?_⟩
  · intro v
    by_cases hv : v = f.dst
    · rw [hv, hnew]
      exact h.lowest_frame f hf
    · rw [hspt v hv]
      exact h.lowest v
  · intro g hg
    rcases hsub g hg with hmem | heq
    · exact h.lowest_frame g hmem
    · rw [heq]
      exact h.lowest_frame f hf
  · rw [hspt root (Ne.symm hne)]
    exact h.root_spt
  · intro g hg hgid
    obtain ⟨hport, hhas, hcost⟩ := h.frame g ((hframe g hgid).1 hg) hgid
    obtain ⟨hhas', hsrc⟩ := hsame g.src hhas
    rw [dist_congr hsrc]
    exact ⟨hport, hhas', hcost⟩
  · intro v hv hh
    obtain ⟨hh, hv'⟩ := hold v hh
    rw [dist_congr hv']
    exact h.far v hv hh
  · intro v hv hh
    obtain ⟨hh, hv'⟩ := hold v hh
    obtain ⟨w, hw, hport, hhw, hcost⟩ := h.hangs v hv hh
    obtain ⟨hhw', hw'⟩ := hsame w hhw
    rw [parent_congr hv', dist_congr hv']
    refine ⟨w, hw, hport, hhw', ?_⟩
    rw [dist_congr hw']
    exact hcost
  · obtain ⟨k, hk⟩ := h.rank
    refine ⟨k, ?_⟩
    intro v w hv hh hp
    obtain ⟨hh, hv'⟩ := hold v hh
    rw [parent_congr hv'] at hp
    obtain ⟨w', hw', -, hhw, -⟩ := h.hangs v hv hh
    obtain rfl := Option.some.inj (hp.symm.trans hw')
    rw [dist_congr hv', dist_congr (hsame w hhw).2]
    exact hk v w hv hh hp
  · intro v w hw hh hp
    obtain ⟨hh, hv'⟩ := hold v hh
    rw [parent_congr hv'] at hp
    rw [current_congr hv', dist_congr hv', hframe _ rfl]
    rcases h.told v w hw hh hp with hmem | ⟨hhw, hcost⟩
    · exact .inl hmem
    · obtain ⟨hhw', hw'⟩ := hsame w hhw
      rw [dist_congr hw']
      exact .inr ⟨hhw', hcost⟩
  · intro v w hw hv hw'
    obtain ⟨hv, hvspt⟩ := hold v hv
    obtain ⟨hw', hwspt⟩ := hold w hw'
    unfold Decided
    rw [parent_congr hvspt, parent_congr hwspt, current_congr hvspt, current_congr hwspt, hframe _ rfl, hframe _ rfl,
      hblocked]
    exact h.decided v w hw hv hw'
  · intro v w hv hh
    obtain ⟨hhas, hvspt⟩ := hold v hh.1
    have hp := hh.2
    rw [hvspt] at hp
    rw [hblocked]
    exact h.opened v w hv ⟨hhas, hp⟩

/-- **A BPDU with `root`**, which a switch takes that has not got it yet, or has it at a higher cost. -/
theorem Inv.adopts (h : Inv T root net) (hf : f ∈ net.inFlight) (hid : f.bpdu.rootId = T.switchId root)
    (hne : f.dst ≠ root) (hless : net.Has T root f.dst → f.bpdu.rootPathCost < net.dist f.dst)
    (hfits : T.cost f.dst + f.bpdu.rootPathCost < 4294967296) (hopen : ¬ net.LinkBlocked f.src f.dst)
    (hspt : ∀ v, v ≠ f.dst → (net'.switch v).spt = (net.switch v).spt)
    (hnew : (net'.switch f.dst).spt = ⟨f.bpdu.rootId, f.bpdu.rootPathCost, some f.src⟩)
    (hflight : ∀ g, g ∈ net'.inFlight ↔ g ∈ rest ∨ g ∈ T.forwardBpdu f.dst f.src f.bpdu)
    (hsub : ∀ g ∈ rest, g ∈ net.inFlight) (hkeep : ∀ g ∈ net.inFlight, g = f ∨ g ∈ rest)
    (hblocked : ∀ v w, net'.LinkBlocked v w ↔ net.LinkBlocked v w) : Inv T root net' := by
  obtain ⟨hport, hsrc, hcost⟩ := h.frame f hf hid
  have hfar := h.far_frame hf hid
  have hself : f.src ≠ f.dst := by
    intro heq
    rw [heq] at hport
    exact T.ports_irrefl f.dst hport
  have hdst : net'.Has T root f.dst := by
    unfold Has
    rw [hnew]
    exact hid
  have hdist : net'.dist f.dst = f.bpdu.rootPathCost := by
    unfold dist
    rw [hnew]
  have hparent : net'.parent f.dst = some f.src := by
    unfold parent
    rw [hnew]
  -- all others are as before, and the costs have not grown
  have hhas : ∀ v, net.Has T root v → net'.Has T root v := by
    intro v hv
    by_cases hvd : v = f.dst
    · rw [hvd]
      exact hdst
    · exact (has_congr (hspt v hvd)).2 hv
  have hle : ∀ v, net.Has T root v → net'.dist v ≤ net.dist v := by
    intro v hv
    by_cases hvd : v = f.dst
    · rw [hvd] at hv ⊢
      have hlt := hless hv
      omega
    · rw [dist_congr (hspt v hvd)]
  -- the switch has told its new cost to all but its parent
  have hnews : ∀ w, w ∈ T.ports f.dst → w ≠ f.src → net'.current T root f.dst w ∈ net'.inFlight := by
    intro w hw hwsrc
    have hmem : (⟨f.dst, w, T.copyBpdu f.dst f.bpdu⟩ : BpduFrame V I) ∈ T.forwardBpdu f.dst f.src f.bpdu :=
      List.mem_map.2 ⟨w, List.mem_filter.2 ⟨hw, by simpa using hwsrc⟩, rfl⟩
    have heq : (⟨f.dst, w, T.copyBpdu f.dst f.bpdu⟩ : BpduFrame V I) = net'.current T root f.dst w := by
      unfold current Switches.copyBpdu
      rw [u32_of_lt hfits, hid, hdist]
    rw [← heq]
    exact (hflight _).2 (.inr hmem)
  have hstill : ∀ g ∈ net.inFlight, g ≠ f → g ∈ net'.inFlight := by
    intro g hg hgf
    rcases hkeep g hg with rfl | hmem
    · exact absurd rfl hgf
    · exact (hflight g).2 (.inl hmem)
  have hdecided : ∀ w, w ∈ T.ports f.dst → net'.Decided T root f.dst w := by
    intro w hw
    by_cases hwsrc : w = f.src
    · rw [hwsrc]
      exact .inl hparent
    · by_cases hwroot : w = root
      · -- the root has told the switch already, or its BPDU is on its way
        subst hwroot
        have hrootspt := hspt w (Ne.symm hne)
        have hhasroot : net.Has T w w := by
          unfold Has
          rw [h.root_spt]
        have hnone : net.parent w ≠ some f.dst := by
          unfold parent
          rw [h.root_spt]
          simp
        have hzero : net.dist w = 0 := by
          unfold dist
          rw [h.root_spt]
        rcases h.told w f.dst (T.ports_symm f.dst w hw) hhasroot hnone with hmem | ⟨hhasdst, hbound⟩
        · refine .inr (.inr (.inr (.inr ⟨hne, ?_⟩)))
          rw [current_congr hrootspt]
          exact hstill _ hmem fun heq => hwsrc (congrArg BpduFrame.src heq)
        · have hlt := hless hhasdst
          omega
      · exact .inr (.inr (.inr (.inl ⟨hwroot, hnews w hw hwsrc⟩)))
  refine ⟨?_, ?_, ?_, ?_, ?_, ?_, ?_, ?_, ?_, ?_⟩
  · intro v
    by_cases hv : v = f.dst
    · rw [hv, hnew]
      exact hid.ge
    · rw [hspt v hv]
      exact h.lowest v
  · intro g hg
    rcases (hflight g).1 hg with hmem | hmem
    · exact h.lowest_frame g (hsub g hmem)
    · obtain ⟨w, -, rfl⟩ := List.mem_map.1 hmem
      exact hid.ge
  · rw [hspt root (Ne.symm hne)]
    exact h.root_spt
  · intro g hg hgid
    rcases (hflight g).1 hg with hmem | hmem
    · obtain ⟨hgport, hgsrc, hgcost⟩ := h.frame g (hsub g hmem) hgid
      have hgle := hle g.src hgsrc
      exact ⟨hgport, hhas g.src hgsrc, by omega⟩
    · obtain ⟨w, hw, rfl⟩ := List.mem_map.1 hmem
      refine ⟨(List.mem_filter.1 hw).1, hdst, ?_⟩
      have hbpdu : (T.copyBpdu f.dst f.bpdu).rootPathCost = T.cost f.dst + f.bpdu.rootPathCost := u32_of_lt hfits
      rw [hbpdu, hdist]
  · intro v hv hh
    by_cases hvd : v = f.dst
    · rw [hvd, hdist]
      exact hfar
    · rw [dist_congr (hspt v hvd)]
      exact h.far v hv ((has_congr (hspt v hvd)).1 hh)
  · intro v hv hh
    by_cases hvd : v = f.dst
    · rw [hvd, hdist]
      refine ⟨f.src, hparent, T.ports_symm _ _ hport, hhas f.src hsrc, ?_⟩
      have hsrcle := hle f.src hsrc
      omega
    · obtain ⟨w, hw, hwport, hhw, hwcost⟩ := h.hangs v hv ((has_congr (hspt v hvd)).1 hh)
      rw [parent_congr (hspt v hvd), dist_congr (hspt v hvd)]
      refine ⟨w, hw, hwport, hhas w hhw, ?_⟩
      have hwle := hle w hhw
      omega
  · obtain ⟨k, hk⟩ := h.rank
    refine ⟨Function.update k f.dst (k f.src + 1), ?_⟩
    intro v w hv hh hp
    by_cases hvd : v = f.dst
    · rw [hvd, hparent] at hp
      obtain rfl := Option.some.inj hp
      rw [hvd, hdist, dist_congr (hspt f.src hself), Function.update_self, Function.update_of_ne hself]
      omega
    · have hh' := (has_congr (hspt v hvd)).1 hh
      rw [parent_congr (hspt v hvd)] at hp
      rw [dist_congr (hspt v hvd), Function.update_of_ne hvd]
      by_cases hwd : w = f.dst
      · -- a child of the switch was further off than the switch was before
        obtain ⟨w', hw', -, hhw, hwcost⟩ := h.hangs v hv hh'
        obtain rfl := Option.some.inj (hw'.symm.trans hp)
        rw [hwd] at hhw hwcost ⊢
        have hlt := hless hhw
        rw [hdist]
        omega
      · rw [dist_congr (hspt w hwd), Function.update_of_ne hwd]
        exact hk v w hv hh' hp
  · intro v w hw hh hp
    by_cases hvd : v = f.dst
    · subst hvd
      have hwsrc : w ≠ f.src := by
        rintro rfl
        exact hp hparent
      exact .inl (hnews w hw hwsrc)
    · rw [parent_congr (hspt v hvd)] at hp
      rw [current_congr (hspt v hvd), dist_congr (hspt v hvd)]
      rcases h.told v w hw ((has_congr (hspt v hvd)).1 hh) hp with hmem | ⟨hhw, hbound⟩
      · by_cases hgf : net.current T root v w = f
        · -- the BPDU itself was what `v` had to tell
          have hwd : w = f.dst := congrArg BpduFrame.dst hgf
          have hcostf : T.cost v + net.dist v = f.bpdu.rootPathCost := congrArg (fun g => g.bpdu.rootPathCost) hgf
          rw [hwd, hdist]
          exact .inr ⟨hdst, by omega⟩
        · exact .inl (hstill _ hmem hgf)
      · have hwle := hle w hhw
        exact .inr ⟨hhas w hhw, by omega⟩
  · intro v w hw hv hw'
    by_cases hvd : v = f.dst
    · rw [hvd] at hw ⊢
      exact hdecided w hw
    · by_cases hwd : w = f.dst
      · rw [hwd] at hw ⊢
        exact (hdecided v (T.ports_symm _ _ hw)).symm
      · have hvw : net.current T root v w ≠ f := fun heq => hwd (congrArg BpduFrame.dst heq)
        have hwv : net.current T root w v ≠ f := fun heq => hvd (congrArg BpduFrame.dst heq)
        unfold Decided
        rw [parent_congr (hspt v hvd), parent_congr (hspt w hwd), current_congr (hspt v hvd), current_congr (hspt w hwd),
          hblocked]
        rcases h.decided v w hw ((has_congr (hspt v hvd)).1 hv) ((has_congr (hspt w hwd)).1 hw') with
          hp | hp | hb | ⟨hne', hmem⟩ | ⟨hne', hmem⟩
        · exact .inl hp
        · exact .inr (.inl hp)
        · exact .inr (.inr (.inl hb))
        · exact .inr (.inr (.inr (.inl ⟨hne', hstill _ hmem hvw⟩)))
        · exact .inr (.inr (.inr (.inr ⟨hne', hstill _ hmem hwv⟩)))
  · intro v w hv hh
    rw [hblocked]
    obtain ⟨hhas', hp⟩ := hh
    by_cases hvd : v = f.dst
    · rw [hvd, hnew] at hp
      obtain rfl := Option.some.inj hp
      rw [hvd]
      exact fun hb => hopen hb.symm
    · have hp' := hp
      rw [hspt v hvd] at hp'
      exact h.opened v w hv ⟨(has_congr (hspt v hvd)).1 hhas', hp'⟩

/-! ## Runs -/

/-- What the answers of `compare_bpdu` say. -/
theorem compareBpdu_spec (bpdu : Bpdu I) (spt : Spt V I) (switchId : I) (port : V) :
    (compareBpdu bpdu spt switchId port = .forward ∧
      (bpdu.rootId = spt.rootId ∧ bpdu.rootPathCost < spt.rootPathCost ∧ spt.rootId ≠ switchId ∨
        bpdu.rootId < spt.rootId)) ∨
    (compareBpdu bpdu spt switchId port = .block ∧ bpdu.rootId = spt.rootId ∧ spt.rootPathCost ≤ bpdu.rootPathCost) ∨
    (compareBpdu bpdu spt switchId port = .dontForward ∧
      (bpdu.rootId = spt.rootId ∧ (spt.rootId = switchId ∨
        spt.rootPathCost = bpdu.rootPathCost ∧ spt.rootPort = some port) ∨ spt.rootId < bpdu.rootId)) := by
  unfold compareBpdu
  by_cases hid : bpdu.rootId = spt.rootId
  · by_cases hown : spt.rootId = switchId
    · simp [hid, hown]
    · rcases Nat.lt_trichotomy bpdu.rootPathCost spt.rootPathCost with hlt | heq | hgt
      · have hne : bpdu.rootPathCost ≠ spt.rootPathCost := by omega
        simp [hid, hown, hlt, hne]
      · by_cases hport : spt.rootPort = some port
        · simp [hid, hown, heq, hport]
        · simp [hid, hown, heq, hport]
      · have hne : bpdu.rootPathCost ≠ spt.rootPathCost := by omega
        have hnot : ¬ bpdu.rootPathCost < spt.rootPathCost := by omega
        simp [hid, hown, hne, hnot, Nat.le_of_lt hgt]
  · rcases lt_trichotomy bpdu.rootId spt.rootId with hlt | heq | hgt
    · simp [hid, hlt]
    · exact absurd heq hid
    · have hnot : ¬ bpdu.rootId < spt.rootId := not_lt.2 hgt.le
      simp [hid, hnot, hgt]

omit [LinearOrder I] in
/-- Blocking a port blocks its link, and no other. -/
theorem linkBlocked_blockPort {v w x y : V}
    (hnet : net'.switch = Function.update net.switch v ((net.switch v).blockPort w)) :
    net'.LinkBlocked x y ↔ net.LinkBlocked x y ∨ x = v ∧ y = w ∨ x = w ∧ y = v := by
  have hstate : ∀ x y, (net'.switch x).portState y = .blocking ↔ (net.switch x).portState y = .blocking ∨ x = v ∧ y = w := by
    intro x y
    rw [hnet]
    by_cases hx : x = v
    · subst hx
      rw [Function.update_self]
      unfold Switch.blockPort
      by_cases hy : y = w
      · simp [hy]
      · simp [hy]
    · rw [Function.update_of_ne hx]
      simp [hx]
  unfold LinkBlocked
  rw [hstate, hstate]
  tauto

/-- A BPDU that `compare_bpdu` answers with FORWARD. -/
theorem Inv.deliver_forward (h : Inv T root net) (hf : f ∈ net.inFlight) (hsub : ∀ g ∈ rest, g ∈ net.inFlight)
    (hkeep : ∀ g ∈ net.inFlight, g = f ∨ g ∈ rest) (hok : net.InOrder T root f)
    (heq : compareBpdu f.bpdu (net.switch f.dst).spt (T.switchId f.dst) f.src = .forward)
    (hcases : f.bpdu.rootId = (net.switch f.dst).spt.rootId ∧ f.bpdu.rootPathCost < (net.switch f.dst).spt.rootPathCost ∧
      (net.switch f.dst).spt.rootId ≠ T.switchId f.dst ∨ f.bpdu.rootId < (net.switch f.dst).spt.rootId) :
    Inv T root (net.deliver T f rest) := by
  have hlowf := h.lowest_frame f hf
  have hrootid : (net.switch root).spt.rootId = T.switchId root := by rw [h.root_spt]
  have hprocess : T.processConfigBpdu f.dst (net.switch f.dst) f.src f.bpdu =
      (((net.switch f.dst).markPort f.src).updateSpt f.bpdu f.src, T.forwardBpdu f.dst f.src f.bpdu) := by
    unfold Switches.processConfigBpdu
    rw [heq]
  have hne : f.dst ≠ root := by
    intro hdst
    rw [hdst, hrootid] at hcases
    rcases hcases with ⟨-, -, hown⟩ | hlt
    · exact hown rfl
    · exact absurd hlowf (not_le.2 hlt)
  unfold deliver
  rw [hprocess]
  dsimp only
  have hspt : ∀ v, v ≠ f.dst → (Function.update net.switch f.dst
      (((net.switch f.dst).markPort f.src).updateSpt f.bpdu f.src) v).spt = (net.switch v).spt := by
    intro v hv
    rw [Function.update_of_ne hv]
  have hself : (Function.update net.switch f.dst (((net.switch f.dst).markPort f.src).updateSpt f.bpdu f.src)
      f.dst).spt = ⟨f.bpdu.rootId, f.bpdu.rootPathCost, some f.src⟩ := by
    rw [Function.update_self]
    rfl
  have hstate : ∀ v, (Function.update net.switch f.dst
      (((net.switch f.dst).markPort f.src).updateSpt f.bpdu f.src) v).portState = (net.switch v).portState := by
    intro v
    by_cases hv : v = f.dst
    · subst hv
      rw [Function.update_self]
      rfl
    · rw [Function.update_of_ne hv]
  have hblocked : ∀ v w, LinkBlocked ⟨Function.update net.switch f.dst
      (((net.switch f.dst).markPort f.src).updateSpt f.bpdu f.src),
      rest ++ T.forwardBpdu f.dst f.src f.bpdu⟩ v w ↔ net.LinkBlocked v w := by
    intro v w
    unfold LinkBlocked
    rw [hstate, hstate]
  by_cases hid : f.bpdu.rootId = T.switchId root
  · obtain ⟨hopen, hfits⟩ := hok.1 heq hid
    refine h.adopts hf hid hne ?_ hfits hopen hspt hself
      (fun g => List.mem_append) hsub hkeep hblocked
    intro hhas
    rcases hcases with ⟨-, hlt, -⟩ | hlt
    · exact hlt
    · rw [hid, hhas] at hlt
      exact absurd hlt (lt_irrefl _)
  · refine h.foreign hf hid ?_ hne hspt (congrArg Spt.rootId hself) ?_ ?_ hblocked
    · intro hhas
      rcases hcases with ⟨heq', -, -⟩ | hlt
      · exact hid (heq'.trans hhas)
      · rw [hhas] at hlt
        exact absurd hlowf (not_le.2 hlt)
    · intro g hg
      rcases List.mem_append.1 hg with hg | hg
      · exact .inl (hsub g hg)
      · obtain ⟨w, -, rfl⟩ := List.mem_map.1 hg
        exact .inr rfl
    · intro g hg
      rcases hkeep g hg with hgf | hg
      · exact .inl hgf
      · exact .inr (List.mem_append_left _ hg)

/-- A BPDU that it answers with BLOCK. -/
theorem Inv.deliver_block (h : Inv T root net) (hsub : ∀ g ∈ rest, g ∈ net.inFlight)
    (hkeep : ∀ g ∈ net.inFlight, g = f ∨ g ∈ rest) (hok : net.InOrder T root f)
    (heq : compareBpdu f.bpdu (net.switch f.dst).spt (T.switchId f.dst) f.src = .block)
    (hid : f.bpdu.rootId = (net.switch f.dst).spt.rootId)
    (hcost : (net.switch f.dst).spt.rootPathCost ≤ f.bpdu.rootPathCost) : Inv T root (net.deliver T f rest) := by
  have hprocess : T.processConfigBpdu f.dst (net.switch f.dst) f.src f.bpdu =
      ((net.switch f.dst).blockPort f.src, []) := by
    unfold Switches.processConfigBpdu
    rw [heq]
  obtain ⟨hsrc, hdst⟩ := hok.2 heq
  unfold deliver
  rw [hprocess]
  dsimp only
  rw [List.append_nil]
  refine h.stays (f := f) ?_ hsub hkeep ?_ ?_ ?_
  · intro v
    dsimp only
    by_cases hv : v = f.dst
    · subst hv
      rw [Function.update_self]
      rfl
    · rw [Function.update_of_ne hv]
  · intro v w hb
    rw [linkBlocked_blockPort rfl]
    exact .inl hb
  · intro v w hv hh
    rw [linkBlocked_blockPort rfl]
    rintro (hb | ⟨rfl, rfl⟩ | ⟨rfl, rfl⟩)
    · exact h.opened v w hv hh hb
    · exact hdst hh
    · exact hsrc hh
  · intro hroot
    refine ⟨hid.symm.trans hroot, hcost, .inr (.inr ?_)⟩
    rw [linkBlocked_blockPort rfl]
    exact .inr (.inr ⟨rfl, rfl⟩)

/-- A BPDU that it answers with DONT_FORWARD. -/
theorem Inv.deliver_dontForward (hinj : Function.Injective T.switchId) (h : Inv T root net)
    (hsub : ∀ g ∈ rest, g ∈ net.inFlight) (hkeep : ∀ g ∈ net.inFlight, g = f ∨ g ∈ rest)
    (heq : compareBpdu f.bpdu (net.switch f.dst).spt (T.switchId f.dst) f.src = .dontForward)
    (hcases : f.bpdu.rootId = (net.switch f.dst).spt.rootId ∧ ((net.switch f.dst).spt.rootId = T.switchId f.dst ∨
        (net.switch f.dst).spt.rootPathCost = f.bpdu.rootPathCost ∧ (net.switch f.dst).spt.rootPort = some f.src) ∨
      (net.switch f.dst).spt.rootId < f.bpdu.rootId) : Inv T root (net.deliver T f rest) := by
  have hlow := h.lowest f.dst
  have hprocess : T.processConfigBpdu f.dst (net.switch f.dst) f.src f.bpdu = (net.switch f.dst, []) := by
    unfold Switches.processConfigBpdu
    rw [heq]
  unfold deliver
  rw [hprocess]
  dsimp only
  rw [List.append_nil, Function.update_eq_self]
  refine h.stays (f := f) (fun _ => rfl) hsub hkeep (fun _ _ hb => hb) h.opened ?_
  intro hroot
  rcases hcases with ⟨hid, hown | ⟨hcost, hport⟩⟩ | hlt
  · -- the switch itself is the root
    have hdst : f.dst = root := hinj (hown.symm.trans (hid.symm.trans hroot))
    have hzero : net.dist f.dst = 0 := by
      unfold dist
      rw [hdst, h.root_spt]
    exact ⟨hid.symm.trans hroot, by omega, .inl hdst⟩
  · exact ⟨hid.symm.trans hroot, Nat.le_of_eq hcost, .inr (.inl hport)⟩
  · rw [hroot] at hlt
    exact absurd hlow (not_le.2 hlt)

/-- **Every BPDU that arrives in order keeps the invariant.** -/
theorem Inv.step (hinj : Function.Injective T.switchId) (h : Inv T root net) {i : ℕ} (hok : net.Orderly T root i)
    (hs : net.step T i = some net') : Inv T root net' := by
  obtain ⟨f, hget, rfl⟩ := Option.map_eq_some_iff.1 hs
  have hf : f ∈ net.inFlight := List.mem_of_getElem? hget
  have hsub : ∀ g ∈ net.inFlight.eraseIdx i, g ∈ net.inFlight := fun g hg => List.mem_of_mem_eraseIdx hg
  have hkeep : ∀ g ∈ net.inFlight, g = f ∨ g ∈ net.inFlight.eraseIdx i := by
    intro g hg
    obtain ⟨j, hj⟩ := List.mem_iff_getElem?.1 hg
    by_cases hji : j = i
    · rw [hji, hget] at hj
      exact .inl (Option.some.inj hj).symm
    · exact .inr (List.mem_eraseIdx_iff_getElem?.2 ⟨j, hji, hj⟩)
  rcases compareBpdu_spec f.bpdu (net.switch f.dst).spt (T.switchId f.dst) f.src with
    ⟨heq, hcases⟩ | ⟨heq, hid, hcost⟩ | ⟨heq, hcases⟩
  · exact h.deliver_forward hf hsub hkeep (hok f hget) heq hcases
  · exact h.deliver_block hsub hkeep (hok f hget) heq hid hcost
  · exact h.deliver_dontForward hinj hsub hkeep heq hcases

/-- **The invariant holds in every run** whose BPDUs arrive in order. -/
theorem inv_of_reachOn (hinj : Function.Injective T.switchId) (hroot : T.IsLowest root)
    (h : (machine T).ReachOn (Orderly T root) net) : Inv T root net := by
  refine h.inv (I := Inv T root) ?_ fun net i net' hi hok hs => hi.step hinj hok hs
  rintro net rfl
  exact inv_init hinj hroot

/-- Once no BPDU is on its way, the root has reached every switch. -/
theorem Inv.has_of_quiet (h : Inv T root net) (hconn : T.links.Connected) (hquiet : net.inFlight = []) (v : V) :
    net.Has T root v := by
  have hreach : Relation.ReflTransGen T.links.Adj root v := (SimpleGraph.reachable_iff_reflTransGen root v).1 (hconn root v)
  induction hreach with
  | refl =>
    unfold Has
    rw [h.root_spt]
  | @tail u w _ hadj ih =>
    by_cases hp : net.parent u = some w
    · have hu : u ≠ root := by
        rintro rfl
        unfold parent at hp
        rw [h.root_spt] at hp
        exact absurd hp (by simp)
      obtain ⟨w', hw', -, hhas, -⟩ := h.hangs u hu ih
      obtain rfl := Option.some.inj (hp.symm.trans hw')
      exact hhas
    · rcases h.told u w hadj ih hp with hmem | ⟨hhas, -⟩
      · rw [hquiet] at hmem
        exact absurd hmem List.not_mem_nil
      · exact hhas

omit [DecidableEq V] in
/-- Then the open links are those at the root ports. -/
theorem Inv.openLinks_iff (h : Inv T root net) (hall : ∀ v, net.Has T root v) (hquiet : net.inFlight = []) (v w : V) :
    (net.openLinks T).Adj v w ↔ net.parent v = some w ∨ net.parent w = some v := by
  have hopen : ∀ v w, net.parent v = some w → (net.openLinks T).Adj v w := by
    intro v w hp
    have hv : v ≠ root := by
      rintro rfl
      unfold parent at hp
      rw [h.root_spt] at hp
      exact absurd hp (by simp)
    obtain ⟨w', hw', hport, -, -⟩ := h.hangs v hv (hall v)
    obtain rfl := Option.some.inj (hp.symm.trans hw')
    have hb := h.opened v w hv ⟨hall v, hp⟩
    exact ⟨hport, fun hs => hb (.inl hs), fun hs => hb (.inr hs)⟩
  constructor
  · rintro ⟨hport, hv, hw⟩
    rcases h.decided v w hport (hall v) (hall w) with hp | hp | hb | ⟨-, hmem⟩ | ⟨-, hmem⟩
    · exact .inl hp
    · exact .inr hp
    · rcases hb with hb | hb
      · exact absurd hb hv
      · exact absurd hb hw
    · rw [hquiet] at hmem
      exact absurd hmem List.not_mem_nil
    · rw [hquiet] at hmem
      exact absurd hmem List.not_mem_nil
  · rintro (hp | hp)
    · exact hopen v w hp
    · exact (hopen w v hp).symm

/-- **The spanning tree.** In every run whose BPDUs arrive in order, once none is on its way all switches name the switch of
lowest id as root, and the open links are a spanning tree. -/
theorem spans_of_reachOn (T : Switches V I) (root : V) (hconn : T.links.Connected) (hinj : Function.Injective T.switchId)
    (hroot : T.IsLowest root) (net : SptNet V I) (h : (machine T).ReachOn (Orderly T root) net)
    (hquiet : net.inFlight = []) : net.Spans T root := by
  have hinv := inv_of_reachOn hinj hroot h
  have hall := hinv.has_of_quiet hconn hquiet
  obtain ⟨k, hk⟩ := hinv.rank
  have hfinite : Finite V := Set.finite_univ_iff.1 (T.devices.finite_toSet.subset fun v _ => T.mem_devices v)
  have hparents : ParentTree.IsParents (net.openLinks T) net.parent root fun v => toLex (net.dist v, k v) := by
    refine ⟨?_, ?_, hinv.openLinks_iff hall hquiet⟩
    · unfold parent
      rw [hinv.root_spt]
    · intro v hv
      obtain ⟨w, hw, -⟩ := hinv.hangs v hv (hall v)
      refine ⟨w, hw, ?_⟩
      rw [Prod.Lex.toLex_lt_toLex]
      exact hk v w hv (hall v) hw
  exact ⟨hall, hparents.isTree⟩

omit [LinearOrder I] in
theorem connected_of_hub {c : V} (h : ∀ v, v ≠ c → v ∈ T.ports c) : T.links.Connected := by
  refine (SimpleGraph.connected_iff_exists_forall_reachable _).2 ⟨c, fun v => ?_⟩
  by_cases hv : v = c
  · rw [hv]
  · have hadj : T.links.Adj c v := h v hv
    exact hadj.reachable

/-- Three switches, each linked to the others. -/
def triangle : Switches (Fin 3) ℕ where
  devices := [0, 1, 2]
  switchId v := v
  stpCost _ := 19
  ports v := [0, 1, 2].filter fun w => w ≠ v
  mem_devices := by decide
  ports_symm := by decide
  ports_irrefl := by decide

theorem spans_triangle : ∃ net : SptNet (Fin 3) ℕ, net.inFlight = [] ∧ net.Spans triangle 0 := by
  obtain ⟨net, hreach, hquiet⟩ := Machine.ReachOn.exists_of_execOn (Orderly triangle 0) (M := machine triangle)
    (P := fun net => net.inFlight = []) (List.replicate 8 0) (.init rfl) (by decide)
  have hconn : triangle.links.Connected := connected_of_hub (c := 0) (by decide)
  exact ⟨net, hquiet, spans_of_reachOn triangle 0 hconn Fin.val_injective (fun v => Nat.zero_le v) net hreach hquiet⟩

/-- Three switches in a triangle, and the one of lowest id beside the third. -/
def lateRoot : Switches (Fin 4) ℕ where
  devices := [0, 1, 2, 3]
  switchId v := v
  stpCost _ := 19
  ports v := if v = 0 then [2] else if v = 1 then [2, 3] else if v = 2 then [0, 1, 3] else [1, 2]
  mem_devices := by decide
  ports_symm := by decide
  ports_irrefl := by decide

/-- The triangle settles before the BPDU of the lowest id comes: a switch is left with two blocked ports. -/
theorem late_root_cuts : lateRoot.links.Connected ∧ Function.Injective lateRoot.switchId ∧ lateRoot.IsLowest 0 ∧
    ∃ net, (machine lateRoot).Reach net ∧ net.inFlight = [] ∧ ¬ net.Spans lateRoot 0 := by
  refine ⟨connected_of_hub (c := 2) (by decide), Fin.val_injective, fun v => Nat.zero_le v, ?_⟩
  obtain ⟨net, hreach, hquiet, h1, h2⟩ := Machine.Reach.exists_of_exec (M := machine lateRoot)
    (P := fun net => net.inFlight = [] ∧ (net.switch 3).portState 1 = .blocking ∧ (net.switch 3).portState 2 = .blocking)
    ([1, 1, 2, 2, 2, 2, 3, 3] ++ List.replicate 7 0) (.init rfl) (by decide)
  refine ⟨net, hreach, hquiet, ?_⟩
  rintro ⟨-, htree⟩
  -- the last switch has no open link
  have hnone : ∀ w, ¬ (net.openLinks lateRoot).Adj 3 w := by
    rintro w ⟨hport, hstate, -⟩
    have hports : ∀ w ∈ lateRoot.ports 3, w = 1 ∨ w = 2 := by decide
    have hw := hports w hport
    rcases hw with rfl | rfl
    · exact hstate h1
    · exact hstate h2
  have hreach' : Relation.ReflTransGen (net.openLinks lateRoot).Adj 3 0 :=
    (SimpleGraph.reachable_iff_reflTransGen 3 0).1 (htree.1 3 0)
  rcases Relation.ReflTransGen.cases_head hreach' with heq | ⟨w, hadj, -⟩
  · exact absurd heq (by decide)
  · exact hnone w hadj

end SptNet

end NetSim.Ethernet
