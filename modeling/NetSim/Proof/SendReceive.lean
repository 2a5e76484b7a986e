import NetSim.Spec.SendReceive
import Mathlib.Algebra.BigOperators.Group.List.Basic
import Mathlib.Tactic.FieldSimp

/-!
# The alignment of the state sent to Python

The write index advances for each layer of each carrier, and the first of them clears the counter of
the UE. So the entries are aligned with the associated UEs exactly if each of them has one layer in
all (`aligned_iff`).

* `entries_eq`: the entries are those of the associated UEs one after the other.
-/

namespace NetSim.SendReceive

/-- An associated UE, with its gNB. -/
structure Link where
  phy : GnbPhy
  info : AssociatedUePhyInfo

namespace Link

/-- The layers of the carriers that the gNB has. -/
def layers (a : Link) : List Layer := (a.info.propagationInfo.take a.phy.caCount).flatMap (·.layers)

def ue (a : Link) : ℕ × ℕ := a.info.ue

/-- The entry of a layer, with the counter of the UE. -/
def entry (a : Link) (bytes : ℚ) (layer : Layer) : Entry :=
  ⟨a.phy.pdschThroughput bytes, layer.sinrDb, layer.interferencePowerDbm⟩

/-- The entries of a UE: the first layer gets the counter. -/
def entries (a : Link) (bytes : ℚ) : List Entry :=
  match a.layers with
  | [] => []
  | layer :: rest => a.entry bytes layer :: rest.map (a.entry 0)

/-- The counters when the UE has been reported. -/
def clear (a : Link) (bytes : ℕ × ℕ → ℚ) : ℕ × ℕ → ℚ :=
  if a.layers = [] then bytes else Function.update bytes a.ue 0

end Link

/-- The associated UEs, in the order of the loops. -/
def associated (gnbDCList : List GnbPhy) : List Link :=
  gnbDCList.flatMap fun phy => (phy.associatedUEPhyInfo.filter (·.isAssociated)).map (⟨phy, ·⟩)

/-- The entries of the UEs one after the other. -/
def feedEntries : List Link → (ℕ × ℕ → ℚ) → List Entry
  | [], _ => []
  | a :: l, bytes => a.entries (bytes a.ue) ++ feedEntries l (a.clear bytes)

/-- The counters behind the UEs. -/
def clearAll (l : List Link) (bytes : ℕ × ℕ → ℚ) : ℕ × ℕ → ℚ := l.foldl (fun bytes a => a.clear bytes) bytes

/-! ## The loops -/

/-- A feed has got the entries of the UEs. -/
structure Fed (f f' : Feed) (l : List Link) : Prop where
  entries : f'.entries = f.entries ++ feedEntries l f.totalPdschBytes
  bytes : f'.totalPdschBytes = clearAll l f.totalPdschBytes

theorem feedEntries_append (l l' : List Link) (bytes : ℕ × ℕ → ℚ) :
    feedEntries (l ++ l') bytes = feedEntries l bytes ++ feedEntries l' (clearAll l bytes) := by
  induction l generalizing bytes with
  | nil => rfl
  | cons a l ih =>
    rw [List.cons_append, feedEntries, feedEntries, ih, List.append_assoc]
    rfl

theorem Fed.refl (f : Feed) : Fed f f [] := ⟨(List.append_nil _).symm, rfl⟩

theorem Fed.trans {f f' f'' : Feed} {l l' : List Link} (h : Fed f f' l) (h' : Fed f' f'' l') :
    Fed f f'' (l ++ l') := by
  constructor
  · rw [h'.entries, h.entries, h.bytes, feedEntries_append, List.append_assoc]
  · rw [h'.bytes, h.bytes]
    exact List.foldl_append.symm

/-- The layers behind the first one find a cleared counter. -/
theorem sendLayers_cleared (a : Link) (layers : List Layer) (f : Feed) (hzero : f.totalPdschBytes a.ue = 0) :
    (layers.foldl (sendLayer a.phy a.info) f).entries = f.entries ++ layers.map (a.entry 0) ∧
      (layers.foldl (sendLayer a.phy a.info) f).totalPdschBytes = f.totalPdschBytes := by
  induction layers generalizing f with
  | nil => exact ⟨(List.append_nil _).symm, rfl⟩
  | cons layer rest ih =>
    have hbytes : (sendLayer a.phy a.info f layer).totalPdschBytes = f.totalPdschBytes := by
      have hself := Function.update_eq_self a.ue f.totalPdschBytes
      rw [hzero] at hself
      exact hself
    have hentry : (sendLayer a.phy a.info f layer).entries = f.entries ++ [a.entry 0 layer] := by
      rw [← hzero]
      rfl
    obtain ⟨hentries, hcounters⟩ := ih (sendLayer a.phy a.info f layer) (by rw [hbytes, hzero])
    rw [List.foldl_cons, hentries, hcounters, hentry, hbytes, List.append_assoc]
    exact ⟨rfl, rfl⟩

theorem sendLayers (a : Link) (f : Feed) : Fed f (a.layers.foldl (sendLayer a.phy a.info) f) [a] := by
  have hfeed : feedEntries [a] f.totalPdschBytes = a.entries (f.totalPdschBytes a.ue) :=
    List.append_nil _
  have hclear : clearAll [a] f.totalPdschBytes = a.clear f.totalPdschBytes := rfl
  cases hlayers : a.layers with
  | nil =>
    constructor
    · rw [hfeed, Link.entries, hlayers]
      exact (List.append_nil _).symm
    · rw [hclear, Link.clear, if_pos hlayers]
      rfl
  | cons layer rest =>
    -- the first layer clears the counter
    have hzero : (sendLayer a.phy a.info f layer).totalPdschBytes a.ue = 0 := Function.update_self ..
    obtain ⟨hentries, hbytes⟩ := sendLayers_cleared a rest _ hzero
    constructor
    · rw [hfeed, Link.entries, hlayers, List.foldl_cons, hentries]
      exact List.append_assoc ..
    · rw [hclear, Link.clear, if_neg (hlayers ▸ List.cons_ne_nil layer rest), List.foldl_cons, hbytes]
      rfl

theorem sendInfo_fed (phy : GnbPhy) (info : AssociatedUePhyInfo) (f : Feed) :
    Fed f (sendInfo phy f info) (if info.isAssociated then [⟨phy, info⟩] else []) := by
  unfold sendInfo
  dsimp only
  split
  · have hlayers := sendLayers ⟨phy, info⟩ f
    unfold Link.layers at hlayers
    rw [List.foldl_flatMap] at hlayers
    exact ⟨hlayers.entries, hlayers.bytes⟩
  · exact ⟨(List.append_nil _).symm, rfl⟩

theorem sendGnb_fed (phy : GnbPhy) (infos : List AssociatedUePhyInfo) (f : Feed) :
    Fed f (infos.foldl (sendInfo phy) f) ((infos.filter (·.isAssociated)).map (⟨phy, ·⟩)) := by
  induction infos generalizing f with
  | nil => exact .refl f
  | cons info rest ih =>
    have hfed := (sendInfo_fed phy info f).trans (ih _)
    rw [List.filter_cons]
    split at hfed <;> rename_i hassoc
    · rw [if_pos hassoc]
      exact hfed
    · rw [if_neg hassoc]
      exact hfed

/-- **The entries are those of the associated UEs one after the other.** -/
theorem sendFeed_fed (gnbDCList : List GnbPhy) (f : Feed) :
    Fed f (gnbDCList.foldl (fun f phy => phy.associatedUEPhyInfo.foldl (sendInfo phy) f) f)
      (associated gnbDCList) := by
  induction gnbDCList generalizing f with
  | nil => exact .refl f
  | cons phy rest ih => exact (sendGnb_fed phy phy.associatedUEPhyInfo f).trans (ih _)

/-! ## Alignment -/

/-- The entry is the one of the UE, with its counter in full. -/
def Reports (bytes : ℕ × ℕ → ℚ) (a : Link) (e : Entry) : Prop :=
  e.throughput = a.phy.pdschThroughput (bytes a.ue) ∧ e.sinr ∈ a.layers.map (·.sinrDb)

/-- **Alignment**: no write index reaches `num_UEs`, and each entry is the one of its UE. -/
def Aligned (numUes : ℕ) (gnbDCList : List GnbPhy) (bytes : ℕ × ℕ → ℚ) (entries : List Entry) : Prop :=
  (∀ p < entries.length, p < numUes) ∧ List.Forall₂ (Reports bytes) (associated gnbDCList) entries

theorem pdschThroughput_inj (phy : GnbPhy) {x y : ℚ} :
    phy.pdschThroughput x = phy.pdschThroughput y ↔ x = y := by
  have hpos := phy.frameDuration_pos
  unfold GnbPhy.pdschThroughput
  constructor
  · intro h
    field_simp at h
    exact h
  · rintro rfl
    rfl

theorem entries_length (a : Link) (bytes : ℚ) : (a.entries bytes).length = a.layers.length := by
  unfold Link.entries
  cases a.layers with
  | nil => rfl
  | cons layer rest => exact congrArg (· + 1) (List.length_map _)

theorem feedEntries_length (l : List Link) (bytes : ℕ × ℕ → ℚ) :
    (feedEntries l bytes).length = (l.map fun a => a.layers.length).sum := by
  induction l generalizing bytes with
  | nil => rfl
  | cons a l ih => rw [feedEntries, List.length_append, entries_length, ih, List.map_cons, List.sum_cons]

theorem exists_entry {bytes : ℕ × ℕ → ℚ} {l : List Link} {entries : List Entry}
    (h : List.Forall₂ (Reports bytes) l entries) {a : Link} (ha : a ∈ l) : ∃ e, Reports bytes a e := by
  induction h with
  | nil => exact absurd ha List.not_mem_nil
  | cons hreport _ ih =>
    rcases List.mem_cons.1 ha with rfl | ha
    · exact ⟨_, hreport⟩
    · exact ih ha

theorem length_le_sum {l : List Link} (hpos : ∀ a ∈ l, 0 < a.layers.length) :
    l.length ≤ (l.map fun a => a.layers.length).sum := by
  induction l with
  | nil => exact le_rfl
  | cons a l ih =>
    have hhead := hpos a List.mem_cons_self
    have htail := ih fun b hb => hpos b (List.mem_cons_of_mem _ hb)
    rw [List.map_cons, List.sum_cons, List.length_cons]
    omega

/-- As many entries as UEs, and none of the UEs without a layer: each has one. -/
theorem all_one_of_sum {l : List Link} (hpos : ∀ a ∈ l, 0 < a.layers.length)
    (hsum : (l.map fun a => a.layers.length).sum ≤ l.length) : ∀ a ∈ l, a.layers.length = 1 := by
  induction l with
  | nil => exact nofun
  | cons a l ih =>
    rw [List.map_cons, List.sum_cons, List.length_cons] at hsum
    have hhead := hpos a List.mem_cons_self
    have htail := length_le_sum fun b hb => hpos b (List.mem_cons_of_mem _ hb)
    intro b hb
    rcases List.mem_cons.1 hb with rfl | hb
    · omega
    · exact ih (fun c hc => hpos c (List.mem_cons_of_mem _ hc)) (by omega) b hb

theorem exists_layer {a : Link} (hone : a.layers.length = 1) (bytes : ℚ) :
    ∃ layer, a.layers = [layer] ∧ a.entries bytes = [a.entry bytes layer] := by
  obtain ⟨layer, hlayer⟩ := List.length_eq_one_iff.1 hone
  refine ⟨layer, hlayer, ?_⟩
  unfold Link.entries
  rw [hlayer]
  rfl

/-- With one layer each, the UEs are reported in full if those that have been cleared before have an empty
counter. -/
theorem reportsWith_iff (bytes : ℕ × ℕ → ℚ) {l : List Link} (hone : ∀ a ∈ l, a.layers.length = 1)
    (bytes' : ℕ × ℕ → ℚ) : List.Forall₂ (Reports bytes) l (feedEntries l bytes') ↔
      (∀ a ∈ l, bytes' a.ue = bytes a.ue) ∧ l.Pairwise fun a b => a.ue = b.ue → bytes a.ue = 0 := by
  induction l generalizing bytes' with
  | nil => exact ⟨fun _ => ⟨nofun, .nil⟩, fun _ => .nil⟩
  | cons a l ih =>
    obtain ⟨layer, hlayer, hentries⟩ := exists_layer (hone a List.mem_cons_self) (bytes' a.ue)
    have hclear : a.clear bytes' = Function.update bytes' a.ue 0 :=
      if_neg (hlayer ▸ List.cons_ne_nil layer [])
    have hreports : Reports bytes a (a.entry (bytes' a.ue) layer) ↔ bytes' a.ue = bytes a.ue := by
      unfold Reports
      rw [hlayer]
      exact ⟨fun h => (pdschThroughput_inj a.phy).1 h.1,
        fun h => ⟨(pdschThroughput_inj a.phy).2 h, List.mem_cons_self⟩⟩
    have htail := ih (fun b hb => hone b (List.mem_cons_of_mem _ hb)) (Function.update bytes' a.ue 0)
    rw [feedEntries, hentries, hclear, List.singleton_append, List.forall₂_cons, hreports, htail,
      List.pairwise_cons, List.forall_mem_cons]
    constructor
    · rintro ⟨hhead, hrest, hpairs⟩
      have hsame : ∀ b ∈ l, a.ue = b.ue → bytes a.ue = 0 := by
        intro b hb heq
        have hzero := hrest b hb
        rw [← heq, Function.update_self] at hzero
        exact hzero.symm
      refine ⟨⟨hhead, fun b hb => ?_⟩, hsame, hpairs⟩
      by_cases heq : b.ue = a.ue
      · rw [heq]
        exact hhead
      · rw [← hrest b hb, Function.update_of_ne heq]
    · rintro ⟨⟨hhead, hrest⟩, hsame, hpairs⟩
      refine ⟨hhead, fun b hb => ?_, hpairs⟩
      by_cases heq : b.ue = a.ue
      · rw [heq, Function.update_self, hsame b hb heq.symm]
      · rw [Function.update_of_ne heq]
        exact hrest b hb

/-- **When the entries are aligned with the associated UEs**: each of them has one layer in all, there are
at most `num_UEs` of them, and one that occurs again has an empty counter. -/
theorem aligned_iff (exchange : Feed → ℕ → ℚ) (numUes : ℕ) (gnbDCList : List GnbPhy)
    (bytes : ℕ × ℕ → ℚ) (reward : ℚ) :
    Aligned numUes gnbDCList bytes (handleSendReceive exchange gnbDCList bytes reward).1.entries ↔
      (∀ a ∈ associated gnbDCList, a.layers.length = 1) ∧ (associated gnbDCList).length ≤ numUes ∧
        (associated gnbDCList).Pairwise fun a b => a.ue = b.ue → bytes a.ue = 0 := by
  have hentries : (handleSendReceive exchange gnbDCList bytes reward).1.entries =
      feedEntries (associated gnbDCList) bytes :=
    (sendFeed_fed gnbDCList ⟨[], 0, reward, bytes⟩).entries.trans (List.nil_append _)
  have hindex : ∀ n, (∀ p < n, p < numUes) ↔ n ≤ numUes := by
    intro n
    constructor
    · intro h
      by_contra hlt
      exact absurd (h numUes (by omega)) (Nat.lt_irrefl _)
    · exact fun hle p hp => hp.trans_le hle
  unfold Aligned
  rw [hentries, hindex]
  constructor
  · rintro ⟨hle, hreports⟩
    have hlength := hreports.length_eq
    have hone : ∀ a ∈ associated gnbDCList, a.layers.length = 1 := by
      refine all_one_of_sum (fun a ha => ?_) ?_
      · obtain ⟨e, hreport⟩ := exists_entry hreports ha
        obtain ⟨layer, hlayer, -⟩ := List.mem_map.1 hreport.2
        exact List.length_pos_of_mem hlayer
      · rw [← feedEntries_length, hlength]
    exact ⟨hone, hlength ▸ hle, ((reportsWith_iff bytes hone bytes).1 hreports).2⟩
  · rintro ⟨hone, hle, hpairs⟩
    have hreports := (reportsWith_iff bytes hone bytes).2 ⟨fun _ _ => rfl, hpairs⟩
    exact ⟨hreports.length_eq ▸ hle, hreports⟩

theorem twoLayerGnb_frame : (0 : ℚ) < 10000 := by norm_num

/-- A gNB with one UE that has one carrier with two layers. -/
def twoLayerGnb : GnbPhy where
  caCount := 1
  frameDuration := 10000
  frameDuration_pos := twoLayerGnb_frame
  associatedUEPhyInfo := [⟨1, 1, true, [⟨40, [⟨12, -100⟩, ⟨9, -98⟩]⟩]⟩]

/-- The second layer is written behind the end of the arrays. -/
theorem second_layer_overflows : ¬ ∀ (exchange : Feed → ℕ → ℚ) (numUes : ℕ) (gnbDCList : List GnbPhy)
    (bytes : ℕ × ℕ → ℚ) (reward : ℚ),
      Aligned numUes gnbDCList bytes (handleSendReceive exchange gnbDCList bytes reward).1.entries := by
  intro hall
  have h := ((hall (fun _ _ => 0) 1 [twoLayerGnb] (fun _ => 0) 0).1 1 (by decide))
  exact absurd h (by decide)

end NetSim.SendReceive
