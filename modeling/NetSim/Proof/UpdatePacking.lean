import NetSim.Proof.Flooding
import NetSim.Spec.OspfUpdate
import Mathlib.Algebra.BigOperators.Group.List.Basic

/-!
# Packing link state updates

Both functions fill packets up to the payload limit, in order, and leave the list empty, as long as every LSA fits a
packet of its own (`updatesPacked_iff`). An LSA that does not is sent with a count that does not include it.
-/

namespace NetSim.Ospf

variable {ospf : Pds} {age atOnce : LsaHdr → LsaHdr} {rounds : ℕ} {lsa lsa' : LsaHdr}
  {done rest current list : List LsaHdr} {s s' : LsuScan} {thisInterface : OspfIf}

/-! ## What the packets are to be -/

/-- An LSA but for its age. -/
def LsaHdr.ageless (lsa : LsaHdr) : LsaHdr := { lsa with lsAge := 0 }

theorem length_of_ageless (h : lsa.ageless = lsa'.ageless) : lsa.length = lsa'.length := by
  have hlength : lsa.ageless.length = lsa'.ageless.length := by rw [h]
  exact hlength

/-- The sum of the lengths of some LSAs. -/
def lengths (lsas : List LsaHdr) : ℕ := (lsas.map fun lsa => lsa.length.toNat).sum

/-- A packet with the right count, which has as many octets as its LSAs. -/
def LsuPacket.Counts (p : LsuPacket) : Prop :=
  p.lsasCount = p.lsas.length ∧ ∃ lsas, p.lsas = lsas.map some ∧ p.payload = lengths lsas

/-- **What is left of the list, and the packets**: the list is empty, every LSA is in one packet, in order, and a packet
exceeds the limit only if it consists of one LSA. -/
structure WellPacked (list : List LsaHdr) (result : OspfIf × List LsuPacket) : Prop where
  emptied : result.1.updateLSAList = []
  counts : ∀ p ∈ result.2, p.Counts
  once : (result.2.flatMap LsuPacket.lsas).map (Option.map LsaHdr.ageless) =
    list.map fun lsa => some lsa.ageless
  fits : ∀ p ∈ result.2, p.payload ≤ getMaxPayloadSize ∨ p.lsas.length = 1

/-- A function ends and packs the list of the interface well. -/
def Packs (send : ℕ → OspfIf → Option (OspfIf × List LsuPacket)) (thisInterface : OspfIf) : Prop :=
  ∃ rounds result, send rounds thisInterface = some result ∧ WellPacked thisInterface.updateLSAList result

/-! ## Small LSAs -/

/-- The scan has packed `done` and is to pack `rest`; `current` is in the array. -/
structure Packing (done rest current : List LsaHdr) (s : LsuScan) : Prop where
  list : s.list = rest
  lsas : s.lsas = current.map some
  count : s.count = current.length
  payload : s.payloadSize.toNat = lengths current
  room : lengths current ≤ getMaxPayloadSize
  packets : ∀ p ∈ s.packets, p.Counts ∧ p.payload ≤ getMaxPayloadSize
  once : (s.packets.flatMap LsuPacket.lsas).map (Option.map LsaHdr.ageless) ++
    current.map (fun lsa => some lsa.ageless) = done.map fun lsa => some lsa.ageless

theorem mapM_some (lsas : List LsaHdr) : (lsas.map some).mapM id = some lsas := by
  induction lsas with
  | nil => rfl
  | cons lsa lsas ih =>
    rw [List.map_cons, List.mapM_cons, ih]
    rfl

/-- An array that is written up to its count is sent as it is. -/
theorem sendLSUPacket_full (lsas : List LsaHdr) :
    sendLSUPacket lsas.length (lsas.map some) = some ⟨lsas.length, lsas.map some, lengths lsas⟩ := by
  unfold sendLSUPacket
  rw [List.length_map, if_neg (Nat.lt_irrefl _), List.take_of_length_le (by rw [List.length_map]), mapM_some]
  rfl

theorem counts_full (lsas : List LsaHdr) :
    LsuPacket.Counts ⟨lsas.length, lsas.map some, lengths lsas⟩ :=
  ⟨(List.length_map _).symm, lsas, rfl, rfl⟩

/-- The array with one more entry. -/
theorem realloc_set (lsas : List LsaHdr) (lsa : LsaHdr) :
    (LsaArray.realloc (lsas.map some) (lsas.length + 1)).set lsas.length (some lsa) =
      (lsas ++ [lsa]).map some := by
  have hgrown : LsaArray.realloc (lsas.map some) (lsas.length + 1) = lsas.map some ++ [none] := by
    unfold LsaArray.realloc
    rw [List.length_map, Nat.add_sub_cancel_left, List.replicate_one, List.take_of_length_le]
    rw [List.length_append, List.length_map, List.length_singleton]
  rw [hgrown, List.set_append_right _ _ (by rw [List.length_map]), List.length_map, Nat.sub_self,
    List.map_append]
  rfl

theorem Packing.add (h : Packing done (lsa' :: rest) current s)
    (hroom : lengths current + lsa.length.toNat ≤ getMaxPayloadSize) (hage : lsa.ageless = lsa'.ageless) :
    Packing (done ++ [lsa']) rest (current ++ [lsa]) (s.add lsa) := by
  have hmax : getMaxPayloadSize = 1452 := rfl
  have hsum : lengths (current ++ [lsa]) = lengths current + lsa.length.toNat := by
    unfold lengths
    rw [List.map_append, List.sum_append, List.map_singleton, List.sum_singleton]
  constructor
  · unfold LsuScan.add
    dsimp only
    rw [h.list, List.tail_cons]
  · unfold LsuScan.add
    dsimp only
    rw [h.lsas, h.count]
    by_cases hnil : current = []
    · rw [hnil]
      rfl
    · rw [if_pos (fun hzero => hnil (List.eq_nil_of_length_eq_zero hzero)), realloc_set current lsa]
  · unfold LsuScan.add
    dsimp only
    rw [h.count, List.length_append, List.length_singleton]
  · have hpayload := h.payload
    unfold LsuScan.add
    dsimp only
    rw [UInt16.toNat_add, hsum]
    omega
  · omega
  · exact h.packets
  · have honce := h.once
    unfold LsuScan.add
    dsimp only
    rw [List.map_append, List.map_append, ← List.append_assoc, honce, List.map_singleton,
      List.map_singleton, hage]

theorem Packing.flush (h : Packing done rest current s) :
    ∃ s', s.flush = some s' ∧ Packing done rest [] s' ∧ s'.count = 0 := by
  have hsend : sendLSUPacket s.count s.lsas = some ⟨current.length, current.map some, lengths current⟩ := by
    rw [h.count, h.lsas]
    exact sendLSUPacket_full current
  unfold LsuScan.flush
  rw [hsend, Option.map_some]
  refine ⟨_, rfl, ⟨h.list, rfl, rfl, rfl, Nat.zero_le _, ?_, ?_⟩, rfl⟩
  · intro p hp
    rcases List.mem_append.1 hp with hp | hp
    · exact h.packets p hp
    · rw [List.mem_singleton.1 hp]
      exact ⟨counts_full current, h.room⟩
  · have honce := h.once
    dsimp only
    rw [List.flatMap_append, List.map_append, List.flatMap_singleton, List.map_map, List.map_nil,
      List.append_nil]
    exact honce

/-- One LSA that fits takes two rounds at most. -/
theorem Packing.place (h : Packing done (lsa' :: rest) current s) (hsmall : lsa.length.toNat ≤ getMaxPayloadSize)
    (hlsa : lsa.ageless = lsa'.ageless) (hage : ∀ lsa, (age lsa).ageless = lsa.ageless) :
    ∃ s' current', s.place age 2 lsa = some s' ∧ Packing (done ++ [lsa']) rest current' s' := by
  have hsingle : ∀ s : LsuScan, ¬(s.payloadSize = 0 ∧ lsa.length.toNat > getMaxPayloadSize) :=
    fun s hs => absurd hsmall (Nat.not_le.2 hs.2)
  have hlength : (age lsa).length = lsa.length := length_of_ageless (hage lsa)
  have haged : (age lsa).ageless = lsa'.ageless := (hage lsa).trans hlsa
  have hpayload := h.payload
  unfold LsuScan.place
  by_cases hroom : s.payloadSize.toNat + lsa.length.toNat > getMaxPayloadSize
  · -- The packet is sent first, and the LSA fits the empty one.
    obtain ⟨s₁, hflush, hpacking, -⟩ := h.flush
    have hfirst : LsuScan.round age lsa s = .inl s₁ := by
      unfold LsuScan.round
      rw [if_neg (hsingle s), if_pos hroom, hflush]
    have hempty : s₁.payloadSize.toNat = 0 := hpacking.payload
    have hsecond : LsuScan.round age lsa s₁ = .inr (some (s₁.add (age lsa))) := by
      unfold LsuScan.round
      rw [if_neg (hsingle s₁), if_neg]
      omega
    rw [Loop.run_inl hfirst, Loop.run_inr hsecond]
    refine ⟨_, [] ++ [age lsa], rfl, hpacking.add ?_ haged⟩
    rw [hlength]
    have hnil : lengths [] = 0 := rfl
    omega
  · have hfirst : LsuScan.round age lsa s = .inr (some (s.add (age lsa))) := by
      unfold LsuScan.round
      rw [if_neg (hsingle s), if_neg hroom]
    rw [Loop.run_inr hfirst]
    refine ⟨_, current ++ [age lsa], rfl, h.add ?_ haged⟩
    rw [hlength]
    omega

/-- The loop over the list. -/
theorem Packing.pack (hatOnce : ∀ lsa, (atOnce lsa).ageless = lsa.ageless)
    (hage : ∀ lsa, (age lsa).ageless = lsa.ageless) (h : Packing done rest current s)
    (hsmall : ∀ lsa ∈ rest, lsa.length.toNat ≤ getMaxPayloadSize) :
    ∃ s' current', rest.foldlM (fun (s : LsuScan) lsa => s.place age 2 (atOnce lsa)) s = some s' ∧
      Packing (done ++ rest) [] current' s' := by
  induction rest generalizing done current s with
  | nil =>
    refine ⟨s, current, rfl, ?_⟩
    rw [List.append_nil]
    exact h
  | cons lsa rest ih =>
    have hfirst : (atOnce lsa).length.toNat ≤ getMaxPayloadSize := by
      rw [length_of_ageless (hatOnce lsa)]
      exact hsmall lsa List.mem_cons_self
    obtain ⟨s₁, current₁, hplace, h₁⟩ := h.place hfirst (hatOnce lsa) hage
    obtain ⟨s₂, current₂, hrest, h₂⟩ := ih h₁ fun lsa' hlsa' => hsmall lsa' (List.mem_cons_of_mem lsa hlsa')
    refine ⟨s₂, current₂, ?_, ?_⟩
    · rw [List.foldlM_cons, hplace]
      exact hrest
    · rw [List.append_assoc] at h₂
      exact h₂

theorem Packing.finish (h : Packing done [] current s) : ∃ s', s.finish = some s' ∧ s'.list = [] ∧
    (∀ p ∈ s'.packets, p.Counts ∧ p.payload ≤ getMaxPayloadSize) ∧
    (s'.packets.flatMap LsuPacket.lsas).map (Option.map LsaHdr.ageless) =
      done.map fun lsa => some lsa.ageless := by
  have honce := h.once
  unfold LsuScan.finish
  by_cases hcount : s.count = 0
  · have hnil : current = [] := by
      have hcurrent := h.count
      exact List.eq_nil_of_length_eq_zero (by omega)
    rw [if_neg (not_not_intro hcount)]
    rw [hnil, List.map_nil, List.append_nil] at honce
    exact ⟨s, rfl, h.list, h.packets, honce⟩
  · obtain ⟨s', hflush, hpacking, -⟩ := h.flush
    unfold LsuScan.flush at hflush
    rw [if_pos hcount]
    obtain ⟨packet, hsend, hs'⟩ := Option.map_eq_some_iff.1 hflush
    have hpackets : s'.packets = s.packets ++ [packet] := by rw [← hs']
    have honce' := hpacking.once
    rw [List.map_nil, List.append_nil, hpackets] at honce'
    rw [hsend, Option.map_some]
    refine ⟨_, rfl, h.list, ?_, honce'⟩
    rw [← hpackets]
    exact hpacking.packets

theorem packs_of_small (hatOnce : ∀ lsa, (atOnce lsa).ageless = lsa.ageless)
    (hage : ∀ lsa, (age lsa).ageless = lsa.ageless)
    (hsmall : ∀ lsa ∈ thisInterface.updateLSAList, lsa.length.toNat ≤ getMaxPayloadSize) :
    Packs (packUpdates atOnce age) thisInterface := by
  by_cases hempty : thisInterface.updateLSAList.isEmpty
  · refine ⟨0, (thisInterface, []), ?_, ?_⟩
    · unfold packUpdates
      rw [if_pos hempty]
    · have hnil := List.isEmpty_iff.1 hempty
      refine ⟨hnil, fun p hp => absurd hp List.not_mem_nil, ?_, fun p hp => absurd hp List.not_mem_nil⟩
      rw [hnil]
      rfl
  · have hstart : Packing [] thisInterface.updateLSAList [] ⟨thisInterface.updateLSAList, [], 0, 0, []⟩ :=
      ⟨rfl, rfl, rfl, rfl, Nat.zero_le _, fun p hp => absurd hp List.not_mem_nil, rfl⟩
    obtain ⟨s, current, hpack, hpacking⟩ := hstart.pack hatOnce hage hsmall
    obtain ⟨s', hfinish, hlist, hpackets, honce⟩ := hpacking.finish
    refine ⟨2, ({ thisInterface with updateLSAList := s'.list }, s'.packets), ?_, hlist,
      fun p hp => (hpackets p hp).1, honce, fun p hp => .inl (hpackets p hp).2⟩
    unfold packUpdates
    rw [if_neg hempty]
    dsimp only
    rw [hpack, Option.bind_some, hfinish, Option.map_some]

/-! ## A large LSA -/

/-- A packet with a wrong count has been sent, or the array will be read where nothing has been written. -/
def Doomed (s : LsuScan) : Prop :=
  (∃ p ∈ s.packets, p.lsasCount ≠ p.lsas.length) ∨ (s.count ≠ 0 ∧ s.lsas.headD none = none)

/-- An array whose first entry has not been written is not sent. -/
theorem sendLSUPacket_unwritten {count : ℕ} {lsas : LsaArray} (hcount : count ≠ 0)
    (hhead : lsas.headD none = none) : sendLSUPacket count lsas = none := by
  unfold sendLSUPacket
  cases lsas with
  | nil => rw [if_pos (by rw [List.length_nil]; omega)]
  | cons entry lsas =>
    have hentry : entry = none := hhead
    obtain ⟨n, rfl⟩ : ∃ n, count = n + 1 := ⟨count - 1, by omega⟩
    rw [hentry, List.take_succ_cons, List.mapM_cons]
    exact ite_self none

theorem Doomed.send (h : Doomed s) {packet : LsuPacket} (hsend : sendLSUPacket s.count s.lsas = some packet) :
    ∃ p ∈ s.packets, p.lsasCount ≠ p.lsas.length := by
  rcases h with hbad | ⟨hcount, hhead⟩
  · exact hbad
  · rw [sendLSUPacket_unwritten hcount hhead] at hsend
    cases hsend

theorem Doomed.flush (h : Doomed s) (hflush : s.flush = some s') : Doomed s' := by
  obtain ⟨packet, hsend, rfl⟩ := Option.map_eq_some_iff.1 hflush
  obtain ⟨p, hp, hbad⟩ := h.send hsend
  exact .inl ⟨p, List.mem_append_left _ hp, hbad⟩

theorem Doomed.add (h : Doomed s) (lsa : LsaHdr) : Doomed (s.add lsa) := by
  rcases h with hbad | ⟨hcount, hhead⟩
  · exact .inl hbad
  · refine .inr ⟨Nat.succ_ne_zero _, ?_⟩
    obtain ⟨n, hn⟩ : ∃ n, s.count = n + 1 := ⟨s.count - 1, by omega⟩
    unfold LsuScan.add LsaArray.realloc
    dsimp only
    rw [if_pos hcount, hn]
    cases hlsas : s.lsas with
    | nil => rfl
    | cons entry lsas =>
      rw [hlsas] at hhead
      exact hhead

theorem doomed_single (h : s.sendSingle lsa = some s') : Doomed s' := by
  obtain ⟨packet, hsend, rfl⟩ := Option.map_eq_some_iff.1 h
  by_cases hcount : s.count = 0
  · rw [hcount] at hsend
    have hpacket : packet = ⟨0, [some lsa], 0⟩ := (Option.some.inj hsend).symm
    refine .inl ⟨packet, List.mem_append_right _ List.mem_cons_self, ?_⟩
    rw [hpacket]
    exact Nat.zero_ne_one
  · exact .inr ⟨hcount, rfl⟩

/-- The three ways out of a round. -/
theorem round_cases {result : LsuScan ⊕ Option LsuScan} (h : LsuScan.round age lsa s = result) :
    result = .inr (s.sendSingle lsa) ∨ (∃ s', s.flush = some s' ∧ result = .inl s') ∨ result = .inr none ∨
      (s.payloadSize.toNat + lsa.length.toNat ≤ getMaxPayloadSize ∧ result = .inr (some (s.add (age lsa)))) := by
  unfold LsuScan.round at h
  split_ifs at h with hsingle hroom
  · exact .inl h.symm
  · cases hflush : s.flush with
    | some s' =>
      rw [hflush] at h
      exact .inr (.inl ⟨s', rfl, h.symm⟩)
    | none =>
      rw [hflush] at h
      exact .inr (.inr (.inl h.symm))
  · exact .inr (.inr (.inr ⟨Nat.not_lt.1 hroom, h.symm⟩))

/-- Behind an LSA that does not fit, and behind every LSA from then on, the scan is doomed. -/
theorem place_doomed (h : Doomed s ∨ getMaxPayloadSize < lsa.length.toNat)
    (hplace : s.place age rounds lsa = some s') : Doomed s' := by
  have hrun : Loop.run (LsuScan.round age lsa) rounds s = some (some s') := Option.join_eq_some_iff.1 hplace
  have hstep : ∀ s₁ s₂, Doomed s₁ ∨ getMaxPayloadSize < lsa.length.toNat → LsuScan.round age lsa s₁ = .inl s₂ →
      Doomed s₂ ∨ getMaxPayloadSize < lsa.length.toNat := by
    intro s₁ s₂ h₁ hround
    rcases round_cases hround with hc | ⟨s₃, hflush, hc⟩ | hc | ⟨-, hc⟩
    · cases hc
    · cases hc
      exact h₁.imp (fun h => h.flush hflush) id
    · cases hc
    · cases hc
  have hend : ∀ s₁ b, Doomed s₁ ∨ getMaxPayloadSize < lsa.length.toNat → LsuScan.round age lsa s₁ = .inr b →
      ∀ s₂, b = some s₂ → Doomed s₂ := by
    intro s₁ b h₁ hround s₂ hb
    rcases round_cases hround with hc | ⟨s₃, hflush, hc⟩ | hc | ⟨hroom, hc⟩
    · exact doomed_single ((Sum.inr.inj hc).symm.trans hb)
    · cases hc
    · rw [hb] at hc
      cases hc
    · have hs₂ : s₁.add (age lsa) = s₂ := Option.some.inj ((Sum.inr.inj hc).symm.trans hb)
      rw [← hs₂]
      rcases h₁ with h₁ | hlarge
      · exact h₁.add (age lsa)
      · omega
  exact Loop.run_inv hstep hend h hrun s' rfl

theorem pack_doomed (hatOnce : ∀ lsa, (atOnce lsa).ageless = lsa.ageless)
    (h : Doomed s ∨ ∃ lsa ∈ list, getMaxPayloadSize < lsa.length.toNat)
    (hpack : list.foldlM (fun (s : LsuScan) lsa => s.place age rounds (atOnce lsa)) s = some s') : Doomed s' := by
  induction list generalizing s with
  | nil =>
    have hs' : s = s' := Option.some.inj hpack
    rw [← hs']
    rcases h with h | ⟨lsa, hlsa, -⟩
    · exact h
    · cases hlsa
  | cons lsa list ih =>
    rw [List.foldlM_cons] at hpack
    obtain ⟨s₁, hplace, hrest⟩ := Option.bind_eq_some_iff.1 hpack
    refine ih ?_ hrest
    have hlength : (atOnce lsa).length = lsa.length := length_of_ageless (hatOnce lsa)
    rcases h with h | ⟨lsa', hlsa', hlarge⟩
    · exact .inl (place_doomed (.inl h) hplace)
    · rcases List.mem_cons.1 hlsa' with rfl | hmem
      · rw [← hlength] at hlarge
        exact .inl (place_doomed (.inr hlarge) hplace)
      · exact .inr ⟨lsa', hmem, hlarge⟩

theorem Doomed.finish (h : Doomed s) (hfinish : s.finish = some s') :
    ∃ p ∈ s'.packets, p.lsasCount ≠ p.lsas.length := by
  unfold LsuScan.finish at hfinish
  split_ifs at hfinish with hcount
  · obtain ⟨packet, hsend, rfl⟩ := Option.map_eq_some_iff.1 hfinish
    obtain ⟨p, hp, hbad⟩ := h.send hsend
    exact ⟨p, List.mem_append_left _ hp, hbad⟩
  · have hs' : s = s' := Option.some.inj hfinish
    rw [← hs']
    rcases h with hbad | ⟨hcount', -⟩
    · exact hbad
    · exact absurd hcount' hcount

theorem small_of_packs (hatOnce : ∀ lsa, (atOnce lsa).ageless = lsa.ageless)
    (h : Packs (packUpdates atOnce age) thisInterface) :
    ∀ lsa ∈ thisInterface.updateLSAList, lsa.length.toNat ≤ getMaxPayloadSize := by
  intro lsa hlsa
  by_contra hlarge
  obtain ⟨rounds, result, hsend, hpacked⟩ := h
  have hempty : ¬ thisInterface.updateLSAList.isEmpty := by
    intro hempty
    rw [List.isEmpty_iff.1 hempty] at hlsa
    cases hlsa
  unfold packUpdates at hsend
  rw [if_neg hempty] at hsend
  obtain ⟨s', hs', rfl⟩ := Option.map_eq_some_iff.1 hsend
  obtain ⟨s, hpack, hfinish⟩ := Option.bind_eq_some_iff.1 hs'
  have hdoomed : Doomed s := pack_doomed hatOnce (.inr ⟨lsa, hlsa, Nat.not_le.1 hlarge⟩) hpack
  obtain ⟨p, hp, hbad⟩ := hdoomed.finish hfinish
  exact hbad (hpacked.counts p hp).1

/-! ## What is left of the list -/

theorem flush_list (h : s.flush = some s') : s'.list = s.list := by
  obtain ⟨packet, -, rfl⟩ := Option.map_eq_some_iff.1 h
  rfl

theorem sendSingle_list (h : s.sendSingle lsa = some s') : s'.list = s.list.tail := by
  obtain ⟨packet, -, rfl⟩ := Option.map_eq_some_iff.1 h
  rfl

/-- An LSA is taken off the list once. -/
theorem place_list (h : s.place age rounds lsa = some s') : s'.list = s.list.tail := by
  have hrun : Loop.run (LsuScan.round age lsa) rounds s = some (some s') := Option.join_eq_some_iff.1 h
  have hstep : ∀ s₁ s₂ : LsuScan, s₁.list = s.list → LsuScan.round age lsa s₁ = .inl s₂ → s₂.list = s.list := by
    intro s₁ s₂ h₁ hround
    rcases round_cases hround with hc | ⟨s₃, hflush, hc⟩ | hc | ⟨-, hc⟩
    · cases hc
    · cases hc
      rw [flush_list hflush, h₁]
    · cases hc
    · cases hc
  have hend : ∀ (s₁ : LsuScan) b, s₁.list = s.list → LsuScan.round age lsa s₁ = .inr b →
      ∀ s₂ : LsuScan, b = some s₂ → s₂.list = s.list.tail := by
    intro s₁ b h₁ hround s₂ hb
    rcases round_cases hround with hc | ⟨s₃, hflush, hc⟩ | hc | ⟨-, hc⟩
    · rw [sendSingle_list ((Sum.inr.inj hc).symm.trans hb), h₁]
    · cases hc
    · rw [hb] at hc
      cases hc
    · have hs₂ : s₁.add (age lsa) = s₂ := Option.some.inj ((Sum.inr.inj hc).symm.trans hb)
      rw [← hs₂, ← h₁]
      rfl
  exact Loop.run_inv hstep hend rfl hrun s' rfl

theorem pack_list (h : list.foldlM (fun (s : LsuScan) lsa => s.place age rounds (atOnce lsa)) s = some s') :
    s'.list = s.list.drop list.length := by
  induction list generalizing s with
  | nil =>
    have hs' : s = s' := Option.some.inj h
    rw [← hs']
    rfl
  | cons lsa list ih =>
    rw [List.foldlM_cons] at h
    obtain ⟨s₁, hplace, hrest⟩ := Option.bind_eq_some_iff.1 h
    rw [ih hrest, place_list hplace, List.drop_tail, List.length_cons]

/-- A function that ends leaves the list empty. -/
theorem packUpdates_emptied {result : OspfIf × List LsuPacket}
    (h : packUpdates atOnce age rounds thisInterface = some result) : result.1.updateLSAList = [] := by
  unfold packUpdates at h
  split_ifs at h with hempty
  · rw [← Option.some.inj h]
    exact List.isEmpty_iff.1 hempty
  · obtain ⟨s', hs', rfl⟩ := Option.map_eq_some_iff.1 h
    obtain ⟨s, hpack, hfinish⟩ := Option.bind_eq_some_iff.1 hs'
    have hlist : s.list = [] := (pack_list hpack).trans (List.drop_length)
    unfold LsuScan.finish at hfinish
    dsimp only
    split_ifs at hfinish
    · obtain ⟨packet, -, rfl⟩ := Option.map_eq_some_iff.1 hfinish
      exact hlist
    · rw [← Option.some.inj hfinish]
      exact hlist

/-! ## The two functions -/

theorem packUpdates_iff (hatOnce : ∀ lsa, (atOnce lsa).ageless = lsa.ageless)
    (hage : ∀ lsa, (age lsa).ageless = lsa.ageless) : Packs (packUpdates atOnce age) thisInterface ↔
      ∀ lsa ∈ thisInterface.updateLSAList, lsa.length.toNat ≤ getMaxPayloadSize :=
  ⟨small_of_packs hatOnce, packs_of_small hatOnce hage⟩

/-- Only what a function does for the interface matters. -/
theorem packs_congr {send send' : ℕ → OspfIf → Option (OspfIf × List LsuPacket)}
    (h : ∀ rounds, send rounds thisInterface = send' rounds thisInterface) :
    Packs send thisInterface ↔ Packs send' thisInterface := by
  unfold Packs
  simp only [h]

theorem packs_lsupdateSend_iff : Packs (lsupdateSend ospf) thisInterface ↔
    ∀ lsa ∈ thisInterface.updateLSAList, lsa.length.toNat ≤ getMaxPayloadSize := by
  have hsend : ∀ rounds, lsupdateSend ospf rounds thisInterface = packUpdates (fun lsa => { lsa with
      lsAge := limitAge ospf (lsa.lsAge + UInt16.ofNat (thisInterface.infTransDelay / second).floor.toNat) })
      id rounds thisInterface := fun _ => rfl
  rw [packs_congr hsend]
  exact packUpdates_iff (fun _ => rfl) fun _ => rfl

theorem packs_sendLSUpdateToNeighbor_iff : Packs (sendLSUpdateToNeighbor ospf) thisInterface ↔
    ∀ lsa ∈ thisInterface.updateLSAList, lsa.length.toNat ≤ getMaxPayloadSize := by
  have hsend : ∀ rounds, sendLSUpdateToNeighbor ospf rounds thisInterface = packUpdates id (fun lsa => { lsa with
      lsAge := limitAge ospf
        (UInt16.ofNat (lsa.lsAge.toNat + thisInterface.infTransDelay / second).floor.toNat) }) rounds thisInterface :=
    fun _ => rfl
  rw [packs_congr hsend]
  exact packUpdates_iff (fun _ => rfl) fun _ => rfl

/-- **Update packing**: both functions pack the list of an interface well exactly if no LSA exceeds the limit on its
own. -/
theorem updatesPacked_iff (ospf : Pds) (thisInterface : OspfIf) :
    (Packs (lsupdateSend ospf) thisInterface ∧ Packs (sendLSUpdateToNeighbor ospf) thisInterface) ↔
      ∀ lsa ∈ thisInterface.updateLSAList, lsa.length.toNat ≤ getMaxPayloadSize := by
  rw [packs_lsupdateSend_iff, packs_sendLSUpdateToNeighbor_iff]
  exact and_self_iff

/-- The LSA of a router with 150 links. -/
def largeLsa : LsaHdr :=
  { routerLsaOf 7 5 with length := 1824, lsaInfo := ⟨0, List.replicate 150 ⟨⟨0, 2⟩, ⟨0, 7⟩, .pointToPoint, 1⟩⟩ }

/-- An interface on which it waits. -/
def largeLsaIf : OspfIf := { twoNeighborIf .p2p .p2p with updateLSAList := [largeLsa] }

/-- It is sent with a count of 0. -/
theorem large_lsa_uncounted :
    ¬ Packs (lsupdateSend (twoNeighborRouter .p2p .p2p)) largeLsaIf ∧
      (lsupdateSend (twoNeighborRouter .p2p .p2p) 2 largeLsaIf).map (fun result => result.2.map LsuPacket.lsasCount) =
        some [0] := by
  refine ⟨fun h => ?_, by decide⟩
  have hsmall : largeLsa.length.toNat ≤ getMaxPayloadSize :=
    packs_lsupdateSend_iff.1 h largeLsa List.mem_cons_self
  exact absurd hsmall (by decide)

end NetSim.Ospf
