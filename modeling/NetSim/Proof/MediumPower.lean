import NetSim.Spec.Medium

/-!
# The power that a device of the medium receives

Power is added when a transmitter gets its first packet in flight and taken back when its last one ends.

* `total_append`, `total_filter`: what a packet that starts, and one that ends, changes of the total.
* `Accounted`: the infos are those of the packets in flight, and every device has the total of what it hears.
* `accounted`: every reachable state is accounted.
* `cumulativePower_total`: so the cumulative power is that total, and nothing when nothing is in flight.
-/

namespace NetSim.Medium

variable {δ β : Type*} [DecidableEq δ] [LinearOrder β] {c : Config δ β}

/-! ### Bands -/

/-- Two states of the devices with the same frequencies and bandwidths. -/
def SameBands (D D' : δ → Device β) : Prop :=
  ∀ d, (D d).frequency = (D' d).frequency ∧ (D d).bandwidth = (D' d).bandwidth

omit [DecidableEq δ] [LinearOrder β] in
theorem SameBands.inBand {D D' : δ → Device β} (h : SameBands D D') (t d : δ) :
    inBand D t d = inBand D' t d := by
  simp only [Medium.inBand, (h t).1, (h t).2, (h d).1]

theorem SameBands.heard {D D' : δ → Device β} (h : SameBands D D') (fl : List (Flight δ β)) (t d : δ) :
    heard c D fl t d = heard c D' fl t d := by
  simp only [Medium.heard, h.inBand]

theorem SameBands.total {D D' : δ → Device β} (h : SameBands D D') (fl : List (Flight δ β)) (d : δ) :
    total c D fl d = total c D' fl d := by
  simp only [Medium.total, h.heard]

theorem SameBands.others {D D' : δ → Device β} (h : SameBands D D') (fl : List (Flight δ β)) (t d : δ) :
    others c D fl t d = others c D' fl t d := by
  simp only [Medium.others, h.heard]

omit [DecidableEq δ] in
theorem sameBands_start (info : PacketInfo δ β) (D : δ → Device β) :
    SameBands (updatePowerDueToTransmission c info D) D := by
  intro d
  unfold updatePowerDueToTransmission
  split <;> exact ⟨rfl, rfl⟩

omit [DecidableEq δ] in
theorem sameBands_stop (info : PacketInfo δ β) (D : δ → Device β) :
    SameBands (updatePowerDueToTransmissionStop c info D) D := by
  intro d
  unfold updatePowerDueToTransmissionStop
  split <;> exact ⟨rfl, rfl⟩

omit [DecidableEq δ] in
/-- What a device hears more when a transmission starts. -/
theorem start_power (info : PacketInfo δ β) (D : δ → Device β) (d : δ) :
    (updatePowerDueToTransmission c info D d).dCummulativeReceivedPowerMw =
      (D d).dCummulativeReceivedPowerMw +
        if inBand D info.txId d then c.getRXPowerMW info.txId d info.startTime else 0 := by
  unfold updatePowerDueToTransmission
  split
  · rfl
  · rw [add_zero]

omit [DecidableEq δ] in
/-- What it hears less when the transmission stops. -/
theorem stop_power (info : PacketInfo δ β) (D : δ → Device β) (d : δ) :
    (updatePowerDueToTransmissionStop c info D d).dCummulativeReceivedPowerMw =
      (D d).dCummulativeReceivedPowerMw -
        if inBand D info.txId d then c.getRXPowerMW info.txId d info.startTime else 0 := by
  unfold updatePowerDueToTransmissionStop
  split
  · exact (sub_eq_add_neg _ _).symm
  · rw [sub_zero]

/-! ### The packets in flight -/

/-- What the code and the events say of a packet alike: its address, its ends and its start. -/
def PacketInfo.key (i : PacketInfo δ β) : ℕ × δ × δ × ℚ := (i.packet, i.txId, i.rxId, i.startTime)

def Flight.key (f : Flight δ β) : ℕ × δ × δ × ℚ := (f.packet, f.txId, f.rxId, f.startTime)

/-- Packets of one transmitter share their start time. -/
def OneBurst (fl : List (Flight δ β)) : Prop :=
  ∀ f ∈ fl, ∀ g ∈ fl, f.txId = g.txId → f.startTime = g.startTime

omit [LinearOrder β] in
theorem mem_transmitters {fl : List (Flight δ β)} {t : δ} : t ∈ transmitters fl ↔ ∃ f ∈ fl, f.txId = t := by
  simp [transmitters]

omit [LinearOrder β] in
@[simp]
theorem transmitters_nil : transmitters ([] : List (Flight δ β)) = ∅ := rfl

omit [LinearOrder β] in
theorem transmitters_append (fl : List (Flight δ β)) (f : Flight δ β) :
    transmitters (fl ++ [f]) = insert f.txId (transmitters fl) := by
  ext t
  simp only [mem_transmitters, List.mem_append, List.mem_singleton, Finset.mem_insert]
  constructor
  · rintro ⟨g, hg | rfl, rfl⟩
    · exact .inr ⟨g, hg, rfl⟩
    · exact .inl rfl
  · rintro (rfl | ⟨g, hg, rfl⟩)
    · exact ⟨f, .inr rfl, rfl⟩
    · exact ⟨g, .inl hg, rfl⟩

@[simp]
theorem transmitters_observe (D : δ → Device β) (fl : List (Flight δ β)) :
    transmitters (observe c D fl) = transmitters fl := by
  simp [transmitters, observe, Function.comp_def]

@[simp]
theorem map_key_observe (D : δ → Device β) (fl : List (Flight δ β)) :
    (observe c D fl).map Flight.key = fl.map Flight.key := by
  simp [observe, Flight.key, Function.comp_def]

theorem heard_observe (D D' : δ → Device β) (fl : List (Flight δ β)) (t d : δ) :
    heard c D (observe c D' fl) t d = heard c D fl t d := by
  have h : (observe c D' fl).find? (fun f => f.txId = t) =
      (fl.find? fun f => f.txId = t).map fun f =>
        { f with worst := max f.worst (c.scale.mwToDbm (others c D' fl f.txId f.rxId)) } := by
    simp [observe, List.find?_map]
  unfold heard
  rw [h]
  cases fl.find? (fun f => f.txId = t) <;> rfl

theorem total_observe (D D' : δ → Device β) (fl : List (Flight δ β)) (d : δ) :
    total c D (observe c D' fl) d = total c D fl d := by
  simp only [total, transmitters_observe, heard_observe]

theorem others_observe (D D' : δ → Device β) (fl : List (Flight δ β)) (t d : δ) :
    others c D (observe c D' fl) t d = others c D fl t d := by
  simp only [others, transmitters_observe, heard_observe]

/-! ### What is heard -/

/-- Every packet of a transmitter says what is heard of it. -/
theorem heard_of_mem {D : δ → Device β} {fl : List (Flight δ β)} (hb : OneBurst fl) {f : Flight δ β}
    (hf : f ∈ fl) (d : δ) :
    heard c D fl f.txId d = if inBand D f.txId d then c.getRXPowerMW f.txId d f.startTime else 0 := by
  unfold heard
  cases h : fl.find? (fun g => g.txId = f.txId) with
  | none =>
    have h0 := List.find?_eq_none.1 h f hf
    simp at h0
  | some g =>
    have hg := List.mem_of_find?_eq_some h
    have ht : g.txId = f.txId := by simpa using List.find?_some h
    have hs : g.startTime = f.startTime := hb g hg f hf ht
    simp only [hs]

theorem heard_nonneg (D : δ → Device β) (fl : List (Flight δ β)) (t d : δ) : 0 ≤ heard c D fl t d := by
  unfold heard
  split
  · split
    · exact c.nonneg _ _ _
    · exact le_refl _
  · exact le_refl _

omit [LinearOrder β] [DecidableEq δ] in
theorem OneBurst.append {fl : List (Flight δ β)} {f : Flight δ β} (hb : OneBurst fl)
    (hf : ∀ g ∈ fl, g.txId = f.txId → g.startTime = f.startTime) : OneBurst (fl ++ [f]) := by
  intro g hg k hk ht
  rcases List.mem_append.1 hg with hg' | hg' <;> rcases List.mem_append.1 hk with hk' | hk'
  · exact hb g hg' k hk' ht
  · obtain rfl := List.mem_singleton.1 hk'
    exact hf g hg' ht
  · obtain rfl := List.mem_singleton.1 hg'
    exact (hf k hk' ht.symm).symm
  · rw [List.mem_singleton.1 hg', List.mem_singleton.1 hk']

omit [LinearOrder β] [DecidableEq δ] in
theorem OneBurst.subset {fl fl' : List (Flight δ β)} (hb : OneBurst fl) (h : fl' ⊆ fl) : OneBurst fl' :=
  fun f hf g hg ht => hb f (h hf) g (h hg) ht

/-- A transmitter with a packet in both lists is heard alike. -/
theorem heard_subset {D : δ → Device β} {fl fl' : List (Flight δ β)} (hb : OneBurst fl) (h : fl' ⊆ fl) {t : δ}
    (ht : t ∈ transmitters fl') (d : δ) : heard c D fl' t d = heard c D fl t d := by
  obtain ⟨f, hf, rfl⟩ := mem_transmitters.1 ht
  rw [heard_of_mem hb (h hf), heard_of_mem (hb.subset h) hf]

/-- What a device hears of all transmitters when a packet starts. -/
theorem total_append {D : δ → Device β} {fl : List (Flight δ β)} {f : Flight δ β} (hb : OneBurst (fl ++ [f]))
    (d : δ) :
    total c D (fl ++ [f]) d = total c D fl d +
      if f.txId ∈ transmitters fl then 0
      else if inBand D f.txId d then c.getRXPowerMW f.txId d f.startTime else 0 := by
  have hsub : fl ⊆ fl ++ [f] := List.subset_append_left _ _
  have hsum : ∑ t ∈ transmitters fl, heard c D (fl ++ [f]) t d = total c D fl d :=
    Finset.sum_congr rfl fun t ht => (heard_subset hb hsub ht d).symm
  unfold total at hsum ⊢
  rw [transmitters_append]
  by_cases ht : f.txId ∈ transmitters fl
  · rw [Finset.insert_eq_self.2 ht, if_pos ht, hsum, add_zero]
  · rw [Finset.sum_insert ht, if_neg ht, hsum, heard_of_mem hb (by simp) d, add_comm]

/-- What a device hears of all transmitters when a packet ends. -/
theorem total_filter {D : δ → Device β} {fl : List (Flight δ β)} {f : Flight δ β} (hb : OneBurst fl)
    (hf : f ∈ fl) (hu : ∀ g ∈ fl, g.packet = f.packet → g.txId = f.txId) (d : δ) :
    total c D fl d = total c D (fl.filter fun g => g.packet ≠ f.packet) d +
      if f.txId ∈ transmitters (fl.filter fun g => g.packet ≠ f.packet) then 0
      else if inBand D f.txId d then c.getRXPowerMW f.txId d f.startTime else 0 := by
  set fl' := fl.filter fun g => g.packet ≠ f.packet with hfl
  have hsub : fl' ⊆ fl := List.filter_subset_self _
  have hsum : ∑ t ∈ transmitters fl', heard c D fl t d = total c D fl' d :=
    Finset.sum_congr rfl fun t ht => (heard_subset hb hsub ht d).symm
  have hins : transmitters fl = insert f.txId (transmitters fl') := by
    ext t
    simp only [Finset.mem_insert, mem_transmitters]
    constructor
    · rintro ⟨g, hg, rfl⟩
      by_cases hp : g.packet = f.packet
      · exact .inl (hu g hg hp)
      · exact .inr ⟨g, by simp [hfl, hg, hp], rfl⟩
    · rintro (rfl | ⟨g, hg, rfl⟩)
      · exact ⟨f, hf, rfl⟩
      · exact ⟨g, hsub hg, rfl⟩
  unfold total at hsum ⊢
  rw [hins]
  by_cases ht : f.txId ∈ transmitters fl'
  · rw [Finset.insert_eq_self.2 ht, if_pos ht, hsum, add_zero]
  · rw [Finset.sum_insert ht, if_neg ht, hsum, heard_of_mem hb hf d, add_comm]

/-! ### Accounted states -/

/-- The infos are those of the packets in flight, each once, and every device has the power of what it hears. -/
structure Accounted (c : Config δ β) (s : State δ β) : Prop where
  infos : s.transmissionPacket.map PacketInfo.key = s.flights.map Flight.key
  nodup : (s.flights.map (·.packet)).Nodup
  burst : OneBurst s.flights
  power : ∀ d, (s.devices d).dCummulativeReceivedPowerMw = total c s.devices s.flights d
  dbm : ∀ d, (s.devices d).dCummulativeReceivedPowerDbm = ⊥ ∧ (s.devices d).dCummulativeReceivedPowerMw = 0 ∨
    (s.devices d).dCummulativeReceivedPowerDbm = c.scale.mwToDbm (s.devices d).dCummulativeReceivedPowerMw

theorem accounted_init {s : State δ β} (h : Init s) : Accounted c s := by
  obtain ⟨hd, hl, hf⟩ := h
  refine ⟨by rw [hl, hf]; rfl, by rw [hf]; exact List.nodup_nil, ?_, ?_, ?_⟩
  · rw [hf]
    intro f h0
    exact absurd h0 List.not_mem_nil
  · intro d
    obtain ⟨f, bw, ed, he⟩ := hd d
    rw [he, hf]
    rfl
  · intro d
    obtain ⟨f, bw, ed, he⟩ := hd d
    rw [he]
    exact .inl ⟨rfl, rfl⟩

omit [DecidableEq δ] [LinearOrder β] in
theorem exists_flight {l : List (PacketInfo δ β)} {fl : List (Flight δ β)}
    (h : l.map PacketInfo.key = fl.map Flight.key) {i : PacketInfo δ β} (hi : i ∈ l) : ∃ f ∈ fl, f.key = i.key := by
  have hm : i.key ∈ fl.map Flight.key := h ▸ List.mem_map_of_mem hi
  exact List.mem_map.1 hm

omit [DecidableEq δ] [LinearOrder β] in
theorem exists_info {l : List (PacketInfo δ β)} {fl : List (Flight δ β)}
    (h : l.map PacketInfo.key = fl.map Flight.key) {f : Flight δ β} (hf : f ∈ fl) : ∃ i ∈ l, i.key = f.key := by
  have hm : f.key ∈ l.map PacketInfo.key := h ▸ List.mem_map_of_mem hf
  exact List.mem_map.1 hm

omit [LinearOrder β] in
/-- The search of the code, in terms of the packets in flight. -/
theorem isAnypacket_iff {l : List (PacketInfo δ β)} {fl : List (Flight δ β)}
    (h : l.map PacketInfo.key = fl.map Flight.key) (info : PacketInfo δ β) :
    isAnypacketIsThereForThisTransmitter info l = true ↔
      ∃ f ∈ fl, f.packet ≠ info.packet ∧ f.txId = info.txId := by
  unfold isAnypacketIsThereForThisTransmitter
  rw [List.any_eq_true]
  constructor
  · rintro ⟨i, hi, hc⟩
    obtain ⟨f, hf, hk⟩ := exists_flight h hi
    simp only [Flight.key, PacketInfo.key, Prod.mk.injEq] at hk
    simp only [ne_eq, Bool.and_eq_true, decide_eq_true_eq] at hc
    exact ⟨f, hf, by rw [hk.1]; exact hc.1, by rw [hk.2.1]; exact hc.2⟩
  · rintro ⟨f, hf, hp, ht⟩
    obtain ⟨i, hi, hk⟩ := exists_info h hf
    simp only [Flight.key, PacketInfo.key, Prod.mk.injEq] at hk
    exact ⟨i, hi, by simp [hk.1, hk.2.1, hp, ht]⟩

omit [LinearOrder β] in
/-- A packet that starts finds another of its transmitter when one is in flight. -/
theorem isAnypacket_append_iff {l : List (PacketInfo δ β)} {fl : List (Flight δ β)}
    (h : l.map PacketInfo.key = fl.map Flight.key) {info : PacketInfo δ β}
    (hnew : ∀ f ∈ fl, f.packet ≠ info.packet) :
    isAnypacketIsThereForThisTransmitter info (l ++ [info]) = true ↔ info.txId ∈ transmitters fl := by
  have happ : isAnypacketIsThereForThisTransmitter info (l ++ [info]) =
      isAnypacketIsThereForThisTransmitter info l := by
    simp [isAnypacketIsThereForThisTransmitter]
  rw [happ, isAnypacket_iff h, mem_transmitters]
  exact ⟨fun ⟨f, hf, _, ht⟩ => ⟨f, hf, ht⟩, fun ⟨f, hf, ht⟩ => ⟨f, hf, hnew f hf, ht⟩⟩

omit [LinearOrder β] in
/-- One that ends finds another when one stays in flight. -/
theorem isAnypacket_filter_iff {l : List (PacketInfo δ β)} {fl : List (Flight δ β)} {info : PacketInfo δ β}
    (h : l.map PacketInfo.key = (fl.filter fun f => f.packet ≠ info.packet).map Flight.key) :
    isAnypacketIsThereForThisTransmitter info l = true ↔
      info.txId ∈ transmitters (fl.filter fun f => f.packet ≠ info.packet) := by
  rw [isAnypacket_iff h, mem_transmitters]
  constructor
  · rintro ⟨f, hf, _, ht⟩
    exact ⟨f, hf, ht⟩
  · rintro ⟨f, hf, ht⟩
    exact ⟨f, hf, by simpa using (List.mem_filter.1 hf).2, ht⟩

omit [DecidableEq δ] [LinearOrder β] in
theorem eraseP_packet {l : List (PacketInfo δ β)} (h : (l.map (·.packet)).Nodup) (packet : ℕ) :
    l.eraseP (fun i => i.packet = packet) = l.filter fun i => i.packet ≠ packet := by
  induction l with
  | nil => rfl
  | cons i l ih =>
    rw [List.map_cons, List.nodup_cons] at h
    by_cases hi : i.packet = packet
    · have hall : ∀ j ∈ l, j.packet ≠ packet := by
        intro j hj hjp
        exact h.1 (List.mem_map.2 ⟨j, hj, hjp.trans hi.symm⟩)
      have hfil : (l.filter fun j => j.packet ≠ packet) = l :=
        List.filter_eq_self.2 fun j hj => by simpa using hall j hj
      rw [List.eraseP_cons_of_pos (by simpa using hi), List.filter_cons_of_neg (by simpa using hi), hfil]
    · simp [hi, ih h.2]

omit [DecidableEq δ] [LinearOrder β] in
theorem map_packet_eq {l : List (PacketInfo δ β)} {fl : List (Flight δ β)}
    (h : l.map PacketInfo.key = fl.map Flight.key) : l.map (·.packet) = fl.map (·.packet) := by
  have h1 := congrArg (List.map Prod.fst) h
  simpa [PacketInfo.key, Flight.key, Function.comp_def] using h1

omit [DecidableEq δ] [LinearOrder β] in
theorem map_key_filter {l : List (PacketInfo δ β)} {fl : List (Flight δ β)}
    (h : l.map PacketInfo.key = fl.map Flight.key) (packet : ℕ) :
    (l.filter fun i => i.packet ≠ packet).map PacketInfo.key =
      (fl.filter fun f => f.packet ≠ packet).map Flight.key := by
  have h1 := congrArg (List.filter fun k => k.1 ≠ packet) h
  rw [List.filter_map, List.filter_map] at h1
  exact h1

/-! ### The steps -/

/-- What starting a packet does to the infos and the devices. -/
theorem send_cases {s : State δ β} (ha : Accounted c s) {packet : ℕ} {tx : δ} {time : ℚ}
    (hs : CanSend s.flights packet tx time) (rx : δ) :
    tx ∈ transmitters s.flights ∧
      mediumNotifyPacketSend c packet tx rx time s.devices s.transmissionPacket =
        (s.devices, s.transmissionPacket ++ [packetInfoAdd c packet tx rx time]) ∨
    tx ∉ transmitters s.flights ∧
      mediumNotifyPacketSend c packet tx rx time s.devices s.transmissionPacket =
        (updatePowerDueToTransmission c (packetInfoAdd c packet tx rx time) s.devices,
          mediumUpdateInterference c
            (updatePowerDueToTransmission c (packetInfoAdd c packet tx rx time) s.devices)
            (s.transmissionPacket ++ [packetInfoAdd c packet tx rx time])) := by
  have hiff : isAnypacketIsThereForThisTransmitter (packetInfoAdd c packet tx rx time)
      (s.transmissionPacket ++ [packetInfoAdd c packet tx rx time]) = true ↔ tx ∈ transmitters s.flights :=
    isAnypacket_append_iff ha.infos hs.1
  by_cases ht : tx ∈ transmitters s.flights
  · exact .inl ⟨ht, if_pos (hiff.2 ht)⟩
  · exact .inr ⟨ht, if_neg fun h => ht (hiff.1 h)⟩

/-- What ending a packet does: its info is the one of a packet in flight, and the power is taken back with the last
packet of its transmitter. -/
theorem received_cases {s s' : State δ β} (ha : Accounted c s) {packet : ℕ}
    (h : stepReceived c s packet = some s') :
    ∃ info f, (packetInfoRemove packet s.transmissionPacket).1 = some info ∧ f ∈ s.flights ∧
      f.key = info.key ∧ f.packet = packet ∧
      s'.transmissionPacket = (s.transmissionPacket.filter fun i => i.packet ≠ packet) ∧
      s'.flights = observe c s.devices (s.flights.filter fun f => f.packet ≠ packet) ∧
      (f.txId ∈ transmitters (s.flights.filter fun f => f.packet ≠ packet) ∧ s'.devices = s.devices ∨
        f.txId ∉ transmitters (s.flights.filter fun f => f.packet ≠ packet) ∧
          s'.devices = updatePowerDueToTransmissionStop c info s.devices) := by
  obtain ⟨r, hr, rfl⟩ := Option.map_eq_some_iff.1 h
  have hnd : (s.transmissionPacket.map (·.packet)).Nodup := by
    rw [map_packet_eq ha.infos]
    exact ha.nodup
  unfold mediumNotifyPacketReceived packetInfoRemove at hr
  rw [eraseP_packet hnd] at hr
  cases hfind : s.transmissionPacket.find? (fun i => i.packet = packet) with
  | none =>
    rw [hfind] at hr
    simp at hr
  | some info =>
    rw [hfind] at hr
    have hp : info.packet = packet := by simpa using List.find?_some hfind
    obtain ⟨f, hf, hk⟩ := exists_flight ha.infos (List.mem_of_find?_eq_some hfind)
    have hfp : f.packet = packet := (congrArg Prod.fst hk).trans hp
    have hft : f.txId = info.txId := congrArg (fun k => k.2.1) hk
    have hfil := map_key_filter ha.infos packet
    rw [← hp] at hfil
    have hiff := isAnypacket_filter_iff hfil
    rw [hp, ← hft] at hiff
    dsimp only at hr
    refine ⟨info, f, hfind, hf, hk, hfp, ?_⟩
    by_cases ht : f.txId ∈ transmitters (s.flights.filter fun f => f.packet ≠ packet)
    · rw [if_pos (hiff.2 ht), Option.some.injEq] at hr
      subst hr
      exact ⟨rfl, rfl, .inl ⟨ht, rfl⟩⟩
    · rw [if_neg fun h => ht (hiff.1 h), Option.some.injEq] at hr
      subst hr
      exact ⟨rfl, rfl, .inr ⟨ht, rfl⟩⟩

omit [DecidableEq δ] [LinearOrder β] in
theorem map_packet_observe_nodup {l : List (Flight δ β)} {fl : List (Flight δ β)}
    (h : l.map Flight.key = fl.map Flight.key) (hn : (fl.map (·.packet)).Nodup) : (l.map (·.packet)).Nodup := by
  have h1 := congrArg (List.map Prod.fst) h
  have h2 : l.map (·.packet) = fl.map (·.packet) := by
    simpa [Flight.key, Function.comp_def] using h1
  rw [h2]
  exact hn

theorem oneBurst_observe {D : δ → Device β} {fl : List (Flight δ β)} (hb : OneBurst fl) :
    OneBurst (observe c D fl) := by
  intro f hf g hg ht
  obtain ⟨f', hf', rfl⟩ := List.mem_map.1 hf
  obtain ⟨g', hg', rfl⟩ := List.mem_map.1 hg
  exact hb f' hf' g' hg' ht

theorem Device.addPower_dbm {β : Type*} [LinearOrder β] (k : DbmScale β) (p : ℚ) (dm : Device β) :
    (dm.addPower k p).dCummulativeReceivedPowerDbm =
      k.mwToDbm (dm.addPower k p).dCummulativeReceivedPowerMw := rfl

omit [DecidableEq δ] in
theorem map_key_updateInterference (D : δ → Device β) (l : List (PacketInfo δ β)) :
    (mediumUpdateInterference c D l).map PacketInfo.key = l.map PacketInfo.key := by
  simp [mediumUpdateInterference, PacketInfo.key, Function.comp_def]

theorem CanSend.oneBurst {s : State δ β} (ha : Accounted c s) {packet : ℕ} {tx : δ} {time : ℚ}
    (hs : CanSend s.flights packet tx time) (rx : δ) : OneBurst (s.flights ++ [Flight.start c packet tx rx time]) :=
  ha.burst.append hs.2

theorem accounted_send {s : State δ β} (ha : Accounted c s) {packet : ℕ} {tx rx : δ} {time : ℚ}
    (hs : CanSend s.flights packet tx time) : Accounted c (stepSend c s packet tx rx time) := by
  have hb := hs.oneBurst ha rx
  have hkey : (s.transmissionPacket ++ [packetInfoAdd c packet tx rx time]).map PacketInfo.key =
      (s.flights ++ [Flight.start c packet tx rx time]).map Flight.key := by
    rw [List.map_append, List.map_append, ha.infos]
    rfl
  have hnd : ((s.flights ++ [Flight.start c packet tx rx time]).map (·.packet)).Nodup := by
    rw [List.map_append, List.nodup_append]
    refine ⟨ha.nodup, List.nodup_singleton _, ?_⟩
    intro a ha' b hb' hab
    obtain ⟨f, hf, rfl⟩ := List.mem_map.1 ha'
    obtain rfl := List.mem_singleton.1 hb'
    exact hs.1 f hf hab
  have hobs := map_packet_observe_nodup (map_key_observe (c := c) s.devices _) hnd
  have htot : ∀ d, total c s.devices (s.flights ++ [Flight.start c packet tx rx time]) d =
      total c s.devices s.flights d +
        if tx ∈ transmitters s.flights then 0
        else if inBand s.devices tx d then c.getRXPowerMW tx d time else 0 := total_append hb
  rcases send_cases ha hs rx with ⟨ht, he⟩ | ⟨ht, he⟩
  · -- another packet of the burst is in flight
    unfold stepSend
    rw [he]
    refine ⟨by rw [map_key_observe]; exact hkey, hobs, oneBurst_observe hb, ?_, ha.dbm⟩
    intro d
    dsimp only
    rw [total_observe, htot, if_pos ht, add_zero]
    exact ha.power d
  · unfold stepSend
    rw [he]
    refine ⟨by rw [map_key_observe, map_key_updateInterference]; exact hkey, hobs, oneBurst_observe hb, ?_, ?_⟩
    · intro d
      dsimp only
      rw [(sameBands_start _ _).total, total_observe, htot, if_neg ht, ← ha.power d]
      exact start_power _ _ d
    · intro d
      dsimp only
      unfold updatePowerDueToTransmission
      split
      · exact .inr (Device.addPower_dbm _ _ _)
      · exact ha.dbm d

theorem accounted_received {s s' : State δ β} (ha : Accounted c s) {packet : ℕ}
    (h : stepReceived c s packet = some s') : Accounted c s' := by
  obtain ⟨info, f, -, hf, hk, rfl, hl, hfl, hd⟩ := received_cases ha h
  have hsub : (s.flights.filter fun g => g.packet ≠ f.packet) ⊆ s.flights := List.filter_subset_self _
  have hnd : ((s.flights.filter fun g => g.packet ≠ f.packet).map (·.packet)).Nodup :=
    ha.nodup.sublist (List.filter_sublist.map _)
  have hu : ∀ g ∈ s.flights, g.packet = f.packet → g.txId = f.txId := by
    intro g hg hp
    rw [List.inj_on_of_nodup_map ha.nodup hg hf hp]
  have htot := total_filter (c := c) (D := s.devices) ha.burst hf hu
  have hinf : s'.transmissionPacket.map PacketInfo.key = s'.flights.map Flight.key := by
    rw [hl, hfl, map_key_observe]
    exact map_key_filter ha.infos _
  have hobs : (s'.flights.map (·.packet)).Nodup := by
    rw [hfl]
    exact map_packet_observe_nodup (map_key_observe _ _) hnd
  have hb : OneBurst s'.flights := by
    rw [hfl]
    exact oneBurst_observe (ha.burst.subset hsub)
  have htx : f.txId = info.txId := congrArg (fun k => k.2.1) hk
  have htime : f.startTime = info.startTime := congrArg (fun k => k.2.2.2) hk
  rcases hd with ⟨ht, hd⟩ | ⟨ht, hd⟩
  · refine ⟨hinf, hobs, hb, ?_, by rw [hd]; exact ha.dbm⟩
    intro d
    have h1 := htot d
    rw [if_pos ht, add_zero] at h1
    rw [hd, hfl, total_observe, ← h1]
    exact ha.power d
  · refine ⟨hinf, hobs, hb, ?_, ?_⟩
    · intro d
      have h1 := htot d
      rw [if_neg ht, ← ha.power d] at h1
      rw [hd, hfl, (sameBands_stop _ _).total, total_observe]
      rw [stop_power, ← htx, ← htime]
      linarith
    · intro d
      rw [hd]
      unfold updatePowerDueToTransmissionStop
      split
      · exact .inr (Device.addPower_dbm _ _ _)
      · exact ha.dbm d

/-- With nothing in flight, devices of any bands are accounted when no power is. -/
theorem accounted_retune {s : State δ β} (ha : Accounted c s) (h0 : s.flights = []) {D : δ → Device β}
    (hD : ∀ d, (D d).dCummulativeReceivedPowerMw = (s.devices d).dCummulativeReceivedPowerMw ∧
      (D d).dCummulativeReceivedPowerDbm = (s.devices d).dCummulativeReceivedPowerDbm) :
    Accounted c { s with devices := D } := by
  refine ⟨ha.infos, ha.nodup, ha.burst, ?_, ?_⟩
  · intro d
    have h1 := ha.power d
    dsimp only
    rw [h0] at h1 ⊢
    rw [(hD d).1, h1]
    rfl
  · intro d
    dsimp only
    rw [(hD d).1, (hD d).2]
    exact ha.dbm d

theorem accounted_step {s s' : State δ β} {e : Event δ} (ha : Accounted c s) (h : step c s e = some s') :
    Accounted c s' := by
  cases e with
  | notifyPacketSend packet tx rx time =>
    simp only [step, Option.ite_none_right_eq_some, Option.some.injEq] at h
    obtain ⟨hs, rfl⟩ := h
    exact accounted_send ha hs
  | notifyPacketReceived packet => exact accounted_received ha h
  | updateFrequency d f =>
    simp only [step, Option.ite_none_right_eq_some, Option.some.injEq] at h
    obtain ⟨h0, rfl⟩ := h
    exact accounted_retune ha h0 fun _ => ⟨rfl, rfl⟩
  | updateBandwidth d bw =>
    simp only [step, Option.ite_none_right_eq_some, Option.some.injEq] at h
    obtain ⟨h0, rfl⟩ := h
    exact accounted_retune ha h0 fun _ => ⟨rfl, rfl⟩

/-- **Every reachable state is accounted.** -/
theorem accounted {s : State δ β} {ok : State δ β → Event δ → Prop} (h : (machine c).ReachOn ok s) :
    Accounted c s :=
  h.inv (I := Accounted c) (fun _ h0 => accounted_init h0) fun _ _ _ ha _ hs => accounted_step ha hs

/-- A medium without a packet in flight is idle at every device that does not sense the floor. -/
theorem mediumIsIdle_of_accounted {s : State δ β} (ha : Accounted c s) (h0 : s.flights = []) (d : δ)
    (hed : c.scale.negativeDbm < (s.devices d).dEDThreshold) : mediumIsIdle s.devices d := by
  have hp : (s.devices d).dCummulativeReceivedPowerMw = 0 := by
    rw [ha.power d, h0]
    rfl
  unfold mediumIsIdle
  rcases ha.dbm d with ⟨h, -⟩ | h
  · rw [h]
    exact WithBot.bot_lt_coe _
  · rw [h, hp, c.scale.zero 0 (by norm_num [zeroMw])]
    exact WithBot.coe_lt_coe.2 hed

/-- **The cumulative power of a device is the sum over the transmitters with a packet in flight**, and with none in
flight it is that of the idle medium. -/
theorem cumulativePower_total (c : Config δ β) (s : State δ β) (h : (machine c).Reach s) (d : δ) :
    (s.devices d).dCummulativeReceivedPowerMw = total c s.devices s.flights d ∧
      (s.flights = [] → (s.devices d).dCummulativeReceivedPowerMw = 0 ∧
        (c.scale.negativeDbm < (s.devices d).dEDThreshold → mediumIsIdle s.devices d)) := by
  have ha := accounted h
  refine ⟨ha.power d, fun h0 => ⟨?_, mediumIsIdle_of_accounted ha h0 d⟩⟩
  rw [ha.power d, h0]
  rfl

/-! ### A sample -/

/-- Device `1` is heard with 10 dBm and every other with 20 dBm. -/
def sampleConfig : Config ℕ ℤ where
  scale := .decade
  getRXPowerMW t _ _ := if t = 1 then 10 else 100
  nonneg := by
    intro t _ _
    split <;> norm_num

/-- The devices from `5` on are in a second band. -/
def sampleState : State ℕ ℤ := ⟨fun d => mediumAddDevice (if d < 5 then 2412 else 2437) 20 (-60), [], []⟩

theorem sampleState_init : (machine sampleConfig).init sampleState :=
  ⟨fun d => ⟨if d < 5 then 2412 else 2437, 20, -60, rfl⟩, rfl, rfl⟩

/-- A packet, a burst of two of which one has ended, and a packet in the other band. -/
theorem cumulativePower_sample :
    ∃ s, (machine sampleConfig).Reach s ∧
      ((s.devices 2).dCummulativeReceivedPowerMw = 110 ∧ (s.devices 6).dCummulativeReceivedPowerMw = 100) ∧
      ∀ d, (s.devices d).dCummulativeReceivedPowerMw = total sampleConfig s.devices s.flights d := by
  obtain ⟨s, hr, hp⟩ := Machine.Reach.exists_of_exec (M := machine sampleConfig)
    (P := fun s => (s.devices 2).dCummulativeReceivedPowerMw = 110 ∧ (s.devices 6).dCummulativeReceivedPowerMw = 100)
    [.notifyPacketSend 1 1 2 0, .notifyPacketSend 2 3 4 5, .notifyPacketSend 3 3 4 5, .notifyPacketReceived 2,
      .notifyPacketSend 4 5 6 7]
    (.init sampleState_init) (by decide +kernel)
  exact ⟨s, hr, hp, fun d => (cumulativePower_total sampleConfig s hr d).1⟩

end NetSim.Medium
