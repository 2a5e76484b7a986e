import NetSim.Proof.MediumPower

/-!
# The highest interference of a packet

The interference of the packets in flight is brought up to date when a transmitter gets its first packet in flight, and
only then. A later packet of a burst starts with no interference, also when its receiver hears another transmitter.

* `others_append_of_mem`, `others_filter_le`: what the other transmitters send to a receiver changes with the first
  packet of a transmitter, and falls when packets end.
* `Watched`: the infos know the interference that the packets have seen.
* `maxInterference_of_seen`: so they do in every run that starts no later packet of a burst under interference.
* `maxInterference_missed`: the second packet of a burst that starts next to another transmission.
-/

namespace NetSim.Medium

variable {δ β : Type*} [DecidableEq δ] [LinearOrder β] {c : Config δ β}

/-! ### The other transmitters -/

/-- What a receiver hears of the others is the total less what it hears of its own transmitter. -/
theorem heard_add_others (D : δ → Device β) {fl : List (Flight δ β)} {t : δ} (ht : t ∈ transmitters fl) (d : δ) :
    heard c D fl t d + others c D fl t d = total c D fl d :=
  Finset.add_sum_erase (transmitters fl) (fun u => heard c D fl u d) ht

/-- A later packet of a burst changes nothing. -/
theorem others_append_of_mem {D : δ → Device β} {fl : List (Flight δ β)} {f : Flight δ β}
    (hb : OneBurst (fl ++ [f])) (hf : f.txId ∈ transmitters fl) (t d : δ) :
    others c D (fl ++ [f]) t d = others c D fl t d := by
  unfold others
  rw [transmitters_append, Finset.insert_eq_self.2 hf]
  refine Finset.sum_congr rfl fun u hu => ?_
  exact (heard_subset hb (List.subset_append_left _ _) (Finset.mem_of_mem_erase hu) d).symm

/-- Nothing more is heard when packets end. -/
theorem others_filter_le {D : δ → Device β} {fl : List (Flight δ β)} (hb : OneBurst fl)
    (q : Flight δ β → Bool) (t d : δ) : others c D (fl.filter q) t d ≤ others c D fl t d := by
  have hsub : fl.filter q ⊆ fl := List.filter_subset_self _
  have htx : (transmitters (fl.filter q)).erase t ⊆ (transmitters fl).erase t := by
    refine Finset.erase_subset_erase t fun u hu => ?_
    obtain ⟨f, hf, rfl⟩ := mem_transmitters.1 hu
    exact mem_transmitters.2 ⟨f, hsub hf, rfl⟩
  calc others c D (fl.filter q) t d
      = ∑ u ∈ (transmitters (fl.filter q)).erase t, heard c D fl u d :=
        Finset.sum_congr rfl fun u hu => heard_subset hb hsub (Finset.mem_of_mem_erase hu) d
    _ ≤ others c D fl t d :=
        Finset.sum_le_sum_of_subset_of_nonneg htx fun u _ _ => heard_nonneg D fl u d

/-! ### What the packets have seen -/

/-- Each packet in flight has seen the interference there is. -/
def Seen (c : Config δ β) (D : δ → Device β) (fl : List (Flight δ β)) : Prop :=
  ∀ f ∈ fl, c.scale.mwToDbm (others c D fl f.txId f.rxId) ≤ f.worst

theorem seen_observe (D : δ → Device β) (fl : List (Flight δ β)) : Seen c D (observe c D fl) := by
  intro f hf
  obtain ⟨g, hg, rfl⟩ := List.mem_map.1 hf
  rw [others_observe]
  exact le_max_right _ _

/-- What has been seen is not seen again. -/
theorem observe_of_seen {D : δ → Device β} {fl : List (Flight δ β)} (h : Seen c D fl) : observe c D fl = fl := by
  have hid : ∀ f ∈ fl, { f with worst := max f.worst (c.scale.mwToDbm (others c D fl f.txId f.rxId)) } = f := by
    intro f hf
    rw [max_eq_left (h f hf)]
  exact (List.map_congr_left hid).trans (List.map_id _)

theorem Seen.sameBands {D D' : δ → Device β} {fl : List (Flight δ β)} (h : Seen c D fl) (hD : SameBands D' D) :
    Seen c D' fl := by
  intro f hf
  rw [hD.others]
  exact h f hf

/-! ### Watched states -/

/-- What the code knows of a packet with its interference, and what the events say. -/
def PacketInfo.keyMax (i : PacketInfo δ β) : (ℕ × δ × δ × ℚ) × β := (i.key, i.dMaxInterference)

def Flight.keyMax (f : Flight δ β) : (ℕ × δ × δ × ℚ) × β := (f.key, f.worst)

/-- The infos know the interference that the packets have seen, and every receiver hears its transmitter. -/
structure Watched (c : Config δ β) (s : State δ β) : Prop where
  known : s.transmissionPacket.map PacketInfo.keyMax = s.flights.map Flight.keyMax
  seen : Seen c s.devices s.flights
  own : ∀ f ∈ s.flights, heard c s.devices s.flights f.txId f.rxId = c.getRXPowerMW f.txId f.rxId f.startTime

/-- A packet may start that its receiver hears, and a later one of a burst when no other transmitter is heard there. -/
def StartsSeen (c : Config δ β) (s : State δ β) : Event δ → Prop
  | .notifyPacketSend _ txId rxId startTime =>
    (inBand s.devices txId rxId ∨ c.getRXPowerMW txId rxId startTime = 0) ∧
      (txId ∉ transmitters s.flights ∨
        c.scale.mwToDbm (others c s.devices s.flights txId rxId) = c.scale.negativeDbm)
  | _ => True

instance (c : Config δ β) (s : State δ β) (e : Event δ) : Decidable (StartsSeen c s e) := by
  cases e <;> unfold StartsSeen <;> infer_instance

/-- What `packetInfo_remove` gives of a packet that ends now has the highest interference that the packet has seen. -/
def MaxInterference (s : State δ β) : Prop :=
  ∀ f ∈ s.flights,
    (packetInfoRemove f.packet s.transmissionPacket).1.map (·.dMaxInterference) = some f.worst

instance : DecidablePred (MaxInterference (δ := δ) (β := β)) := fun _ => by
  unfold MaxInterference
  infer_instance

theorem watched_nil {s : State δ β} (hl : s.transmissionPacket = []) (hf : s.flights = []) : Watched c s := by
  refine ⟨by rw [hl, hf]; rfl, ?_, ?_⟩
  · rw [hf]
    intro f h
    exact absurd h List.not_mem_nil
  · rw [hf]
    intro f h
    exact absurd h List.not_mem_nil

/-- The own power of a packet stays heard while it is in flight. -/
theorem own_observe {D D' : δ → Device β} {fl : List (Flight δ β)}
    (h : ∀ f ∈ fl, heard c D fl f.txId f.rxId = c.getRXPowerMW f.txId f.rxId f.startTime) :
    ∀ f ∈ observe c D' fl, heard c D (observe c D' fl) f.txId f.rxId = c.getRXPowerMW f.txId f.rxId f.startTime := by
  intro f hf
  obtain ⟨g, hg, rfl⟩ := List.mem_map.1 hf
  rw [heard_observe]
  exact h g hg

/-- The receiver of a packet that starts hears its transmitter, and the other receivers still hear theirs. -/
theorem own_append {s : State δ β} (hw : Watched c s) {f : Flight δ β} (hb : OneBurst (s.flights ++ [f]))
    (hf : inBand s.devices f.txId f.rxId ∨ c.getRXPowerMW f.txId f.rxId f.startTime = 0) :
    ∀ g ∈ s.flights ++ [f],
      heard c s.devices (s.flights ++ [f]) g.txId g.rxId = c.getRXPowerMW g.txId g.rxId g.startTime := by
  intro g hg
  rcases List.mem_append.1 hg with hold | hnew
  · rw [← hw.own g hold]
    exact (heard_subset hb (List.subset_append_left _ _) (mem_transmitters.2 ⟨g, hold, rfl⟩) _).symm
  · rw [heard_of_mem hb hg, List.mem_singleton.1 hnew]
    rcases hf with hf | hf
    · exact if_pos hf
    · rw [hf, ite_self]

/-- A later packet of a burst, when no other transmitter is heard at its receiver. -/
theorem watched_send_later {s : State δ β} (ha : Accounted c s) (hw : Watched c s) {packet : ℕ} {tx rx : δ} {time : ℚ}
    (hs : CanSend s.flights packet tx time) (ht : tx ∈ transmitters s.flights)
    (hq : c.scale.mwToDbm (others c s.devices s.flights tx rx) = c.scale.negativeDbm) :
    Seen c s.devices (s.flights ++ [Flight.start c packet tx rx time]) := by
  intro f hf
  rw [others_append_of_mem (hs.oneBurst ha rx) ht]
  rcases List.mem_append.1 hf with hold | hnew
  · exact hw.seen f hold
  · rw [List.mem_singleton.1 hnew]
    exact le_of_eq hq

/-- The first packet of a transmitter: every packet in flight is brought up to date. -/
theorem known_update {l : List (PacketInfo δ β)} {fl : List (Flight δ β)} {D D' : δ → Device β}
    (hk : l.map PacketInfo.keyMax = fl.map Flight.keyMax)
    (hown : ∀ f ∈ fl, heard c D fl f.txId f.rxId = c.getRXPowerMW f.txId f.rxId f.startTime)
    (htot : ∀ d, (D' d).dCummulativeReceivedPowerMw = total c D fl d) :
    (mediumUpdateInterference c D' l).map PacketInfo.keyMax = (observe c D fl).map Flight.keyMax := by
  let upd : (ℕ × δ × δ × ℚ) × β → (ℕ × δ × δ × ℚ) × β := fun k =>
    (k.1, max k.2 (c.scale.mwToDbm
      ((D' k.1.2.2.1).dCummulativeReceivedPowerMw - c.getRXPowerMW k.1.2.1 k.1.2.2.1 k.1.2.2.2)))
  have hl : (mediumUpdateInterference c D' l).map PacketInfo.keyMax = (l.map PacketInfo.keyMax).map upd := by
    simp [mediumUpdateInterference, PacketInfo.keyMax, PacketInfo.key, upd, Function.comp_def]
  have hfl : (fl.map Flight.keyMax).map upd = (observe c D fl).map Flight.keyMax := by
    unfold observe
    rw [List.map_map, List.map_map]
    refine List.map_congr_left fun f hf => ?_
    have hin : f.txId ∈ transmitters fl := mem_transmitters.2 ⟨f, hf, rfl⟩
    have hoth : (D' f.rxId).dCummulativeReceivedPowerMw - c.getRXPowerMW f.txId f.rxId f.startTime =
        others c D fl f.txId f.rxId := by
      rw [htot, ← heard_add_others D hin, hown f hf, add_sub_cancel_left]
    simp only [Function.comp_apply, upd, Flight.keyMax, Flight.key, hoth]
  rw [hl, hk, hfl]

theorem watched_send {s : State δ β} (ha : Accounted c s) (hw : Watched c s) {packet : ℕ} {tx rx : δ} {time : ℚ}
    (hs : CanSend s.flights packet tx time) (hok : StartsSeen c s (.notifyPacketSend packet tx rx time)) :
    Watched c (stepSend c s packet tx rx time) := by
  have hb := hs.oneBurst ha rx
  have hown := own_append hw hb hok.1
  have hk : (s.transmissionPacket ++ [packetInfoAdd c packet tx rx time]).map PacketInfo.keyMax =
      (s.flights ++ [Flight.start c packet tx rx time]).map Flight.keyMax := by
    rw [List.map_append, List.map_append, hw.known]
    rfl
  rcases send_cases ha hs rx with ⟨ht, he⟩ | ⟨ht, he⟩
  · have hq := hok.2.resolve_left fun h => h ht
    have hseen := watched_send_later ha hw hs ht hq
    unfold stepSend
    rw [he, observe_of_seen hseen]
    exact ⟨hk, hseen, hown⟩
  · -- the power of the devices is already the new total
    have htot : ∀ d, (updatePowerDueToTransmission c (packetInfoAdd c packet tx rx time) s.devices d
        ).dCummulativeReceivedPowerMw =
          total c s.devices (s.flights ++ [Flight.start c packet tx rx time]) d := by
      intro d
      rw [start_power, ha.power d, total_append hb]
      exact congrArg _ (if_neg ht).symm
    unfold stepSend
    rw [he]
    refine ⟨known_update hk hown htot, (seen_observe _ _).sameBands (sameBands_start _ _), ?_⟩
    intro f hf
    dsimp only at hf ⊢
    rw [(sameBands_start _ _).heard]
    exact own_observe hown f hf

theorem watched_received {s s' : State δ β} (ha : Accounted c s) (hw : Watched c s) {packet : ℕ}
    (h : stepReceived c s packet = some s') : Watched c s' := by
  obtain ⟨info, f, -, hf, hk, hp, hl, hfl, hd⟩ := received_cases ha h
  have hbands : SameBands s'.devices s.devices := by
    rcases hd with ⟨-, hd⟩ | ⟨-, hd⟩
    · rw [hd]
      exact fun _ => ⟨rfl, rfl⟩
    · rw [hd]
      exact sameBands_stop _ _
  -- the packets that stay have seen what is left
  have hseen : Seen c s.devices (s.flights.filter fun f => f.packet ≠ packet) := by
    intro g hg
    exact le_trans (c.scale.mono (others_filter_le ha.burst _ _ _)) (hw.seen g (List.mem_of_mem_filter hg))
  rw [observe_of_seen hseen] at hfl
  refine ⟨?_, ?_, ?_⟩
  · have h1 := congrArg (List.filter fun k => k.1.1 ≠ packet) hw.known
    rw [List.filter_map, List.filter_map] at h1
    rw [hl, hfl]
    exact h1
  · rw [hfl]
    exact hseen.sameBands hbands
  · rw [hfl]
    intro g hg
    have hin := List.mem_of_mem_filter hg
    rw [hbands.heard, ← hw.own g hin]
    exact heard_subset ha.burst (List.filter_subset_self _) (mem_transmitters.2 ⟨g, hg, rfl⟩) _

theorem watched_step {s s' : State δ β} {e : Event δ} (ha : Accounted c s) (hw : Watched c s)
    (hok : StartsSeen c s e) (h : step c s e = some s') : Watched c s' := by
  cases e with
  | notifyPacketSend packet tx rx time =>
    simp only [step, Option.ite_none_right_eq_some, Option.some.injEq] at h
    obtain ⟨hs, rfl⟩ := h
    exact watched_send ha hw hs hok
  | notifyPacketReceived packet => exact watched_received ha hw h
  | updateFrequency d f =>
    simp only [step, Option.ite_none_right_eq_some, Option.some.injEq] at h
    obtain ⟨h0, rfl⟩ := h
    have hl := ha.infos
    rw [h0, List.map_nil, List.map_eq_nil_iff] at hl
    exact watched_nil hl h0
  | updateBandwidth d bw =>
    simp only [step, Option.ite_none_right_eq_some, Option.some.injEq] at h
    obtain ⟨h0, rfl⟩ := h
    have hl := ha.infos
    rw [h0, List.map_nil, List.map_eq_nil_iff] at hl
    exact watched_nil hl h0

/-- The info of a packet in flight is found, with what the packet has seen. -/
theorem maxInterference_of_watched {s : State δ β} (ha : Accounted c s) (hw : Watched c s) : MaxInterference s := by
  intro f hf
  obtain ⟨j, hj, hjk⟩ := exists_info ha.infos hf
  have hjp : j.packet = f.packet := congrArg Prod.fst hjk
  unfold packetInfoRemove
  cases hfind : s.transmissionPacket.find? (fun i => i.packet = f.packet) with
  | none =>
    have h0 := List.find?_eq_none.1 hfind j hj
    simp [hjp] at h0
  | some i =>
    have hip : i.packet = f.packet := by simpa using List.find?_some hfind
    have hmem : i.keyMax ∈ s.flights.map Flight.keyMax :=
      hw.known ▸ List.mem_map_of_mem (List.mem_of_find?_eq_some hfind)
    obtain ⟨g, hg, hgk⟩ := List.mem_map.1 hmem
    have hgp : g.packet = f.packet := (congrArg (fun k => k.1.1) hgk).trans hip
    have hgf : g = f := List.inj_on_of_nodup_map ha.nodup hg hf hgp
    have hgm : g.worst = i.dMaxInterference := congrArg Prod.snd hgk
    rw [← hgf, hgm]
    rfl

/-- **Where no later packet of a burst starts under interference, a packet that ends has the highest interference that
there has been at its receiver.** -/
theorem maxInterference_of_seen (c : Config δ β) (s : State δ β) (h : (machine c).ReachOn (StartsSeen c) s) :
    MaxInterference s := by
  have hinv : Accounted c s ∧ Watched c s := by
    refine h.inv (I := fun s => Accounted c s ∧ Watched c s) ?_ ?_
    · intro s h0
      exact ⟨accounted_init h0, watched_nil h0.2.1 h0.2.2⟩
    · intro s e s' hI hok hs
      exact ⟨accounted_step hI.1 hs, watched_step hI.1 hI.2 hok hs⟩
  exact maxInterference_of_watched hinv.1 hinv.2

/-- A burst of two packets, then a packet of another transmitter, and one in the other band. -/
theorem maxInterference_sample :
    ∃ s, ((machine sampleConfig).ReachOn (StartsSeen sampleConfig) s ∧
      s.flights.map (·.worst) = [10, 10, 20, sampleConfig.scale.negativeDbm]) ∧
      MaxInterference s := by
  obtain ⟨s, hr, hp⟩ := Machine.ReachOn.exists_of_execOn (StartsSeen sampleConfig)
    (M := machine sampleConfig) (P := fun s => s.flights.map (·.worst) = [10, 10, 20, sampleConfig.scale.negativeDbm])
    [.notifyPacketSend 2 3 4 5, .notifyPacketSend 3 3 4 5, .notifyPacketSend 1 1 2 6, .notifyPacketSend 4 5 6 7]
    (.init sampleState_init) (by decide +kernel)
  exact ⟨s, ⟨hr, hp⟩, maxInterference_of_seen sampleConfig s hr⟩

/-- **The second packet of a burst misses the transmission that was already there.** -/
theorem maxInterference_missed :
    ¬ ∀ s, (machine sampleConfig).Reach s → MaxInterference s := by
  intro hall
  obtain ⟨s, hr, hp⟩ := Machine.Reach.exists_of_exec (M := machine sampleConfig)
    (P := fun s => ¬ MaxInterference s)
    [.notifyPacketSend 1 1 2 0, .notifyPacketSend 2 3 4 5, .notifyPacketSend 3 3 4 5]
    (.init sampleState_init) (by decide +kernel)
  exact hp (hall s hr)

end NetSim.Medium
