import NetSim.Lib.Budget
import NetSim.Lib.FirstMatch
import NetSim.Spec.Satellite
import Mathlib.Algebra.Order.BigOperators.Group.List
import Mathlib.Data.List.Nodup

/-!
# The slots of a frame

What `satellite_allocate_slot` does to the buffers of a superframe: no more slots are given than a frame has, what moves
from a buffer into the frame is a first part of it that fits into its slots, and whoever could send its first packet
sends it, unless a buffer without demand stands before it.

* `allocateSlots_shares`: the slots are a budget that serves the demands in turn.
* `scheduleBuffers_eq`: what each buffer gives to the frame.
* `allocation_iff`: the frame is in order if and only if no buffer is held up.
-/

namespace NetSim.Satellite

variable {bits F room : ℕ} {sf : Superframe} {fr : Frame} {b a : SatelliteBuffer} {l : List SatelliteBuffer}
  {p : Packet} {m : List Packet}

/-! ### The property and the condition -/

/-- The slots a packet needs. -/
def slotsNeeded (bitsPerSlot : UInt32) (p : Packet) : ℕ := ⌈p.payload * 8 / bitsPerSlot.toNat⌉.toNat

/-- The count and the size of a buffer are those of its packets. -/
structure Exact (buffer : SatelliteBuffer) : Prop where
  count : buffer.count = buffer.packets.length
  size : buffer.sizeInBytes = (buffer.packets.map Packet.payload).sum

/-- **A frame in order**: there are slots for what is allocated; from each buffer a first part goes into the frame, in the
order of the buffers, which fits into its slots and is not empty if its first packet fits; counts and sizes stay exact. -/
structure FrameOk (sf : Superframe) (fr : Frame) (sf' : Superframe) (fr' : Frame) : Prop where
  within : (sf'.buffers.map fun b => b.allocatedSlotCount.toNat).sum ≤ sf.slotCountInFrame.toNat
  buffers : (sf'.buffers.map SatelliteBuffer.key).Perm (sf.buffers.map SatelliteBuffer.key)
  moves : ∃ moved : Key → List Packet,
    fr'.packets = fr.packets ++ sf'.buffers.flatMap (fun b => moved b.key) ∧
    ∀ before ∈ sf.buffers, ∀ after ∈ sf'.buffers, after.key = before.key →
      before.packets = moved before.key ++ after.packets ∧
      ((moved before.key).map (slotsNeeded sf.bitsPerSlot)).sum ≤ after.allocatedSlotCount.toNat ∧
      Exact after ∧
      ∀ h, before.packets.head? = some h → slotsNeeded sf.bitsPerSlot h ≤ after.allocatedSlotCount.toNat →
        moved before.key ≠ []

/-- What is left of the slots of a frame for a buffer, and no more than it asks for. -/
def share (sf : Superframe) (order : List SatelliteBuffer) (i : ℕ) (b : SatelliteBuffer) : ℕ :=
  min b.slotReqd.toNat (sf.slotCountInFrame.toNat - ((order.take i).map fun c => c.slotReqd.toNat).sum)

/-- No buffer is held up: in the order of the ranks, before a buffer whose first packet fits into its share no buffer
stands that asks for no slot, and its share is not empty. -/
def NoneHeldUp (sf : Superframe) : Prop :=
  ∀ i b h, (rankBuffers sf).buffers[i]? = some b → b.packets.head? = some h →
    slotsNeeded sf.bitsPerSlot h ≤ share sf (rankBuffers sf).buffers i b →
    share sf (rankBuffers sf).buffers i b ≠ 0 ∧ ∀ c ∈ (rankBuffers sf).buffers.take i, c.slotReqd ≠ 0

/-! ### The buffers -/

theorem Exact.init (key : Key) (sizeInBytes maxUnitSizeInBytes : ℚ) :
    Exact (satelliteBufferInit key sizeInBytes maxUnitSizeInBytes) := ⟨rfl, rfl⟩

theorem Exact.addPacket (h : Exact b) (p : Packet) : Exact (satelliteBufferAddPacket b p).1 := by
  unfold satelliteBufferAddPacket
  split
  · exact h
  · split
    · exact h
    · refine ⟨?_, ?_⟩
      · simp [h.count]
      · simp [h.size]

theorem Exact.dropHead (h : Exact b) {rest : List Packet} (hp : b.packets = p :: rest) :
    Exact (Satellite.dropHead b p rest) := by
  have hcount := h.count
  have hsize := h.size
  rw [hp] at hcount hsize
  rw [List.length_cons] at hcount
  rw [List.map_cons, List.sum_cons] at hsize
  refine ⟨?_, ?_⟩
  · unfold Satellite.dropHead
    dsimp only
    omega
  · unfold Satellite.dropHead
    dsimp only
    rw [hsize, add_sub_cancel_left]

theorem Exact.removePacket (h : Exact b) : Exact (satelliteBufferRemovePacket b).2 := by
  unfold satelliteBufferRemovePacket
  split
  · exact h
  · rename_i hp
    exact h.dropHead hp

/-! ### The order of the ranks -/

theorem sortPass_perm (b : SatelliteBuffer) (l : List SatelliteBuffer) :
    ((sortPass b l).1 :: (sortPass b l).2).Perm (b :: l) := by
  induction l generalizing b with
  | nil => rfl
  | cons other l ih =>
    unfold sortPass
    split
    · have h := ih other
      exact (List.Perm.swap _ _ _).trans (h.cons b)
    · have h := ih b
      exact (List.Perm.swap _ _ _).trans ((h.cons other).trans (List.Perm.swap _ _ _))

theorem sortPass_length (b : SatelliteBuffer) (l : List SatelliteBuffer) : (sortPass b l).2.length = l.length := by
  have h := (sortPass_perm b l).length_eq
  simpa using h

theorem sortBuffer_perm (n : ℕ) (l : List SatelliteBuffer) : (sortBuffer n l).Perm l := by
  induction n generalizing l with
  | zero => rfl
  | succ n ih =>
    cases l with
    | nil => rfl
    | cons b l =>
      have h := ih (sortPass b l).2
      exact (h.cons _).trans (sortPass_perm b l)

/-- What the inner loop puts in its place has the greatest rank. -/
theorem sortPass_rank (b : SatelliteBuffer) (l : List SatelliteBuffer) :
    b.rank ≤ (sortPass b l).1.rank ∧ ∀ c ∈ (sortPass b l).2, c.rank ≤ (sortPass b l).1.rank := by
  induction l generalizing b with
  | nil => exact ⟨le_refl _, fun c hc => absurd hc List.not_mem_nil⟩
  | cons other l ih =>
    unfold sortPass
    split
    · rename_i hlt
      obtain ⟨hle, hrest⟩ := ih other
      have hb : b.rank ≤ (sortPass other l).1.rank := le_trans (le_of_lt hlt) hle
      refine ⟨hb, fun c hc => ?_⟩
      rcases List.mem_cons.1 hc with rfl | hc
      · exact hb
      · exact hrest c hc
    · rename_i hge
      obtain ⟨hle, hrest⟩ := ih b
      refine ⟨hle, fun c hc => ?_⟩
      rcases List.mem_cons.1 hc with rfl | hc
      · exact le_trans (not_lt.1 hge) hle
      · exact hrest c hc

/-- **The buffers are sorted** by descending ranks. -/
theorem sortBuffer_sorted (l : List SatelliteBuffer) :
    (sortBuffer l.length l).Pairwise fun b c => c.rank ≤ b.rank := by
  generalize hn : l.length = n
  induction n generalizing l with
  | zero =>
    rw [List.length_eq_zero_iff.1 hn]
    exact List.Pairwise.nil
  | succ n ih =>
    cases l with
    | nil => cases hn
    | cons b l =>
      have hlen : (sortPass b l).2.length = n := by
        rw [sortPass_length]
        simpa using hn
      refine List.pairwise_cons.2 ⟨fun c hc => ?_, ih _ hlen⟩
      exact (sortPass_rank b l).2 c ((sortBuffer_perm n _).mem_iff.1 hc)

/-- A buffer as it stands in the order of the ranks. -/
def prepare (bitsPerSlot : UInt32) (b : SatelliteBuffer) : SatelliteBuffer :=
  let b := calculateSlotReqdPerBuffer bitsPerSlot b
  { b with rank := if b.slotReqd ≠ 0 then b.rank + 1 else b.rank, allocatedSlotCount := 0 }

theorem rankBuffers_perm (sf : Superframe) :
    (rankBuffers sf).buffers.Perm (sf.buffers.map (prepare sf.bitsPerSlot)) := by
  have h := sortBuffer_perm (initBufferRank (calculateSlotReqd sf)).buffers.length
    (initBufferRank (calculateSlotReqd sf)).buffers
  refine h.trans (List.Perm.of_eq ?_)
  unfold initBufferRank calculateSlotReqd
  dsimp only
  rw [List.map_map]
  rfl

/-- What a buffer keeps when it is ranked and given slots. -/
theorem fields_of_prepare {bitsPerSlot : UInt32} {before : SatelliteBuffer}
    (h : { a with allocatedSlotCount := 0 } = prepare bitsPerSlot before) :
    a.key = before.key ∧ a.packets = before.packets ∧ a.count = before.count ∧ a.sizeInBytes = before.sizeInBytes := by
  have hkey := congrArg SatelliteBuffer.key h
  have hpackets := congrArg SatelliteBuffer.packets h
  have hcount := congrArg SatelliteBuffer.count h
  have hsize := congrArg SatelliteBuffer.sizeInBytes h
  exact ⟨hkey, hpackets, hcount, hsize⟩

theorem rankBuffers_unallocated (h : b ∈ (rankBuffers sf).buffers) : b.allocatedSlotCount = 0 := by
  obtain ⟨c, -, rfl⟩ := List.mem_map.1 ((rankBuffers_perm sf).mem_iff.1 h)
  rfl

/-! ### The shares -/

/-- The slots are a budget, and what a buffer asks for is its demand. -/
theorem allocateSlots_shares (slotCount : UInt32) (l : List SatelliteBuffer) (hzero : ∀ b ∈ l, b.allocatedSlotCount = 0) :
    (allocateSlots slotCount l).map (fun b => b.allocatedSlotCount.toNat) =
      Budget.serve (fun _ => none) slotCount.toNat (l.map fun b => b.slotReqd.toNat) := by
  induction l generalizing slotCount with
  | nil => rfl
  | cons b l ih =>
    have hrest : ∀ c ∈ l, c.allocatedSlotCount = 0 := fun c hc => hzero c (List.mem_cons_of_mem b hc)
    have hnone : l.map (fun b => b.allocatedSlotCount.toNat) =
        Budget.serve (fun _ => none) 0 (l.map fun b => b.slotReqd.toNat) := by
      rw [Budget.serve_zero, List.map_map]
      exact List.map_congr_left fun c hc => by rw [hrest c hc]; rfl
    unfold allocateSlots
    dsimp only
    rw [List.map_cons, List.map_cons]
    by_cases hlt : b.slotReqd < slotCount
    · have hlt' : b.slotReqd.toNat < slotCount.toNat := UInt32.lt_iff_toNat_lt.1 hlt
      have hsub : (slotCount - b.slotReqd).toNat = slotCount.toNat - b.slotReqd.toNat :=
        UInt32.toNat_sub_of_le _ _ (UInt32.le_iff_toNat_le.2 (le_of_lt hlt'))
      have hleft : slotCount - b.slotReqd ≠ 0 := by
        intro h0
        rw [h0, UInt32.toNat_zero] at hsub
        omega
      rw [if_pos hlt, if_neg hleft, Budget.serve_cons_of_lt hlt', ih _ hrest, hsub]
    · have hge : ¬ b.slotReqd.toNat < slotCount.toNat := fun h => hlt (UInt32.lt_iff_toNat_lt.2 h)
      rw [if_neg hlt, if_pos (UInt32.sub_self _), hnone, Budget.serve_cons_of_not_lt hge]

/-- Nothing but the allocation of a buffer is written. -/
theorem allocateSlots_rest (slotCount : UInt32) (l : List SatelliteBuffer) (hzero : ∀ b ∈ l, b.allocatedSlotCount = 0) :
    (allocateSlots slotCount l).map (fun b => { b with allocatedSlotCount := 0 }) = l := by
  induction l generalizing slotCount with
  | nil => rfl
  | cons b l ih =>
    have hrest : ∀ c ∈ l, c.allocatedSlotCount = 0 := fun c hc => hzero c (List.mem_cons_of_mem b hc)
    have hclear : ∀ c : SatelliteBuffer, c.allocatedSlotCount = 0 → { c with allocatedSlotCount := 0 } = c := by
      intro c hc
      rw [← hc]
    have htail : ∀ n : UInt32, (if n = 0 then l else allocateSlots n l).map
        (fun b => { b with allocatedSlotCount := 0 }) = l := by
      intro n
      split
      · exact (List.map_congr_left fun c hc => hclear c (hrest c hc)).trans (List.map_id l)
      · exact ih n hrest
    unfold allocateSlots
    dsimp only
    rw [List.map_cons, htail]
    exact congrArg (· :: l) (hclear b (hzero b List.mem_cons_self))

/-- The buffers of a frame with their slots. -/
def allocated (sf : Superframe) : List SatelliteBuffer := (allocateSlotCount (rankBuffers sf)).buffers

/-- **What a buffer is given**: what it asks for, and no more than the buffers before it leave. -/
theorem allocated_share {i : ℕ} (ha : (allocated sf)[i]? = some a) :
    (rankBuffers sf).buffers[i]? = some { a with allocatedSlotCount := 0 } ∧
      a.allocatedSlotCount.toNat = share sf (rankBuffers sf).buffers i { a with allocatedSlotCount := 0 } := by
  have hshares := allocateSlots_shares sf.slotCountInFrame (rankBuffers sf).buffers fun _ => rankBuffers_unallocated
  have hrest := allocateSlots_rest sf.slotCountInFrame (rankBuffers sf).buffers fun _ => rankBuffers_unallocated
  have ha' : (allocateSlots sf.slotCountInFrame (rankBuffers sf).buffers)[i]? = some a := ha
  have hb := congrArg (·[i]?) hrest
  have hs := congrArg (·[i]?) hshares
  rw [List.getElem?_map, ha', Option.map_some] at hb hs
  rw [Budget.getElem?_serve_of_none, List.getElem?_map, ← hb, Option.map_some, Option.map_some, Option.some.injEq,
    ← List.map_take] at hs
  exact ⟨hb.symm, hs⟩

theorem allocated_rest (sf : Superframe) :
    (allocated sf).map (fun b => { b with allocatedSlotCount := 0 }) = (rankBuffers sf).buffers :=
  allocateSlots_rest sf.slotCountInFrame (rankBuffers sf).buffers fun _ => rankBuffers_unallocated

/-- **There are slots for what is allocated.** -/
theorem allocated_within (sf : Superframe) :
    ((allocated sf).map fun b => b.allocatedSlotCount.toNat).sum ≤ sf.slotCountInFrame.toNat := by
  have hshares := allocateSlots_shares sf.slotCountInFrame (rankBuffers sf).buffers fun _ => rankBuffers_unallocated
  have hsum : (Budget.serve (fun _ => none) sf.slotCountInFrame.toNat
      ((rankBuffers sf).buffers.map fun b => b.slotReqd.toNat)).sum ≤ sf.slotCountInFrame.toNat := by
    rw [Budget.sum_serve_of_none fun _ _ => rfl]
    exact min_le_right _ _
  rw [← hshares] at hsum
  exact hsum

theorem mem_take_iff {α : Type*} {l : List α} {n : ℕ} {x : α} : x ∈ l.take n ↔ ∃ j < n, l[j]? = some x := by
  rw [List.mem_iff_getElem?]
  refine exists_congr fun j => ?_
  rw [List.getElem?_take]
  split
  · rename_i hj
    exact ⟨fun h => ⟨hj, h⟩, fun h => h.2⟩
  · rename_i hj
    exact ⟨fun h => absurd h (by simp), fun h => absurd h.1 hj⟩

/-- The loop of `schedule_packet` comes to the buffer at a place: all up to it have slots. -/
def Reached (l : List SatelliteBuffer) (i : ℕ) : Prop := ∀ c ∈ l.take (i + 1), c.allocatedSlotCount ≠ 0

instance (l : List SatelliteBuffer) (i : ℕ) : Decidable (Reached l i) :=
  List.decidableBAll (fun c : SatelliteBuffer => c.allocatedSlotCount ≠ 0) (l.take (i + 1))

/-- A buffer is reached if and only if it has slots and all before it ask for slots. -/
theorem reached_iff {i : ℕ} (ha : (allocated sf)[i]? = some a) :
    Reached (allocated sf) i ↔
      a.allocatedSlotCount ≠ 0 ∧ ∀ c ∈ (rankBuffers sf).buffers.take i, c.slotReqd ≠ 0 := by
  obtain ⟨hb, hshare⟩ := allocated_share ha
  have hnat : ∀ n : UInt32, n ≠ 0 ↔ n.toNat ≠ 0 := fun n => (UInt32.toNat_inj (b := 0)).not.symm
  constructor
  · intro hall
    have hia : a ∈ (allocated sf).take (i + 1) := by
      rw [mem_take_iff]
      exact ⟨i, Nat.lt_succ_self i, ha⟩
    refine ⟨hall a hia, fun c hc => ?_⟩
    obtain ⟨j, hj, hcj⟩ := mem_take_iff.1 hc
    rw [← allocated_rest, List.getElem?_map] at hcj
    obtain ⟨c', hc', rfl⟩ := Option.map_eq_some_iff.1 hcj
    have hne := hall c' (mem_take_iff.2 ⟨j, by omega, hc'⟩)
    obtain ⟨-, hs⟩ := allocated_share hc'
    rw [hnat] at hne ⊢
    unfold share at hs
    dsimp only at hs ⊢
    omega
  · rintro ⟨hne, hall⟩ c hc
    obtain ⟨j, hj, hcj⟩ := mem_take_iff.1 hc
    by_cases hji : j = i
    · subst hji
      obtain rfl := Option.some.inj (ha.symm.trans hcj)
      exact hne
    · obtain ⟨hbj, hs⟩ := allocated_share hcj
      have hreq := hall _ (mem_take_iff.2 ⟨j, by omega, hbj⟩)
      -- less is left for a later buffer
      have hmono : (((rankBuffers sf).buffers.take j).map fun c => c.slotReqd.toNat).sum ≤
          (((rankBuffers sf).buffers.take i).map fun c => c.slotReqd.toNat).sum :=
        List.Sublist.sum_le_sum ((List.take_sublist_take_left (by omega)).map _) (fun _ _ => Nat.zero_le _)
      rw [hnat] at hne hreq ⊢
      unfold share at hs hshare
      dsimp only at hs hshare hreq
      omega

/-! ### The packets that move -/

/-- The packets of a queue that fit into a room, one after the other. -/
def fitting (bitsPerSlot : UInt32) : ℕ → List Packet → List Packet
  | _, [] => []
  | room, p :: l =>
    if room = 0 ∨ room < slotsNeeded bitsPerSlot p then []
    else p :: fitting bitsPerSlot (room - slotsNeeded bitsPerSlot p) l

/-- A buffer after packets have moved. -/
def served (b : SatelliteBuffer) (moved : List Packet) : SatelliteBuffer :=
  { b with
    packets := b.packets.drop moved.length
    count := b.count - moved.length
    sizeInBytes := b.sizeInBytes - (moved.map Packet.payload).sum }

theorem served_nil (b : SatelliteBuffer) : served b [] = b := by
  simp [served]

theorem fitting_append (bitsPerSlot : UInt32) (room : ℕ) (l : List Packet) :
    l = fitting bitsPerSlot room l ++ l.drop (fitting bitsPerSlot room l).length := by
  induction l generalizing room with
  | nil => rfl
  | cons p l ih =>
    unfold fitting
    split
    · rfl
    · have h := ih (room - slotsNeeded bitsPerSlot p)
      rw [List.length_cons, List.drop_succ_cons, List.cons_append, ← h]

theorem fitting_sum_le (bitsPerSlot : UInt32) (room : ℕ) (l : List Packet) :
    ((fitting bitsPerSlot room l).map (slotsNeeded bitsPerSlot)).sum ≤ room := by
  induction l generalizing room with
  | nil => exact Nat.zero_le _
  | cons p l ih =>
    unfold fitting
    split
    · exact Nat.zero_le _
    · rename_i hroom
      have h := ih (room - slotsNeeded bitsPerSlot p)
      rw [List.map_cons, List.sum_cons]
      omega

theorem fitting_ne_nil {bitsPerSlot : UInt32} {room : ℕ} {l : List Packet} (hroom : room ≠ 0) (hp : l.head? = some p)
    (hfits : slotsNeeded bitsPerSlot p ≤ room) : fitting bitsPerSlot room l ≠ [] := by
  cases l with
  | nil => cases hp
  | cons q l =>
    obtain rfl := Option.some.inj hp
    unfold fitting
    rw [if_neg (by omega)]
    exact List.cons_ne_nil _ _

/-- A buffer from which a first part has moved is exact. -/
theorem Exact.served (h : Exact b) {rest : List Packet} (hb : b.packets = m ++ rest) : Exact (served b m) := by
  have hcount := h.count
  have hsize := h.size
  refine ⟨?_, ?_⟩
  · unfold Satellite.served
    dsimp only
    rw [hcount, List.length_drop]
  · unfold Satellite.served
    dsimp only
    rw [hsize, hb, List.drop_left, List.map_append, List.sum_append, add_sub_cancel_left]

/-- The cast of the slots of a packet that has room in a frame. -/
theorem slotReqdForPacket_toNat {bitsPerSlot slotCount : UInt32} (h : slotsNeeded bitsPerSlot p ≤ slotCount.toNat) :
    (calculateSlotReqdForPacket p.payload bitsPerSlot).toNat = slotsNeeded bitsPerSlot p := by
  have hlt := slotCount.toNat_lt
  unfold calculateSlotReqdForPacket castUint
  rw [Int.floor_intCast, UInt32.toNat_ofNat']
  exact Nat.mod_eq_of_lt (lt_of_le_of_lt h hlt)

/-- **The inner loop** moves the packets that fit. -/
theorem scheduleBuffer_eq {bitsPerSlot slotCount : UInt32} (n : ℕ) (slcount : UInt32) (b : SatelliteBuffer) (fr : Frame)
    (hn : b.packets.length ≤ n) (hsize : ∀ p ∈ b.packets, slotsNeeded bitsPerSlot p ≤ slotCount.toNat) :
    scheduleBuffer bitsPerSlot n slcount b fr =
      (served b (fitting bitsPerSlot slcount.toNat b.packets),
        ⟨fr.packets ++ fitting bitsPerSlot slcount.toNat b.packets⟩) := by
  induction n generalizing slcount b fr with
  | zero =>
    have hnil : b.packets = [] := List.length_eq_zero_iff.1 (Nat.le_zero.1 hn)
    rw [hnil, fitting, served_nil, List.append_nil]
    rfl
  | succ n ih =>
    unfold scheduleBuffer
    cases hp : b.packets with
    | nil =>
      dsimp only
      rw [fitting, served_nil, List.append_nil]
    | cons p rest =>
      dsimp only
      have hneed := slotReqdForPacket_toNat (hsize p (by rw [hp]; exact List.mem_cons_self))
      have hzero : slcount = 0 ↔ slcount.toNat = 0 := (UInt32.toNat_inj (b := 0)).symm
      have hless : calculateSlotReqdForPacket p.payload bitsPerSlot > slcount ↔
          slcount.toNat < slotsNeeded bitsPerSlot p := by
        rw [gt_iff_lt, UInt32.lt_iff_toNat_lt, hneed]
      unfold fitting
      by_cases hstop : slcount.toNat = 0 ∨ slcount.toNat < slotsNeeded bitsPerSlot p
      · rw [if_pos hstop, served_nil, List.append_nil]
        rcases hstop with h0 | h0
        · rw [if_pos (hzero.2 h0)]
        · rw [if_pos (hless.2 h0), ite_self]
      · rw [if_neg hstop, if_neg (by rw [hzero]; omega), if_neg (by rw [hless]; omega)]
        have hsub : (slcount - calculateSlotReqdForPacket p.payload bitsPerSlot).toNat =
            slcount.toNat - slotsNeeded bitsPerSlot p := by
          rw [UInt32.toNat_sub_of_le _ _ (by rw [UInt32.le_iff_toNat_le, hneed]; omega), hneed]
        rw [hp, List.length_cons] at hn
        rw [ih (slcount - calculateSlotReqdForPacket p.payload bitsPerSlot) (dropHead b p rest) _
          (by show rest.length ≤ n; omega) (fun q hq => hsize q (by rw [hp]; exact List.mem_cons_of_mem p hq)), hsub]
        unfold served dropHead
        dsimp only
        rw [hp, List.length_cons, List.drop_succ_cons, List.map_cons, List.sum_cons, sub_sub, Nat.sub_sub,
          Nat.add_comm 1, List.append_assoc, List.singleton_append]

/-- What each buffer gives to the frame. From the first buffer without slots on they give nothing. -/
def gives (bitsPerSlot : UInt32) : List SatelliteBuffer → List (SatelliteBuffer × List Packet)
  | [] => []
  | b :: l =>
    if b.allocatedSlotCount = 0 then (b :: l).map fun c => (c, [])
    else (b, fitting bitsPerSlot b.allocatedSlotCount.toNat b.packets) :: gives bitsPerSlot l

theorem gives_fst (bitsPerSlot : UInt32) (l : List SatelliteBuffer) : (gives bitsPerSlot l).map Prod.fst = l := by
  induction l with
  | nil => rfl
  | cons b l ih =>
    unfold gives
    split
    · rw [List.map_map]
      exact List.map_id _
    · rw [List.map_cons, ih]

/-- **The outer loop** takes from each buffer what it gives. -/
theorem scheduleBuffers_eq {bitsPerSlot slotCount : UInt32} (l : List SatelliteBuffer) (fr : Frame)
    (hsize : ∀ b ∈ l, ∀ p ∈ b.packets, slotsNeeded bitsPerSlot p ≤ slotCount.toNat) :
    scheduleBuffers bitsPerSlot l fr =
      ((gives bitsPerSlot l).map (fun g => served g.1 g.2),
        ⟨fr.packets ++ (gives bitsPerSlot l).flatMap Prod.snd⟩) := by
  induction l generalizing fr with
  | nil => simp [scheduleBuffers, gives]
  | cons b l ih =>
    unfold scheduleBuffers gives
    split
    · have hsame : ((b :: l).map fun c => (c, ([] : List Packet))).map (fun g => served g.1 g.2) = b :: l := by
        rw [List.map_map]
        exact (List.map_congr_left fun c _ => served_nil c).trans (List.map_id _)
      have hnone : ((b :: l).map fun c => (c, ([] : List Packet))).flatMap Prod.snd = [] := by
        simp
      rw [hsame, hnone, List.append_nil]
    · dsimp only
      rw [scheduleBuffer_eq b.packets.length _ b fr le_rfl (hsize b List.mem_cons_self),
        ih _ fun c hc => hsize c (List.mem_cons_of_mem b hc), List.map_cons, List.flatMap_cons, List.append_assoc]

/-- What the buffer at a place gives: what fits, if all up to it have slots. -/
theorem gives_getElem? {bitsPerSlot : UInt32} {l : List SatelliteBuffer} {i : ℕ}
    (h : (gives bitsPerSlot l)[i]? = some (b, m)) :
    l[i]? = some b ∧ m = if Reached l i then fitting bitsPerSlot b.allocatedSlotCount.toNat b.packets else [] := by
  induction l generalizing i with
  | nil => cases h
  | cons c l ih =>
    unfold gives at h
    split at h
    · rename_i hzero
      rw [List.getElem?_map] at h
      obtain ⟨d, hd, heq⟩ := Option.map_eq_some_iff.1 h
      obtain ⟨rfl, rfl⟩ := Prod.mk.inj heq
      have hstop : ¬ Reached (c :: l) i := fun hall => hall c List.mem_cons_self hzero
      exact ⟨hd, (if_neg hstop).symm⟩
    · rename_i hslots
      cases i with
      | zero =>
        obtain ⟨rfl, rfl⟩ := Prod.mk.inj (Option.some.inj h)
        have hall : Reached (c :: l) 0 := by simpa [Reached] using hslots
        exact ⟨rfl, (if_pos hall).symm⟩
      | succ i =>
        obtain ⟨hi, hm⟩ := ih h
        refine ⟨hi, hm.trans ?_⟩
        have hiff : Reached (c :: l) (i + 1) ↔ Reached l i := by
          unfold Reached
          rw [List.take_succ_cons, List.forall_mem_cons]
          exact and_iff_right hslots
        by_cases hall : Reached l i
        · rw [if_pos hall, if_pos (hiff.2 hall)]
        · rw [if_neg hall, if_neg fun h => hall (hiff.1 h)]

/-- What a buffer gives is a first part of its packets that fits into its slots. -/
theorem gives_fits {bitsPerSlot : UInt32} {l : List SatelliteBuffer} (h : (b, m) ∈ gives bitsPerSlot l) :
    b.packets = m ++ b.packets.drop m.length ∧
      (m.map (slotsNeeded bitsPerSlot)).sum ≤ b.allocatedSlotCount.toNat := by
  obtain ⟨i, hi⟩ := List.mem_iff_getElem?.1 h
  obtain ⟨-, hm⟩ := gives_getElem? hi
  split at hm
  · rw [hm]
    exact ⟨fitting_append _ _ _, fitting_sum_le _ _ _⟩
  · rw [hm]
    exact ⟨rfl, Nat.zero_le _⟩

/-! ### The frame -/

/-- `update_rank` for one buffer. -/
def reranked (sf : Superframe) (b : SatelliteBuffer) : SatelliteBuffer :=
  { b with rank := b.rank - b.allocatedSlotCount.toNat * 1 / sf.slotCountInFrame.toNat }

section Frame

variable (hsize : ∀ b ∈ sf.buffers, ∀ p ∈ b.packets, slotsNeeded sf.bitsPerSlot p ≤ sf.slotCountInFrame.toNat)

/-- A buffer of the frame is one of the superframe, ranked and with slots. -/
theorem mem_allocated (h : a ∈ allocated sf) :
    ∃ before ∈ sf.buffers, { a with allocatedSlotCount := 0 } = prepare sf.bitsPerSlot before := by
  have hmem : { a with allocatedSlotCount := 0 } ∈ (rankBuffers sf).buffers := by
    rw [← allocated_rest]
    exact List.mem_map_of_mem (f := fun b : SatelliteBuffer => { b with allocatedSlotCount := 0 }) h
  obtain ⟨before, hbefore, heq⟩ := List.mem_map.1 ((rankBuffers_perm sf).mem_iff.1 hmem)
  exact ⟨before, hbefore, heq.symm⟩

include hsize in
theorem allocateSlot_eq (fr : Frame) :
    (satelliteAllocateSlot sf fr).1.buffers =
        (gives sf.bitsPerSlot (allocated sf)).map (fun g => reranked sf (served g.1 g.2)) ∧
      (satelliteAllocateSlot sf fr).2.packets = fr.packets ++ (gives sf.bitsPerSlot (allocated sf)).flatMap Prod.snd := by
  have hall : ∀ b ∈ allocated sf, ∀ p ∈ b.packets, slotsNeeded sf.bitsPerSlot p ≤ sf.slotCountInFrame.toNat := by
    intro b hb p hp
    obtain ⟨before, hbefore, heq⟩ := mem_allocated hb
    have hpackets := (fields_of_prepare heq).2.1
    exact hsize before hbefore p (hpackets ▸ hp)
  have h := scheduleBuffers_eq (allocated sf) fr hall
  have hschedule : schedulePacket (allocateSlotCount (rankBuffers sf)) fr =
      ({ allocateSlotCount (rankBuffers sf) with
        buffers := (gives sf.bitsPerSlot (allocated sf)).map fun g => served g.1 g.2 },
        ⟨fr.packets ++ (gives sf.bitsPerSlot (allocated sf)).flatMap Prod.snd⟩) := by
    unfold schedulePacket
    rw [show scheduleBuffers (allocateSlotCount (rankBuffers sf)).bitsPerSlot
      (allocateSlotCount (rankBuffers sf)).buffers fr = _ from h]
  unfold satelliteAllocateSlot
  rw [hschedule]
  refine ⟨?_, rfl⟩
  unfold updateRank
  dsimp only
  rw [List.map_map]
  rfl

theorem allocated_keys (sf : Superframe) :
    ((allocated sf).map SatelliteBuffer.key).Perm (sf.buffers.map SatelliteBuffer.key) := by
  have hkeys : (rankBuffers sf).buffers.map SatelliteBuffer.key = (allocated sf).map SatelliteBuffer.key := by
    rw [← allocated_rest, List.map_map]
    rfl
  rw [← hkeys]
  refine ((rankBuffers_perm sf).map _).trans (List.Perm.of_eq ?_)
  rw [List.map_map]
  rfl

variable (hdistinct : (sf.buffers.map SatelliteBuffer.key).Nodup) (hexact : ∀ b ∈ sf.buffers, Exact b)

include hdistinct in
/-- The buffer of the frame with the key of a buffer of the superframe. -/
theorem allocated_of_key {before : SatelliteBuffer} (hbefore : before ∈ sf.buffers) (ha : a ∈ allocated sf)
    (hkey : a.key = before.key) : { a with allocatedSlotCount := 0 } = prepare sf.bitsPerSlot before := by
  obtain ⟨other, hother, heq⟩ := mem_allocated ha
  have hsame := (fields_of_prepare heq).1.symm.trans hkey
  rw [heq, List.inj_on_of_nodup_map hdistinct hother hbefore hsame]

include hdistinct in
theorem gives_keys_nodup : ((gives sf.bitsPerSlot (allocated sf)).map fun g => g.1.key).Nodup := by
  have h : (gives sf.bitsPerSlot (allocated sf)).map (fun g => g.1.key) = (allocated sf).map SatelliteBuffer.key := by
    conv_rhs => rw [← gives_fst sf.bitsPerSlot (allocated sf)]
    rw [List.map_map]
    rfl
  rw [h]
  exact (allocated_keys sf).nodup_iff.2 hdistinct

end Frame

/-- **The frame is in order** if and only if no buffer is held up. -/
theorem allocation_iff (sf : Superframe) (fr : Frame) (hdistinct : (sf.buffers.map SatelliteBuffer.key).Nodup)
    (hexact : ∀ b ∈ sf.buffers, Exact b)
    (hsize : ∀ b ∈ sf.buffers, ∀ p ∈ b.packets, slotsNeeded sf.bitsPerSlot p ≤ sf.slotCountInFrame.toNat) :
    FrameOk sf fr (satelliteAllocateSlot sf fr).1 (satelliteAllocateSlot sf fr).2 ↔ NoneHeldUp sf := by
  obtain ⟨hbuffers, hpackets⟩ := allocateSlot_eq hsize fr
  have hnodup := gives_keys_nodup hdistinct
  have hfst := gives_fst sf.bitsPerSlot (allocated sf)
  constructor
  · intro hok i b h hb hhead hneed
    -- the buffer with its slots, and what it gives
    rw [← allocated_rest, List.getElem?_map] at hb
    obtain ⟨a, ha, rfl⟩ := Option.map_eq_some_iff.1 hb
    obtain ⟨-, hshare⟩ := allocated_share ha
    obtain ⟨⟨a', m⟩, hg, rfl⟩ : ∃ g, (gives sf.bitsPerSlot (allocated sf))[i]? = some g ∧ g.1 = a := by
      rw [← hfst, List.getElem?_map] at ha
      exact Option.map_eq_some_iff.1 ha
    obtain ⟨-, hm⟩ := gives_getElem? hg
    obtain ⟨before, hbefore, hprepare⟩ := mem_allocated (List.mem_of_getElem? ha)
    obtain ⟨hkey, hqueue, -⟩ := fields_of_prepare hprepare
    obtain ⟨moved, -, hmoves⟩ := hok.moves
    have hafter : reranked sf (served a' m) ∈ (satelliteAllocateSlot sf fr).1.buffers := by
      rw [hbuffers]
      exact List.mem_map.2 ⟨(a', m), List.mem_of_getElem? hg, rfl⟩
    obtain ⟨hfifo, -, -, hfirst⟩ := hmoves before hbefore _ hafter hkey
    have hsent := hfirst h (hqueue ▸ hhead) (by
      show slotsNeeded sf.bitsPerSlot h ≤ a'.allocatedSlotCount.toNat
      rw [hshare]
      exact hneed)
    have hne : m ≠ [] := by
      rintro rfl
      have hdrop : before.packets = moved before.key ++ before.packets := by
        conv_lhs => rw [hfifo]
        show _ = moved before.key ++ before.packets
        rw [← hqueue]
        rfl
      have hlen := congrArg List.length hdrop
      rw [List.length_append] at hlen
      have hpos := List.length_pos_of_ne_nil hsent
      omega
    have hreached : Reached (allocated sf) i := by
      by_contra hnot
      rw [if_neg hnot] at hm
      exact hne hm
    obtain ⟨hslots, hall⟩ := (reached_iff ha).1 hreached
    refine ⟨?_, hall⟩
    rw [← hshare]
    exact fun h0 => hslots (UInt32.toNat_inj.1 h0)
  · intro hnone
    refine ⟨?_, ?_, ?_⟩
    · have h := allocated_within sf
      rw [← hfst, List.map_map] at h
      rw [hbuffers, List.map_map]
      exact h
    · have h := allocated_keys sf
      rw [← hfst, List.map_map] at h
      rw [hbuffers, List.map_map]
      exact h
    · refine ⟨fun key => ((gives sf.bitsPerSlot (allocated sf)).find? fun g => g.1.key = key).elim [] Prod.snd, ?_, ?_⟩
      · rw [hpackets, hbuffers, List.flatMap_map]
        congr 1
        refine List.flatMap_congr fun g hg => ?_
        have hfind := FirstMatch.find?_key hnodup hg
        show g.2 = ((gives sf.bitsPerSlot (allocated sf)).find? fun g' => g'.1.key = g.1.key).elim [] Prod.snd
        rw [hfind]
        rfl
      · intro before hbefore after hafter hkey
        rw [hbuffers] at hafter
        obtain ⟨⟨a, m⟩, hg, rfl⟩ := List.mem_map.1 hafter
        have ha : a ∈ allocated sf := by
          rw [← hfst]
          exact List.mem_map_of_mem hg
        have hkey' : a.key = before.key := hkey
        have hprepare := allocated_of_key hdistinct hbefore ha hkey'
        obtain ⟨-, hqueue, hcount, hbytes⟩ := fields_of_prepare hprepare
        have hexacta : Exact a := by
          have h := hexact before hbefore
          exact ⟨by rw [hcount, hqueue]; exact h.count, by rw [hbytes, hqueue]; exact h.size⟩
        have hfind := FirstMatch.find?_key hnodup hg
        dsimp only at hfind
        rw [hkey'] at hfind
        dsimp only
        rw [hfind]
        obtain ⟨hfifo, hfits⟩ := gives_fits hg
        have hserved := hexacta.served hfifo
        refine ⟨?_, hfits, ⟨hserved.count, hserved.size⟩, ?_⟩
        · rw [← hqueue]
          exact hfifo
        · intro h hhead hneed
          obtain ⟨i, hi⟩ := List.mem_iff_getElem?.1 hg
          obtain ⟨hai, hm⟩ := gives_getElem? hi
          obtain ⟨hb, hshare⟩ := allocated_share hai
          have hneed' : slotsNeeded sf.bitsPerSlot h ≤ a.allocatedSlotCount.toNat := hneed
          have hhead' : a.packets.head? = some h := hqueue ▸ hhead
          obtain ⟨hslots, hall⟩ := hnone i _ h hb hhead' (hshare ▸ hneed')
          rw [← hshare] at hslots
          have hreached := (reached_iff hai).2 ⟨fun h0 => hslots (by rw [h0]; rfl), hall⟩
          rw [if_pos hreached] at hm
          show m ≠ []
          rw [hm]
          exact fitting_ne_nil hslots hhead' hneed'

/-! ### Samples -/

/-- A buffer of a terminal and the gateway `1`, with its rank. -/
def sampleBuffer (utId : ℕ) (rank : ℚ) (packets : List Packet) : SatelliteBuffer :=
  { satelliteBufferInit ⟨utId, 1, 1, 1⟩ 10000 50 with
    rank := rank
    packets := packets
    count := packets.length
    sizeInBytes := (packets.map Packet.payload).sum }

/-- Frames of six slots, of 100 bits each. -/
def sampleSuperframe (buffers : List SatelliteBuffer) : Superframe := ⟨buffers, 100, 6⟩

/-- Two terminals, each with packets to send. -/
def bothSend : Superframe :=
  sampleSuperframe [sampleBuffer 2 0 [⟨1, 10⟩, ⟨2, 20⟩], sampleBuffer 3 (1 / 2) [⟨3, 30⟩, ⟨4, 10⟩]]

/-- The second terminal sends all it has, the first what still fits. -/
theorem allocation_sample :
    (FrameOk bothSend ⟨[]⟩ (satelliteAllocateSlot bothSend ⟨[]⟩).1 (satelliteAllocateSlot bothSend ⟨[]⟩).2 ↔
        NoneHeldUp bothSend) ∧
      (satelliteAllocateSlot bothSend ⟨[]⟩).2.packets = [⟨3, 30⟩, ⟨4, 10⟩, ⟨1, 10⟩] := by
  refine ⟨allocation_iff bothSend ⟨[]⟩ (by decide) ?_ (by decide +kernel), by decide +kernel⟩
  intro b hb
  rcases List.mem_cons.1 hb with rfl | hb
  · exact ⟨rfl, rfl⟩
  · obtain rfl := List.mem_singleton.1 hb
    exact ⟨rfl, rfl⟩

/-- A terminal that has used one slot in each of two frames has nothing to send, and another has one packet. -/
def oneWaits : Superframe := sampleSuperframe [sampleBuffer 2 (5 / 3) [], sampleBuffer 3 0 [⟨1, 10⟩]]

/-- **A packet waits before an empty frame**: it is given the slot it needs, and the loop stops at the empty buffer. -/
theorem allocation_stops :
    ¬ ∀ (sf : Superframe) (fr : Frame), (sf.buffers.map SatelliteBuffer.key).Nodup → (∀ b ∈ sf.buffers, Exact b) →
      (∀ b ∈ sf.buffers, ∀ p ∈ b.packets, slotsNeeded sf.bitsPerSlot p ≤ sf.slotCountInFrame.toNat) →
      FrameOk sf fr (satelliteAllocateSlot sf fr).1 (satelliteAllocateSlot sf fr).2 := by
  intro hall
  have hok := hall oneWaits ⟨[]⟩ (by decide) (by
    intro b hb
    rcases List.mem_cons.1 hb with rfl | hb
    · exact ⟨rfl, rfl⟩
    · obtain rfl := List.mem_singleton.1 hb
      exact ⟨rfl, rfl⟩) (by decide +kernel)
  obtain ⟨moved, hframe, hmoves⟩ := hok.moves
  have hafter : ∃ after ∈ (satelliteAllocateSlot oneWaits ⟨[]⟩).1.buffers,
      after.key = ⟨3, 1, 1, 1⟩ ∧ after.packets = [⟨1, 10⟩] ∧ after.allocatedSlotCount = 1 := by decide +kernel
  obtain ⟨after, hmem, hkey, hpackets, hslots⟩ := hafter
  obtain ⟨hfifo, -, -, hfirst⟩ := hmoves (sampleBuffer 3 0 [⟨1, 10⟩])
    (List.mem_cons_of_mem _ (List.mem_singleton_self _)) after hmem hkey
  have hsent := hfirst ⟨1, 10⟩ rfl (by rw [hslots]; decide +kernel)
  have hlen := congrArg List.length hfifo
  rw [List.length_append, hpackets] at hlen
  have hpos := List.length_pos_of_ne_nil hsent
  have hone : (sampleBuffer 3 0 [⟨1, 10⟩]).packets.length = 1 := rfl
  rw [hone, List.length_singleton] at hlen
  omega

end NetSim.Satellite
