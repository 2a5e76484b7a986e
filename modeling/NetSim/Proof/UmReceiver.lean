import NetSim.Lib.Cover
import NetSim.Lib.Machine
import NetSim.Spec.RlcUm

/-!
# An RLC UM receiver
-/

/-!
## Reassembly in an RLC UM receiver

The segments of an SDU are numbered from zero and arrive in any order, each at least once. The buffer of the SDU is complete
when the last missing one arrives, whatever came twice before. But it keeps what came twice, and the payloads of all that it
keeps are added up.

* `isAllByteSegmentReceived_bufferOf`: when a buffer is complete.
* `feed_incomplete`: what is kept until then.
* `um_reassembles_iff`: the SDU has its payload exactly if nothing came twice.
-/

namespace NetSim.Rlc.UmRx

open Covering

/-- The place of a segment in an SDU of `n` segments. -/
def siOf (n i : ℕ) : SI := if i = 0 then .first else if i + 1 = n then .last else .middle

/-- An SDU cut into the segments `seg 0` to `seg (n - 1)`. -/
structure IsSplit (sn n : ℕ) (seg : ℕ → UmdPdu) : Prop where
  several : 2 ≤ n
  hdr : ∀ i < n, (seg i).hdr = ⟨siOf n i, sn, i⟩
  positive : ∀ i < n, 0 < (seg i).mac.payload

/-- PDUs arrive one after the other: the receiver, and what is handed to PDCP. -/
def feed (rx : UmRx) : List UmdPdu → Option (UmRx × List (List UmdPdu))
  | [] => some (rx, [])
  | pdu :: pdus => do
    let r ← rx.placeUmdPduInReceptionBuffer pdu
    let q ← feed r.1 pdus
    return (q.1, r.2 ++ q.2)

/-- **The SDU is reassembled**: nothing is handed to PDCP before the last missing segment arrives, and then one SDU with the
payload of all segments. -/
def Reassembles (rx : UmRx) (n : ℕ) (seg : ℕ → UmdPdu) (arrivals : List ℕ) : Prop :=
  ∃ arr x post, arrivals = arr ++ x :: post ∧ Completes n arr x ∧ ∃ rx₁ rx₂ pdus,
    rx.feed (arr.map seg) = some (rx₁, []) ∧ rx₁.placeUmdPduInReceptionBuffer (seg x) = some (rx₂, [pdus]) ∧
      (pdus.map fun p => p.mac.payload).sum = ((List.range n).map fun i => (seg i).mac.payload).sum

/-- No segment arrives twice before the last missing one arrives. -/
def NoRepeat (n : ℕ) (arrivals : List ℕ) : Prop :=
  ∀ arr x post, arrivals = arr ++ x :: post → Completes n arr x → arr.Nodup

/-- The buffer after the arrivals `l`. -/
def bufferOf (sn n : ℕ) (seg : ℕ → UmdPdu) (l : List ℕ) : UmReceptionBuffer :=
  ⟨sn, if n - 1 ∈ l then n - 1 else 0, decide (n - 1 ∈ l), l.map seg⟩

/-- All buffers after the arrivals `l`; those of other SDUs are `others`. -/
def buffersOf (others : List UmReceptionBuffer) (sn n : ℕ) (seg : ℕ → UmdPdu) (l : List ℕ) : List UmReceptionBuffer :=
  if l = [] then others else others ++ [bufferOf sn n seg l]

variable {sn n x : ℕ} {seg : ℕ → UmdPdu} {l arr : List ℕ} {rx : UmRx} {others : List UmReceptionBuffer}

/-! ## One arrival -/

theorem siOf_eq_last_iff (hn : 2 ≤ n) : siOf n x = .last ↔ x = n - 1 := by
  unfold siOf
  split_ifs with h0 h1
  · simp only [false_iff]
    omega
  · simp only [true_iff]
    omega
  · simp only [false_iff]
    omega

theorem add_bufferOf (h : IsSplit sn n seg) (hx : x < n) (l : List ℕ) :
    (bufferOf sn n seg l).add (seg x) = bufferOf sn n seg (l ++ [x]) := by
  have hlast := siOf_eq_last_iff (x := x) h.several
  unfold UmReceptionBuffer.add bufferOf
  rw [h.hdr x hx]
  dsimp only
  rw [List.map_append, List.map_singleton]
  by_cases hend : x = n - 1
  · have hmem : n - 1 ∈ l ++ [x] := by simp [hend]
    simp only [hlast.2 hend, if_true, hmem, decide_true]
    rw [hend]
  · have hsi : siOf n x ≠ .last := fun hsi => hend (hlast.1 hsi)
    have hmem : n - 1 ∈ l ++ [x] ↔ n - 1 ∈ l := by
      rw [List.mem_append, List.mem_singleton, or_iff_left (Ne.symm hend)]
    simp only [hsi, if_false, hmem]

theorem umPlaceIn_append {pdu : UmdPdu} (hothers : ∀ b ∈ others, b.sn ≠ pdu.hdr.sn) (bs : List UmReceptionBuffer) :
    umPlaceIn pdu (others ++ bs) = ((umPlaceIn pdu bs).1, others ++ (umPlaceIn pdu bs).2) := by
  induction others with
  | nil => rfl
  | cons b others ih =>
    have hb := hothers b List.mem_cons_self
    have hrest := ih fun c hc => hothers c (List.mem_cons_of_mem b hc)
    have hcons : umPlaceIn pdu (b :: (others ++ bs)) =
        ((umPlaceIn pdu (others ++ bs)).1, b :: (umPlaceIn pdu (others ++ bs)).2) := if_neg hb
    rw [List.cons_append, hcons, hrest]
    rfl

theorem umPlaceIn_buffersOf (h : IsSplit sn n seg) (hothers : ∀ b ∈ others, b.sn ≠ sn) (hx : x < n) (l : List ℕ) :
    umPlaceIn (seg x) (buffersOf others sn n seg l) =
      (bufferOf sn n seg (l ++ [x]), buffersOf others sn n seg (l ++ [x])) := by
  have hsn : (seg x).hdr.sn = sn := by rw [h.hdr x hx]
  have hafter : buffersOf others sn n seg (l ++ [x]) = others ++ [bufferOf sn n seg (l ++ [x])] := by
    unfold buffersOf
    rw [if_neg (by simp)]
  have hothers' : ∀ b ∈ others, b.sn ≠ (seg x).hdr.sn := by
    rw [hsn]
    exact hothers
  rw [hafter]
  unfold buffersOf
  by_cases hl : l = []
  · -- the first segment creates the buffer
    have hnew : umPlaceIn (seg x) [] = (bufferOf sn n seg [x], [bufferOf sn n seg [x]]) := by
      have hadd := add_bufferOf h hx []
      unfold umPlaceIn
      rw [hsn]
      dsimp only
      rw [← List.nil_append [x], ← hadd]
      rfl
    have happend := umPlaceIn_append hothers' []
    rw [List.append_nil] at happend
    rw [if_pos hl, happend, hnew, hl]
    rfl
  · have hfound : umPlaceIn (seg x) [bufferOf sn n seg l] =
        (bufferOf sn n seg (l ++ [x]), [bufferOf sn n seg (l ++ [x])]) := by
      have hself : (bufferOf sn n seg l).sn = (seg x).hdr.sn := hsn.symm
      unfold umPlaceIn
      rw [if_pos hself, add_bufferOf h hx]
    rw [if_neg hl, umPlaceIn_append hothers', hfound]

/-- **A buffer is complete** exactly if each segment has arrived. -/
theorem isAllByteSegmentReceived_bufferOf (h : IsSplit sn n seg) (hl : ∀ i ∈ l, i < n) :
    (bufferOf sn n seg l).isAllByteSegmentReceived = some (decide (∀ i < n, i ∈ l)) := by
  have hso : ∀ i ∈ l, (seg i).hdr.so = i := by
    intro i hi
    rw [h.hdr i (hl i hi)]
  have hn := h.several
  unfold UmReceptionBuffer.isAllByteSegmentReceived bufferOf
  dsimp only
  by_cases hend : n - 1 ∈ l
  · have hassert : ((l.map seg).any fun p => p.hdr.so > if n - 1 ∈ l then n - 1 else 0) = false := by
      rw [List.any_eq_false]
      intro p hp
      obtain ⟨i, hi, rfl⟩ := List.mem_map.1 hp
      have hlt := hl i hi
      rw [hso i hi, if_pos hend]
      simp only [decide_eq_true_eq]
      omega
    rw [hassert]
    simp only [hend, if_true, decide_true, not_true, if_false, Bool.false_eq_true]
    congr 1
    rw [Bool.eq_iff_iff]
    simp only [List.all_eq_true, List.mem_range, List.any_eq_true, decide_eq_true_eq]
    constructor
    · intro hall i hi
      rcases Nat.lt_or_ge i (n - 1) with hlt | hge
      · obtain ⟨p, hp, hsoi⟩ := hall i hlt
        obtain ⟨j, hj, rfl⟩ := List.mem_map.1 hp
        rw [hso j hj] at hsoi
        rwa [← hsoi]
      · have heq : i = n - 1 := by omega
        rwa [heq]
    · intro hall i hi
      have hmem := hall i (by omega)
      exact ⟨seg i, List.mem_map_of_mem hmem, hso i hmem⟩
  · have hnot : ¬ ∀ i < n, i ∈ l := fun hall => hend (hall (n - 1) (by omega))
    simp [hend, hnot]

theorem place_eq (h : IsSplit sn n seg) (hothers : ∀ b ∈ others, b.sn ≠ sn)
    (hrx : rx.receptionBuffer = buffersOf others sn n seg l) (hl : ∀ i ∈ l ++ [x], i < n) :
    ∃ rx', rx.placeUmdPduInReceptionBuffer (seg x) =
        some (rx', if ∀ i < n, i ∈ l ++ [x] then [(l ++ [x]).map seg] else []) ∧
      (¬ (∀ i < n, i ∈ l ++ [x]) → rx'.receptionBuffer = buffersOf others sn n seg (l ++ [x])) := by
  have hx : x < n := hl x (by simp)
  have hcomplete := isAllByteSegmentReceived_bufferOf h hl
  unfold placeUmdPduInReceptionBuffer
  rw [hrx, umPlaceIn_buffersOf h hothers hx]
  dsimp only
  rw [hcomplete]
  by_cases hall : ∀ i < n, i ∈ l ++ [x]
  · rw [if_pos hall, decide_eq_true hall]
    exact ⟨_, rfl, fun hnot => (hnot hall).elim⟩
  · refine ⟨{ rx with receptionBuffer := buffersOf others sn n seg (l ++ [x]) }, ?_, fun _ => rfl⟩
    rw [if_neg hall, decide_eq_false hall]
    rfl

/-! ## All arrivals -/

/-- **As long as a segment is missing**, nothing is handed to PDCP and all that has arrived is kept. -/
theorem feed_incomplete (h : IsSplit sn n seg) (hothers : ∀ b ∈ others, b.sn ≠ sn)
    (hrx : rx.receptionBuffer = buffersOf others sn n seg l) (hl : ∀ i ∈ l ++ arr, i < n)
    (hmissing : ¬ ∀ i < n, i ∈ l ++ arr) : ∃ rx', rx.feed (arr.map seg) = some (rx', []) ∧
      rx'.receptionBuffer = buffersOf others sn n seg (l ++ arr) := by
  induction arr generalizing l rx with
  | nil =>
    rw [List.append_nil]
    exact ⟨rx, rfl, hrx⟩
  | cons x arr ih =>
    have hsplit : l ++ x :: arr = l ++ [x] ++ arr := by simp
    rw [hsplit] at hl hmissing ⊢
    have hl' : ∀ i ∈ l ++ [x], i < n := fun i hi => hl i (List.mem_append_left arr hi)
    have hmissing' : ¬ ∀ i < n, i ∈ l ++ [x] :=
      fun hall => hmissing fun i hi => List.mem_append_left arr (hall i hi)
    obtain ⟨rx₁, hplace, hrx₁⟩ := place_eq h hothers hrx hl'
    rw [if_neg hmissing'] at hplace
    obtain ⟨rx₂, hfeed, hrx₂⟩ := ih (hrx₁ hmissing') hl hmissing
    refine ⟨rx₂, ?_, hrx₂⟩
    rw [List.map_cons]
    unfold feed
    rw [hplace]
    dsimp only [Option.bind_eq_bind, Option.bind_some]
    rw [hfeed]
    rfl

/-- At the last missing segment, all that has arrived is joined. -/
theorem feed_completes (h : IsSplit sn n seg) (hothers : ∀ b ∈ rx.receptionBuffer, b.sn ≠ sn) (hx : Completes n arr x) :
    ∃ rx₁ rx₂, rx.feed (arr.map seg) = some (rx₁, []) ∧
      rx₁.placeUmdPduInReceptionBuffer (seg x) = some (rx₂, [(arr ++ [x]).map seg]) := by
  obtain ⟨hnew, hcovers⟩ := hx
  have hlt : ∀ i ∈ arr ++ [x], i < n := fun i hi => hcovers.lt hi
  have hmissing : ¬ ∀ i < n, i ∈ [] ++ arr := fun hall => hnew (hall x (hlt x (by simp)))
  have hempty : rx.receptionBuffer = buffersOf rx.receptionBuffer sn n seg [] := rfl
  obtain ⟨rx₁, hfeed, hrx₁⟩ := feed_incomplete h hothers hempty (fun i hi => hlt i (List.mem_append_left [x] hi)) hmissing
  obtain ⟨rx₂, hplace, -⟩ := place_eq h hothers hrx₁ hlt
  have hall : ∀ i < n, i ∈ [] ++ arr ++ [x] := fun i hi => (hcovers i).1 hi
  rw [if_pos hall] at hplace
  exact ⟨rx₁, rx₂, hfeed, hplace⟩

/-- What is joined has the right payload exactly if nothing came twice. -/
theorem payload_joined_iff (h : IsSplit sn n seg) (hx : Completes n arr x) :
    (((arr ++ [x]).map seg).map fun p => p.mac.payload).sum = ((List.range n).map fun i => (seg i).mac.payload).sum ↔
      arr.Nodup := by
  have hnodup : (arr ++ [x]).Nodup ↔ arr.Nodup := by
    rw [List.nodup_append]
    constructor
    · exact fun h => h.1
    · intro harr
      refine ⟨harr, List.nodup_singleton x, ?_⟩
      rintro i hi j hj rfl
      rw [List.mem_singleton.1 hj] at hi
      exact hx.1 hi
  rw [List.map_map, ← hnodup]
  exact sum_eq_iff_nodup hx.2 h.positive

/-- What comes twice is joined twice. -/
theorem Reassembles.noRepeat {arrivals : List ℕ} (h : IsSplit sn n seg) (hempty : ∀ b ∈ rx.receptionBuffer, b.sn ≠ sn)
    (hright : Reassembles rx n seg arrivals) : NoRepeat n arrivals := by
  obtain ⟨arr, x, post, heq, hx, rx₁, rx₂, pdus, hfeed, hplace, hsum⟩ := hright
  obtain ⟨rx₁', rx₂', hfeed', hplace'⟩ := feed_completes h hempty hx
  obtain ⟨rfl, -⟩ := Prod.mk.inj (Option.some.inj (hfeed.symm.trans hfeed'))
  obtain ⟨-, hpdus⟩ := Prod.mk.inj (Option.some.inj (hplace.symm.trans hplace'))
  obtain rfl := (List.cons.inj hpdus).1
  intro arr' x' post' heq' hx'
  rw [← hx.unique hx' (heq.symm.trans heq')]
  exact (payload_joined_iff h hx).1 hsum

/-- **An SDU is reassembled exactly if** no segment of it arrives twice before the last missing one, for all orders in which
the segments arrive, each at least once. -/
theorem um_reassembles_iff (sn n : ℕ) (seg : ℕ → UmdPdu) (h : IsSplit sn n seg) (rx : UmRx)
    (hempty : ∀ b ∈ rx.receptionBuffer, b.sn ≠ sn) (arrivals : List ℕ) (hall : Covers n arrivals) :
    Reassembles rx n seg arrivals ↔ NoRepeat n arrivals := by
  constructor
  · exact Reassembles.noRepeat h hempty
  · intro hrepeat
    have hpos : 0 < n := by
      have hn := h.several
      omega
    obtain ⟨arr, x, post, heq, hx⟩ := exists_completes hpos hall
    obtain ⟨rx₁, rx₂, hfeed, hplace⟩ := feed_completes h hempty hx
    exact ⟨arr, x, post, heq, hx, rx₁, rx₂, _, hfeed, hplace, (payload_joined_iff h hx).2 (hrepeat arr x post heq hx)⟩

/-- An SDU of 100 bytes in three segments. -/
def threeSegs (i : ℕ) : UmdPdu := ⟨0, ⟨siOf 3 i, 5, i⟩, ⟨if i = 2 then 20 else 40, 0, if i = 2 then 20 else 40⟩⟩

theorem threeSegs_split : IsSplit 5 3 threeSegs where
  several := by decide
  hdr := fun _ _ => rfl
  positive := by decide

/-- They arrive once each, the last one first. -/
theorem covers_210 : Covers 3 [2, 0, 1] := by
  intro i
  simp only [List.mem_cons, List.not_mem_nil, or_false]
  omega

theorem um_reassembles_sample : Reassembles .init 3 threeSegs [2, 0, 1] := by
  refine (um_reassembles_iff 5 3 threeSegs threeSegs_split .init (fun _ hb => absurd hb List.not_mem_nil) [2, 0, 1]
    covers_210).2 ?_
  intro arr x post heq _
  have hnodup : (arr ++ x :: post).Nodup := heq ▸ (by decide)
  exact (List.nodup_append.1 hnodup).1

/-- The first segment arrives twice: the SDU handed to PDCP has 140 bytes. -/
theorem um_repeat_added : ((UmRx.init.feed ([0, 0, 1, 2].map threeSegs)).map fun r => r.2.map fun pdus =>
      (pdus.map fun p => p.mac.payload).sum) = some [140] ∧ ¬ Reassembles .init 3 threeSegs [0, 0, 1, 2] := by
  refine ⟨by decide, ?_⟩
  intro hright
  have hcompletes : Completes 3 [0, 0, 1] 2 := by
    refine ⟨by decide, ?_⟩
    intro i
    simp only [List.cons_append, List.nil_append, List.mem_cons, List.not_mem_nil, or_false]
    omega
  have hnodup := hright.noRepeat threeSegs_split (fun _ hb => absurd hb List.not_mem_nil) [0, 0, 1] 2 [] rfl hcompletes
  exact absurd hnodup (by decide)

end NetSim.Rlc.UmRx

/-!
## The reassembly window of a UM receiver

`RX_Next_Highest` moves only in the branch that drops a PDU, and that branch needs an SN
below it. It therefore stays 0 in every run (`UmReceiver.reach_runInv`): the window is empty,
every segmented PDU is placed, and `RX_Next_Highest` exceeds no SN. The window rules hold
exactly as long as no segmented PDU has come (`UmReceiver.windowRules_iff`).
-/

namespace NetSim.Rlc

open Word

/-- A segmented PDU that came, with `RX_Next_Highest` before it and whether it was placed. -/
structure UmReception where
  rxNextHighest : ℕ
  sn : ℕ
  placed : Bool

/-- Not below the reassembly window: inside it, or at or above `RX_Next_Highest`. -/
def UmReception.IsNotBelow (r : UmReception) : Prop := r.rxNextHighest ≤ r.sn + umWindowSize

/-- A receiving entity with the segmented PDUs that came so far. -/
structure UmReceiver where
  rx : UmRx
  received : List UmReception

namespace UmReceiver

inductive Event
  | receive (pdu : UmdPdu)
  | reassembly

def init : UmReceiver := ⟨.init, []⟩

/-- What is filed of an arriving PDU. One with `SI_ALL` carries no SN. -/
def file (s : UmReceiver) (pdu : UmdPdu) : List UmReception :=
  if pdu.hdr.si = .all then s.received
  else s.received ++ [⟨s.rx.rxNextHighest, pdu.hdr.sn, !s.rx.isSnInReassemblyWindow pdu.hdr.sn⟩]

def step (s : UmReceiver) : Event → Option UmReceiver
  | .receive pdu => (s.rx.receivePdu pdu).map fun r => ⟨r.1, s.file pdu⟩
  | .reassembly => s.rx.handleReassemblyTimer.map fun rx => { s with rx := rx }

def machine : Machine UmReceiver Event := ⟨(· = init), step⟩

/-- **The window rules.** -/
structure WindowRules (s : UmReceiver) : Prop where
  placed_iff : ∀ r ∈ s.received, r.placed = true ↔ r.IsNotBelow
  accepted_lt : ∀ r ∈ s.received, r.placed = true → r.sn < s.rx.rxNextHighest
  reassembly_le : ∀ b ∈ s.rx.receptionBuffer, s.rx.rxNextReassembly ≤ b.sn

/-- What every run keeps. -/
structure RunInv (s : UmReceiver) : Prop where
  highest : s.rx.rxNextHighest = 0
  placed : ∀ r ∈ s.received, r.placed = true
  empty : s.received = [] → s.rx.receptionBuffer = []

end UmReceiver

namespace UmRx

variable {rx rx' : UmRx} {pdu : UmdPdu}

theorem isSnInReassemblyWindow_zero (h : rx.rxNextHighest = 0) (sn : ℕ) :
    rx.isSnInReassemblyWindow sn = false := by
  unfold isSnInReassemblyWindow
  simp [h]

theorem updateRxNextReassembly_highest (rx : UmRx) :
    rx.updateRxNextReassembly.rxNextHighest = rx.rxNextHighest := by
  unfold updateRxNextReassembly
  split <;> rfl

theorem place_highest {out : List (List UmdPdu)}
    (h : rx.placeUmdPduInReceptionBuffer pdu = some (rx', out)) :
    rx'.rxNextHighest = rx.rxNextHighest := by
  unfold placeUmdPduInReceptionBuffer at h
  obtain ⟨all, -, h⟩ := Option.bind_eq_some_iff.1 h
  by_cases ha : all = true
  · rw [if_pos ha] at h
    obtain ⟨rfl, -⟩ := Prod.mk.inj (Option.some.inj h)
    split
    · apply updateRxNextReassembly_highest
    · rfl
  · rw [if_neg ha] at h
    obtain ⟨rfl, -⟩ := Prod.mk.inj (Option.some.inj h)
    rfl

theorem updateReassemblyTimer_highest (h : rx.updateReassemblyTimer = some rx') :
    rx'.rxNextHighest = rx.rxNextHighest := by
  unfold updateReassemblyTimer at h
  by_cases ht : rx.isReassemblyTimerStarted = true
  · rw [if_pos ht] at h
    rw [Option.some.inj h]
  · rw [if_neg ht] at h
    obtain ⟨pending, -, rfl⟩ := Option.map_eq_some_iff.1 h
    cases pending <;> rfl

theorem receivePdu_highest {out : List (List UmdPdu)} (h0 : rx.rxNextHighest = 0)
    (h : rx.receivePdu pdu = some (rx', out)) : rx'.rxNextHighest = 0 := by
  unfold receivePdu at h
  by_cases hsi : pdu.hdr.si = .all
  · rw [if_pos hsi] at h
    obtain ⟨rfl, -⟩ := Prod.mk.inj (Option.some.inj h)
    exact h0
  · rw [if_neg hsi] at h
    unfold receivePduWithSn dropOrPlace at h
    -- the empty window never drops
    rw [isSnInReassemblyWindow_zero h0, if_neg Bool.false_ne_true] at h
    obtain ⟨⟨rx₁, out₁⟩, hplace, h⟩ := Option.bind_eq_some_iff.1 h
    obtain ⟨rx₂, htimer, h⟩ := Option.bind_eq_some_iff.1 h
    obtain ⟨rfl, -⟩ := Prod.mk.inj (Option.some.inj h)
    have hmid : rx₁.rxNextHighest = 0 := (place_highest hplace).trans h0
    exact (updateReassemblyTimer_highest htimer).trans hmid

theorem handleReassemblyTimer_highest (h : rx.handleReassemblyTimer = some rx') :
    rx'.rxNextHighest = rx.rxNextHighest := by
  unfold handleReassemblyTimer at h
  by_cases ht : rx.isReassemblyTimerStarted = true
  · rw [if_pos ht] at h
    obtain ⟨pending, -, h⟩ := Option.bind_eq_some_iff.1 h
    rw [← Option.some.inj h]
    cases pending <;> rfl
  · rw [if_neg ht] at h
    cases h

/-- An expiry creates no reception buffer. -/
theorem handleReassemblyTimer_buffer (h : rx.handleReassemblyTimer = some rx')
    (he : rx.receptionBuffer = []) : rx'.receptionBuffer = [] := by
  unfold handleReassemblyTimer at h
  by_cases ht : rx.isReassemblyTimerStarted = true
  · rw [if_pos ht] at h
    obtain ⟨pending, -, h⟩ := Option.bind_eq_some_iff.1 h
    rw [← Option.some.inj h]
    cases pending <;> simp [startReassemblyTimer, he]
  · rw [if_neg ht] at h
    cases h

end UmRx

namespace UmReceiver

theorem runInv_init : RunInv init where
  highest := rfl
  placed := by
    intro r hr
    cases hr
  empty := fun _ => rfl

theorem runInv_step {s s' : UmReceiver} {e : Event} (hi : RunInv s) (h : step s e = some s') :
    RunInv s' := by
  cases e with
  | receive pdu =>
    obtain ⟨⟨rx, out⟩, hr, rfl⟩ := Option.map_eq_some_iff.1 h
    have hhigh : rx.rxNextHighest = 0 := UmRx.receivePdu_highest hi.highest hr
    by_cases hsi : pdu.hdr.si = .all
    · have hrx : rx = s.rx := by
        unfold UmRx.receivePdu at hr
        rw [if_pos hsi] at hr
        exact (Prod.mk.inj (Option.some.inj hr)).1.symm
      have hfile : s.file pdu = s.received := if_pos hsi
      refine ⟨hhigh, ?_, ?_⟩
      · rw [hfile]
        exact hi.placed
      · rw [hfile, hrx]
        exact hi.empty
    · have hwin := UmRx.isSnInReassemblyWindow_zero hi.highest pdu.hdr.sn
      have hfile : s.file pdu = s.received ++ [⟨s.rx.rxNextHighest, pdu.hdr.sn, true⟩] := by
        unfold file
        rw [if_neg hsi, hwin]
        rfl
      refine ⟨hhigh, ?_, ?_⟩
      · intro r hr
        rw [hfile] at hr
        rcases List.mem_append.1 hr with hr | hr
        · exact hi.placed r hr
        · rw [List.mem_singleton.1 hr]
      · intro hnil
        rw [hfile] at hnil
        exact absurd hnil (by simp)
  | reassembly =>
    obtain ⟨rx, hr, rfl⟩ := Option.map_eq_some_iff.1 h
    refine ⟨?_, hi.placed, ?_⟩
    · exact (UmRx.handleReassemblyTimer_highest hr).trans hi.highest
    · intro hnil
      exact UmRx.handleReassemblyTimer_buffer hr (hi.empty hnil)

theorem reach_runInv {s : UmReceiver} (h : machine.Reach s) : RunInv s := by
  apply h.inv
  · rintro _ rfl
    exact runInv_init
  · intro s e s' hi _ hs
    exact runInv_step hi hs

/-- **A UM receiver keeps the window rules until the first segmented PDU comes, and never
after.** -/
theorem windowRules_iff {s : UmReceiver} (h : machine.Reach s) : WindowRules s ↔ s.received = [] := by
  have hi := reach_runInv h
  constructor
  · intro hw
    by_contra hne
    obtain ⟨r, hr⟩ := List.exists_mem_of_ne_nil _ hne
    -- it was accepted, but its SN is not below `RX_Next_Highest = 0`
    have hlt := hw.accepted_lt r hr (hi.placed r hr)
    rw [hi.highest] at hlt
    exact absurd hlt (Nat.not_lt_zero _)
  · intro hnil
    have hbuf := hi.empty hnil
    constructor
    · rw [hnil]
      intro r hr
      cases hr
    · rw [hnil]
      intro r hr
      cases hr
    · rw [hbuf]
      intro b hb
      cases hb

/-- The first segment of an SDU of SN 0. -/
def firstSegment : UmdPdu := ⟨0, ⟨.first, 0, 0⟩, ⟨40, 1, 41⟩⟩

theorem windowRules_iff_firstSegment :
    ∃ s, machine.Reach s ∧ (WindowRules s ↔ s.received = []) ∧ s.received ≠ [] := by
  obtain ⟨s, hs, hne⟩ := Machine.Reach.exists_of_exec (P := fun s : UmReceiver => s.received.length = 1)
    [.receive firstSegment] (Machine.ReachOn.init rfl : machine.Reach init) (by decide)
  refine ⟨s, hs, windowRules_iff hs, ?_⟩
  intro hnil
  rw [hnil] at hne
  exact absurd hne (by decide)

/-- After one segment `RX_Next_Highest` is still 0. -/
theorem windowRules_broken : ¬ ∀ s, machine.Reach s → WindowRules s := by
  intro hall
  obtain ⟨s, hs, hacc⟩ := Machine.Reach.exists_of_exec
    (P := fun s : UmReceiver => ∃ r ∈ s.received, r.placed = true ∧ ¬ r.sn < s.rx.rxNextHighest)
    [.receive firstSegment] (Machine.ReachOn.init rfl : machine.Reach init) (by decide)
  obtain ⟨r, hr, hp, hlt⟩ := hacc
  exact hlt ((hall s hs).accepted_lt r hr hp)

end UmReceiver

end NetSim.Rlc
