import NetSim.Spec.TcpIncoming
import NetSim.Proof.FastRetransmit
import Mathlib.Algebra.BigOperators.Group.List.Basic
import Mathlib.Algebra.GroupWithZero.Nat
import NetSim.Lib.Machine

/-!
# The send window

`send_segment` sends what waits as long as it fits the congestion window. The window of the peer, which
`process_ack_in_establishedState` puts into `SND.WND`, is overwritten before the loop and limits nothing.

* `sendSegment_sent`: the octets that a call sends.
* `CongestionAlgorithm.ofVariant`: the algorithms of `TcpVariant`, with their calls in the loss recovery
  phase.
* `step_chained`: the calls that a run records move `SND.NXT`, and nothing else does.
* `within_of_reachOn`: the calls stay within both windows while what fits the congestion window fits the
  peer's window too, and the numbers do not wrap before the window does.
-/

namespace NetSim.Tcp

open List

variable {σ : Type} {lib : SocketLib σ} {now : ℚ} {s : Socket σ}

/-! ## A call of `send_segment` -/

/-- The octets in flight. -/
def Tcb.inFlight (t : Tcb) : ℕ := (t.snd.nxt - t.snd.una).toNat

/-- The length of a packet as `send_segment` takes it. -/
def AppPacket.octets (p : AppPacket) : UInt32 := UInt32.ofNat p.packetSize

/-- The lengths of the packets that wait. -/
def waitingOctets (lib : SocketLib σ) (s : Socket σ) : List ℕ :=
  (lib.waiting s.sId).map fun p => p.octets.toNat

/-- What a call of `send_segment` puts in flight stays within the congestion window and the window
advertised. -/
def StaysWithin (lib : SocketLib σ) (now : ℚ) (advertised : ℕ) (s : Socket σ) : Prop :=
  (s.sendSegment lib now).tcb.snd.nxt ≠ s.tcb.snd.nxt →
    (s.sendSegment lib now).tcb.inFlight ≤ min s.tcb.windowScaleGetCwnd.toNat advertised

instance (lib : SocketLib σ) (now : ℚ) (advertised : ℕ) (s : Socket σ) :
    Decidable (StaysWithin lib now advertised s) := inferInstanceAs (Decidable (_ → _))

/-- No packet ends behind number `2 ^ 32`, unless the window does. -/
def NumbersOk (lib : SocketLib σ) (s : Socket σ) : Prop :=
  ∀ l ∈ waitingOctets lib s,
    max s.tcb.inFlight s.tcb.windowScaleGetCwnd.toNat + l < 4294967296 ∧
      (s.tcb.snd.una.toNat + s.tcb.windowScaleGetCwnd.toNat < 4294967296 →
        s.tcb.snd.una.toNat + max s.tcb.inFlight s.tcb.windowScaleGetCwnd.toNat + l < 4294967296)

/-- What waits first and fits the congestion window fits the window advertised. -/
def FitsAdvertised (lib : SocketLib σ) (advertised : ℕ) (s : Socket σ) : Prop :=
  ∀ k ≤ (waitingOctets lib s).length, 0 < ((waitingOctets lib s).take k).sum →
    s.tcb.inFlight + ((waitingOctets lib s).take k).sum ≤ s.tcb.windowScaleGetCwnd.toNat →
      s.tcb.inFlight + ((waitingOctets lib s).take k).sum ≤ advertised

/-- The next packet is sent. -/
theorem sendNext_eq {p : AppPacket} (now : ℚ) (hp : s.peek lib = some p) :
    (s.sendNext lib now p.octets).tcb.snd = { s.tcb.snd with nxt := s.tcb.snd.nxt + p.octets } ∧
      waitingOctets lib s = p.octets.toNat :: waitingOctets lib (s.sendNext lib now p.octets) := by
  have hhead : (lib.waiting s.sId).head? = some p := by
    have hpeek := lib.peek s.sId
    unfold Socket.peek at hp
    rw [hpeek] at hp
    exact hp
  have hmove := lib.move_fst s.sId
  have htail := lib.move_waiting s.sId
  rw [hhead] at hmove
  obtain ⟨rest, hrest⟩ : ∃ rest, lib.waiting s.sId = p :: rest := List.head?_eq_some_iff.1 hhead
  cases hget : lib.getPacketFromInterface s.sId true with
  | mk first sId =>
    rw [hget] at hmove htail
    have hfirst : first = some p := hmove
    have hwaiting : lib.waiting sId = rest := by
      have htail' : lib.waiting sId = (lib.waiting s.sId).tail := htail
      rw [htail', hrest, List.tail_cons]
    subst hfirst
    unfold Socket.sendNext
    rw [hget]
    refine ⟨rfl, ?_⟩
    unfold waitingOctets Socket.sendToNetwork
    dsimp only
    rw [hrest, hwaiting, List.map_cons]

/-- The test of `send_segment` lets only packets pass that fit the window. -/
theorem fits_of_numbers {u f w l : ℕ} (una nxt wnd l' : UInt32) (hu : una.toNat = u)
    (hf : (nxt - una).toNat = f) (hw : wnd.toNat = w) (hl : l'.toNat = l) (hlt : f + l < 4294967296)
    (hno : u + w < 4294967296 → u + f + l < 4294967296) :
    ((nxt - una + l').toNat = f + l) ∧ (nxt + l' ≤ wnd + una → f + l ≤ w) ∧
      (u + f + l < 4294967296 → u + w < 4294967296 → f + l ≤ w → nxt + l' ≤ wnd + una) := by
  have hnxt : nxt.toNat = (u + f) % 4294967296 := by
    have hadd := UInt32.toNat_add una (nxt - una)
    have hback : una + (nxt - una) = nxt := by
      apply UInt32.toNat_inj.1
      rw [UInt32.toNat_add, UInt32.toNat_sub]
      have h1 := una.toNat_lt
      have h2 := nxt.toNat_lt
      omega
    rw [hback, hu, hf] at hadd
    exact hadd
  have h1 := una.toNat_lt
  have h2 := nxt.toNat_lt
  have h3 := wnd.toNat_lt
  have h4 := l'.toNat_lt
  refine ⟨?_, ?_, ?_⟩
  · rw [UInt32.toNat_add, hf, hl]
    omega
  · rw [UInt32.le_iff_toNat_le, UInt32.toNat_add, UInt32.toNat_add, hnxt, hl, hw, hu]
    omega
  · rw [UInt32.le_iff_toNat_le, UInt32.toNat_add, UInt32.toNat_add, hnxt, hl, hw, hu]
    omega

theorem sub_inj (una : UInt32) {nxt nxt' : UInt32} (h : (nxt' - una).toNat = (nxt - una).toNat) : nxt' = nxt := by
  apply UInt32.toNat_inj.1
  rw [UInt32.toNat_sub, UInt32.toNat_sub] at h
  have h1 := una.toNat_lt
  have h2 := nxt.toNat_lt
  have h3 := nxt'.toNat_lt
  omega

/-- What the loop of `send_segment` sends: the first packets, up to the congestion window. If no number
wraps, as much of them as the congestion window takes. -/
structure Sent (wnd f : ℕ) (ls : List ℕ) (isPlain : Prop) (snd snd' : SendSeqVar) (k : ℕ) : Prop where
  le : k ≤ ls.length
  una : snd'.una = snd.una
  flight : (snd'.nxt - snd'.una).toNat = f + (ls.take k).sum
  fits : k ≠ 0 → f + (ls.take k).sum ≤ wnd
  most : isPlain → ∀ j ≤ ls.length, f + (ls.take j).sum ≤ wnd → (ls.take j).sum ≤ (ls.take k).sum

section Loop

variable {isPlain : Prop} {snd snd' : SendSeqVar} {wnd f l k : ℕ} {ls : List ℕ}

/-- No packet waits, or the next one does not fit. -/
theorem Sent.stop (h : isPlain → ∀ l ∈ ls.head?, wnd < (snd.nxt - snd.una).toNat + l) :
    Sent wnd (snd.nxt - snd.una).toNat ls isPlain snd snd 0 := by
  refine ⟨Nat.zero_le _, rfl, rfl, fun h0 => absurd rfl h0, fun hplain j hj hjle => ?_⟩
  cases ls with
  | nil => rw [List.take_nil, List.take_nil]
  | cons l ls =>
    cases j with
    | zero => exact Nat.le_refl _
    | succ j =>
      rw [List.take_succ_cons, List.sum_cons] at hjle
      have hlt := h hplain l rfl
      omega

/-- A packet that fits is sent before the others. -/
theorem Sent.cons {nxt : UInt32} (hfit : f + l ≤ wnd)
    (h : Sent wnd (f + l) ls isPlain { snd with nxt := nxt } snd' k) :
    Sent wnd f (l :: ls) isPlain snd snd' (k + 1) := by
  refine ⟨Nat.succ_le_succ h.le, h.una, ?_, fun _ => ?_, fun hplain j hj hjle => ?_⟩
  · rw [List.take_succ_cons, List.sum_cons, ← Nat.add_assoc]
    exact h.flight
  · rw [List.take_succ_cons, List.sum_cons, ← Nat.add_assoc]
    rcases Nat.eq_zero_or_pos k with rfl | hpos
    · rwa [List.take_zero, List.sum_nil, Nat.add_zero]
    · exact h.fits (Nat.ne_of_gt hpos)
  · cases j with
    | zero => exact Nat.zero_le _
    | succ j =>
      rw [List.take_succ_cons, List.sum_cons] at hjle ⊢
      rw [List.take_succ_cons, List.sum_cons]
      rw [← Nat.add_assoc] at hjle
      have hmost := h.most hplain j (Nat.le_of_succ_le_succ hj) hjle
      omega

theorem sendLoop_sent (isPlain : Prop) {bound : ℕ} (n : ℕ) (s : Socket σ) (hn : n = (waitingOctets lib s).length)
    (hwnd : s.tcb.snd.wnd.toNat ≤ bound) (hflight : s.tcb.inFlight ≤ bound)
    (hls : ∀ l ∈ waitingOctets lib s, bound + l < 4294967296 ∧
      (s.tcb.snd.una.toNat + s.tcb.snd.wnd.toNat < 4294967296 → s.tcb.snd.una.toNat + bound + l < 4294967296) ∧
      (isPlain → s.tcb.snd.una.toNat + s.tcb.snd.wnd.toNat < 4294967296)) :
    ∃ k, Sent s.tcb.snd.wnd.toNat s.tcb.inFlight (waitingOctets lib s) isPlain s.tcb.snd
      (Socket.sendLoop lib now n s).tcb.snd k := by
  induction n generalizing s with
  | zero =>
    have hnil : waitingOctets lib s = [] := List.length_eq_zero_iff.1 hn.symm
    rw [hnil]
    exact ⟨0, .stop fun _ l hl => absurd hl (Option.not_mem_none l)⟩
  | succ n ih =>
    have hpeek : s.peek lib = (lib.waiting s.sId).head? := congrArg Prod.fst (lib.peek s.sId)
    cases hp : s.peek lib with
    | none =>
      rw [hp] at hpeek
      have hnil : lib.waiting s.sId = [] := List.head?_eq_none_iff.1 hpeek.symm
      unfold waitingOctets at hn
      rw [hnil] at hn
      cases hn
    | some p =>
      obtain ⟨hsnd, hcons⟩ := sendNext_eq now hp
      have hl := hls p.octets.toNat (by rw [hcons]; exact List.mem_cons_self)
      have hlt : s.tcb.inFlight + p.octets.toNat < 4294967296 := by omega
      have hplace : s.tcb.snd.una.toNat + s.tcb.snd.wnd.toNat < 4294967296 →
          s.tcb.snd.una.toNat + s.tcb.inFlight + p.octets.toNat < 4294967296 := by
        intro hu
        have hb := hl.2.1 hu
        omega
      obtain ⟨hflight', hle, hge⟩ := fits_of_numbers s.tcb.snd.una s.tcb.snd.nxt s.tcb.snd.wnd
        p.octets rfl rfl rfl rfl hlt hplace
      unfold Socket.sendLoop
      rw [hp, hcons]
      dsimp only
      by_cases hfits : s.fits (UInt32.ofNat p.packetSize)
      · rw [if_pos hfits]
        have hfit : s.tcb.inFlight + p.octets.toNat ≤ s.tcb.snd.wnd.toNat := hle hfits
        have hinFlight : (s.sendNext lib now p.octets).tcb.inFlight = s.tcb.inFlight + p.octets.toNat := by
          unfold Tcb.inFlight
          rw [hsnd]
          dsimp only
          rw [← hflight']
          congr 1
          rw [UInt32.sub_eq_add_neg, UInt32.sub_eq_add_neg, UInt32.add_assoc, UInt32.add_assoc,
            UInt32.add_comm p.octets]
        rw [hcons, List.length_cons] at hn
        obtain ⟨k, hk⟩ := ih _ (Nat.succ.inj hn) (by rw [hsnd]; exact hwnd)
          (by rw [hinFlight]; exact hfit.trans hwnd)
          (by
            intro l hlmem
            rw [hsnd]
            exact hls l (by rw [hcons]; exact List.mem_cons_of_mem _ hlmem))
        rw [hinFlight, hsnd] at hk
        exact ⟨k + 1, .cons hfit hk⟩
      · rw [if_neg hfits]
        refine ⟨0, .stop fun hplain l hlhead => ?_⟩
        obtain rfl := Option.some.inj hlhead
        have hnowrap := hl.2.2 hplain
        by_contra hle'
        exact hfits (hge (hplace hnowrap) hnowrap (not_lt.1 hle'))

end Loop

/-- **What a call of `send_segment` sends**, by the congestion window alone. -/
theorem sendSegment_sent (now : ℚ) (isPlain : Prop) (hN : NumbersOk lib s)
    (hplain : isPlain → waitingOctets lib s ≠ [] →
      s.tcb.snd.una.toNat + s.tcb.windowScaleGetCwnd.toNat < 4294967296) :
    ∃ k, Sent s.tcb.windowScaleGetCwnd.toNat s.tcb.inFlight (waitingOctets lib s) isPlain s.tcb.snd
      (s.sendSegment lib now).tcb.snd k := by
  have hloop : ∃ k, Sent s.tcb.windowScaleGetCwnd.toNat s.tcb.inFlight (waitingOctets lib s) isPlain
      { s.tcb.snd with wnd := s.tcb.windowScaleGetCwnd }
      (Socket.sendLoop lib now (lib.waiting s.sId).length (s.openSendWindow lib)).tcb.snd k := by
    refine sendLoop_sent isPlain (lib.waiting s.sId).length (s.openSendWindow lib) (List.length_map _).symm
      (le_max_right s.tcb.inFlight s.tcb.windowScaleGetCwnd.toNat) (le_max_left _ _) ?_
    intro l hl
    have hl' : l ∈ waitingOctets lib s := hl
    exact ⟨(hN l hl').1, (hN l hl').2, fun h => hplain h (List.ne_nil_of_mem hl')⟩
  obtain ⟨k, hk⟩ := hloop
  have hsnd : (s.sendSegment lib now).tcb.snd =
      (Socket.sendLoop lib now (lib.waiting s.sId).length (s.openSendWindow lib)).tcb.snd := by
    unfold Socket.sendSegment
    dsimp only
    split
    · unfold Socket.tcpClose
      split
      · rfl
      · unfold Tcb.changeState Socket.sendFin Socket.sendToNetwork
        dsimp only
        split
        · rfl
        · rfl
    · rfl
  rw [hsnd]
  exact ⟨k, hk.le, hk.una, hk.flight, hk.fits, hk.most⟩

/-- **A call stays within both windows** if what waits first and fits the congestion window fits the
advertised one; and only then, where the numbers do not wrap. -/
theorem staysWithin_of_fits {advertised : ℕ} (hN : NumbersOk lib s) (hfits : FitsAdvertised lib advertised s) :
    StaysWithin lib now advertised s := by
  intro hne
  obtain ⟨k, hk⟩ := sendSegment_sent now False hN fun h => h.elim
  have hflight : (s.sendSegment lib now).tcb.inFlight = s.tcb.inFlight + ((waitingOctets lib s).take k).sum :=
    hk.flight
  have hpos : 0 < ((waitingOctets lib s).take k).sum := by
    rw [Nat.pos_iff_ne_zero]
    intro hzero
    refine hne (sub_inj s.tcb.snd.una ?_)
    rw [← hk.una, hk.flight, hzero, Nat.add_zero, hk.una]
    rfl
  have hk0 : k ≠ 0 := by
    rintro rfl
    exact absurd hpos (Nat.lt_irrefl 0)
  rw [hflight, Nat.le_min]
  exact ⟨hk.fits hk0, hfits k hk.le hpos (hk.fits hk0)⟩

/-- The numbers do not wrap. -/
def NumbersPlain (lib : SocketLib σ) (s : Socket σ) : Prop :=
  ∀ l ∈ waitingOctets lib s, s.tcb.snd.una.toNat + max s.tcb.inFlight s.tcb.windowScaleGetCwnd.toNat + l < 4294967296

theorem fits_of_staysWithin {advertised : ℕ} (hN : NumbersPlain lib s) (hwithin : StaysWithin lib now advertised s) :
    FitsAdvertised lib advertised s := by
  intro j hj hpos hjle
  have hN' : NumbersOk lib s := by
    intro l hl
    have hlt := hN l hl
    exact ⟨by omega, fun _ => hlt⟩
  obtain ⟨k, hk⟩ := sendSegment_sent now True hN' fun _ hne => by
    obtain ⟨l, hl⟩ := List.exists_mem_of_ne_nil _ hne
    have hlt := hN l hl
    omega
  have hmost := hk.most trivial j hj hjle
  have hflight : (s.sendSegment lib now).tcb.inFlight = s.tcb.inFlight + ((waitingOctets lib s).take k).sum :=
    hk.flight
  have hne : (s.sendSegment lib now).tcb.snd.nxt ≠ s.tcb.snd.nxt := by
    intro heq
    have hsame := hk.flight
    rw [heq, hk.una] at hsame
    unfold Tcb.inFlight at hsame
    omega
  have hle := hwithin hne
  rw [hflight, Nat.le_min] at hle
  omega

/-! ## What moves `SND.NXT` -/

section Chained

variable {s' : Socket σ} {rounds : ℕ}

theorem Chained.append {nxt nxt' nxt'' : UInt32} {calls calls' : List (Socket σ)}
    (h : Chained lib now nxt calls nxt') (h' : Chained lib now nxt' calls' nxt'') :
    Chained lib now nxt (calls ++ calls') nxt'' := by
  induction calls generalizing nxt with
  | nil =>
    have heq : nxt' = nxt := h
    exact heq ▸ h'
  | cons c calls ih => exact ⟨h.1, ih h.2⟩

theorem nextSeg_nxt (s : Socket σ) : (s.nextSeg lib).2.tcb.snd.nxt = s.tcb.snd.nxt := by
  unfold Socket.nextSeg
  dsimp only
  split
  · rfl
  · split
    · rfl
    · split <;> rfl

/-- A round of the loss recovery phase moves `SND.NXT` by the call that is recorded, if there is one. -/
theorem recoveryRound_chained (wnd mss : UInt32) (r : Socket σ × UInt32) :
    (∀ r', Socket.recoveryRound lib now wnd mss r = .inl r' →
        Chained lib now r.1.tcb.snd.nxt (Socket.newDataCall lib wnd mss r).toList r'.1.tcb.snd.nxt) ∧
      ∀ s', Socket.recoveryRound lib now wnd mss r = .inr s' →
        Chained lib now r.1.tcb.snd.nxt (Socket.newDataCall lib wnd mss r).toList s'.tcb.snd.nxt := by
  have hnext : (r.1.nextSeg lib).2.tcb.snd.nxt = r.1.tcb.snd.nxt := nextSeg_nxt r.1
  unfold Socket.recoveryRound Socket.newDataCall
  dsimp only
  split
  · split
    · refine ⟨fun r' hr => absurd hr Sum.inr_ne_inl, fun s' hr => ?_⟩
      obtain rfl := Sum.inr.inj hr
      exact hnext
    · split
      · refine ⟨fun r' hr => ?_, fun s' hr => absurd hr Sum.inl_ne_inr⟩
        obtain rfl := Sum.inl.inj hr
        have hresend := resendSegmentWithoutTimeout_snd (r.1.nextSeg lib).2 (r.1.nextSeg lib).1
        exact (congrArg SendSeqVar.nxt hresend).trans hnext
      · refine ⟨fun r' hr => ?_, fun s' hr => absurd hr Sum.inl_ne_inr⟩
        obtain rfl := Sum.inl.inj hr
        exact ⟨hnext, rfl⟩
  · refine ⟨fun r' hr => absurd hr Sum.inr_ne_inl, fun s' hr => ?_⟩
    obtain rfl := Sum.inr.inj hr
    exact rfl

/-- **The loop of the loss recovery phase.** -/
theorem recoveryLoop_chained (wnd mss : UInt32) (r : Socket σ × UInt32)
    (h : Loop.run (Socket.recoveryRound lib now wnd mss) rounds r = some s') :
    Chained lib now r.1.tcb.snd.nxt
      ((Loop.states (Socket.recoveryRound lib now wnd mss) rounds r).filterMap
        (Socket.newDataCall lib wnd mss)) s'.tcb.snd.nxt := by
  induction rounds generalizing r with
  | zero => cases h
  | succ n ih =>
    have hcons : ∀ l : List (Socket σ × UInt32), (r :: l).filterMap (Socket.newDataCall lib wnd mss) =
        (Socket.newDataCall lib wnd mss r).toList ++ l.filterMap (Socket.newDataCall lib wnd mss) := by
      intro l
      rw [List.filterMap_cons]
      cases Socket.newDataCall lib wnd mss r <;> rfl
    obtain ⟨hgoes, hends⟩ := @recoveryRound_chained σ lib now wnd mss r
    cases hr : Socket.recoveryRound lib now wnd mss r with
    | inl r' =>
      rw [Loop.run_inl hr] at h
      rw [Loop.states_inl hr, hcons]
      exact (hgoes r' hr).append (ih r' h)
    | inr b =>
      rw [Loop.run_inr hr, Option.some.injEq] at h
      rw [Loop.states_inr hr, hcons, List.filterMap_nil, List.append_nil]
      exact h ▸ hends b hr

theorem lossRecoveryPhase_chained {phase : Bool}
    (h : s.lossRecoveryPhase lib now rounds = some (phase, s')) :
    Chained lib now s.tcb.snd.nxt (s.recoveryCalls lib now rounds) s'.tcb.snd.nxt := by
  unfold Socket.lossRecoveryPhase at h
  unfold Socket.recoveryCalls
  split at h
  · rename_i hover
    rw [if_pos hover]
    obtain rfl := (Prod.mk.inj (Option.some.inj h)).2
    exact rfl
  · rename_i hover
    rw [if_neg hover]
    obtain ⟨t, ht, h⟩ := Option.bind_eq_some_iff.1 h
    obtain ⟨s₁, hs₁, h⟩ := Option.bind_eq_some_iff.1 h
    obtain rfl := (Prod.mk.inj (Option.some.inj h)).2
    rw [ht]
    have hsnd : t.snd.nxt = s.tcb.snd.nxt := by
      obtain ⟨pipe, -, rfl⟩ := Option.map_eq_some_iff.1 ht
      rfl
    have hloop := recoveryLoop_chained _ _ _ hs₁
    dsimp only at hloop
    rwa [hsnd] at hloop

/-- A handler that leaves `SND.NXT` to the phase that it enters, if it does. -/
def MovesBy (lib : SocketLib σ) (now : ℚ) (rounds : ℕ) (entry : Socket σ → Option (Socket σ))
    (f : Socket σ → Option (Socket σ × Bool)) : Prop :=
  ∀ s s' isEntered, f s = some (s', isEntered) →
    Chained lib now s.tcb.snd.nxt (Socket.callsOf lib now rounds (entry s)) s'.tcb.snd.nxt

theorem sackFastRetransmit_snd (h : s.sackFastRetransmit rounds = some s') : s'.tcb.snd = s.tcb.snd := by
  unfold Socket.sackFastRetransmit at h
  split at h
  · obtain ⟨t, ht, h⟩ := Option.bind_eq_some_iff.1 h
    obtain rfl := Option.some.inj h
    obtain ⟨pipe, -, rfl⟩ := Option.map_eq_some_iff.1 ht
    rfl
  · obtain rfl := Option.some.inj h
    rfl

theorem fastRetransmitWith_movesBy {ssthresh : Tcb → Tcb × UInt32} (hss : ∀ t, (ssthresh t).1.snd = t.snd) :
    MovesBy lib now rounds Socket.recoveryEntry (Socket.fastRetransmitWith lib now rounds ssthresh) := by
  intro s s' isEntered h
  unfold Socket.fastRetransmitWith at h
  unfold Socket.recoveryEntry
  dsimp only at h ⊢
  split at h
  · rename_i hthird
    rw [if_pos hthird]
    have henter : (s.enterFastRetransmit ssthresh).tcb.snd = s.tcb.snd := by
      unfold Socket.enterFastRetransmit
      dsimp only
      rw [resendSegmentWithoutTimeout_snd]
      exact hss s.tcb
    split at h
    · obtain ⟨s₁, hs₁, h⟩ := Option.bind_eq_some_iff.1 h
      obtain rfl := (Prod.mk.inj (Option.some.inj h)).1
      exact congrArg SendSeqVar.nxt ((sackFastRetransmit_snd hs₁).trans henter)
    · obtain rfl := (Prod.mk.inj (Option.some.inj h)).1
      exact congrArg SendSeqVar.nxt henter
  · rename_i hthird
    rw [if_neg hthird]
    split at h
    · rename_i hphase
      rw [if_pos hphase]
      obtain ⟨⟨phase, s₁⟩, hs₁, h⟩ := Option.bind_eq_some_iff.1 h
      obtain rfl := (Prod.mk.inj (Option.some.inj h)).1
      exact lossRecoveryPhase_chained hs₁
    · rename_i hphase
      rw [if_neg hphase]
      obtain rfl := (Prod.mk.inj (Option.some.inj h)).1
      exact rfl

theorem bictcpRecalcSsthresh_snd (t : Tcb) : t.bictcpRecalcSsthresh.1.snd = t.snd := by
  unfold Tcb.bictcpRecalcSsthresh
  dsimp only
  split <;> rfl

theorem fastRetransmit_movesBy :
    MovesBy lib now rounds Socket.recoveryEntry (Socket.fastRetransmit lib now rounds) :=
  fastRetransmitWith_movesBy fun _ => rfl

theorem bictcpFastretransmit_movesBy :
    MovesBy lib now rounds Socket.recoveryEntry (Socket.bictcpFastretransmit lib now rounds) :=
  fastRetransmitWith_movesBy bictcpRecalcSsthresh_snd

/-- From the third duplicate on, for the variants `v`. -/
def MovesFromThird (lib : SocketLib σ) (now : ℚ) (rounds : ℕ) (v : TcpVariant)
    (g : Socket σ → Option (Socket σ × Bool)) : Prop :=
  ∀ s s' isEntered, s.tcb.variant = v → g s = some (s', isEntered) →
    Chained lib now s.tcb.snd.nxt (Socket.callsOf lib now rounds s.thirdEntry) s'.tcb.snd.nxt

theorem MovesBy.third {g : Socket σ → Option (Socket σ × Bool)} {v : TcpVariant}
    (h : MovesBy lib now rounds Socket.recoveryEntry g) (hv : v ≠ .newReno) :
    MovesFromThird lib now rounds v g := by
  intro s s' isEntered hs hg
  unfold Socket.thirdEntry
  rw [if_neg (hs ▸ hv)]
  exact h _ _ _ hg

/-- What NewReno does from the third duplicate on. -/
theorem newReno_third : MovesFromThird lib now rounds .newReno fun s : Socket σ =>
    if s.tcb.congestion.recover < s.tcb.seg.ack - 1 then
      Socket.fastRetransmit lib now rounds
        { s with tcb := { s.tcb with congestion.recover := s.tcb.snd.nxt } }
    else some (s, false) := by
  intro s s' isEntered hs h
  unfold Socket.thirdEntry
  rw [if_pos hs]
  dsimp only at h ⊢
  split at h
  · rename_i hrecover
    rw [if_pos hrecover]
    exact fastRetransmit_movesBy _ _ _ h
  · rename_i hrecover
    rw [if_neg hrecover]
    obtain ⟨rfl, -⟩ := Prod.mk.inj (Option.some.inj h)
    exact rfl

/-- **A duplicate.** -/
theorem dupAckReceived_chained {f g : Socket σ → Option (Socket σ × Bool)} {v : TcpVariant}
    (hf : MovesBy lib now rounds Socket.recoveryEntry f) (hg : MovesFromThird lib now rounds v g)
    (hs : s.tcb.variant = v) (hv : v ≠ .oldTahoe) (hdup : s.tcb.isDupAck = true) {isEntered : Bool}
    (h : s.dupAckReceived f g = some (s', isEntered)) :
    Chained lib now s.tcb.snd.nxt (Socket.callsOf lib now rounds s.ackRecoveryEntry) s'.tcb.snd.nxt := by
  unfold Socket.dupAckReceived at h
  unfold Socket.ackRecoveryEntry
  rw [if_neg (by simp [hs, hv, hdup])]
  dsimp only at h ⊢
  split at h
  · rename_i hfew
    rw [if_pos hfew]
    split at h
    · rename_i hlost
      rw [if_pos hlost]
      exact hf _ _ _ h
    · rename_i hlost
      rw [if_neg hlost]
      obtain ⟨rfl, -⟩ := Prod.mk.inj (Option.some.inj h)
      exact rfl
  · rename_i hfew
    rw [if_neg hfew]
    refine hg _ _ _ ?_ h
    exact hs

/-- Only a duplicate makes a handler enter the phase. -/
theorem callsOf_of_not_dupAck (h : ¬ s.tcb.isDupAck = true) :
    Socket.callsOf lib now rounds s.ackRecoveryEntry = [] := by
  unfold Socket.ackRecoveryEntry
  rw [if_pos (Or.inr h)]
  rfl

/-- A handler that leaves `SND` alone unless the acknowledgement is a duplicate. -/
theorem handler_chained {f g : Socket σ → Option (Socket σ × Bool)} {v : TcpVariant} {p : Prop} [Decidable p]
    {s₁ s₂ : Socket σ} (hf : MovesBy lib now rounds Socket.recoveryEntry f)
    (hg : MovesFromThird lib now rounds v g) (hs : s.tcb.variant = v) (hv : v ≠ .oldTahoe)
    (h₁ : s₁.tcb.snd = s.tcb.snd) (h₂ : s₂.tcb.snd = s.tcb.snd) {isEntered : Bool}
    (h : (if s.tcb.isDupAck then s.dupAckReceived f g
      else if p then some (s₁, false) else some (s₂, false)) = some (s', isEntered)) :
    Chained lib now s.tcb.snd.nxt (Socket.callsOf lib now rounds s.ackRecoveryEntry) s'.tcb.snd.nxt := by
  split at h
  · rename_i hdup
    exact dupAckReceived_chained hf hg hs hv hdup h
  · rename_i hdup
    rw [callsOf_of_not_dupAck hdup]
    split at h
    · obtain ⟨rfl, -⟩ := Prod.mk.inj (Option.some.inj h)
      exact congrArg SendSeqVar.nxt h₁
    · obtain ⟨rfl, -⟩ := Prod.mk.inj (Option.some.inj h)
      exact congrArg SendSeqVar.nxt h₂

/-- **The handlers** move `SND.NXT` by the calls of the phase that they enter. -/
theorem ackReceived_chained {isEntered : Bool} (h : s.ackReceived lib now rounds = some (s', isEntered)) :
    Chained lib now s.tcb.snd.nxt (Socket.callsOf lib now rounds s.ackRecoveryEntry) s'.tcb.snd.nxt := by
  unfold Socket.ackReceived at h
  cases hv : s.tcb.variant with
  | oldTahoe =>
    rw [hv] at h
    obtain ⟨rfl, -⟩ := Prod.mk.inj (Option.some.inj h)
    unfold Socket.ackRecoveryEntry
    rw [if_pos (Or.inl hv)]
    exact congrArg SendSeqVar.nxt (openWindow_snd now s.tcb)
  | tahoe =>
    rw [hv] at h
    dsimp only [Socket.tahoeAckReceived] at h
    refine handler_chained fastRetransmit_movesBy (fastRetransmit_movesBy.third (by decide)) hv (by decide)
      ?_ ?_ h
    · rfl
    · exact openWindow_snd now s.tcb
  | reno =>
    rw [hv] at h
    dsimp only [Socket.renoAckReceived] at h
    refine handler_chained fastRetransmit_movesBy (fastRetransmit_movesBy.third (by decide)) hv (by decide)
      ?_ ?_ h
    · rfl
    · exact openWindow_snd now s.tcb
  | newReno =>
    rw [hv] at h
    dsimp only [Socket.newrenoAckReceived] at h
    refine handler_chained fastRetransmit_movesBy newReno_third hv (by decide) ?_ ?_ h
    · exact (newRenoFastRecovery_spec s).1
    · exact openWindow_snd now s.tcb
  | bic =>
    rw [hv] at h
    dsimp only [Socket.bicAckReceived] at h
    refine handler_chained bictcpFastretransmit_movesBy (bictcpFastretransmit_movesBy.third (by decide)) hv
      (by decide) ?_ ?_ h
    · rfl
    · exact bictcpCongAvoid_snd now s.tcb _

end Chained

/-! ## The algorithms of `TcpVariant` -/

/-- What the algorithms do, with the rounds that their loops are given. -/
def ackReceivedWithCalls (lib : SocketLib σ) (rounds : ℕ) (now : ℚ) (s : Socket σ) :
    Option (Socket σ × List (Socket σ)) :=
  (s.ackReceived lib now rounds).map fun out => (out.1, Socket.callsOf lib now rounds s.ackRecoveryEntry)

theorem ackReceivedWithCalls_chained (lib : SocketLib σ) (rounds : ℕ) (now : ℚ) (s s' : Socket σ)
    (calls : List (Socket σ)) (h : ackReceivedWithCalls lib rounds now s = some (s', calls)) :
    Chained lib now s.tcb.snd.nxt calls s'.tcb.snd.nxt := by
  obtain ⟨⟨s₁, isEntered⟩, hs₁, heq⟩ := Option.map_eq_some_iff.1 h
  obtain ⟨rfl, rfl⟩ := Prod.mk.inj heq
  exact ackReceived_chained hs₁

theorem rtoTimeout_nxt (t : Tcb) : t.rtoTimeout.snd.nxt = t.snd.nxt := by
  unfold Tcb.rtoTimeout
  dsimp only
  split <;> rfl

/-- The algorithms of `TcpVariant`. -/
def CongestionAlgorithm.ofVariant (lib : SocketLib σ) (rounds : ℕ) : CongestionAlgorithm lib where
  ackReceived := ackReceivedWithCalls lib rounds
  rtoExpired := Tcb.rtoTimeout
  chained := ackReceivedWithCalls_chained lib rounds
  rtoExpired_nxt := rtoTimeout_nxt

/-- The sender that they give does what `packet_arrives_at_incoming_tcp` and
`packet_arrive_from_application_layer` do. -/
theorem ackArrives_ofVariant (rounds : ℕ) (r : WindowState σ) (p : Packet) :
    ((r.ackArrives (.ofVariant lib rounds) now p).map fun next => r.afterCall (.ackArrives p)
      (if next.isCalled then next.state.socket.sendSegment lib now else next.state.socket)) =
        (r.socket.ackArrives lib now rounds p).map Prod.fst := by
  unfold WindowState.ackArrives Socket.ackArrives WindowState.afterCall
  dsimp only
  by_cases hvalid : (r.socket.tcb.updateSeqNumOnReceiving p).validateSegment = true
  · simp only [if_pos hvalid]
    unfold WindowState.processAck Socket.processAckPacket Socket.processAckInEstablishedState
      CongestionAlgorithm.ofVariant ackReceivedWithCalls
    dsimp only
    cases hack : Socket.ackReceived lib now rounds { r.socket with
        tcb := (r.socket.tcb.updateSeqNumOnReceiving p).receiveSackOption p.hdr } with
    | none => rfl
    | some out =>
      cases hbranch : out.1.tcb.ackBranch with
      | new isWindowUpdated =>
        simp only [Option.map_some, Option.bind_eq_bind, Option.bind_some, hbranch]
        rfl
      | duplicate =>
        simp only [Option.map_some, Option.bind_eq_bind, Option.bind_some, hbranch]
        rfl
      | notSent =>
        simp only [Option.map_some, Option.bind_eq_bind, Option.bind_some, hbranch]
        rfl
  · simp only [if_neg hvalid]
    rfl

/-! ## Runs -/

/-- The state of a sender, and whether all its calls of `send_segment` have stayed within the windows. -/
structure WindowRun (σ : Type) extends WindowState σ where
  isWithin : Bool

namespace WindowRun

def step (lib : SocketLib σ) (alg : CongestionAlgorithm lib) (r : WindowRun σ) (e : ℚ × WindowEvent σ) :
    Option (WindowRun σ) :=
  (r.toWindowState.beforeCall alg e.1 e.2).map fun next =>
    ⟨⟨r.toWindowState.afterCall e.2
          (if next.isCalled then next.state.socket.sendSegment lib e.1 else next.state.socket),
        next.state.advertised⟩,
      r.isWithin && (next.calls r.toWindowState).all fun c => StaysWithin lib e.1 c.advertised c.socket⟩

/-- The sender of a connection that has just been established: `SND.WND` is the window of the peer. -/
def Established (r : WindowRun σ) : Prop := r.advertised = r.socket.tcb.snd.wnd.toNat ∧ r.isWithin = true

def machine (lib : SocketLib σ) (alg : CongestionAlgorithm lib) : Machine (WindowRun σ) (ℚ × WindowEvent σ) :=
  ⟨Established, step lib alg⟩

/-- Where `send_segment` is called, what waits first and fits the congestion window fits the advertised one,
and its numbers do not wrap before the window does. -/
def CallOk (lib : SocketLib σ) (alg : CongestionAlgorithm lib) (r : WindowRun σ) (e : ℚ × WindowEvent σ) :
    Prop :=
  ∀ next, r.toWindowState.beforeCall alg e.1 e.2 = some next → ∀ c ∈ next.calls r.toWindowState,
    NumbersOk lib c.socket ∧ FitsAdvertised lib c.advertised c.socket

/-! ### The calls are all recorded -/

section Recorded

theorem acknowledge_nxt (t : Tcb) : t.acknowledge.snd.nxt = t.snd.nxt := by
  unfold Tcb.acknowledge
  split
  · dsimp only
    unfold Tcb.ackSnd
    split <;> rfl
  · rfl
  · rfl

theorem checkSegment_snd (now : ℚ) (s : Socket σ) (p : Packet) : (s.checkSegment now p).2.tcb.snd = s.tcb.snd := by
  unfold Socket.checkSegment
  dsimp only
  split
  · rfl
  · split
    · rfl
    · split <;> rfl

theorem sendAckOrNot_snd (now : ℚ) (s : Socket σ) : (s.sendAckOrNot now).2.tcb.snd = s.tcb.snd := by
  unfold Socket.sendAckOrNot
  dsimp only
  split
  · rfl
  · split
    · rfl
    · split <;> rfl

theorem passOn_tcb (s : Socket σ) (p : Packet) : (s.passOn p).tcb = s.tcb := by
  unfold Socket.passOn
  split <;> rfl

theorem sendQueued_snd (n : ℕ) (s : Socket σ) : (s.sendQueued n).tcb.snd = s.tcb.snd := by
  induction n generalizing s with
  | zero => rfl
  | succ n ih =>
    unfold Socket.sendQueued
    split
    · rfl
    · rw [ih, passOn_tcb]

theorem sendToApplication_snd (s : Socket σ) (p : Packet) : (s.sendToApplication p).tcb.snd = s.tcb.snd := by
  unfold Socket.sendToApplication
  rw [sendQueued_snd, passOn_tcb]

theorem processSegmentText_snd (now : ℚ) (s : Socket σ) (p : Packet) :
    (s.processSegmentText now p).2.tcb.snd = s.tcb.snd := by
  have hack : ∀ (b : Bool) (s : Socket σ),
      (if b then s.sendAck s.tcb.snd.nxt s.tcb.rcv.nxt else s).tcb.snd = s.tcb.snd := by
    intro b s
    cases b <;> rfl
  unfold Socket.processSegmentText
  dsimp only
  split
  -- the states that take no text
  all_goals try rfl
  all_goals
    dsimp only
    split
    · rw [sendToApplication_snd, hack, sendAckOrNot_snd, checkSegment_snd]
    · rw [hack]
      exact checkSegment_snd now s p

theorem dataArrives_nxt (now : ℚ) (s : Socket σ) (p : Packet) :
    (s.dataArrives now p).tcb.snd.nxt = s.tcb.snd.nxt := by
  unfold Socket.dataArrives
  dsimp only
  split
  · rw [processSegmentText_snd]
    rfl
  · rfl

theorem resendSegment_snd (now : ℚ) (s : Socket σ) (seq : UInt32) :
    (s.resendSegment now seq).tcb.snd = s.tcb.snd := by
  unfold Socket.resendSegment
  split <;> rfl

theorem changeStateOnFin_nxt (state : TcpConnectionState) (hdr : SegmentHdr) (s : Socket σ) :
    (WindowState.changeStateOnFin state hdr s).tcb.snd.nxt = s.tcb.snd.nxt := by
  have hchange : ∀ (t : Tcb) (state : TcpConnectionState), (t.changeState state).snd = t.snd := by
    intro t state
    unfold Tcb.changeState
    split <;> rfl
  unfold WindowState.changeStateOnFin
  dsimp only
  split
  · rw [hchange]
  · split
    · rw [hchange]
    · rfl

theorem afterCall_nxt (r : WindowState σ) (event : WindowEvent σ) (s : Socket σ) :
    (r.afterCall event s).tcb.snd.nxt = s.tcb.snd.nxt := by
  cases event with
  | established => rfl
  | fromApplication sId => rfl
  | dataArrives p => rfl
  | timeout => rfl
  | ackArrives p =>
    unfold WindowState.afterCall
    dsimp only
    split
    · exact changeStateOnFin_nxt _ _ _
    · rfl

variable {alg : CongestionAlgorithm lib}

/-- Up to its last call, an event moves `SND.NXT` by the calls of the congestion algorithm. -/
theorem beforeCall_chained {r : WindowState σ} {event : WindowEvent σ} {next : BeforeCall σ}
    (h : r.beforeCall alg now event = some next) :
    Chained lib now r.socket.tcb.snd.nxt next.recovery next.state.socket.tcb.snd.nxt := by
  cases event with
  | established =>
    obtain rfl := Option.some.inj h
    exact rfl
  | fromApplication sId =>
    obtain rfl := Option.some.inj h
    exact rfl
  | dataArrives p =>
    obtain rfl := Option.some.inj h
    exact dataArrives_nxt now r.socket p
  | timeout =>
    unfold WindowState.beforeCall at h
    dsimp only at h
    split at h
    · obtain rfl := Option.some.inj h
      exact rfl
    · rename_i info _ _
      obtain rfl := Option.some.inj h
      have hresend := congrArg SendSeqVar.nxt (resendSegment_snd now
        { r.socket with tcb := alg.rtoExpired r.socket.tcb } info.seqNum)
      exact hresend.trans (alg.rtoExpired_nxt r.socket.tcb)
  | ackArrives p =>
    simp only [WindowState.beforeCall, WindowState.ackArrives] at h
    split at h
    · unfold WindowState.processAck at h
      dsimp only at h
      obtain ⟨⟨s, recovery⟩, hack, h⟩ := Option.bind_eq_some_iff.1 h
      have hchain := alg.chained _ _ _ _ hack
      dsimp only at hchain
      rw [(receiveSackOption_sameSender ..).snd] at hchain
      dsimp only at h
      split at h
      · obtain rfl := Option.some.inj h
        exact (acknowledge_nxt s.tcb).symm ▸ hchain
      · obtain rfl := Option.some.inj h
        exact (acknowledge_nxt s.tcb).symm ▸ hchain
      · obtain rfl := Option.some.inj h
        exact (acknowledge_nxt s.tcb).symm ▸ hchain
    · obtain rfl := Option.some.inj h
      exact rfl

/-- **All calls are recorded**: from the state before an event to the one behind it, `SND.NXT` moves by the
calls of the event and by nothing else. -/
theorem step_chained {r r' : WindowRun σ} {e : ℚ × WindowEvent σ} (h : step lib alg r e = some r') :
    ∃ next, r.toWindowState.beforeCall alg e.1 e.2 = some next ∧
      Chained lib e.1 r.socket.tcb.snd.nxt ((next.calls r.toWindowState).map (·.socket))
        r'.socket.tcb.snd.nxt := by
  obtain ⟨next, hbefore, rfl⟩ := Option.map_eq_some_iff.1 h
  refine ⟨next, hbefore, ?_⟩
  have hlast : Chained lib e.1 next.state.socket.tcb.snd.nxt
      ((if next.isCalled then [next.state] else []).map (·.socket))
      (r.toWindowState.afterCall e.2
        (if next.isCalled then next.state.socket.sendSegment lib e.1 else next.state.socket)).tcb.snd.nxt := by
    rw [afterCall_nxt]
    cases next.isCalled with
    | true => exact ⟨rfl, rfl⟩
    | false => exact rfl
  have hsockets : (next.recovery.map fun c => (⟨c, r.advertised⟩ : WindowState σ)).map (·.socket) =
      next.recovery := by
    rw [List.map_map]
    exact List.map_id _
  unfold BeforeCall.calls
  rw [List.map_append, hsockets]
  exact (beforeCall_chained hbefore).append hlast

end Recorded

/-- **TCP stays within the window** of the peer as long as what waits and fits the congestion window fits it
too: in every run with such calls only, each call stays within both windows. Where no number wraps, a call
that leaves the condition does not. No call escapes the record. -/
theorem within_of_reachOn (lib : SocketLib σ) (alg : CongestionAlgorithm lib) (now : ℚ) (advertised : ℕ)
    (s : Socket σ) :
    (∀ r, (machine lib alg).ReachOn (CallOk lib alg) r → r.isWithin = true) ∧
      (NumbersPlain lib s → (StaysWithin lib now advertised s ↔ FitsAdvertised lib advertised s)) ∧
      ∀ r e r', (machine lib alg).step r e = some r' →
        ∃ next, r.toWindowState.beforeCall alg e.1 e.2 = some next ∧
          Chained lib e.1 r.socket.tcb.snd.nxt ((next.calls r.toWindowState).map (·.socket))
            r'.socket.tcb.snd.nxt := by
  refine ⟨?_, ?_, fun r e r' hstep => step_chained hstep⟩
  · intro r hrun
    refine hrun.inv (I := fun r => r.isWithin = true) (fun r h => (show Established r from h).2) ?_
    intro r e r' hwithin hok hstep
    obtain ⟨next, hbefore, rfl⟩ := Option.map_eq_some_iff.1 hstep
    dsimp only
    rw [hwithin, Bool.true_and, List.all_eq_true]
    intro c hc
    obtain ⟨hN, hfits⟩ := hok next hbefore c hc
    exact decide_eq_true (staysWithin_of_fits hN hfits)
  · intro hN
    refine ⟨fits_of_staysWithin hN, staysWithin_of_fits fun l hl => ?_⟩
    have hlt := hN l hl
    exact ⟨by omega, fun _ => hlt⟩

/-! ## Samples -/

instance (lib : SocketLib σ) (s : Socket σ) : Decidable (NumbersOk lib s) :=
  inferInstanceAs (Decidable (∀ l ∈ _, _ ∧ (_ → _)))

instance (lib : SocketLib σ) (advertised : ℕ) (s : Socket σ) : Decidable (FitsAdvertised lib advertised s) :=
  inferInstanceAs (Decidable (∀ k, k ≤ _ → _ → _ → _))

/-- A sender with nothing in flight, that waits for the application, and the window of its peer. -/
def sender (cwnd : UInt16) (wnd : UInt32) : WindowRun (List AppPacket) :=
  let t := { Tcb.calloc .reno with
    tcpState := .established
    iss := 100
    snd := ⟨101, 101, wnd, 1, 101⟩
    congestion.smss := 100
    congestion.cwnd := cwnd }
  ⟨⟨⟨t, [], true, false, [], []⟩, wnd.toNat⟩, true⟩

/-- Four packets of 100 octets reach the interface. -/
def fourPackets : ℚ × WindowEvent (List AppPacket) := (0, .fromApplication (List.replicate 4 ⟨100, false⟩))

theorem within_of_reachOn_wide :
    ∃ r, (machine .list (.ofVariant .list 10)).ReachOn (CallOk .list (.ofVariant .list 10)) r ∧
      r.socket.tcb.inFlight = 400 ∧ r.isWithin = true := by
  have hok : CallOk .list (.ofVariant .list 10) (sender 400 1000) fourPackets := by
    intro next hnext c hc
    obtain rfl := Option.some.inj hnext
    obtain rfl := List.mem_singleton.1 hc
    exact ⟨by decide, by decide⟩
  have hrun : (machine .list (.ofVariant .list 10)).ReachOn (CallOk .list (.ofVariant .list 10)) _ :=
    .step (.init ⟨rfl, rfl⟩) hok rfl
  refine ⟨_, hrun, by decide, ?_⟩
  exact (within_of_reachOn .list (.ofVariant .list 10) 0 1000 (sender 400 1000).socket).1 _ hrun

/-- The peer has advertised 150 octets, the congestion window is 400 octets, and 400 octets are sent. -/
theorem within_narrow :
    (¬ ∀ r, (machine .list (.ofVariant .list 10)).Reach r → r.isWithin = true) ∧
      ((machine .list (.ofVariant .list 10)).exec (sender 400 150) [fourPackets]).map
        (fun r => (r.socket.tcb.inFlight, r.advertised)) = some (400, 150) := by
  constructor
  · intro hall
    have hreach : ∃ r, (machine .list (.ofVariant .list 10)).Reach r ∧ r.isWithin = false :=
      Machine.Reach.exists_of_exec [fourPackets] (.init (s := sender 400 150) ⟨rfl, rfl⟩) (by decide)
    obtain ⟨r, hr, hnot⟩ := hreach
    rw [hall r hr] at hnot
    cases hnot
  · decide

end WindowRun

end NetSim.Tcp
