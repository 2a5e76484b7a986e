import Mathlib.Data.List.Chain
import Mathlib.Logic.Function.Basic
import NetSim.Lib.Machine
import NetSim.Spec.Pdcp

/-!
# The receiving side of PDCP
-/

/-!
## When a COUNT survives the header

The receiver rebuilds the COUNT that is congruent to the header SN modulo `2 ^ 12`
and within half a window of `RX_DELIV` (`calculateStateVariable_of_congr`). The sender writes the
COUNT modulo `POW_2_SN_SIZE = 4095`, one less than the modulus, so the COUNT comes
back exactly when both remainders agree (`count_roundtrip_iff`).
-/

namespace NetSim.Pdcp

open Word

/-- **The receiver's rule**: it finds the HFN of any COUNT inside the window whose low
12 bits are the header SN. -/
theorem calculateStateVariable_of_congr {c d : ℕ} {hdr : Hdr} (hc : c < 2 ^ 32) (hd : d < 2 ^ 32)
    (hlo : d ≤ c + windowSize) (hhi : c < d + windowSize) (hsn : (hdr.sn : ℕ) = c % 4096) :
    (calculateStateVariable d hdr).count = c := by
  have hw : windowSize = 2048 := rfl
  rw [hw] at hlo hhi
  have hdlt : int32 (u32 (sn d + windowSize)) = (d % 4096 : ℕ) + 2048 := by
    rw [sn_eq, hw, u32_of_lt (by omega)]
    unfold int32
    rw [if_pos (by omega)]
    omega
  have hdgt : int32 (sub32 (sn d) windowSize) = (d % 4096 : ℕ) - 2048 := by
    rw [sn_eq, hw]
    unfold int32 sub32 u32
    split <;> omega
  have hs : int32 (c % 4096) = (c % 4096 : ℕ) := by
    unfold int32
    rw [if_pos (by omega)]
  unfold calculateStateVariable
  dsimp only
  rw [hsn, hdlt, hdgt, hs, hfn_eq, count_eq]
  -- the HFN of `c` is one above, one below or equal to that of `RX_DELIV`
  split
  · have : c / 4096 = d / 4096 + 1 := by omega
    rw [u32_of_lt (show d / 4096 + 1 < 4294967296 by omega), ← this,
      u32_of_lt (show c / 4096 * 4096 < 4294967296 by omega), u32_of_lt (by omega)]
    omega
  · split
    · have : c / 4096 + 1 = d / 4096 := by omega
      rw [sub32_of_le (by omega) (by omega), show d / 4096 - 1 = c / 4096 by omega,
        u32_of_lt (show c / 4096 * 4096 < 4294967296 by omega), u32_of_lt (by omega)]
      omega
    · have : c / 4096 = d / 4096 := by omega
      rw [← this, u32_of_lt (show c / 4096 * 4096 < 4294967296 by omega), u32_of_lt (by omega)]
      omega

/-- The rebuilt COUNT carries the header SN in its low 12 bits. -/
theorem calculateStateVariable_mod (d : ℕ) (hdr : Hdr) :
    (calculateStateVariable d hdr).count % 4096 = hdr.sn := by
  have hlt := hdr.sn.isLt
  have hmod : ∀ h : ℕ, count h hdr.sn % 4096 = hdr.sn := by
    intro h
    rw [count_eq]
    unfold u32
    omega
  exact hmod _

/-- The two moduli leave the same remainder exactly when the HFN is a multiple of 4095
and the SN is not the last one. -/
theorem mod_4095_eq_mod_4096_iff {c : ℕ} : c % 4095 = c % 4096 ↔ c / 4096 % 4095 = 0 ∧ c % 4096 ≠ 4095 := by
  omega

/-- **COUNT round trip.** For every COUNT inside the window of the receiver, the rebuilt
COUNT is the one sent if and only if its HFN is a multiple of 4095 and its SN is not
4095. -/
theorem count_roundtrip_iff (c rxDeliv : ℕ) (hc : c < 2 ^ 32) (hd : rxDeliv < 2 ^ 32)
    (hlo : rxDeliv ≤ c + windowSize) (hhi : c < rxDeliv + windowSize) :
    (calculateStateVariable rxDeliv (addHdr c)).count = c ↔
      hfn c % 4095 = 0 ∧ sn c ≠ 4095 := by
  rw [hfn_eq, sn_eq, ← mod_4095_eq_mod_4096_iff]
  constructor
  · intro h
    have := calculateStateVariable_mod rxDeliv (addHdr c)
    rw [h, addHdr_sn] at this
    exact this.symm
  · intro h
    exact calculateStateVariable_of_congr hc hd hlo hhi (by rw [addHdr_sn, h])

theorem count_roundtrip_iff_at_zero :
    (calculateStateVariable 5 (addHdr 7)).count = 7 ↔ hfn 7 % 4095 = 0 ∧ sn 7 ≠ 4095 :=
  count_roundtrip_iff 7 5 (by decide) (by decide) (by decide) (by decide)

/-- **COUNT 4095 does not come back**: its header carries SN 0, and a receiver waiting for
it rebuilds 4096. -/
theorem count_4095_lost : (calculateStateVariable 4095 (addHdr 4095)).count = 4096 ∧
    ¬ ∀ c rxDeliv : ℕ, c < 2 ^ 32 → rxDeliv < 2 ^ 32 → rxDeliv ≤ c + windowSize →
      c < rxDeliv + windowSize → (calculateStateVariable rxDeliv (addHdr c)).count = c := by
  have h : (calculateStateVariable 4095 (addHdr 4095)).count = 4096 := by decide
  refine ⟨h, ?_⟩
  intro hall
  have := hall 4095 4095 (by decide) (by decide) (by decide) (by decide)
  omega

end NetSim.Pdcp

/-!
## What the receiving side delivers

`rxBufferEnqueue` moves `RX_DELIV` to the head of the buffer before the delivery test,
so a PDU put into an empty buffer is released at once, and `RX_REORD` is never moved
off 0 (`receive_quiet`). From a fresh entity the buffer is therefore empty
after every event and t-Reordering never runs.

* `no_stall_iff`: an expiry hands user data to SDAP and keeps the timer going exactly when the COUNTs
  that it releases carry none and the one behind them is below `RX_NEXT`. So it is over every run whose
  expiries are such, and from fresh entities over every history, handovers included.
* `inOrder_iff`: delivery is in order, once, and without a wrong discard exactly when
  the COUNTs arrive in order, apart from late duplicates.
-/

namespace NetSim.Pdcp

open Word

/-! ## One reception -/

/-- Nothing is stored, the timer is off, and `RX_REORD` has its initial value. -/
structure Quiet (e : Entity) : Prop where
  empty : ∀ x buf, e.receiveBuffer ≠ some (x :: buf)
  stopped : e.isTReorderingRunning = false
  reord : e.rxReord = 0

theorem quiet_createNewEntity : Quiet createNewEntity :=
  ⟨fun _ _ => by simp [createNewEntity], rfl, rfl⟩

/-- An empty buffer holds just the entry put into it. -/
theorem RxBufferLib.addPacketSorted_nil (L : RxBufferLib) (x : RxEntry) : L.addPacketSorted [] x = [x] :=
  List.perm_singleton.1 (L.perm [] x)

/-- The loop releases a lone entry and leaves `RX_DELIV` alone. -/
theorem releaseLoop_singleton (x : RxEntry) (rxDeliv : ℕ) :
    releaseLoop 0 [x] rxDeliv = ([], rxDeliv, [x]) := by
  simp [releaseLoop]

theorem actionForTReorderingOnRecev_quiet {e : Entity} (hs : e.isTReorderingRunning = false)
    (hr : e.rxReord = 0) : actionForTReorderingOnRecev e = e := by
  unfold actionForTReorderingOnRecev
  rw [if_neg (by simp [hs]), if_neg (by simp [hr])]

/-- The entry put into an empty buffer is at its head, so `RX_DELIV` becomes its COUNT. -/
theorem rxBufferEnqueue_empty {e : Entity} (hb : e.receiveBuffer = some []) (L : RxBufferLib) (p : Packet)
    (c : ℕ) :
    rxBufferEnqueue L e p c = some { e with receiveBuffer := some [⟨c, p⟩], rxDeliv := c } := by
  simp [rxBufferEnqueue, hb, L.addPacketSorted_nil]

/-- Only `RX_NEXT` moves. -/
theorem updateStateVariable_eq (e : Entity) (c : ℕ) :
    ∃ n, updateStateVariable e c = { e with rxNext := n } := by
  unfold updateStateVariable
  split
  · exact ⟨_, rfl⟩
  · exact ⟨e.rxNext, rfl⟩

/-- In both delivery modes a lone entry at `RX_DELIV` is handed up. -/
theorem deliverSDUToUpperLayer_one {e : Entity} {c : ℕ} {p : Packet}
    (hb : e.receiveBuffer = some [⟨c, p⟩]) (hd : e.rxDeliv = c) (ooo : Bool) :
    deliverSDUToUpperLayer ooo e c =
      some ({ e with receiveBuffer := some [] }, [.handed .reception (sendUp p) c p]) := by
  subst hd
  cases ooo with
  | true => simp [deliverSDUToUpperLayer, hb]
  | false => simp [deliverSDUToUpperLayer, hb, release, releaseLoop_singleton]

/-- The COUNT that the receiver gives to a packet. -/
def recvCount (e : Entity) (p : Packet) : ℕ := (calculateStateVariable e.rxDeliv p.hdr).count

/-- **One reception.** A quiet entity discards a data PDU below `RX_DELIV`; it hands up
every other PDU at once, by the normal path, and moves `RX_DELIV` to its COUNT. -/
theorem receive_quiet {L : RxBufferLib} {ooo : Bool} {e e' : Entity} {p : Packet} {out : List Outcome}
    (hq : Quiet e) (hr : receivePDCPSDU L ooo e p = some (e', out)) :
    Quiet e' ∧
      ((recvCount e p < e.rxDeliv ∧ isLTENRControlPacket p = false ∧ e' = e ∧
          out = [.discarded (recvCount e p) p]) ∨
        ((e.rxDeliv ≤ recvCount e p ∨ isLTENRControlPacket p = true) ∧
          e'.rxDeliv = recvCount e p ∧ out = [.handed .reception (sendUp p) (recvCount e p) p])) := by
  unfold receivePDCPSDU at hr
  simp only [← recvCount.eq_1] at hr
  split at hr
  · rename_i hdup
    simp only [Option.some.injEq, Prod.mk.injEq] at hr
    obtain ⟨rfl, rfl⟩ := hr
    simp only [isDuplicatePdu, Bool.and_eq_true, decide_eq_true_eq, Bool.not_eq_true'] at hdup
    exact ⟨hq, Or.inl ⟨hdup.1, hdup.2, rfl, rfl⟩⟩
  · rename_i hnew
    have hge : e.rxDeliv ≤ recvCount e p ∨ isLTENRControlPacket p = true := by
      simp only [isDuplicatePdu, Bool.and_eq_true, decide_eq_true_eq, Bool.not_eq_true', not_and,
        Bool.not_eq_false] at hnew
      rcases Nat.lt_or_ge (recvCount e p) e.rxDeliv with h | h
      · exact Or.inr (hnew h)
      · exact Or.inl h
    rcases hb : e.receiveBuffer with _ | _ | ⟨x, buf⟩
    · simp [rxBufferEnqueue, hb] at hr
    · obtain ⟨n, hn⟩ := updateStateVariable_eq
        { e with receiveBuffer := some [⟨recvCount e p, p⟩], rxDeliv := recvCount e p } (recvCount e p)
      have hdel := deliverSDUToUpperLayer_one (p := p) (c := recvCount e p)
        (e := { e with receiveBuffer := some [⟨recvCount e p, p⟩], rxDeliv := recvCount e p, rxNext := n })
        rfl rfl ooo
      rw [rxBufferEnqueue_empty hb, Option.bind_eq_bind, Option.bind_some] at hr
      dsimp only at hr hn hdel
      rw [hn, hdel, Option.bind_eq_bind, Option.bind_some] at hr
      simp only [Option.pure_def, Option.some.injEq, Prod.mk.injEq] at hr
      obtain ⟨rfl, rfl⟩ := hr
      rw [actionForTReorderingOnRecev_quiet]
      · exact ⟨⟨fun _ _ => by simp, hq.stopped, hq.reord⟩, Or.inr ⟨hge, rfl, rfl⟩⟩
      · exact hq.stopped
      · exact hq.reord
    · exact absurd hb (hq.empty x buf)

/-- A user-plane packet whose header carries the SN of COUNT `c`. -/
def userData (c : ℕ) : Packet := ⟨c, false, 0, some msgUserdata, ⟨⟨c % 4096, Nat.mod_lt c (by decide)⟩⟩⟩

/-! ## One expiry -/

/-- An SDU waits in the receive buffer. -/
def Stalled (e : Entity) : Prop := ∃ x buf, e.receiveBuffer = some (x :: buf)

/-- While an SDU waits, the timer runs. -/
def Watched (e : Entity) : Prop := Stalled e → e.isTReorderingRunning = true

/-- The user data that was handed up went to SDAP. -/
def ToSdap (out : List Outcome) : Prop :=
  ∀ path upper c p, .handed path upper c p ∈ out → isUplaneMsg p = true → upper = .sdap

/-- The COUNT of `y` is one above that of `x`. After the last COUNT the loop takes any. -/
def Follows (x y : RxEntry) : Prop := u32 (x.count + 1) = 0 ∨ u32 (x.count + 1) = y.count

instance (x y : RxEntry) : Decidable (Follows x y) := inferInstanceAs (Decidable (_ ∨ _))

/-- The entries are numbered consecutively. -/
abbrev Consecutive (l : List RxEntry) : Prop := l.IsChain Follows

/-- No user data is among the entries that the buffer numbers consecutively from its head. -/
def HeadsControl (buf : List RxEntry) : Prop :=
  ∀ pre x post, buf = pre ++ x :: post → Consecutive (pre ++ [x]) → isUplaneMsg x.packet = false

/-- The first COUNT behind them is below `RX_NEXT`. -/
def GapBelow (rxNext : ℕ) (buf : List RxEntry) : Prop :=
  ∀ pre y post, buf = pre ++ y :: post → Consecutive pre → ¬ Consecutive (pre ++ [y]) → y.count < rxNext

/-- Both hold of the buffer, if there is one. -/
def ExpiresWell (e : Entity) : Prop :=
  ∀ buf, e.receiveBuffer = some buf → HeadsControl buf ∧ GapBelow e.rxNext buf

/-- The next COUNT that the loop takes, with 0 for any. -/
def Takes (next : ℕ) (l : List RxEntry) : Prop := ∀ x ∈ l.head?, next = 0 ∨ next = x.count

/-- **The loop** releases consecutive entries. What is left begins with one that does not follow, and
`RX_DELIV` is its COUNT. -/
theorem releaseLoop_spec (next : ℕ) (buf : List RxEntry) (rxDeliv : ℕ) :
    (releaseLoop next buf rxDeliv).2.2 ++ (releaseLoop next buf rxDeliv).1 = buf ∧
      (Takes next (releaseLoop next buf rxDeliv).2.2 ∧ Consecutive (releaseLoop next buf rxDeliv).2.2) ∧
      ∀ y rest, (releaseLoop next buf rxDeliv).1 = y :: rest →
        (releaseLoop next buf rxDeliv).2.1 = y.count ∧
          ¬ (Takes next ((releaseLoop next buf rxDeliv).2.2 ++ [y]) ∧
            Consecutive ((releaseLoop next buf rxDeliv).2.2 ++ [y])) := by
  induction buf generalizing next with
  | nil => simp [releaseLoop, Takes]
  | cons x xs ih =>
    unfold releaseLoop
    dsimp only
    by_cases htake : next = 0 ∨ next = x.count
    · have hnext : (if next = 0 then x.count else next) = x.count := by
        split
        · rfl
        · exact htake.resolve_left ‹_›
      rw [hnext, if_pos rfl]
      obtain ⟨happ, ⟨hhead, hchain⟩, hrest⟩ := ih (u32 (x.count + 1))
      -- what the loop takes after `x` is what follows `x`
      have hcons : ∀ l, Consecutive (x :: l) ↔ Takes (u32 (x.count + 1)) l ∧ Consecutive l := by
        intro l
        exact List.isChain_cons
      have htakes : ∀ l, Takes next (x :: l) := by
        intro l z hz
        obtain rfl : x = z := by simpa using hz
        exact htake
      refine ⟨by simpa using happ, ⟨htakes _, (hcons _).2 ⟨hhead, hchain⟩⟩, ?_⟩
      intro y rest hy
      obtain ⟨hcount, hno⟩ := hrest y rest hy
      refine ⟨hcount, ?_⟩
      rw [List.cons_append]
      exact fun hyes => hno ((hcons _).1 hyes.2)
    · have hne : ¬ (if next = 0 then x.count else next) = x.count := by
        rw [not_or] at htake
        rw [if_neg htake.1]
        exact htake.2
      rw [if_neg hne]
      refine ⟨rfl, ⟨by simp [Takes], List.isChain_nil⟩, ?_⟩
      rintro y rest ⟨rfl, rfl⟩
      refine ⟨rfl, fun hyes => htake ?_⟩
      simpa [Takes] using hyes.1

/-- A buffer that begins with consecutive entries and then breaks off. -/
structure Breaks (buf run rest : List RxEntry) : Prop where
  append : run ++ rest = buf
  consecutive : Consecutive run
  breaks : ∀ y l, rest = y :: l → ¬ Consecutive (run ++ [y])

theorem releaseLoop_breaks (buf : List RxEntry) (rxDeliv : ℕ) :
    Breaks buf (releaseLoop 0 buf rxDeliv).2.2 (releaseLoop 0 buf rxDeliv).1 := by
  obtain ⟨happ, hrun, hrest⟩ := releaseLoop_spec 0 buf rxDeliv
  refine ⟨happ, hrun.2, fun y l hy hchain => (hrest y l hy).2 ⟨?_, hchain⟩⟩
  exact fun _ _ => Or.inl rfl

variable {buf run rest pre post : List RxEntry} {x : RxEntry}

/-- Whatever is numbered consecutively from the head is in the run. -/
theorem Breaks.mem_run (h : Breaks buf run rest) (hbuf : buf = pre ++ x :: post)
    (hchain : Consecutive (pre ++ [x])) : x ∈ run := by
  have happ := h.append.trans hbuf
  rcases List.append_eq_append_iff.1 happ with ⟨l, hpre, hrest⟩ | ⟨l, hrun, hx⟩
  · -- the run would go on
    exfalso
    rcases l with _ | ⟨y, l⟩
    · rw [List.append_nil] at hpre
      exact h.breaks x post hrest (hpre ▸ hchain)
    · refine h.breaks y _ hrest ?_
      apply List.IsChain.prefix hchain
      rw [hpre, List.append_assoc]
      exact List.prefix_append_right_inj run |>.2 (by simp)
  · rcases l with _ | ⟨y, l⟩
    · exfalso
      rw [List.append_nil] at hrun
      exact h.breaks x post hx.symm (hrun ▸ hchain)
    · obtain ⟨rfl, -⟩ := List.cons.inj hx
      rw [hrun]
      simp

/-- The first entry that is not so numbered is the head of the rest. -/
theorem Breaks.eq_rest (h : Breaks buf run rest) (hbuf : buf = pre ++ x :: post)
    (hpre : Consecutive pre) (hno : ¬ Consecutive (pre ++ [x])) : rest = x :: post := by
  have happ := h.append.trans hbuf
  rcases List.append_eq_append_iff.1 happ with ⟨l, hl, hrest⟩ | ⟨l, hrun, hx⟩
  · rcases l with _ | ⟨y, l⟩
    · exact hrest
    · exfalso
      refine h.breaks y _ hrest ?_
      apply List.IsChain.prefix hpre
      rw [hl]
      exact List.prefix_append_right_inj run |>.2 (by simp)
  · rcases l with _ | ⟨y, l⟩
    · exact hx.symm
    · exfalso
      obtain ⟨rfl, -⟩ := List.cons.inj hx
      apply hno
      apply List.IsChain.prefix h.consecutive
      rw [hrun]
      exact List.prefix_append_right_inj pre |>.2 (by simp)

theorem Breaks.headsControl_iff (h : Breaks buf run rest) :
    HeadsControl buf ↔ ∀ x ∈ run, isUplaneMsg x.packet = false := by
  constructor
  · intro hc x hx
    obtain ⟨pre, post, hrun⟩ := List.append_of_mem hx
    apply hc pre x (post ++ rest)
    · rw [← h.append, hrun]
      simp
    · apply List.IsChain.prefix h.consecutive
      rw [hrun]
      exact List.prefix_append_right_inj pre |>.2 (by simp)
  · exact fun hc pre x post hbuf hchain => hc x (h.mem_run hbuf hchain)

theorem Breaks.gapBelow_iff (h : Breaks buf run rest) (rxNext : ℕ) :
    GapBelow rxNext buf ↔ ∀ y l, rest = y :: l → y.count < rxNext := by
  constructor
  · intro hg y l hy
    exact hg run y l (by rw [← h.append, hy]) h.consecutive (h.breaks y l hy)
  · exact fun hg pre y post hbuf hpre hno => hg y post (h.eq_rest hbuf hpre hno)

/-- What an expiry does to an entity with a buffer. -/
theorem handleTReorderingTimer_eq {e e' : Entity} {out : List Outcome} (hb : e.receiveBuffer = some buf)
    (h : handleTReorderingTimer e = some (e', out)) :
    e'.receiveBuffer = some (releaseLoop 0 buf e.rxDeliv).1 ∧
      (e'.isTReorderingRunning = true ↔ (releaseLoop 0 buf e.rxDeliv).2.1 < e.rxNext) ∧
      out = (releaseLoop 0 buf e.rxDeliv).2.2.map fun x => .handed .tReordering .rrc x.count x.packet := by
  unfold handleTReorderingTimer at h
  split at h
  · simp only [stopTReordering, hb, release] at h
    split at h
    · rename_i hlt
      obtain ⟨rfl, rfl⟩ := Prod.mk.inj (Option.some.inj h)
      exact ⟨rfl, iff_of_true rfl hlt, rfl⟩
    · rename_i hle
      obtain ⟨rfl, rfl⟩ := Prod.mk.inj (Option.some.inj h)
      exact ⟨rfl, iff_of_false (by simp) hle, rfl⟩
  · exact absurd h (by simp)

/-- Without a buffer nothing is handed up. -/
theorem handleTReorderingTimer_of_none {e e' : Entity} {out : List Outcome} (hb : e.receiveBuffer = none)
    (h : handleTReorderingTimer e = some (e', out)) : e'.receiveBuffer = none ∧ out = [] := by
  unfold handleTReorderingTimer at h
  split at h
  · simp only [stopTReordering, hb] at h
    split at h
    · obtain ⟨rfl, rfl⟩ := Prod.mk.inj (Option.some.inj h)
      exact ⟨rfl, rfl⟩
    · obtain ⟨rfl, rfl⟩ := Prod.mk.inj (Option.some.inj h)
      exact ⟨rfl, rfl⟩
  · exact absurd h (by simp)

/-- The loop of the handler hands everything to RRC, so user data must not be in it. -/
theorem toSdap_rrc_iff (l : List RxEntry) :
    ToSdap (l.map fun x => .handed .tReordering .rrc x.count x.packet) ↔
      ∀ x ∈ l, isUplaneMsg x.packet = false := by
  constructor
  · intro h x hx
    by_contra hu
    have hrrc := h .tReordering .rrc x.count x.packet (List.mem_map.2 ⟨x, hx, rfl⟩)
      (by simpa using hu)
    exact absurd hrrc (by simp)
  · intro h path upper c p hm hu
    obtain ⟨x, hx, heq⟩ := List.mem_map.1 hm
    obtain ⟨-, -, -, rfl⟩ := Outcome.handed.inj heq
    rw [h x hx] at hu
    exact absurd hu (by simp)

/-- **One expiry.** The timer runs while an SDU waits, and user data went to SDAP, exactly when no user
data was numbered consecutively from the head of the buffer and the first COUNT behind was below
`RX_NEXT`. -/
theorem handleTReorderingTimer_iff {e e' : Entity} {out : List Outcome}
    (h : handleTReorderingTimer e = some (e', out)) : Watched e' ∧ ToSdap out ↔ ExpiresWell e := by
  unfold ExpiresWell
  cases hb : e.receiveBuffer with
  | none =>
    obtain ⟨hb', rfl⟩ := handleTReorderingTimer_of_none hb h
    refine iff_of_true ⟨?_, fun _ _ _ _ hm => absurd hm (by simp)⟩ (fun _ hn => absurd hn (by simp))
    rintro ⟨x, l, hx⟩
    exact absurd (hb'.symm.trans hx) (by simp)
  | some buf =>
    have hbreaks := releaseLoop_breaks buf e.rxDeliv
    have hcount := (releaseLoop_spec 0 buf e.rxDeliv).2.2
    obtain ⟨hb', hrun, rfl⟩ := handleTReorderingTimer_eq hb h
    have hwatched : Watched e' ↔
        ∀ y l, (releaseLoop 0 buf e.rxDeliv).1 = y :: l → y.count < e.rxNext := by
      unfold Watched Stalled
      rw [hb', hrun]
      constructor
      · intro hw y l hy
        have hlt := hw ⟨y, l, congrArg some hy⟩
        rwa [(hcount y l hy).1] at hlt
      · rintro hw ⟨y, l, hy⟩
        rw [(hcount y l (Option.some.inj hy)).1]
        exact hw y l (Option.some.inj hy)
    rw [hwatched, toSdap_rrc_iff, ← hbreaks.headsControl_iff, ← hbreaks.gapBelow_iff, and_comm]
    simp only [Option.some.injEq, forall_eq']

/-! ## A reception, with SDUs waiting -/

/-- A delivery leaves the timer alone, and user data goes to SDAP. -/
theorem deliverSDUToUpperLayer_toSdap {ooo : Bool} {e e' : Entity} {c : ℕ} {out : List Outcome}
    (h : deliverSDUToUpperLayer ooo e c = some (e', out)) :
    e'.isTReorderingRunning = e.isTReorderingRunning ∧ ToSdap out := by
  have hup : ∀ l : List RxEntry, ToSdap (l.map fun x => .handed .reception (sendUp x.packet) x.count x.packet) := by
    intro l path upper c p hm hu
    obtain ⟨x, -, heq⟩ := List.mem_map.1 hm
    obtain ⟨-, rfl, -, rfl⟩ := Outcome.handed.inj heq
    exact if_pos hu
  unfold deliverSDUToUpperLayer at h
  simp only [Option.bind_eq_bind, Option.bind_eq_some_iff] at h
  obtain ⟨buf, -, h⟩ := h
  split at h
  · obtain ⟨x, -, h⟩ := Option.bind_eq_some_iff.1 h
    obtain ⟨rfl, rfl⟩ := Prod.mk.inj (Option.some.inj h)
    exact ⟨rfl, hup [x]⟩
  · split at h
    · obtain ⟨rfl, rfl⟩ := Prod.mk.inj (Option.some.inj h)
      exact ⟨rfl, hup _⟩
    · obtain ⟨rfl, rfl⟩ := Prod.mk.inj (Option.some.inj h)
      exact ⟨rfl, hup []⟩

/-- The timer is never stopped for good. -/
theorem actionForTReorderingOnRecev_frame (e : Entity) :
    (actionForTReorderingOnRecev e).receiveBuffer = e.receiveBuffer ∧
      (e.isTReorderingRunning = true → (actionForTReorderingOnRecev e).isTReorderingRunning = true) := by
  unfold actionForTReorderingOnRecev
  split
  · exact ⟨rfl, fun _ => rfl⟩
  · split
    · exact ⟨rfl, fun _ => rfl⟩
    · exact ⟨rfl, id⟩

/-- **One reception.** An entity whose timer is off had an empty buffer, so the PDU is handed up at
once; one whose timer runs keeps it running. -/
theorem receivePDCPSDU_watched {L : RxBufferLib} {ooo : Bool} {e e' : Entity} {p : Packet}
    {out : List Outcome} (hw : Watched e) (h : receivePDCPSDU L ooo e p = some (e', out)) :
    Watched e' ∧ ToSdap out := by
  unfold receivePDCPSDU at h
  simp only [← recvCount.eq_1] at h
  split at h
  · obtain ⟨rfl, rfl⟩ := Prod.mk.inj (Option.some.inj h)
    exact ⟨hw, fun path upper c q hm => absurd hm (by simp)⟩
  simp only [Option.bind_eq_bind, Option.bind_eq_some_iff] at h
  obtain ⟨e₁, henq, ⟨e₂, out₂⟩, hdel, h⟩ := h
  obtain ⟨rfl, rfl⟩ := Prod.mk.inj (Option.some.inj h)
  obtain ⟨hsame, hup⟩ := deliverSDUToUpperLayer_toSdap hdel
  obtain ⟨n, hn⟩ := updateStateVariable_eq e₁ (recvCount e p)
  obtain ⟨hbuf, hkeeps⟩ := actionForTReorderingOnRecev_frame e₂
  have hrun : e₁.isTReorderingRunning = e.isTReorderingRunning := by
    simp only [rxBufferEnqueue, Option.bind_eq_bind, Option.bind_eq_some_iff] at henq
    obtain ⟨_, -, _, -, h₁⟩ := henq
    rw [← Option.some.inj h₁]
  refine ⟨?_, hup⟩
  by_cases hon : e.isTReorderingRunning = true
  · refine fun _ => hkeeps ?_
    rw [hsame, hn]
    exact hrun.trans hon
  · -- nothing waited, and the lone entry is released
    have hempty : e.receiveBuffer = some [] := by
      rcases hb : e.receiveBuffer with _ | _ | ⟨x, buf⟩
      · simp [rxBufferEnqueue, hb] at henq
      · rfl
      · exact absurd (hw ⟨x, buf, hb⟩) hon
    rw [rxBufferEnqueue_empty hempty, Option.some.injEq] at henq
    subst henq
    dsimp only at hn
    rw [hn, deliverSDUToUpperLayer_one rfl rfl, Option.some.injEq] at hdel
    obtain ⟨rfl, -⟩ := Prod.mk.inj hdel
    rintro ⟨x, buf, hb⟩
    rw [hbuf] at hb
    exact absurd hb (by simp)

/-! ## Whole histories -/

/-- The receiving entities of a network, with what became of each one's arrivals. -/
structure Receivers (ι : Type) where
  ent : ι → Entity
  log : ι → List Outcome

inductive ReceiverEvent (ι : Type)
  | transmit (i : ι)
  | receive (i : ι) (p : Packet)
  | tReordering (i : ι)
  | handover (ser tar : ι)

variable {ι : Type} [DecidableEq ι]

namespace Receivers

def set (s : Receivers ι) (i : ι) (e : Entity) (out : List Outcome) : Receivers ι :=
  ⟨Function.update s.ent i e, Function.update s.log i (s.log i ++ out)⟩

def step (L : RxBufferLib) (ooo : ι → Bool) (s : Receivers ι) : ReceiverEvent ι → Option (Receivers ι)
  | .transmit i => some (s.set i (setSn (s.ent i)).1 [])
  | .receive i p => (receivePDCPSDU L (ooo i) (s.ent i) p).map fun r => s.set i r.1 r.2
  | .tReordering i => (handleTReorderingTimer (s.ent i)).map fun r => s.set i r.1 r.2
  | .handover ser tar =>
    if ser = tar then none
    else
      let r := pdcpBufferTransfer (s.ent ser) (s.ent tar)
      some ((s.set ser r.1 []).set tar r.2 [])

/-- Each device has its own delivery mode, and every entity is new at the start. -/
def machine (L : RxBufferLib) (ooo : ι → Bool) : Machine (Receivers ι) (ReceiverEvent ι) where
  init s := ∀ i, s.ent i = createNewEntity ∧ s.log i = []
  step := step L ooo

/-- The same from any entities whose timer runs while an SDU waits. -/
def machineFrom (L : RxBufferLib) (ooo : ι → Bool) : Machine (Receivers ι) (ReceiverEvent ι) where
  init s := ∀ i, Watched (s.ent i) ∧ s.log i = []
  step := step L ooo

/-! ### From any entities -/

/-- An expiry is as in `handleTReorderingTimer_iff`, and a handover does not move waiting SDUs to an
entity whose timer is off. -/
def ExpiresOk (s : Receivers ι) : ReceiverEvent ι → Prop
  | .transmit _ | .receive _ _ => True
  | .tReordering i => ExpiresWell (s.ent i)
  | .handover ser tar => Stalled (s.ent ser) → (s.ent tar).isTReorderingRunning = true

/-- The timer runs while an SDU waits, and user data went to SDAP. -/
def Served (s : Receivers ι) (i : ι) : Prop := Watched (s.ent i) ∧ ToSdap (s.log i)

theorem ToSdap.append {l out : List Outcome} (hl : ToSdap l) (ho : ToSdap out) : ToSdap (l ++ out) := by
  intro path upper c p hm
  rcases List.mem_append.1 hm with hm | hm
  · exact hl path upper c p hm
  · exact ho path upper c p hm

theorem Served.set {s : Receivers ι} (h : ∀ i, s.Served i) {i : ι} {e : Entity} {out : List Outcome}
    (hw : Watched e) (ho : ToSdap out) (j : ι) : (s.set i e out).Served j := by
  by_cases hj : j = i
  · subst hj
    simp only [Served, Receivers.set, Function.update_self]
    exact ⟨hw, ToSdap.append (h j).2 ho⟩
  · simpa only [Served, Receivers.set, ne_eq, hj, not_false_eq_true, Function.update_of_ne] using h j

/-- A handover or a transmission releases nothing. -/
theorem toSdap_nil : ToSdap [] := fun _ _ _ _ hm => absurd hm (by simp)

theorem Served.step {L : RxBufferLib} {ooo : ι → Bool} {s s' : Receivers ι} {ev : ReceiverEvent ι}
    (h : ∀ i, s.Served i) (hok : ExpiresOk s ev) (hs : s.step L ooo ev = some s') (j : ι) : s'.Served j := by
  cases ev with
  | transmit i =>
    simp only [Receivers.step, Option.some.injEq] at hs
    subst hs
    have hw : Watched (setSn (s.ent i)).1 := (h i).1
    exact Served.set h hw toSdap_nil j
  | receive i p =>
    obtain ⟨⟨e', out⟩, hr, rfl⟩ := Option.map_eq_some_iff.1 hs
    obtain ⟨hw, ho⟩ := receivePDCPSDU_watched (h i).1 hr
    exact Served.set h hw ho j
  | tReordering i =>
    obtain ⟨⟨e', out⟩, hr, rfl⟩ := Option.map_eq_some_iff.1 hs
    obtain ⟨hw, ho⟩ := (handleTReorderingTimer_iff hr).2 hok
    exact Served.set h hw ho j
  | handover ser tar =>
    simp only [Receivers.step] at hs
    split at hs
    · exact absurd hs (by simp)
    · simp only [Option.some.injEq] at hs
      subst hs
      have hser : Watched (pdcpBufferTransfer (s.ent ser) (s.ent tar)).1 := by
        rintro ⟨x, buf, hb⟩
        exact absurd hb (by simp [pdcpBufferTransfer])
      have htar : Watched (pdcpBufferTransfer (s.ent ser) (s.ent tar)).2 := hok
      exact Served.set (fun i => Served.set h hser toSdap_nil i) htar toSdap_nil j

/-- **The run lemma**, from any entities whose timer runs while an SDU waits. -/
theorem served_of_reachOn {L : RxBufferLib} {ooo : ι → Bool} {s : Receivers ι}
    (h : (machineFrom L ooo).ReachOn ExpiresOk s) (i : ι) : s.Served i := by
  refine h.inv (I := fun s => ∀ i, s.Served i) (fun s h0 i => ⟨(h0 i).1, ?_⟩)
    (fun s e s' hi hok hs => Served.step hi hok hs) i
  rw [(h0 i).2]
  exact toSdap_nil

/-! ### From fresh entities -/

/-- Every entity is quiet. -/
def AllQuiet (s : Receivers ι) : Prop := ∀ i, Quiet (s.ent i)

theorem AllQuiet.set {s : Receivers ι} (h : s.AllQuiet) {i : ι} {e : Entity} {out : List Outcome}
    (hq : Quiet e) : (s.set i e out).AllQuiet := by
  intro j
  by_cases hj : j = i
  · subst hj
    simpa [Receivers.set] using hq
  · simpa [Receivers.set, hj] using h j

theorem AllQuiet.step {L : RxBufferLib} {ooo : ι → Bool} {s s' : Receivers ι} {ev : ReceiverEvent ι}
    (h : s.AllQuiet) (hs : s.step L ooo ev = some s') : s'.AllQuiet := by
  cases ev with
  | transmit i =>
    simp only [Receivers.step, Option.some.injEq] at hs
    subst hs
    have hq := h i
    exact h.set ⟨hq.empty, hq.stopped, hq.reord⟩
  | receive i p =>
    obtain ⟨⟨e', out⟩, hr, rfl⟩ := Option.map_eq_some_iff.1 hs
    exact h.set (receive_quiet (h i) hr).1
  | tReordering i =>
    -- the timer never runs
    obtain ⟨r, hr, -⟩ := Option.map_eq_some_iff.1 hs
    simp [handleTReorderingTimer, (h i).stopped] at hr
  | handover ser tar =>
    simp only [Receivers.step] at hs
    split at hs
    · exact absurd hs (by simp)
    · simp only [Option.some.injEq] at hs
      subst hs
      have hser := h ser
      have htar := h tar
      have h1 : (s.set ser { s.ent ser with receiveBuffer := none } []).AllQuiet :=
        h.set ⟨fun _ _ => by simp, hser.stopped, hser.reord⟩
      exact h1.set ⟨hser.empty, htar.stopped, hser.reord⟩

theorem allQuiet_of_reach {L : RxBufferLib} {ooo : ι → Bool} {s : Receivers ι}
    (h : (machine L ooo).Reach s) : s.AllQuiet := by
  refine h.inv (I := AllQuiet) (fun s h0 i => ?_) fun s e s' hi _ hs => AllQuiet.step hi hs
  rw [(h0 i).1]
  exact quiet_createNewEntity

omit [DecidableEq ι] in
/-- Quiet entities have no expiry and no waiting SDU, so they meet the conditions. -/
theorem AllQuiet.expiresOk {s : Receivers ι} (h : s.AllQuiet) (ev : ReceiverEvent ι) : ExpiresOk s ev := by
  cases ev with
  | transmit i => trivial
  | receive i p => trivial
  | tReordering i =>
    intro buf hb
    cases buf with
    | nil => exact ⟨fun pre x post hx => absurd hx (by simp), fun pre y post hy => absurd hy (by simp)⟩
    | cons x buf => exact absurd hb ((h i).empty x buf)
  | handover ser tar =>
    rintro ⟨x, buf, hb⟩
    exact absurd hb ((h ser).empty x buf)

/-- A run from fresh entities is a run whose steps meet the conditions. -/
theorem reachOn_of_reach {L : RxBufferLib} {ooo : ι → Bool} {s : Receivers ι}
    (h : (machine L ooo).Reach s) : (machineFrom L ooo).ReachOn ExpiresOk s := by
  induction h with
  | init h0 =>
    refine .init fun i => ⟨?_, (h0 i).2⟩
    rw [(h0 i).1]
    rintro ⟨x, buf, hb⟩
    exact absurd hb (by simp [createNewEntity])
  | step hreach _ hs ih => exact .step ih (AllQuiet.expiresOk (allQuiet_of_reach hreach) _) hs

/-- An RRC message whose header carries the SN of COUNT `c`. -/
def rrcMessage (c : ℕ) : Packet :=
  ⟨c, true, macProtocolLteNr * 100, some (macProtocolLteNr * 100), ⟨⟨c % 4096, Nat.mod_lt c (by decide)⟩⟩⟩

/-- The timer runs while the packet waits as COUNT 5, with COUNT 7 behind it. -/
def waiting (p : Packet) : Entity := ⟨0, 8, 5, 8, some [⟨5, p⟩, ⟨7, userData 7⟩], true⟩

end Receivers

/-! ## Delivery in order -/

/-- An entity with in-order delivery, the COUNTs that arrived at it and those it handed up,
both in order of time. A COUNT below `expired` had its reordering time run out. `lost`
holds the COUNTs that were discarded though neither handed up before nor expired. -/
structure Arrivals where
  ent : Entity
  arrived : List ℕ
  handed : List ℕ
  lost : List ℕ
  expired : ℕ
deriving DecidableEq

inductive ArrivalEvent
  | arrive (c : ℕ) (p : Packet)
  | tReordering
deriving DecidableEq

namespace Arrivals

def fresh : Arrivals := ⟨createNewEntity, [], [], [], 0⟩

/-- Files one outcome. -/
def record (s : Arrivals) : Outcome → Arrivals
  | .handed _ _ c _ => { s with handed := s.handed ++ [c] }
  | .discarded c _ => if c ∈ s.handed ∨ c < s.expired then s else { s with lost := s.lost ++ [c] }

def step (L : RxBufferLib) (s : Arrivals) : ArrivalEvent → Option Arrivals
  | .arrive c p => (receivePDCPSDU L false s.ent p).map fun r =>
      r.2.foldl record { s with ent := r.1, arrived := s.arrived ++ [c] }
  | .tReordering => (handleTReorderingTimer s.ent).map fun r =>
      r.2.foldl record { s with ent := r.1, expired := max s.expired s.ent.rxReord }

def machine (L : RxBufferLib) : Machine Arrivals ArrivalEvent := ⟨(· = fresh), step L⟩

/-- The arrival is a data PDU that carries its COUNT, inside the window of the receiver. -/
def InWindow (s : Arrivals) : ArrivalEvent → Prop
  | .arrive c p => isLTENRControlPacket p = false ∧ (p.hdr.sn : ℕ) = c % 4096 ∧ c < 2 ^ 32 ∧
      s.ent.rxDeliv ≤ c + windowSize ∧ c < s.ent.rxDeliv + windowSize
  | .tReordering => True

instance (s : Arrivals) (ev : ArrivalEvent) : Decidable (InWindow s ev) :=
  match ev with
  | .arrive _ _ | .tReordering => by
    dsimp only [InWindow]
    infer_instance

/-- SDUs are handed up in increasing COUNT, and none is discarded merely because a higher
COUNT arrived first. -/
def InOrderOnce (s : Arrivals) : Prop := s.handed.Pairwise (· < ·) ∧ s.lost = []

/-- Each arrival is above all earlier ones, or repeats one that a later COUNT followed. -/
def ArriveInOrder (arrived : List ℕ) : Prop :=
  ∀ pre c post, arrived = pre ++ c :: post →
    (∀ x ∈ pre, x < c) ∨ (c ∈ pre ∧ ∃ x ∈ pre, c < x)

theorem arriveInOrder_append (l : List ℕ) (c : ℕ) : ArriveInOrder (l ++ [c]) ↔
    ArriveInOrder l ∧ ((∀ x ∈ l, x < c) ∨ (c ∈ l ∧ ∃ x ∈ l, c < x)) := by
  constructor
  · intro h
    refine ⟨fun pre x post hx => h pre x (post ++ [c]) (by rw [hx]; simp), h l c [] rfl⟩
  · rintro ⟨h, hc⟩ pre x post hx
    rcases List.eq_nil_or_concat post with rfl | ⟨post, y, rfl⟩
    · obtain ⟨rfl, rfl⟩ := List.append_singleton_inj.1 hx
      exact hc
    · rw [List.concat_eq_append, ← List.cons_append, ← List.append_assoc] at hx
      exact h pre x post (List.append_singleton_inj.1 hx).1

structure Inv (s : Arrivals) : Prop where
  quiet : Quiet s.ent
  bounded : s.ent.rxDeliv < 2 ^ 32
  top : ∀ x ∈ s.arrived, x ≤ s.ent.rxDeliv
  last : s.arrived = [] ∧ s.ent.rxDeliv = 0 ∨ s.ent.rxDeliv ∈ s.handed
  handed : ∀ x ∈ s.handed, x ∈ s.arrived
  kept : ∀ x ∈ s.arrived, x ∈ s.handed ∨ x ∈ s.lost
  expired : s.expired = 0
  ok : InOrderOnce s ↔ ArriveInOrder s.arrived

theorem inv_fresh : Inv fresh where
  quiet := quiet_createNewEntity
  bounded := by decide
  top := by simp [fresh]
  last := Or.inl ⟨rfl, rfl⟩
  handed := by simp [fresh]
  kept := by simp [fresh]
  expired := rfl
  ok := by simp [fresh, InOrderOnce, ArriveInOrder]

/-- A COUNT below `RX_DELIV` arrives and is discarded. -/
theorem Inv.discard {s : Arrivals} (h : Inv s) {c : ℕ} (p : Packet) (hc : c < s.ent.rxDeliv) :
    Inv (record { s with arrived := s.arrived ++ [c] } (.discarded c p)) := by
  have hlast : s.ent.rxDeliv ∈ s.handed := h.last.resolve_left fun h0 => by omega
  have htop : ∀ x ∈ s.arrived ++ [c], x ≤ s.ent.rxDeliv := fun x hx => by
    rcases List.mem_append.1 hx with hx | hx
    · exact h.top x hx
    · rw [List.mem_singleton.1 hx]
      omega
  have hhanded : ∀ x ∈ s.handed, x ∈ s.arrived ++ [c] := fun x hx =>
    List.mem_append_left _ (h.handed x hx)
  have hexp := h.expired
  by_cases hdup : c ∈ s.handed
  · -- a duplicate that a later COUNT has followed
    have hrec : record { s with arrived := s.arrived ++ [c] } (.discarded c p) =
        { s with arrived := s.arrived ++ [c] } := by simp [record, hdup]
    rw [hrec]
    refine ⟨h.quiet, h.bounded, htop, Or.inr hlast, hhanded, ?_, hexp, ?_⟩
    · intro x hx
      rcases List.mem_append.1 hx with hx | hx
      · exact h.kept x hx
      · rw [List.mem_singleton.1 hx]
        exact Or.inl hdup
    · rw [arriveInOrder_append]
      have hlate : c ∈ s.arrived ∧ ∃ x ∈ s.arrived, c < x :=
        ⟨h.handed c hdup, _, h.handed _ hlast, hc⟩
      exact h.ok.trans ⟨fun ha => ⟨ha, Or.inr hlate⟩, fun ha => ha.1⟩
  · have hrec : record { s with arrived := s.arrived ++ [c] } (.discarded c p) =
        { s with arrived := s.arrived ++ [c], lost := s.lost ++ [c] } := by simp [record, hdup, hexp]
    rw [hrec]
    refine ⟨h.quiet, h.bounded, htop, Or.inr hlast, hhanded, ?_, hexp, ?_⟩
    · intro x hx
      rcases List.mem_append.1 hx with hx | hx
      · exact (h.kept x hx).imp id fun hl => List.mem_append_left _ hl
      · exact Or.inr (List.mem_append_right _ hx)
    · rw [arriveInOrder_append]
      constructor
      · intro hgood
        exact absurd hgood.2 (by simp)
      · rintro ⟨ha, hc' | ⟨hmem, -⟩⟩
        · have := hc' _ (h.handed _ hlast)
          omega
        · -- nothing was lost before, so an earlier arrival was handed up
          have hlost : s.lost = [] := (h.ok.2 ha).2
          rcases h.kept c hmem with hk | hk
          · exact absurd hk hdup
          · rw [hlost] at hk
            exact absurd hk (by simp)

/-- A COUNT not below `RX_DELIV` arrives and is handed up. -/
theorem Inv.hand {s : Arrivals} (h : Inv s) {e' : Entity} {c : ℕ} (path : Path) (u : Upper) (p : Packet)
    (hq : Quiet e') (hd : e'.rxDeliv = c) (hc : s.ent.rxDeliv ≤ c) (hlt : c < 2 ^ 32) :
    Inv (record { s with ent := e', arrived := s.arrived ++ [c] } (.handed path u c p)) := by
  refine ⟨hq, hd ▸ hlt, ?_, Or.inr ?_, ?_, ?_, h.expired, ?_⟩
  · intro x hx
    show x ≤ e'.rxDeliv
    rcases List.mem_append.1 hx with hx | hx
    · have := h.top x hx
      omega
    · rw [List.mem_singleton.1 hx]
      omega
  · show e'.rxDeliv ∈ s.handed ++ [c]
    rw [hd]
    simp
  · intro x hx
    rcases List.mem_append.1 hx with hx | hx
    · exact List.mem_append_left _ (h.handed x hx)
    · exact List.mem_append_right _ hx
  · intro x hx
    rcases List.mem_append.1 hx with hx | hx
    · exact (h.kept x hx).imp (fun hk => List.mem_append_left _ hk) id
    · exact Or.inl (List.mem_append_right _ hx)
  · show (s.handed ++ [c]).Pairwise (· < ·) ∧ s.lost = [] ↔ ArriveInOrder (s.arrived ++ [c])
    rw [arriveInOrder_append, ← h.ok, List.pairwise_append]
    have hnone : ¬ ∃ x ∈ s.arrived, c < x := fun ⟨x, hx, hlt⟩ => by
      have := h.top x hx
      omega
    -- `RX_DELIV` is the largest COUNT of both lists
    have habove : (∀ x ∈ s.handed, x < c) ↔ ∀ x ∈ s.arrived, x < c := by
      constructor
      · intro hall x hx
        rcases h.last with ⟨h0, -⟩ | hl
        · rw [h0] at hx
          exact absurd hx (by simp)
        · have h1 := hall _ hl
          have h2 := h.top x hx
          omega
      · exact fun hall x hx => hall x (h.handed x hx)
    unfold InOrderOnce
    simp only [List.pairwise_singleton, List.mem_singleton, forall_eq, true_and]
    rw [habove, or_iff_left (fun hlate => hnone hlate.2)]
    tauto

theorem Inv.step {L : RxBufferLib} {s s' : Arrivals} {ev : ArrivalEvent} (h : Inv s)
    (hw : InWindow s ev) (hs : s.step L ev = some s') : Inv s' := by
  cases ev with
  | arrive c p =>
    obtain ⟨hdata, hsn, hc, hlo, hhi⟩ := hw
    obtain ⟨⟨e', out⟩, hr, rfl⟩ := Option.map_eq_some_iff.1 hs
    have hcount : recvCount s.ent p = c :=
      calculateStateVariable_of_congr hc h.bounded hlo hhi hsn
    obtain ⟨hq, hout⟩ := receive_quiet h.quiet hr
    rw [hcount] at hout
    rcases hout with ⟨hlt, -, rfl, rfl⟩ | ⟨hge, hd, rfl⟩
    · exact h.discard p hlt
    · exact h.hand .reception (sendUp p) p hq hd (hge.resolve_right (by simp [hdata])) hc
  | tReordering =>
    obtain ⟨r, hr, -⟩ := Option.map_eq_some_iff.1 hs
    simp [handleTReorderingTimer, h.quiet.stopped] at hr

/-- **When delivery is in order.** In every run whose arrivals lie in the window, SDUs are
handed up in increasing COUNT and none is discarded because a higher one came first if
and only if the COUNTs arrive in order, a COUNT that a later one followed being repeated
at most. -/
theorem inOrder_iff (L : RxBufferLib) {s : Arrivals} (h : (machine L).ReachOn InWindow s) :
    InOrderOnce s ↔ ArriveInOrder s.arrived := by
  have hi : Inv s := h.inv (fun s h0 => h0 ▸ inv_fresh) fun s e s' hi hok hs => hi.step hok hs
  exact hi.ok

/-- The run in which the COUNTs `cs` arrive. -/
def arrivals (cs : List ℕ) : List ArrivalEvent := cs.map fun c => .arrive c (userData c)

theorem inOrder_iff_repeat :
    InOrderOnce ⟨⟨0, 2, 1, 0, some [], false⟩, [0, 1, 0], [0, 1], [], 0⟩ ↔ ArriveInOrder [0, 1, 0] :=
  inOrder_iff .insertion (.of_execOn (arrivals [0, 1, 0]) (.init rfl) (by decide))

/-- **Out of order**: COUNT 1 arrives first and is handed up at once, so COUNT 0 is
discarded; and COUNT 0 arriving twice is handed up twice. -/
theorem arrivals_lost_and_repeated :
    (∃ s, (machine .insertion).ReachOn InWindow s ∧ s.arrived = [1, 0] ∧ s.handed = [1] ∧
      s.lost = [0] ∧ ¬ InOrderOnce s) ∧
    (∃ s, (machine .insertion).ReachOn InWindow s ∧ s.arrived = [0, 0] ∧ s.handed = [0, 0] ∧
      ¬ InOrderOnce s) := by
  refine ⟨⟨⟨⟨0, 2, 1, 0, some [], false⟩, [1, 0], [1], [0], 0⟩, ?_, rfl, rfl, rfl, ?_⟩,
    ⟨⟨⟨0, 1, 0, 0, some [], false⟩, [0, 0], [0, 0], [], 0⟩, ?_, rfl, rfl, ?_⟩⟩
  · exact .of_execOn (arrivals [1, 0]) (.init rfl) (by decide)
  · exact fun h => absurd h.2 (by decide)
  · exact .of_execOn (arrivals [0, 0]) (.init rfl) (by decide)
  · exact fun h => absurd h.1 (by decide)

end Arrivals

end NetSim.Pdcp
