import NetSim.Proof.UmSender
import NetSim.Spec.RlcTm

/-!
# Which sent entries leave a transmission buffer

A send loop marks the entries it hands over, wherever they stand, and
`LTENR_RLCBuffer_UpdateBuffer` removes the marked entries in front of the first unmarked
one. So the buffer is clean after a grant exactly when the marked entries lead it.

* TM, where three channels share the buffer: exactly when no entry of the granted channel
  stands behind one of another channel (`TmTx.cleaned_sendLoop_iff`).
* UM: exactly when the grant does not last for an entry behind one of another channel
  (`UmTx.cleaned_sendLoop_iff`). A UM buffer only ever holds one channel.

In runs whose grants all meet the condition no SDU is handed to MAC twice
(`cleaned_and_sentOnce`).
-/

namespace NetSim.Rlc

open Word

/-- Nothing in the buffer is marked. -/
def Unmarked (buffer : List BufferData) : Prop := ∀ b ∈ buffer, b.isMarkedForRemoval = false

/-- `LTENR_RLCBuffer_UpdateBuffer` removes all marked entries and leaves the others in order. -/
def Cleaned (buffer : List BufferData) : Prop :=
  Unmarked (updateBuffer buffer) ∧ updateBuffer buffer = buffer.filter fun b => !b.isMarkedForRemoval

section Clean

variable {buffer l : List BufferData} {b : BufferData}

/-- The marked entries that are removed are all there are. -/
theorem updateBuffer_eq_filter (h : Unmarked (updateBuffer buffer)) :
    updateBuffer buffer = buffer.filter fun b => !b.isMarkedForRemoval := by
  induction buffer with
  | nil => rfl
  | cons b rest ih =>
    by_cases hb : b.isMarkedForRemoval = true
    · have hdrop : updateBuffer (b :: rest) = updateBuffer rest := List.dropWhile_cons_of_pos hb
      rw [hdrop] at h ⊢
      rw [ih h, List.filter_cons_of_neg (by simp [hb])]
    · have hkeep : updateBuffer (b :: rest) = b :: rest := List.dropWhile_cons_of_neg hb
      rw [hkeep] at h ⊢
      symm
      rw [List.filter_eq_self]
      intro c hc
      simp [h c hc]

theorem cleaned_iff : Cleaned buffer ↔ Unmarked (updateBuffer buffer) :=
  ⟨And.left, fun h => ⟨h, updateBuffer_eq_filter h⟩⟩

theorem cleaned_nil : Cleaned [] := by
  rw [cleaned_iff]
  intro b hb
  cases hb

theorem cleaned_cons_of_marked (hb : b.isMarkedForRemoval = true) : Cleaned (b :: l) ↔ Cleaned l := by
  have hdrop : updateBuffer (b :: l) = updateBuffer l := List.dropWhile_cons_of_pos hb
  rw [cleaned_iff, cleaned_iff, hdrop]

theorem cleaned_cons_of_unmarked (hb : b.isMarkedForRemoval = false) :
    Cleaned (b :: l) ↔ Unmarked l := by
  have hkeep : updateBuffer (b :: l) = b :: l := List.dropWhile_cons_of_neg (by simp [hb])
  rw [cleaned_iff, hkeep]
  constructor
  · intro h c hc
    exact h c (List.mem_cons_of_mem _ hc)
  · intro h c hc
    rcases List.mem_cons.1 hc with rfl | hc
    · exact hb
    · exact h c hc

theorem Unmarked.tail (h : Unmarked (b :: l)) : Unmarked l :=
  fun c hc => h c (List.mem_cons_of_mem _ hc)

theorem unmarked_cons (hb : b.isMarkedForRemoval = false) : Unmarked (b :: l) ↔ Unmarked l := by
  constructor
  · exact Unmarked.tail
  · intro h c hc
    rcases List.mem_cons.1 hc with rfl | hc
    · exact hb
    · exact h c hc

theorem not_unmarked_cons (hb : b.isMarkedForRemoval = true) : ¬ Unmarked (b :: l) := by
  intro h
  have := h b (List.mem_cons_self ..)
  rw [hb] at this
  cases this

theorem Unmarked.cleaned (h : Unmarked buffer) : Cleaned buffer := by
  cases buffer with
  | nil => exact cleaned_nil
  | cons b rest =>
    rw [cleaned_cons_of_unmarked (h b (List.mem_cons_self ..))]
    exact h.tail

end Clean

/-! ## TM -/

/-- No entry of `ch` stands behind one of another channel. -/
def ChannelLeads (ch : LogicalChannel) (buffer : List BufferData) : Prop :=
  ∀ b ∈ buffer.dropWhile fun b => b.channel = ch, b.channel ≠ ch

instance (ch : LogicalChannel) (buffer : List BufferData) : Decidable (ChannelLeads ch buffer) :=
  inferInstanceAs (Decidable (∀ _ ∈ _, _))

namespace TmTx

variable {ch : LogicalChannel}

/-- A TM grant marks every entry of its channel and no other. -/
theorem unmarked_sendLoop (l : List BufferData) (left : ℕ) (h : Unmarked l) :
    Unmarked (sendLoop ch l left).1 ↔ ∀ b ∈ l, b.channel ≠ ch := by
  induction l generalizing left with
  | nil =>
    constructor
    · intro _ b hb
      cases hb
    · intro _ b hb
      cases hb
  | cons b rest ih =>
    unfold sendLoop
    by_cases hb : b.channel = ch
    · rw [if_neg (not_not.2 hb)]
      constructor
      · intro hun
        exfalso
        revert hun
        split
        · exact not_unmarked_cons rfl
        · exact not_unmarked_cons rfl
      · intro hne
        exact absurd hb (hne b (List.mem_cons_self ..))
    · rw [if_pos hb]
      dsimp only
      rw [unmarked_cons (h b (List.mem_cons_self ..)), ih left h.tail]
      simp [hb]

/-- **A TM grant leaves a clean buffer** exactly when its channel leads the buffer. -/
theorem cleaned_sendLoop_iff (l : List BufferData) (left : ℕ) (h : Unmarked l) :
    Cleaned (sendLoop ch l left).1 ↔ ChannelLeads ch l := by
  induction l generalizing left with
  | nil =>
    constructor
    · intro _ b hb
      cases hb
    · intro _
      exact cleaned_nil
  | cons b rest ih =>
    unfold ChannelLeads sendLoop
    by_cases hb : b.channel = ch
    · rw [if_neg (not_not.2 hb), List.dropWhile_cons_of_pos (by simp [hb])]
      split
      · dsimp only
        rw [cleaned_cons_of_marked rfl]
        exact ih left h.tail
      · dsimp only
        rw [cleaned_cons_of_marked rfl]
        exact ih _ h.tail
    · -- behind an entry of another channel nothing may be marked
      rw [if_pos hb, List.dropWhile_cons_of_neg (by simp [hb])]
      dsimp only
      rw [cleaned_cons_of_unmarked (h b (List.mem_cons_self ..)), unmarked_sendLoop rest left h.tail]
      simp [hb]

end TmTx

/-! ## UM -/

namespace UmTx

variable {H : HdrLib} {ch : LogicalChannel}

/-- The entry goes out whole with `left` bytes of the grant left. -/
def Fits (b : BufferData) (left : ℕ) : Prop :=
  ¬ left < minRlcPduSize ∧ ¬ (b.packet.isUplane ∧ b.packet.mac.packetSize > left)

/-- The next entry of `ch` does not fit the grant, or there is none. -/
def NextDoesNotFit (ch : LogicalChannel) : List BufferData → ℕ → Prop
  | [], _ => True
  | b :: rest, left => if b.channel ≠ ch then NextDoesNotFit ch rest left else ¬ Fits b left

/-- Behind the first entry of another channel, the next entry of `ch` does not fit what the
entries in front left of the grant. -/
def StaysInFront (ch : LogicalChannel) : List BufferData → ℕ → Prop
  | [], _ => True
  | b :: rest, left =>
    if b.channel ≠ ch then NextDoesNotFit ch rest left
    else Fits b left → StaysInFront ch rest (sub32 left b.payload)

/-- The loop only appends to the entries it has passed. -/
theorem sendLoop_done (l done : List BufferData) (um : UmTx) (left : ℕ) :
    (sendLoop H ch done l um left).1.transmissionBuffer =
      done ++ (sendLoop H ch [] l um left).1.transmissionBuffer := by
  induction l generalizing done um left with
  | nil => simp [sendLoop]
  | cons b rest ih =>
    unfold sendLoop
    split
    · rw [ih, ih ([] ++ [b])]
      simp
    · split
      · rfl
      · split
        · rfl
        · dsimp only
          rw [ih, ih ([] ++ _)]
          simp

/-- The head of another channel stays as it is. -/
theorem sendLoop_other {b : BufferData} (hb : b.channel ≠ ch) (rest : List BufferData) (um : UmTx)
    (left : ℕ) : (sendLoop H ch [] (b :: rest) um left).1.transmissionBuffer =
      b :: (sendLoop H ch [] rest um left).1.transmissionBuffer := by
  rw [sendLoop, if_pos hb, sendLoop_done]
  rfl

/-- The head of `ch` that does not fit ends the loop, and nothing gets marked. -/
theorem unmarked_sendLoop_head {b : BufferData} {rest : List BufferData} {um : UmTx} {left : ℕ}
    (hb : b.channel = ch) (hfit : ¬ Fits b left) (h : Unmarked (b :: rest)) :
    Unmarked (sendLoop H ch [] (b :: rest) um left).1.transmissionBuffer := by
  have hmark := h b (List.mem_cons_self ..)
  rw [sendLoop, if_neg (not_not.2 hb)]
  split
  · exact h
  · rename_i hleft
    split
    · -- a cut keeps the entry, with the packet that is left
      dsimp only [List.nil_append]
      intro c hc
      rcases List.mem_cons.1 hc with rfl | hc
      · exact hmark
      · exact h.tail c hc
    · rename_i hw
      exact absurd ⟨hleft, hw⟩ hfit

/-- The head of `ch` that fits is marked, and the loop goes on with what it left. -/
theorem sendLoop_head {b : BufferData} (hb : b.channel = ch) {left : ℕ} (hfit : Fits b left)
    (rest : List BufferData) (um : UmTx) : ∃ (c : BufferData) (um' : UmTx), c.isMarkedForRemoval = true ∧
      (sendLoop H ch [] (b :: rest) um left).1.transmissionBuffer =
        c :: (sendLoop H ch [] rest um' (sub32 left b.payload)).1.transmissionBuffer := by
  have hpay : ofInt32 (addHdr H b.packet).2.1.mac.payload = b.payload := by
    rw [payload_addHdr]
    rfl
  rw [sendLoop, if_neg (not_not.2 hb), if_neg hfit.1, if_neg hfit.2]
  dsimp only
  rw [hpay, sendLoop_done]
  exact ⟨_, _, rfl, rfl⟩

theorem unmarked_sendLoop_iff (l : List BufferData) (um : UmTx) (left : ℕ) (h : Unmarked l) :
    Unmarked (sendLoop H ch [] l um left).1.transmissionBuffer ↔ NextDoesNotFit ch l left := by
  induction l generalizing um left with
  | nil =>
    constructor
    · intro _
      trivial
    · intro _ b hb
      cases hb
  | cons b rest ih =>
    unfold NextDoesNotFit
    by_cases hb : b.channel = ch
    · rw [if_neg (not_not.2 hb)]
      constructor
      · intro hun hfit
        obtain ⟨c, um', hc, heq⟩ := sendLoop_head (H := H) hb hfit rest um
        rw [heq] at hun
        exact not_unmarked_cons hc hun
      · intro hfit
        exact unmarked_sendLoop_head hb hfit h
    · rw [if_pos hb, sendLoop_other hb, unmarked_cons (h b (List.mem_cons_self ..))]
      exact ih um left h.tail

/-- **A UM grant leaves a clean buffer** exactly when it is used up before it reaches an entry
behind one of another channel. -/
theorem cleaned_sendLoop_iff (l : List BufferData) (um : UmTx) (left : ℕ) (h : Unmarked l) :
    Cleaned (sendLoop H ch [] l um left).1.transmissionBuffer ↔ StaysInFront ch l left := by
  induction l generalizing um left with
  | nil =>
    constructor
    · intro _
      trivial
    · intro _
      exact cleaned_nil
  | cons b rest ih =>
    unfold StaysInFront
    by_cases hb : b.channel = ch
    · rw [if_neg (not_not.2 hb)]
      by_cases hfit : Fits b left
      · obtain ⟨c, um', hc, heq⟩ := sendLoop_head (H := H) hb hfit rest um
        rw [heq, cleaned_cons_of_marked hc, ih um' _ h.tail]
        exact ⟨fun hs _ => hs, fun hs => hs hfit⟩
      · have hun : Unmarked (sendLoop H ch [] (b :: rest) um left).1.transmissionBuffer :=
          unmarked_sendLoop_head hb hfit h
        exact ⟨fun _ hf => absurd hf hfit, fun _ => hun.cleaned⟩
    · rw [if_pos hb, sendLoop_other hb, cleaned_cons_of_unmarked (h b (List.mem_cons_self ..))]
      exact unmarked_sendLoop_iff rest um left h.tail

end UmTx

/-! ## Runs -/

/-- SDUs numbered as they came, of which `sent` have been handed to MAC: those that wait are in
order, none is marked, and none was handed over. -/
structure SentOnce (buffer : List BufferData) (sent : List ℕ) (n : ℕ) : Prop where
  unmarked : Unmarked buffer
  ordered : (buffer.map (·.packet.sdu)).Pairwise (· < ·)
  waiting_lt : ∀ b ∈ buffer, b.packet.sdu < n
  sent_lt : ∀ i ∈ sent, i < n
  nodup : sent.Nodup
  not_sent : ∀ b ∈ buffer, b.packet.sdu ∉ sent

section SentOnce

variable {buffer : List BufferData} {sent : List ℕ} {n : ℕ} {b : BufferData} {rest : List BufferData}

theorem SentOnce.nil : SentOnce [] [] 0 where
  unmarked := by
    intro b hb
    cases hb
  ordered := .nil
  waiting_lt := by
    intro b hb
    cases hb
  sent_lt := by
    intro i hi
    cases hi
  nodup := .nil
  not_sent := by
    intro b hb
    cases hb

theorem SentOnce.enqueue (h : SentOnce buffer sent n) {p : Packet} (hp : p.sdu = n)
    (ch : LogicalChannel) : SentOnce (addPacket buffer p 0 0 ch) sent (n + 1) := by
  have hmem : ∀ b ∈ addPacket buffer p 0 0 ch, b ∈ buffer ∨ b = ⟨.all, 0, 0, 0, ch, p, false, false⟩ := by
    intro b hb
    rcases List.mem_append.1 hb with hb | hb
    · exact Or.inl hb
    · exact Or.inr (List.mem_singleton.1 hb)
  constructor
  · intro b hb
    rcases hmem b hb with hb | rfl
    · exact h.unmarked b hb
    · rfl
  · unfold addPacket
    rw [List.map_append, List.pairwise_append]
    refine ⟨h.ordered, by simp, ?_⟩
    intro i hi j hj
    obtain ⟨b, hb, rfl⟩ := List.mem_map.1 hi
    rw [List.map_singleton, List.mem_singleton] at hj
    rw [hj, hp]
    exact h.waiting_lt b hb
  · intro b hb
    rcases hmem b hb with hb | rfl
    · exact Nat.lt_succ_of_lt (h.waiting_lt b hb)
    · dsimp only
      omega
  · intro i hi
    exact Nat.lt_succ_of_lt (h.sent_lt i hi)
  · exact h.nodup
  · intro b hb hs
    rcases hmem b hb with hb | rfl
    · exact h.not_sent b hb hs
    · have hlt := h.sent_lt _ hs
      dsimp only at hlt
      omega

/-- An SDU that comes while its channel is not for this mode is not taken. -/
theorem SentOnce.skip (h : SentOnce buffer sent n) : SentOnce buffer sent (n + 1) :=
  { h with
    waiting_lt := fun b hb => Nat.lt_succ_of_lt (h.waiting_lt b hb)
    sent_lt := fun i hi => Nat.lt_succ_of_lt (h.sent_lt i hi) }

/-- Some of the waiting SDUs go out, once each, and the others stay in order. -/
theorem SentOnce.send (h : SentOnce buffer sent n) {buffer' : List BufferData} {new : List ℕ}
    (hun : Unmarked buffer') (hsub : (buffer'.map (·.packet.sdu)).Sublist (buffer.map (·.packet.sdu)))
    (hnew : new.Sublist (buffer.map (·.packet.sdu))) (hdis : ∀ b ∈ buffer', b.packet.sdu ∉ new) :
    SentOnce buffer' (sent ++ new) n := by
  have hold : ∀ i ∈ buffer.map (·.packet.sdu), i < n ∧ i ∉ sent := by
    intro i hi
    obtain ⟨b, hb, rfl⟩ := List.mem_map.1 hi
    exact ⟨h.waiting_lt b hb, h.not_sent b hb⟩
  have hin : ∀ b ∈ buffer', b.packet.sdu ∈ buffer.map (·.packet.sdu) := by
    intro b hb
    exact hsub.subset (List.mem_map_of_mem hb)
  constructor
  · exact hun
  · exact h.ordered.sublist hsub
  · intro b hb
    exact (hold _ (hin b hb)).1
  · intro i hi
    rcases List.mem_append.1 hi with hi | hi
    · exact h.sent_lt i hi
    · exact (hold i (hnew.subset hi)).1
  · rw [List.nodup_append]
    refine ⟨h.nodup, (h.ordered.sublist hnew).imp fun hlt => Nat.ne_of_lt hlt, ?_⟩
    rintro i hi j hj rfl
    exact (hold i (hnew.subset hj)).2 hi
  · intro b hb hs
    rcases List.mem_append.1 hs with hs | hs
    · exact (hold _ (hin b hb)).2 hs
    · exact hdis b hb hs

end SentOnce

/-- A TM entity with the number of SDUs that came, and the SDUs handed to MAC. -/
structure TmRun where
  tm : TmTx
  enqueued : ℕ
  sent : List ℕ

inductive TmEvent
  | enqueue (isUplane : Bool) (mac : MacData) (ch : LogicalChannel)
  | grant (size : ℕ) (ch : LogicalChannel)

namespace TmRun

def init : TmRun := ⟨.init, 0, []⟩

/-- The PDUs that a grant sends. -/
def granted (s : TmRun) (size : ℕ) (ch : LogicalChannel) : List Packet :=
  if ch.isForTm then (s.tm.sendPdu size ch).2 else []

/-- One event. The SDUs are numbered as they come. -/
def step (s : TmRun) : TmEvent → Option TmRun
  | .enqueue isUplane mac ch => (s.tm.step (.enqueue ⟨s.enqueued, isUplane, mac, none⟩ ch)).map fun tm =>
      { s with tm := tm, enqueued := s.enqueued + 1 }
  | .grant size ch => (s.tm.step (.grant size ch)).map fun tm =>
      { s with tm := tm, sent := s.sent ++ (s.granted size ch).map (·.sdu) }

def machine : Machine TmRun TmEvent := ⟨(· = init), step⟩

/-- Each grant is for the channel that leads the buffer. -/
def GrantLeads (s : TmRun) : TmEvent → Prop
  | .enqueue .. => True
  | .grant _ ch => ChannelLeads ch s.tm.transmissionBuffer

instance (s : TmRun) (e : TmEvent) : Decidable (GrantLeads s e) :=
  match e with
  | .enqueue .. => inferInstanceAs (Decidable True)
  | .grant _ ch => inferInstanceAs (Decidable (ChannelLeads ch s.tm.transmissionBuffer))

end TmRun

namespace TmTx

variable {ch : LogicalChannel}

/-- A TM loop keeps the SDUs of the buffer, and sends some of its own channel. -/
theorem sendLoop_sdus (ch : LogicalChannel) (l : List BufferData) (left : ℕ) :
    (sendLoop ch l left).1.map (·.packet.sdu) = l.map (·.packet.sdu) ∧
      ((sendLoop ch l left).2.2.map (·.sdu)).Sublist (l.map (·.packet.sdu)) ∧
      ∀ i ∈ (sendLoop ch l left).2.2.map (·.sdu), ∃ b ∈ (sendLoop ch l left).1,
        b.packet.sdu = i ∧ b.isMarkedForRemoval = true := by
  induction l generalizing left with
  | nil => exact ⟨rfl, List.Sublist.slnil, by simp [sendLoop]⟩
  | cons b rest ih =>
    -- a head that is not sent, marked or not
    have hkept : ∀ (b' : BufferData) (left : ℕ), b'.packet = b.packet →
        (b' :: (sendLoop ch rest left).1).map (·.packet.sdu) = (b :: rest).map (·.packet.sdu) ∧
          ((sendLoop ch rest left).2.2.map (·.sdu)).Sublist ((b :: rest).map (·.packet.sdu)) ∧
          ∀ i ∈ (sendLoop ch rest left).2.2.map (·.sdu), ∃ c ∈ b' :: (sendLoop ch rest left).1,
            c.packet.sdu = i ∧ c.isMarkedForRemoval = true := by
      intro b' left hb'
      obtain ⟨hmap, hsub, hmark⟩ := ih left
      refine ⟨?_, List.Sublist.cons _ hsub, ?_⟩
      · rw [List.map_cons, List.map_cons, hmap, hb']
      · intro i hi
        obtain ⟨c, hc, hci⟩ := hmark i hi
        exact ⟨c, List.mem_cons_of_mem _ hc, hci⟩
    unfold sendLoop
    split
    · exact hkept b left rfl
    · split
      · exact hkept _ left rfl
      · obtain ⟨hmap, hsub, hmark⟩ := ih (sub32 left b.size)
        refine ⟨by simpa using hmap, List.Sublist.cons_cons _ hsub, ?_⟩
        intro i hi
        dsimp only at hi
        rw [List.map_cons] at hi
        rcases List.mem_cons.1 hi with rfl | hi
        · exact ⟨_, List.mem_cons_self .., rfl, rfl⟩
        · obtain ⟨c, hc, hci⟩ := hmark i hi
          exact ⟨c, List.mem_cons_of_mem _ hc, hci⟩

end TmTx

namespace TmRun

variable {s s' : TmRun}

/-- **A grant for the channel that leads the buffer** hands over SDUs that no grant handed over
before. -/
theorem sentOnce_sendPdu {tm : TmTx} {sent : List ℕ} {n : ℕ} {ch : LogicalChannel} (size : ℕ)
    (h : SentOnce tm.transmissionBuffer sent n) (hch : ChannelLeads ch tm.transmissionBuffer) :
    SentOnce (tm.sendPdu size ch).1.transmissionBuffer (sent ++ (tm.sendPdu size ch).2.map (·.sdu)) n := by
  obtain ⟨hmap, hsub, hmark⟩ := TmTx.sendLoop_sdus ch tm.transmissionBuffer size
  obtain ⟨hun, heq⟩ := (TmTx.cleaned_sendLoop_iff tm.transmissionBuffer size h.unmarked).2 hch
  have hin : ∀ b ∈ (tm.sendPdu size ch).1.transmissionBuffer,
      b ∈ (TmTx.sendLoop ch tm.transmissionBuffer size).1 ∧ b.isMarkedForRemoval = false :=
    fun b hb => ⟨(List.dropWhile_sublist _).subset hb, hun b hb⟩
  apply h.send hun
  · rw [← hmap]
    exact (List.dropWhile_sublist _).map _
  · exact hsub
  · intro b hb hs
    obtain ⟨hbl, hbun⟩ := hin b hb
    obtain ⟨c, hc, hcs, hcm⟩ := hmark _ hs
    -- the SDUs of a buffer are distinct, so `c` is `b`
    have hnd : ((TmTx.sendLoop ch tm.transmissionBuffer size).1.map (·.packet.sdu)).Nodup := by
      rw [hmap]
      exact h.ordered.imp fun hlt => Nat.ne_of_lt hlt
    have hcb : c = b := List.inj_on_of_nodup_map hnd hc hbl hcs
    rw [hcb, hbun] at hcm
    cases hcm

theorem sentOnce_step {e : TmEvent} (hi : SentOnce s.tm.transmissionBuffer s.sent s.enqueued)
    (hok : GrantLeads s e) (h : step s e = some s') :
    SentOnce s'.tm.transmissionBuffer s'.sent s'.enqueued := by
  cases e with
  | enqueue isUplane mac ch =>
    rw [← Option.some.inj h]
    dsimp only
    split
    · exact hi.enqueue rfl ch
    · exact hi.skip
  | grant size ch =>
    rw [← Option.some.inj h]
    dsimp only
    unfold granted
    by_cases hch : ch.isForTm = true
    · rw [if_pos hch, if_pos hch]
      exact sentOnce_sendPdu size hi hok
    · rw [if_neg hch, if_neg hch, List.map_nil, List.append_nil]
      exact hi

theorem sentOnce_of_reachOn (h : machine.ReachOn GrantLeads s) :
    SentOnce s.tm.transmissionBuffer s.sent s.enqueued := by
  apply h.inv (I := fun s => SentOnce s.tm.transmissionBuffer s.sent s.enqueued)
  · rintro _ rfl
    exact SentOnce.nil
  · intro s e s' hi hok hs
    exact sentOnce_step hi hok hs

end TmRun

namespace UmTx

variable {H : HdrLib}

/-- The SDUs whose last PDU has been sent. -/
def wholeSdus (sent : List UmdPdu) : List ℕ := (sent.filter fun p => p.hdr.si.endsSdu).map (·.sdu)

theorem wholeSdus_append (sent new : List UmdPdu) :
    wholeSdus (sent ++ new) = wholeSdus sent ++ wholeSdus new := by
  unfold wholeSdus
  rw [List.filter_append, List.map_append]

theorem wholeSdus_sendWhole (um : UmTx) (b : BufferData) (rest : List BufferData) :
    wholeSdus [(sendWhole H um b rest).2] = [b.packet.sdu] := by
  unfold wholeSdus sendWhole addHdr
  cases b.packet.umdHdr with
  | none => rfl
  | some hdr => rfl

theorem wholeSdus_sendCut (um : UmTx) (b : BufferData) (size : ℕ) (rest : List BufferData) :
    wholeSdus [(sendCut H um b size rest).2] = [] := by
  unfold wholeSdus sendCut fragmentPacket
  cases b.packet.umdHdr with
  | none => rfl
  | some hdr => rfl

/-- **A UM grant** hands over SDUs that no grant handed over before. -/
theorem Moves.sentOnce {left n : ℕ} {um um' : UmTx} {pdus sent : List UmdPdu} (h : Moves H left um pdus um')
    (hi : SentOnce um.transmissionBuffer (wholeSdus sent) n) :
    SentOnce um'.transmissionBuffer (wholeSdus (sent ++ pdus)) n := by
  apply h.inv (I := fun um ps => SentOnce um.transmissionBuffer (wholeSdus ps) n) _ _ sent hi
  · -- an SDU that goes out whole: its number is below those that wait behind it
    intro um ps b rest hb hi
    rw [hb] at hi
    have hbuf : (sendWhole H um b rest).1.transmissionBuffer = rest := rfl
    rw [hbuf, wholeSdus_append, wholeSdus_sendWhole]
    have hord := hi.ordered
    rw [List.map_cons, List.pairwise_cons] at hord
    apply hi.send hi.unmarked.tail
    · exact List.sublist_cons_self _ _
    · simp
    · intro c hc hcb
      have hlt := hord.1 _ (List.mem_map_of_mem hc)
      rw [List.mem_singleton.1 hcb] at hlt
      exact absurd hlt (Nat.lt_irrefl _)
  · -- a cut: the SDU keeps waiting, and is not yet counted as sent
    intro um ps b left rest hb hi
    rw [hb] at hi
    rw [wholeSdus_append, wholeSdus_sendCut]
    apply hi.send
    · intro c hc
      rcases List.mem_cons.1 hc with rfl | hc
      · exact hi.unmarked b (List.mem_cons_self ..)
      · exact hi.unmarked.tail c hc
    · exact List.Sublist.refl _
    · exact List.nil_sublist _
    · intro c _
      exact List.not_mem_nil

end UmTx

namespace UmPair

variable {H : HdrLib} {s s' : UmPair}

/-- What the transmitting side of a pair keeps. -/
structure TxInv (s : UmPair) : Prop where
  waits : ∀ b ∈ s.tx.transmissionBuffer, UmTx.Waits b
  once : SentOnce s.tx.transmissionBuffer (UmTx.wholeSdus s.sent) s.enqueued

theorem txInv_step {e : UmEvent} (hi : TxInv s) (h : step H s e = some s') : TxInv s' := by
  cases e with
  | enqueue isUplane mac ch =>
    rw [← Option.some.inj h]
    dsimp only
    by_cases hch : ch.isForUm = true
    · obtain rfl := UmTx.dtch_of_isForUm hch
      exact ⟨UmTx.handlePdu_waits _ hi.waits, hi.once.enqueue rfl _⟩
    · refine ⟨?_, ?_⟩ <;> dsimp only <;> rw [if_neg hch]
      · exact hi.waits
      · exact hi.once.skip
  | grant size ch =>
    rw [← Option.some.inj h]
    dsimp only
    unfold granted
    by_cases hch : ch.isForUm = true
    · obtain rfl := UmTx.dtch_of_isForUm hch
      rw [if_pos hch, if_pos hch]
      have hmoves := UmTx.sendPdu_moves (H := H) size hi.waits
      exact ⟨hmoves.waits hi.waits, hmoves.sentOnce hi.once⟩
    · rw [if_neg hch, if_neg hch, List.append_nil]
      exact hi
  | arrives i =>
    obtain ⟨pdu, -, h⟩ := Option.bind_eq_some_iff.1 h
    obtain ⟨r, -, h⟩ := Option.bind_eq_some_iff.1 h
    rw [← Option.some.inj h]
    exact ⟨hi.waits, hi.once⟩
  | reassembly =>
    obtain ⟨rx, -, rfl⟩ := Option.map_eq_some_iff.1 h
    exact ⟨hi.waits, hi.once⟩

theorem txInv_of_reach (h : (machine H).Reach s) : TxInv s := by
  apply h.inv (I := TxInv)
  · rintro _ rfl
    refine ⟨?_, SentOnce.nil⟩
    intro b hb
    cases hb
  · intro s e s' hi _ hs
    exact txInv_step hi hs

end UmPair

/-- **What a grant removes.** The loop of each mode leaves a clean buffer exactly when what it
sends stands in front; in TM runs whose grants all are of that kind, and in all UM runs, nothing
is handed to MAC twice and what waits keeps its order. -/
theorem cleaned_and_sentOnce (H : HdrLib) :
    (∀ ch l left, Unmarked l → (Cleaned (TmTx.sendLoop ch l left).1 ↔ ChannelLeads ch l)) ∧
    (∀ ch l um left, Unmarked l →
      (Cleaned (UmTx.sendLoop H ch [] l um left).1.transmissionBuffer ↔ UmTx.StaysInFront ch l left)) ∧
    (∀ s, TmRun.machine.ReachOn TmRun.GrantLeads s → SentOnce s.tm.transmissionBuffer s.sent s.enqueued) ∧
    ∀ s, (UmPair.machine H).Reach s →
      SentOnce s.tx.transmissionBuffer (UmTx.wholeSdus s.sent) s.enqueued := by
  refine ⟨?_, ?_, ?_, ?_⟩
  · intro ch l left h
    exact TmTx.cleaned_sendLoop_iff l left h
  · intro ch l um left h
    exact UmTx.cleaned_sendLoop_iff l um left h
  · intro s h
    exact TmRun.sentOnce_of_reachOn h
  · intro s h
    exact (UmPair.txInv_of_reach h).once

/-- A system information SDU, then one for the common control channel, and two grants for the
latter. -/
def ccchBehindBcch : List TmEvent :=
  [.enqueue false ⟨20, 0, 20⟩ .bcch, .enqueue false ⟨30, 0, 30⟩ .ccch, .grant 0 .ccch, .grant 0 .ccch]

/-- The same with the grant for the system information first. -/
theorem cleaned_and_sentOnce_bcchFirst : ∃ s, TmRun.machine.ReachOn TmRun.GrantLeads s ∧
    s.sent = [0, 1] ∧ SentOnce s.tm.transmissionBuffer s.sent s.enqueued := by
  obtain ⟨s, hs, hsent⟩ := Machine.ReachOn.exists_of_execOn TmRun.GrantLeads
    (P := fun s : TmRun => s.sent = [0, 1])
    [.enqueue false ⟨20, 0, 20⟩ .bcch, .enqueue false ⟨30, 0, 30⟩ .ccch, .grant 0 .bcch, .grant 0 .ccch]
    (Machine.ReachOn.init rfl : TmRun.machine.ReachOn TmRun.GrantLeads TmRun.init) (by decide)
  exact ⟨s, hs, hsent, (cleaned_and_sentOnce .overhead).2.2.1 s hs⟩

/-- The SDU behind another channel's is sent by both grants. -/
theorem sent_twice : ¬ ∀ s, TmRun.machine.Reach s → s.sent.Nodup := by
  intro hall
  obtain ⟨s, hs, htwice⟩ := Machine.Reach.exists_of_exec (P := fun s : TmRun => s.sent = [1, 1])
    ccchBehindBcch (Machine.ReachOn.init rfl : TmRun.machine.Reach TmRun.init) (by decide)
  have hnd := hall s hs
  rw [htwice] at hnd
  exact absurd hnd (by decide)

end NetSim.Rlc
