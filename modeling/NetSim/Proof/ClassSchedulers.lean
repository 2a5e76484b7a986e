import NetSim.Lib.Machine
import NetSim.Proof.BufferOccupancy

/-!
# Round robin and WFQ

The two schedulers with a list for each priority, after any history of additions, peeks and retrievals.

* `Takes`: a retrieval takes the first packet of one of the lists, and a peek returns the same packet.
* `takes_roundRobin`, `takes_wfq`: which list it is.
* `class_schedulers`: what holds in every run; WFQ counts a chain as one packet, so there the additions are single packets.
* `Serves`: round robin passes no list that is never empty.
-/

namespace NetSim.Scheduling

/-! ## Positions of the cursor -/

/-- The list at a position of the cursor, which goes round and round. -/
def levelAt (n : ℕ) : Level :=
  if n % 4 = 0 then .low else if n % 4 = 1 then .high else if n % 4 = 2 then .medium else .normal

/-- **The stops of a walk over the positions**: behind `start`, one behind the other, and at every position of `level` up
to the last stop. -/
structure Serves (level : Level) (start : ℕ) (stops : List ℕ) : Prop where
  increasing : (start :: stops).Pairwise (· < ·)
  complete : ∀ n, start < n → (∃ stop ∈ stops, n ≤ stop) → levelAt n = level → n ∈ stops

variable {level : Level} {start : ℕ} {stops : List ℕ}

theorem Serves.nil (level : Level) (start : ℕ) : Serves level start [] where
  increasing := List.pairwise_singleton _ _
  complete := by
    rintro n - ⟨stop, hstop, -⟩
    exact absurd hstop List.not_mem_nil

/-- The walk goes on from its last stop and passes no position of `level`. -/
theorem Serves.concat {last j : ℕ} (h : Serves level start stops) (hlast : (start :: stops).getLast? = some last) (hj : 0 < j)
    (hpass : ∀ i, 0 < i → i < j → levelAt (last + i) ≠ level) : Serves level start (stops ++ [last + j]) := by
  obtain ⟨front, hfront⟩ := List.getLast?_eq_some_iff.1 hlast
  have hle : ∀ n ∈ start :: stops, n ≤ last := by
    intro n hn
    have hincreasing := h.increasing
    rw [hfront] at hn hincreasing
    rw [List.pairwise_append] at hincreasing
    rcases List.mem_append.1 hn with hn | hn
    · exact le_of_lt (hincreasing.2.2 n hn last (List.mem_singleton.2 rfl))
    · exact le_of_eq (List.mem_singleton.1 hn)
  constructor
  · rw [← List.cons_append, List.pairwise_append]
    refine ⟨h.increasing, List.pairwise_singleton _ _, fun n hn m hm => ?_⟩
    rw [List.mem_singleton.1 hm]
    have hn := hle n hn
    omega
  · rintro n hn ⟨stop, hstop, hns⟩ hlevel
    by_cases hold : ∃ stop ∈ stops, n ≤ stop
    · exact List.mem_append_left _ (h.complete n hn hold hlevel)
    · -- the position lies behind the last stop
      have hbehind : last < n := by
        have hmem : last ∈ start :: stops := by
          rw [hfront]
          exact List.mem_append_right _ (List.mem_singleton.2 rfl)
        rcases List.mem_cons.1 hmem with rfl | hmem
        · exact hn
        · exact Nat.lt_of_not_le fun hnle => hold ⟨last, hmem, hnle⟩
      have hstop' : n ≤ last + j := by
        rcases List.mem_append.1 hstop with hstop | hstop
        · exact absurd ⟨stop, hstop, hns⟩ hold
        · rwa [List.mem_singleton.1 hstop] at hns
      have hsplit : n = last + (n - last) := by omega
      have heq : n - last = j := by
        by_contra hne
        have hpassed := hpass (n - last) (by omega) (by omega)
        rw [← hsplit] at hpassed
        exact hpassed hlevel
      rw [hsplit, heq]
      exact List.mem_append_right _ (List.mem_singleton.2 rfl)

/-- The priority that round robin tries next is that of the next position. -/
theorem nextLevel_levelAt {cursor : Option Level} {k : ℕ} (h : levelAt k = cursor.getD .low) :
    IfBuffer.nextLevel cursor = levelAt (k + 1) := by
  have hnext : ∀ n, IfBuffer.nextLevel (some (levelAt n)) = levelAt (n + 1) := by
    intro n
    have hlt := Nat.mod_lt n (show 0 < 4 by decide)
    have hcases : n % 4 = 0 ∨ n % 4 = 1 ∨ n % 4 = 2 ∨ n % 4 = 3 := by omega
    unfold levelAt
    rw [Nat.add_mod]
    rcases hcases with h | h | h | h <;> rw [h] <;> rfl
  have hcursor : IfBuffer.nextLevel cursor = IfBuffer.nextLevel (some (cursor.getD .low)) := by
    cases cursor <;> rfl
  rw [hcursor, ← h, hnext]

/-- Four positions have all the lists. -/
theorem exists_levelAt (k : ℕ) (level : Level) : ∃ j, 0 < j ∧ j ≤ 4 ∧ levelAt (k + j) = level := by
  have hplace : ∃ r < 4, ∀ n, n % 4 = r → levelAt n = level := by
    cases level with
    | low => exact ⟨0, by decide, fun n hn => by rw [levelAt, hn]; rfl⟩
    | high => exact ⟨1, by decide, fun n hn => by rw [levelAt, hn]; rfl⟩
    | medium => exact ⟨2, by decide, fun n hn => by rw [levelAt, hn]; rfl⟩
    | normal => exact ⟨3, by decide, fun n hn => by rw [levelAt, hn]; rfl⟩
  obtain ⟨r, hr, hlevel⟩ := hplace
  by_cases hlt : k % 4 < r
  · exact ⟨r - k % 4, by omega, by omega, hlevel _ (by omega)⟩
  · exact ⟨r + 4 - k % 4, by omega, by omega, hlevel _ (by omega)⟩

namespace IfBuffer

variable {b b' : IfBuffer} {p : BufPacket} {rest : List BufPacket} {now : ℚ} {lists : PrioLists}

/-! ## Retrievals -/

/-- The list of a priority. -/
def queue (b : IfBuffer) (level : Level) : List BufPacket :=
  (b.prioLists.map fun lists => (lists.entry level).packets).getD []

/-- The count of WFQ. -/
def counter (b : IfBuffer) (level : Level) : ℤ := (b.prioLists.map fun lists => (lists.entry level).nPacketId).getD 0

/-- The cursor of round robin. -/
def cursor (b : IfBuffer) : Option Level := b.prioLists.bind PrioLists.nPacketPriority

/-- What `fn_NetSim_GetPacketFromBuffer` asks the scheduler for. -/
def retrieve (now : ℚ) (nFlag : Bool) (b : IfBuffer) : IfBuffer × Option BufPacket :=
  if b.getBufferStatus then b.schedulerGet now nFlag else (b, none)

/-- **A retrieval takes `p` from the list of `level`**, and a peek shows it. -/
structure Takes (b : IfBuffer) (now : ℚ) (level : Level) (p : BufPacket) : Prop where
  result : (b.retrieve now true).2 = some p
  head : b.queue level = p :: (b.retrieve now true).1.queue level
  others : ∀ other, other ≠ level → (b.retrieve now true).1.queue other = b.queue other
  type : (b.retrieve now true).1.nSchedulingType = b.nSchedulingType
  peek : b.retrieve now false = (b, some p)

theorem queue_of_some (h : b.prioLists = some lists) (level : Level) : b.queue level = (lists.entry level).packets := by
  rw [queue, h]
  rfl

/-- `fn_NetSim_GetBufferStatus` for the two schedulers. -/
theorem getBufferStatus_iff (htype : b.nSchedulingType = .roundRobin ∨ b.nSchedulingType = .wfq) :
    b.getBufferStatus = true ↔ ∃ level, b.queue level ≠ [] := by
  have hstatus : b.getBufferStatus = [Level.high, .medium, .normal, .low].any fun level => !(b.queue level).isEmpty := by
    unfold getBufferStatus queue
    rcases htype with h | h
    · rw [h]
      cases b.prioLists <;> rfl
    · rw [h]
      cases b.prioLists <;> rfl
  rw [hstatus, List.any_eq_true]
  constructor
  · rintro ⟨level, -, hlevel⟩
    refine ⟨level, fun hnil => ?_⟩
    rw [hnil] at hlevel
    cases hlevel
  · rintro ⟨level, hlevel⟩
    refine ⟨level, by cases level <;> decide, ?_⟩
    rw [Bool.not_eq_true', List.isEmpty_eq_false_iff]
    exact hlevel

theorem retrieve_of_empty (htype : b.nSchedulingType = .roundRobin ∨ b.nSchedulingType = .wfq)
    (hempty : ∀ level, b.queue level = []) (now : ℚ) (nFlag : Bool) : b.retrieve now nFlag = (b, none) := by
  have hstatus : ¬ b.getBufferStatus = true := by
    rw [getBufferStatus_iff htype]
    rintro ⟨level, hlevel⟩
    exact hlevel (hempty level)
  exact if_neg hstatus

/-- The lists after a retrieval. -/
theorem dropHead_entry (isCounted : Bool) (level other : Level) (lists : PrioLists) :
    ((PrioLists.dropHead isCounted level lists).entry other).packets =
      if other = level then (lists.entry level).packets.tail else (lists.entry other).packets := by
  unfold PrioLists.dropHead
  dsimp only
  by_cases h : other = level
  · rw [if_pos h, h, Function.update_self]
  · rw [if_neg h, Function.update_of_ne h]

/-- **The tries of round robin**: they pass the empty lists and stop at the first other one. -/
theorem roundRobinTry_spec (nFlag : Bool) (begin : Option Level) (n k : ℕ) (lists : PrioLists)
    (hk : levelAt k = lists.nPacketPriority.getD .low) (hsome : ∃ j, 0 < j ∧ j ≤ n ∧ (lists.entry (levelAt (k + j))).packets ≠ []) :
    ∃ j p l, 0 < j ∧ j ≤ n ∧ (∀ i, 0 < i → i < j → (lists.entry (levelAt (k + i))).packets = []) ∧
      (lists.entry (levelAt (k + j))).packets = p :: l ∧
      roundRobinTry nFlag begin n lists =
        (if nFlag then PrioLists.dropHead false (levelAt (k + j)) { lists with nPacketPriority := some (levelAt (k + j)) }
          else { lists with nPacketPriority := begin }, some p) := by
  induction n generalizing k lists with
  | zero =>
    obtain ⟨j, hj, hj0, -⟩ := hsome
    omega
  | succ n ih =>
    have hnext := nextLevel_levelAt hk
    cases hq : (lists.entry (levelAt (k + 1))).packets with
    | cons p l =>
      refine ⟨1, p, l, by omega, by omega, fun i hi hi1 => by omega, hq, ?_⟩
      unfold roundRobinTry
      dsimp only
      rw [hnext, hq]
    | nil =>
      have hsome' : ∃ j, 0 < j ∧ j ≤ n ∧ (lists.entry (levelAt (k + 1 + j))).packets ≠ [] := by
        obtain ⟨j, hj, hjn, hne⟩ := hsome
        have hj1 : j ≠ 1 := fun h => hne (h ▸ hq)
        refine ⟨j - 1, by omega, by omega, ?_⟩
        have hsum : k + 1 + (j - 1) = k + j := by omega
        rwa [hsum]
      obtain ⟨j, p, l, hj, hjn, hpass, hhead, htry⟩ :=
        ih (k + 1) { lists with nPacketPriority := some (levelAt (k + 1)) } rfl hsome'
      have hsum : k + 1 + j = k + (j + 1) := by omega
      rw [hsum] at hhead htry
      refine ⟨j + 1, p, l, by omega, by omega, fun i hi hij => ?_, hhead, ?_⟩
      · by_cases hi1 : i = 1
        · rw [hi1]
          exact hq
        · have hpassed := hpass (i - 1) (by omega) (by omega)
          have hsum' : k + 1 + (i - 1) = k + i := by omega
          rwa [hsum'] at hpassed
      · rw [← htry]
        conv_lhs => unfold roundRobinTry
        dsimp only
        rw [hnext, hq]

/-- **Round robin takes** from the first list behind its cursor that is not empty. -/
theorem takes_roundRobin (htype : b.nSchedulingType = .roundRobin) (hsome : ∃ level, b.queue level ≠ []) (now : ℚ) {k : ℕ}
    (hk : levelAt k = b.cursor.getD .low) : ∃ j p, 0 < j ∧ (∀ i, 0 < i → i < j → b.queue (levelAt (k + i)) = []) ∧
      b.Takes now (levelAt (k + j)) p ∧ (b.retrieve now true).1.cursor = some (levelAt (k + j)) := by
  have hstatus := (getBufferStatus_iff (.inl htype)).2 hsome
  obtain ⟨level, hlevel⟩ := hsome
  cases hlists : b.prioLists with
  | none =>
    rw [queue, hlists] at hlevel
    exact absurd rfl hlevel
  | some lists =>
    have hretrieve : ∀ nFlag, b.retrieve now nFlag =
        ({ b with prioLists := some (roundRobinTry nFlag lists.nPacketPriority 4 lists).1 },
          (roundRobinTry nFlag lists.nPacketPriority 4 lists).2) := by
      intro nFlag
      unfold retrieve schedulerGet roundRobinGet
      rw [if_pos hstatus, htype, hlists]
    have hk' : levelAt k = lists.nPacketPriority.getD .low := by
      rw [hk, cursor, hlists]
      rfl
    have hsome' : ∃ j, 0 < j ∧ j ≤ 4 ∧ (lists.entry (levelAt (k + j))).packets ≠ [] := by
      obtain ⟨j, hj, hj4, heq⟩ := exists_levelAt k level
      refine ⟨j, hj, hj4, ?_⟩
      rwa [heq, ← queue_of_some hlists]
    obtain ⟨j, p, l, hj, -, hpass, hhead, htry⟩ := roundRobinTry_spec true lists.nPacketPriority 4 k lists hk' hsome'
    obtain ⟨j', p', l', hj', -, hpass', hhead', htry'⟩ := roundRobinTry_spec false lists.nPacketPriority 4 k lists hk' hsome'
    have hsame : j' = j := by
      rcases lt_trichotomy j' j with hlt | heq | hlt
      · rw [hpass j' hj' hlt] at hhead'
        cases hhead'
      · exact heq
      · rw [hpass' j hj hlt] at hhead
        cases hhead
    rw [if_pos rfl] at htry
    rw [if_neg Bool.false_ne_true] at htry'
    rw [hsame, hhead] at hhead'
    obtain ⟨rfl, -⟩ := List.cons.inj hhead'
    have hqueue : ∀ other, (b.retrieve now true).1.queue other = if other = levelAt (k + j) then l else b.queue other := by
      intro other
      rw [hretrieve, htry, queue_of_some rfl, dropHead_entry, queue_of_some hlists]
      dsimp only
      rw [hhead, List.tail_cons]
    refine ⟨j, p, hj, fun i hi hij => (queue_of_some hlists _).trans (hpass i hi hij), ⟨?_, ?_, fun other hother => ?_, ?_, ?_⟩, ?_⟩
    · rw [hretrieve, htry]
    · rw [hqueue, if_pos rfl, queue_of_some hlists, hhead]
    · rw [hqueue, if_neg hother]
    · rw [hretrieve]
    · rw [hretrieve, htry', ← hlists]
    · rw [hretrieve, htry]
      rfl

/-- The weight of a list. -/
def weight : Level → ℕ
  | .low => 1
  | .normal => 2
  | .medium => 3
  | .high => 4

/-- The list that WFQ chooses has a largest count. -/
theorem wfqCount_le (lists : PrioLists) (other : Level) :
    wfqCount lists other (weight other) ≤ wfqCount lists (wfqLevel lists) (weight (wfqLevel lists)) := by
  have hlow : wfqCount lists .low 1 = wfqCount lists .low (weight .low) := rfl
  have hnormal : wfqCount lists .normal 2 = wfqCount lists .normal (weight .normal) := rfl
  have hmedium : wfqCount lists .medium 3 = wfqCount lists .medium (weight .medium) := rfl
  have hhigh : wfqCount lists .high 4 = wfqCount lists .high (weight .high) := rfl
  unfold wfqLevel
  rw [hlow, hnormal, hmedium, hhigh]
  generalize hcount : (fun level => wfqCount lists level (weight level)) = count
  have hat : ∀ level, wfqCount lists level (weight level) = count level := fun level => congrFun hcount level
  rw [hat, hat, hat, hat, hat, hat]
  simp only [List.foldl_cons, List.foldl_nil]
  split_ifs <;> cases other <;> dsimp only at * <;> omega

/-- A list whose count is the number of its packets, which 64 bits hold when it is weighted. -/
def Counted (b : IfBuffer) (level : Level) : Prop :=
  b.counter level = (b.queue level).length ∧ weight level * (b.queue level).length < 18446744073709551616

theorem wfqCount_of_counted (hlists : b.prioLists = some lists) {level : Level} (h : b.Counted level) :
    wfqCount lists level (weight level) = (weight level * (b.queue level).length : ℕ) := by
  obtain ⟨hcounter, hlt⟩ := h
  rw [counter, hlists] at hcounter
  have hcounter' : (lists.entry level).nPacketId = (b.queue level).length := hcounter
  unfold wfqCount
  have hproduct : ((b.queue level).length : ℤ) * (weight level : ℤ) = (weight level * (b.queue level).length : ℕ) := by
    rw [Nat.mul_comm, Int.natCast_mul]
  rw [hcounter', hproduct]
  omega

/-- **WFQ takes** from a list with the largest product of weight and length, and keeps the counts. -/
theorem takes_wfq (htype : b.nSchedulingType = .wfq) (hcounted : ∀ level, b.Counted level)
    (hsome : ∃ level, b.queue level ≠ []) (now : ℚ) : ∃ level p, b.Takes now level p ∧
      (∀ other, weight other * (b.queue other).length ≤ weight level * (b.queue level).length) ∧
      ∀ other, (b.retrieve now true).1.Counted other := by
  have hstatus := (getBufferStatus_iff (.inr htype)).2 hsome
  obtain ⟨busy, hbusy⟩ := hsome
  cases hlists : b.prioLists with
  | none =>
    rw [queue, hlists] at hbusy
    exact absurd rfl hbusy
  | some lists =>
    set level := wfqLevel lists with hlevel
    have hmax : ∀ other, weight other * (b.queue other).length ≤ weight level * (b.queue level).length := by
      intro other
      have hle := wfqCount_le lists other
      rw [wfqCount_of_counted hlists (hcounted other), ← hlevel, wfqCount_of_counted hlists (hcounted level)] at hle
      omega
    have hpositive : 0 < weight busy * (b.queue busy).length :=
      Nat.mul_pos (by cases busy <;> decide) (List.length_pos_iff.2 hbusy)
    have hne : b.queue level ≠ [] := by
      intro hnil
      have hle := hmax busy
      rw [hnil, List.length_nil, Nat.mul_zero] at hle
      omega
    obtain ⟨p, l, hhead⟩ := List.exists_cons_of_ne_nil hne
    have hhead' : (lists.entry (wfqLevel lists)).packets = p :: l := by
      rwa [queue_of_some hlists] at hhead
    have hretrieve : ∀ nFlag, b.retrieve now nFlag =
        (if nFlag then { b with prioLists := some (PrioLists.dropHead true level lists) } else b, some p) := by
      intro nFlag
      unfold retrieve schedulerGet wfqGet
      rw [if_pos hstatus, htype, hlists]
      dsimp only
      rw [hhead']
    have hqueue : ∀ other, (b.retrieve now true).1.queue other = if other = level then l else b.queue other := by
      intro other
      rw [hretrieve, if_pos rfl, queue_of_some rfl, dropHead_entry, ← queue_of_some hlists, hhead, List.tail_cons,
        ← queue_of_some hlists]
    have hcounter : ∀ other, (b.retrieve now true).1.counter other =
        if other = level then b.counter other - 1 else b.counter other := by
      intro other
      rw [hretrieve, if_pos rfl, counter, counter, hlists]
      dsimp only [Option.map_some, Option.getD_some, PrioLists.dropHead]
      by_cases h : other = level
      · rw [if_pos h, h, Function.update_self, if_pos rfl]
      · rw [if_neg h, Function.update_of_ne h]
    refine ⟨level, p, ⟨?_, ?_, fun other hother => ?_, ?_, ?_⟩, hmax, fun other => ?_⟩
    · rw [hretrieve]
    · rw [hqueue, if_pos rfl, hhead]
    · rw [hqueue, if_neg hother]
    · rw [hretrieve, if_pos rfl]
    · rw [hretrieve]
      rfl
    · obtain ⟨hcount, hlt⟩ := hcounted other
      unfold Counted
      rw [hqueue, hcounter]
      by_cases h : other = level
      · rw [if_pos h, if_pos h]
        rw [h, hhead, List.length_cons] at hcount hlt
        rw [h, hcount]
        rw [Nat.mul_add] at hlt
        exact ⟨by omega, by omega⟩
      · rw [if_neg h, if_neg h]
        exact ⟨hcount, hlt⟩

/-! ## Additions -/

/-- A chain is put behind the list of its first packet. -/
theorem schedulerAdd_queue (htype : b.nSchedulingType = .roundRobin ∨ b.nSchedulingType = .wfq) (p : BufPacket)
    (rest : List BufPacket) (level : Level) : (b.schedulerAdd p rest).queue level =
      if level = levelOf p then b.queue level ++ p :: rest else b.queue level := by
  have happend : ∀ isCounted, (b.appendToLevel isCounted p rest).queue level =
      if level = levelOf p then b.queue level ++ p :: rest else b.queue level := by
    intro isCounted
    have hold : ((b.prioLists.getD .calloc).entry level).packets = b.queue level := by
      unfold queue
      cases b.prioLists <;> rfl
    unfold appendToLevel
    dsimp only
    rw [queue_of_some rfl]
    dsimp only
    by_cases h : level = levelOf p
    · rw [if_pos h, ← hold, h, Function.update_self]
    · rw [if_neg h, ← hold, Function.update_of_ne h]
  unfold schedulerAdd
  rcases htype with h | h
  · rw [h]
    exact happend false
  · rw [h]
    exact happend true

theorem schedulerAdd_type (htype : b.nSchedulingType = .roundRobin ∨ b.nSchedulingType = .wfq) (p : BufPacket)
    (rest : List BufPacket) : (b.schedulerAdd p rest).nSchedulingType = b.nSchedulingType ∧
      (b.schedulerAdd p rest).cursor = b.cursor := by
  have happend : ∀ isCounted, (b.appendToLevel isCounted p rest).cursor = b.cursor := by
    intro isCounted
    unfold cursor
    cases hlists : b.prioLists with
    | none =>
      unfold appendToLevel
      rw [hlists]
      rfl
    | some lists =>
      unfold appendToLevel
      rw [hlists]
      rfl
  unfold schedulerAdd
  rcases htype with h | h
  · rw [h]
    exact ⟨h, happend false⟩
  · rw [h]
    exact ⟨h, happend true⟩

/-- WFQ counts one packet for a chain. -/
theorem schedulerAdd_counter (htype : b.nSchedulingType = .wfq) (p : BufPacket) (rest : List BufPacket) (level : Level) :
    (b.schedulerAdd p rest).counter level = if level = levelOf p then b.counter level + 1 else b.counter level := by
  have hold : ((b.prioLists.getD .calloc).entry level).nPacketId = b.counter level := by
    unfold counter
    cases b.prioLists <;> rfl
  unfold schedulerAdd
  rw [htype]
  dsimp only [appendToLevel]
  have hnew : ∀ lists, counter { b with prioLists := some lists } level = (lists.entry level).nPacketId := fun _ => rfl
  rw [hnew]
  dsimp only
  by_cases h : level = levelOf p
  · rw [if_pos h, ← hold, h, Function.update_self, if_pos rfl]
  · rw [if_neg h, ← hold, Function.update_of_ne h]

/-- An addition that WFQ counts as what it is. -/
def AddCounts (b : IfBuffer) (p : BufPacket) (rest : List BufPacket) : Prop :=
  rest = [] ∧ weight (levelOf p) * ((b.queue (levelOf p)).length + 1) < 18446744073709551616

/-- **The counts stay those of the lists** exactly if the packet comes alone. -/
theorem counter_schedulerAdd_iff (htype : b.nSchedulingType = .wfq) (hcounted : ∀ level, b.Counted level) (p : BufPacket)
    (rest : List BufPacket) : (∀ level, (b.schedulerAdd p rest).counter level = ((b.schedulerAdd p rest).queue level).length) ↔
      rest = [] := by
  constructor
  · intro h
    have hcount := h (levelOf p)
    rw [schedulerAdd_counter htype, schedulerAdd_queue (.inr htype), if_pos rfl, if_pos rfl, List.length_append,
      List.length_cons, (hcounted (levelOf p)).1] at hcount
    exact List.eq_nil_of_length_eq_zero (by omega)
  · rintro rfl level
    rw [schedulerAdd_counter htype, schedulerAdd_queue (.inr htype)]
    by_cases h : level = levelOf p
    · rw [if_pos h, if_pos h, List.length_append, List.length_singleton, (hcounted level).1]
      omega
    · rw [if_neg h, if_neg h]
      exact (hcounted level).1

theorem counted_schedulerAdd (htype : b.nSchedulingType = .wfq) (hcounted : ∀ level, b.Counted level)
    (hadd : b.AddCounts p rest) (level : Level) : (b.schedulerAdd p rest).Counted level := by
  obtain ⟨hnil, hlt⟩ := hadd
  refine ⟨(counter_schedulerAdd_iff htype hcounted p rest).2 hnil level, ?_⟩
  rw [schedulerAdd_queue (.inr htype), hnil]
  by_cases h : level = levelOf p
  · rw [if_pos h, h, List.length_append, List.length_singleton]
    exact hlt
  · rw [if_neg h]
    exact (hcounted level).2

end IfBuffer

/-! ## Runs -/

/-- The buffer, what has been added to each list and taken from it, and the lists that were served, in order. -/
structure ClassRun where
  buffer : IfBuffer
  added : Level → List BufPacket
  taken : Level → List BufPacket
  served : List Level

/-- A chain is added; a packet is retrieved, or without the flag shown. -/
inductive ClassEvent
  | add (p : BufPacket) (rest : List BufPacket)
  | get (now : ℚ) (nFlag : Bool)

namespace ClassRun

open IfBuffer

/-- The lists that have become shorter. -/
def shrunk (b b' : IfBuffer) : List Level :=
  [Level.high, .medium, .normal, .low].filter fun level => (b'.queue level).length < (b.queue level).length

def step (s : ClassRun) : ClassEvent → Option ClassRun
  | .add p rest =>
    some { s with
      buffer := s.buffer.schedulerAdd p rest
      added := Function.update s.added (levelOf p) (s.added (levelOf p) ++ p :: rest) }
  | .get now nFlag =>
    let r := s.buffer.retrieve now nFlag
    let lists := shrunk s.buffer r.1
    some { s with
      buffer := r.1
      taken := fun level => if level ∈ lists then s.taken level ++ r.2.toList else s.taken level
      served := s.served ++ lists }

/-- No list is allocated at the start. -/
def machine : Machine ClassRun ClassEvent where
  init s := (s.buffer.nSchedulingType = .roundRobin ∨ s.buffer.nSchedulingType = .wfq) ∧ s.buffer.prioLists = none ∧
    s.added = (fun _ => []) ∧ s.taken = (fun _ => []) ∧ s.served = []
  step := step

/-- The runs that go on from a state. -/
def machineFrom (s : ClassRun) : Machine ClassRun ClassEvent := ⟨(· = s), step⟩

/-- WFQ gets single packets, and no more than its counts can hold. -/
def StepOk (s : ClassRun) : ClassEvent → Prop
  | .add p rest => s.buffer.nSchedulingType = .wfq → s.buffer.AddCounts p rest
  | .get _ _ => True

/-- **The invariant.** -/
structure Inv (s : ClassRun) : Prop where
  type : s.buffer.nSchedulingType = .roundRobin ∨ s.buffer.nSchedulingType = .wfq
  order : ∀ level, s.added level = s.taken level ++ s.buffer.queue level
  counted : s.buffer.nSchedulingType = .wfq → ∀ level, s.buffer.Counted level

variable {s s' : ClassRun} {now : ℚ} {p : BufPacket} {level : Level}

theorem shrunk_self (b : IfBuffer) : shrunk b b = [] := by
  unfold shrunk
  rw [List.filter_eq_nil_iff]
  intro level _ hlt
  rw [decide_eq_true_eq] at hlt
  omega

theorem shrunk_of_takes {b : IfBuffer} (h : b.Takes now level p) : shrunk b (b.retrieve now true).1 = [level] := by
  have hiff : ∀ other, decide (((b.retrieve now true).1.queue other).length < (b.queue other).length) = decide (other = level) := by
    intro other
    by_cases heq : other = level
    · rw [heq, h.head, List.length_cons, decide_eq_true rfl, decide_eq_true (by omega)]
    · rw [h.others other heq, decide_eq_false heq, decide_eq_false (by omega)]
  unfold shrunk
  rw [funext hiff]
  cases level <;> rfl

/-- A peek, and a retrieval from an empty buffer, change nothing. -/
theorem step_get_same {nFlag : Bool} {r : Option BufPacket} (h : s.buffer.retrieve now nFlag = (s.buffer, r)) :
    s.step (.get now nFlag) = some s := by
  unfold step
  dsimp only
  rw [h, shrunk_self, List.append_nil]
  rfl

/-- What a retrieval does. -/
theorem step_get_takes (h : s.buffer.Takes now level p) : ∃ s', s.step (.get now true) = some s' ∧
    s'.buffer = (s.buffer.retrieve now true).1 ∧ s'.added = s.added ∧ s'.served = s.served ++ [level] ∧
      ∀ other, s'.taken other ++ s'.buffer.queue other = s.taken other ++ s.buffer.queue other := by
  refine ⟨_, rfl, rfl, rfl, ?_, fun other => ?_⟩
  · rw [shrunk_of_takes h]
  · dsimp only
    rw [shrunk_of_takes h, h.result]
    by_cases heq : other = level
    · rw [if_pos (List.mem_singleton.2 heq), heq, h.head, List.append_assoc]
      rfl
    · rw [if_neg (fun hmem => heq (List.mem_singleton.1 hmem)), h.others other heq]

/-- What a retrieval from a buffer that is not empty takes. -/
theorem exists_takes (h : s.Inv) (hsome : ∃ level, s.buffer.queue level ≠ []) (now : ℚ) : ∃ level p,
    s.buffer.Takes now level p ∧ (s.buffer.nSchedulingType = .wfq →
      (∀ other, weight other * (s.buffer.queue other).length ≤ weight level * (s.buffer.queue level).length) ∧
        ∀ other, (s.buffer.retrieve now true).1.Counted other) := by
  rcases h.type with htype | htype
  · obtain ⟨k, -, -, hk⟩ := exists_levelAt 0 (s.buffer.cursor.getD .low)
    obtain ⟨j, p, -, -, htakes, -⟩ := takes_roundRobin htype hsome now hk
    refine ⟨_, p, htakes, fun hwfq => ?_⟩
    rw [htype] at hwfq
    cases hwfq
  · obtain ⟨level, p, htakes, hmax, hcounted⟩ := takes_wfq htype (h.counted htype) hsome now
    exact ⟨level, p, htakes, fun _ => ⟨hmax, hcounted⟩⟩

theorem Inv.add {rest : List BufPacket} (h : s.Inv) (hok : s.StepOk (.add p rest)) (hstep : s.step (.add p rest) = some s') :
    s'.Inv := by
  obtain rfl := Option.some.inj hstep
  obtain ⟨htype, -⟩ := schedulerAdd_type h.type p rest
  refine ⟨?_, fun level => ?_, fun hwfq level => ?_⟩
  · dsimp only
    rw [htype]
    exact h.type
  · dsimp only
    rw [schedulerAdd_queue h.type]
    by_cases heq : level = levelOf p
    · rw [if_pos heq, heq, Function.update_self, h.order, List.append_assoc]
    · rw [if_neg heq, Function.update_of_ne heq, h.order]
  · dsimp only at hwfq
    rw [htype] at hwfq
    exact counted_schedulerAdd hwfq (h.counted hwfq) (hok hwfq) level

theorem Inv.get {nFlag : Bool} (h : s.Inv) (hstep : s.step (.get now nFlag) = some s') : s'.Inv := by
  by_cases hempty : ∀ level, s.buffer.queue level = []
  · rw [step_get_same (retrieve_of_empty h.type hempty now nFlag)] at hstep
    cases hstep
    exact h
  · rw [not_forall] at hempty
    obtain ⟨level, p, htakes, hwfq⟩ := exists_takes h hempty now
    cases nFlag with
    | false =>
      rw [step_get_same htakes.peek] at hstep
      cases hstep
      exact h
    | true =>
      obtain ⟨t, ht, hbuffer, hadded, -, horder⟩ := step_get_takes htakes
      rw [hstep] at ht
      cases ht
      refine ⟨?_, fun other => ?_, fun htype => ?_⟩
      · rw [hbuffer, htakes.type]
        exact h.type
      · rw [hadded, h.order, horder]
      · rw [hbuffer, htakes.type] at htype
        rw [hbuffer]
        exact (hwfq htype).2

theorem Inv.step {e : ClassEvent} (h : s.Inv) (hok : s.StepOk e) (hstep : s.step e = some s') : s'.Inv := by
  cases e with
  | add p rest => exact h.add hok hstep
  | get now nFlag => exact h.get hstep

theorem inv_of_reachOn (h : machine.ReachOn StepOk s) : s.Inv := by
  have hinit : ∀ s, machine.init s → s.Inv := by
    rintro s ⟨htype, hlists, hadded, htaken, -⟩
    have hqueue : ∀ level, s.buffer.queue level = [] := by
      intro level
      rw [queue, hlists]
      rfl
    refine ⟨htype, fun level => ?_, fun _ level => ⟨?_, ?_⟩⟩
    · rw [hadded, htaken, hqueue]
      rfl
    · rw [counter, hlists, hqueue]
      rfl
    · rw [hqueue, List.length_nil, Nat.mul_zero]
      decide
  exact h.inv hinit fun _ _ _ hs hok hstep => hs.step hok hstep

/-! ## Cycles of round robin -/

/-- What has been served since `s`, as stops of the cursor; the list of `level` was never empty. -/
structure Cycles (s : ClassRun) (level : Level) (s' : ClassRun) : Prop where
  inv : s'.Inv
  type : s'.buffer.nSchedulingType = .roundRobin
  stops : ∃ start stops last, s'.served = s.served ++ stops.map levelAt ∧ Serves level start stops ∧
    (start :: stops).getLast? = some last ∧ levelAt last = s'.buffer.cursor.getD .low

theorem Cycles.refl (h : s.Inv) (htype : s.buffer.nSchedulingType = .roundRobin) (level : Level) : Cycles s level s := by
  obtain ⟨k, -, -, hk⟩ := exists_levelAt 0 (s.buffer.cursor.getD .low)
  exact ⟨h, htype, 0 + k, [], 0 + k, (List.append_nil _).symm, .nil level _, rfl, hk⟩

theorem Cycles.step {t t' : ClassRun} {e : ClassEvent} (h : Cycles s level t) (hbusy : t.buffer.queue level ≠ [])
    (hstep : t.step e = some t') : Cycles s level t' := by
  obtain ⟨start, stops, last, hserved, hserves, hlast, hcursor⟩ := h.stops
  cases e with
  | add p rest =>
    have hok : t.StepOk (.add p rest) := by
      intro hwfq
      rw [h.type] at hwfq
      cases hwfq
    have hinv := h.inv.add hok hstep
    obtain ⟨htype, hsame⟩ := schedulerAdd_type h.inv.type p rest
    cases hstep
    refine ⟨hinv, htype.trans h.type, start, stops, last, hserved, hserves, hlast, ?_⟩
    rw [hcursor, hsame]
  | get now nFlag =>
    have hinv := h.inv.get hstep
    obtain ⟨j, p, hj, hpass, htakes, hmoved⟩ := takes_roundRobin h.type ⟨level, hbusy⟩ now hcursor
    cases nFlag with
    | false =>
      rw [step_get_same htakes.peek] at hstep
      cases hstep
      exact h
    | true =>
      obtain ⟨u, hu, hbuffer, -, hserved', -⟩ := step_get_takes htakes
      rw [hstep] at hu
      cases hu
      refine ⟨hinv, ?_, start, stops ++ [last + j], last + j, ?_, hserves.concat hlast hj fun i hi hij heq => ?_, ?_, ?_⟩
      · rw [hbuffer, htakes.type, h.type]
      · rw [hserved', hserved, List.map_append, List.append_assoc]
        rfl
      · -- the list would have been empty
        exact hbusy (heq ▸ hpass i hi hij)
      · rw [← List.cons_append, List.getLast?_concat]
      · rw [hbuffer, hmoved]
        rfl

theorem cycles_of_backlogged (h : s.Inv) (htype : s.buffer.nSchedulingType = .roundRobin)
    (hrun : (machineFrom s).ReachOn (fun t _ => t.buffer.queue level ≠ []) s') : Cycles s level s' := by
  refine hrun.inv ?_ fun t e t' ht hbusy hstep => ht.step hbusy hstep
  rintro t rfl
  exact .refl h htype level

end ClassRun

open IfBuffer in
/-- **Round robin and WFQ**, in every run in which WFQ gets single packets. The packets of a list leave in the order in
which they came; a retrieval returns the first packet of one of the lists unless all are empty, and a peek returns the same
packet and changes nothing. WFQ counts the packets of each list, so it takes from one with the largest product of weight and
length. Round robin serves a list that stays busy at each of its positions that the cursor reaches, so once in each cycle. -/
theorem class_schedulers (s : ClassRun) (h : ClassRun.machine.ReachOn ClassRun.StepOk s) :
    (∀ level, s.added level = s.taken level ++ s.buffer.queue level) ∧
    (∀ now, ((s.buffer.retrieve now true).2 ≠ none ↔ ∃ level, s.buffer.queue level ≠ []) ∧
      (∀ p, (s.buffer.retrieve now true).2 = some p → ∃ level, s.buffer.Takes now level p) ∧
      s.buffer.retrieve now false = (s.buffer, (s.buffer.retrieve now true).2)) ∧
    (s.buffer.nSchedulingType = .wfq →
      (∀ level, s.buffer.counter level = (s.buffer.queue level).length) ∧
      (∀ now p, (s.buffer.retrieve now true).2 = some p → ∃ level, s.buffer.Takes now level p ∧
        ∀ other, weight other * (s.buffer.queue other).length ≤ weight level * (s.buffer.queue level).length) ∧
      ∀ p rest, (∀ level, (s.buffer.schedulerAdd p rest).counter level = ((s.buffer.schedulerAdd p rest).queue level).length) ↔
        rest = []) ∧
    (s.buffer.nSchedulingType = .roundRobin → ∀ level s',
      (ClassRun.machineFrom s).ReachOn (fun t _ => t.buffer.queue level ≠ []) s' →
        ∃ start stops, s'.served = s.served ++ stops.map levelAt ∧ Serves level start stops) := by
  have hinv := ClassRun.inv_of_reachOn h
  have hempty : (¬ ∃ level, s.buffer.queue level ≠ []) → ∀ now nFlag, s.buffer.retrieve now nFlag = (s.buffer, none) := by
    intro hno
    exact retrieve_of_empty hinv.type fun level => not_not.1 fun hne => hno ⟨level, hne⟩
  refine ⟨hinv.order, fun now => ?_, fun hwfq => ⟨fun level => (hinv.counted hwfq level).1, fun now p hp => ?_,
    counter_schedulerAdd_iff hwfq (hinv.counted hwfq)⟩, fun htype level s' hrun => ?_⟩
  · by_cases hsome : ∃ level, s.buffer.queue level ≠ []
    · obtain ⟨level, p, htakes, -⟩ := ClassRun.exists_takes hinv hsome now
      rw [htakes.result]
      refine ⟨iff_of_true (Option.some_ne_none p) hsome, fun q hq => ⟨level, ?_⟩, htakes.peek⟩
      rw [← Option.some.inj hq]
      exact htakes
    · have hnone := hempty hsome now
      rw [hnone, hnone]
      exact ⟨iff_of_false (fun hne => hne rfl) hsome, fun p hp => (by cases hp), rfl⟩
  · by_cases hsome : ∃ level, s.buffer.queue level ≠ []
    · obtain ⟨level, q, htakes, hmax⟩ := ClassRun.exists_takes hinv hsome now
      rw [htakes.result] at hp
      rw [← Option.some.inj hp]
      exact ⟨level, htakes, (hmax hwfq).1⟩
    · rw [hempty hsome] at hp
      cases hp
  · obtain ⟨start, stops, -, hserved, hserves, -⟩ := (ClassRun.cycles_of_backlogged hinv htype hrun).stops
    exact ⟨start, stops, hserved, hserves⟩

/-! ## Sample runs -/

/-- An empty buffer with one of the two schedulers. -/
def idleRun (nSchedulingType : SchedulingType) : ClassRun :=
  ⟨IfBuffer.sampleBuffer nSchedulingType, fun _ => [], fun _ => [], []⟩

instance (s : ClassRun) (e : ClassEvent) : Decidable (s.StepOk e) :=
  match e with
  | .add _ _ => inferInstanceAs (Decidable (_ = _ → _ ∧ _))
  | .get _ _ => inferInstanceAs (Decidable True)

/-- WFQ with two packets of low and one of normal priority: equal products, and the higher priority is served. -/
theorem class_schedulers_wfq : ∃ s, ClassRun.machine.ReachOn ClassRun.StepOk s ∧ s.served = [.normal] ∧
    s.buffer.counter .low = 2 ∧ ∀ level, s.added level = s.taken level ++ s.buffer.queue level := by
  have hreach : ∃ s, ClassRun.machine.ReachOn ClassRun.StepOk s ∧ s.served = [.normal] ∧ s.buffer.counter .low = 2 :=
    Machine.ReachOn.exists_of_execOn ClassRun.StepOk
      [.add (IfBuffer.samplePacket 50 none) [], .add (IfBuffer.samplePacket 60 (some .low)) [],
        .add (IfBuffer.samplePacket 70 (some .normal)) [], .get 0 false, .get 0 true]
      (.init (show ClassRun.machine.init (idleRun .wfq) from ⟨.inr rfl, rfl, rfl, rfl, rfl⟩)) (by decide +kernel)
  obtain ⟨s, hs, hserved, hcounter⟩ := hreach
  exact ⟨s, hs, hserved, hcounter, (class_schedulers s hs).1⟩

/-- A chain of three packets counts as one: when they have left, the count is negative, and WFQ serves nothing else. -/
theorem wfq_stalls :
    (¬ ∀ s, ClassRun.machine.Reach s → s.buffer.nSchedulingType = .wfq →
      ∀ level, s.buffer.counter level = (s.buffer.queue level).length) ∧
    ¬ ∀ s, ClassRun.machine.Reach s → (∃ level, s.buffer.queue level ≠ []) → (s.buffer.retrieve 0 true).2 ≠ none := by
  have hreach : ∃ s, ClassRun.machine.Reach s ∧ s.buffer.nSchedulingType = .wfq ∧ s.buffer.counter .high = -2 ∧
      s.buffer.queue .high = [] ∧ s.buffer.queue .low ≠ [] ∧ (s.buffer.retrieve 0 true).2 = none :=
    Machine.Reach.exists_of_exec
      [.add (IfBuffer.samplePacket 50 (some .high)) [IfBuffer.samplePacket 60 none, IfBuffer.samplePacket 70 none],
        .get 0 true, .get 0 true, .get 0 true, .add (IfBuffer.samplePacket 80 none) []]
      (.init (show ClassRun.machine.init (idleRun .wfq) from ⟨.inr rfl, rfl, rfl, rfl, rfl⟩)) (by decide +kernel)
  obtain ⟨s, hs, htype, hcounter, hhigh, hlow, hnone⟩ := hreach
  refine ⟨fun hall => ?_, fun hall => hall s hs ⟨.low, hlow⟩ hnone⟩
  have hcount := hall s hs htype .high
  rw [hcounter, hhigh] at hcount
  cases hcount

end NetSim.Scheduling
