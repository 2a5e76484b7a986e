import NetSim.Lib.LineCut
import NetSim.Spec.Handover
import NetSim.Spec.Listener

/-!
# The stream of events
-/

/-!
## Chunks of the event stream

The listener decodes and splits what one `recv` returns, so it gets the lines of the stream exactly if
every chunk but the last ends with a line.

* `rawLines_flatten`: the lines of the chunks are those of the stream, or more.
* `independent_iff`: when the lines and the events are those of the stream.
-/

namespace NetSim.Listener

open PyText Utf8

/-- Every chunk but the last ends with a line. -/
def EndAtLines : List (List UInt8) → Prop
  | [] => True
  | [_] => True
  | data :: data' :: more =>
    EndsLine (decode data) (decode (data' :: more).flatten) ∧ EndAtLines (data' :: more)

theorem rawLines_single (data : List UInt8) : rawLines [data] = splitlines (decode data) := by
  cases data with
  | nil => rfl
  | cons b rest => exact (if_neg (List.cons_ne_nil _ _)).trans (List.append_nil _)

/-- The chunks give the lines of the stream, or more. -/
theorem rawLines_flatten {chunks : List (List UInt8)} (hne : ∀ data ∈ chunks, data ≠ []) :
    (EndAtLines chunks ∧ splitlines (decode chunks.flatten) = rawLines chunks) ∨
      (¬ EndAtLines chunks ∧ size (splitlines (decode chunks.flatten)) < size (rawLines chunks)) := by
  induction chunks with
  | nil => exact .inl ⟨trivial, rfl⟩
  | cons data more ih =>
    have hdata := hne data List.mem_cons_self
    cases more with
    | nil =>
      left
      rw [rawLines_single, List.flatten_singleton]
      exact ⟨trivial, rfl⟩
    | cons data' more =>
      have hrest : (data' :: more).flatten ≠ [] := by
        rw [List.flatten_cons]
        exact List.append_ne_nil_of_left_ne_nil (hne data' (List.mem_cons_of_mem _ List.mem_cons_self)) _
      have hlines : rawLines (data :: data' :: more) = splitlines (decode data) ++ rawLines (data' :: more) :=
        if_neg hdata
      have hmore := ih fun d hd => hne d (List.mem_cons_of_mem _ hd)
      rw [hlines, List.flatten_cons, EndAtLines]
      rcases splitlines_cut hdata hrest with ⟨hends, hcut⟩ | ⟨hends, hcut⟩
      · rw [hcut]
        refine hmore.imp ?_ ?_
        · rintro ⟨hlater, heq⟩
          exact ⟨⟨hends, hlater⟩, congrArg _ heq⟩
        · rintro ⟨hlater, hlt⟩
          refine ⟨fun h => hlater h.2, ?_⟩
          rw [size_append, size_append]
          exact Nat.add_lt_add_left hlt _
      · refine .inr ⟨fun h => hends h.1, hcut.trans_le ?_⟩
        rw [size_append]
        refine Nat.add_le_add_left ?_ _
        rcases hmore with ⟨-, heq⟩ | ⟨-, hlt⟩
        · exact (congrArg size heq).le
        · exact hlt.le

/-- **The listener does not depend on the chunks exactly if every chunk but the last ends with a line.** -/
theorem independent_iff {chunks : List (List UInt8)} (hne : ∀ data ∈ chunks, data ≠ []) :
    (tcpClientOnce chunks = tcpClientOnce [chunks.flatten] ∧ rawLines chunks = rawLines [chunks.flatten]) ↔
      EndAtLines chunks := by
  rw [tcpClientOnce, tcpClientOnce, rawLines_single]
  rcases rawLines_flatten hne with ⟨hends, heq⟩ | ⟨hends, hlt⟩
  · rw [heq]
    exact ⟨fun _ => hends, fun _ => ⟨rfl, rfl⟩⟩
  · refine ⟨?_, fun h => absurd h hends⟩
    rintro ⟨-, heq⟩
    rw [heq] at hlt
    exact absurd hlt (Nat.lt_irrefl _)

/-- `HANDOVER,UE,7` and a line feed. -/
def handoverSeven : List UInt8 := [72, 65, 78, 68, 79, 86, 69, 82, 44, 85, 69, 44, 55, 10]

/-- Two messages in two chunks. -/
theorem independent_whole : tcpClientOnce [handoverSeven, handoverSeven] =
      tcpClientOnce [[handoverSeven, handoverSeven].flatten] ∧
    rawLines [handoverSeven, handoverSeven] = rawLines [[handoverSeven, handoverSeven].flatten] := by
  have hne : ∀ data ∈ [handoverSeven, handoverSeven], data ≠ [] := by decide
  have hends : EndsLine (decode handoverSeven) (decode [handoverSeven].flatten) :=
    ⟨'\n', by decide, by decide, by decide⟩
  exact (independent_iff hne).2 ⟨hends, trivial⟩

/-- One message in two chunks: the UE is lost. -/
theorem handoverSeven_cut :
    ¬ (tcpClientOnce [handoverSeven.take 12, handoverSeven.drop 12] =
          tcpClientOnce [[handoverSeven.take 12, handoverSeven.drop 12].flatten] ∧
        rawLines [handoverSeven.take 12, handoverSeven.drop 12] =
          rawLines [[handoverSeven.take 12, handoverSeven.drop 12].flatten]) ∧
      tcpClientOnce [handoverSeven.take 12, handoverSeven.drop 12] =
        [⟨.handover, none, some "<unknown>".toList, none, none, none, []⟩] ∧
      tcpClientOnce [handoverSeven] = [⟨.handover, none, some ['7'], none, none, none, []⟩] := by
  refine ⟨fun h => absurd h.2 ?_, ?_, ?_⟩ <;> decide

end NetSim.Listener

/-!
## From the simulator to the listener

The text of an event, as the listener reads it.

* `parts_of_text`: the parts of a text are the ones it was written with.
* `parse_handoverText`, `parse_pingpongText`: the events of the two texts.
* `events_parsed`: the events are the ones that were sent, up to the digits that are printed.
-/

namespace NetSim.Listener

open PyText

/-- A text that can stand between two commas. -/
def IsField (s : Str) : Prop := ',' ∉ s ∧ NoBlankEnds s

instance (s : Str) : Decidable (IsField s) := inferInstanceAs (Decidable (_ ∧ _))

theorem isField_number {s : Str} (h : ∀ c ∈ s, isNumberChar c) : IsField s :=
  ⟨not_mem_number h (.inl (by decide)), noBlankEnds_number h⟩

/-- **The parts of a text** with a line feed at its end. -/
theorem parts_of_text {parts : List Str} (hne : join ',' parts ≠ []) (h : ∀ part ∈ parts, IsField part) :
    strip (join ',' parts ++ ['\n']) = join ',' parts ∧
      (split ',' (join ',' parts)).map strip = parts := by
  have hcomma : isSpace ',' = false := by decide
  have hends := noBlankEnds_join hcomma fun part hpart => (h part hpart).2
  have hparts : parts ≠ [] := by
    rintro rfl
    exact hne rfl
  refine ⟨strip_append hends hne (by decide), ?_⟩
  rw [split_join hparts fun part hpart => (h part hpart).1]
  exact (List.map_congr_left fun part hpart => strip_of_ends (h part hpart).2).trans (List.map_id parts)

/-! ## The loops over the parts -/

section fields

variable {d d' : Event} {part val : Str} (rest : List Str)

theorem handoverFields_set (hremark : upper part ≠ "REMARK".toList)
    (hset : setHandoverField d (upper part) val = some d') :
    handoverFields d (part :: val :: rest) = handoverFields d' rest := by
  rw [handoverFields, if_neg hremark, hset]

theorem handoverFields_skip (hremark : upper part ≠ "REMARK".toList)
    (hset : setHandoverField d (upper part) val = none) :
    handoverFields d (part :: val :: rest) = handoverFields d (val :: rest) := by
  rw [handoverFields, if_neg hremark, hset]

theorem pingPongFields_set (hset : setPingPongField d (upper part) val = some d') :
    pingPongFields d (part :: val :: rest) = pingPongFields d' rest := by
  rw [pingPongFields, hset]

end fields

/-- A number is not a key. -/
theorem upper_number_ne {s : Str} (h : ∀ c ∈ s, isNumberChar c) {key : Str}
    (hkey : ∃ c ∈ key, 0x39 < c.toNat) : upper s ≠ key := by
  rw [upper_number h]
  rintro rfl
  obtain ⟨c, hc, hlt⟩ := hkey
  exact not_mem_number h (.inr hlt) hc

theorem setHandoverField_number (d : Event) {s : Str} (h : ∀ c ∈ s, isNumberChar c) (val : Str) :
    setHandoverField d (upper s) val = none := by
  unfold setHandoverField
  rw [if_neg (upper_number_ne h ⟨'U', by decide, by decide⟩),
    if_neg (upper_number_ne h ⟨'S', by decide, by decide⟩),
    if_neg (upper_number_ne h ⟨'T', by decide, by decide⟩),
    if_neg (upper_number_ne h ⟨'T', by decide, by decide⟩)]

/-! ## The texts -/

/-- The parts of the text of a handover. -/
def handoverParts (ue serving target : Str) (timeMs servingsnr targetsnr : ℚ) (remark : Str) : List Str :=
  ["HANDOVER".toList, "UE".toList, ue, "SERVING".toList, serving, "TARGET".toList, target, "TIME".toList,
    fixed 2 timeMs, "SERVING_SINR".toList, fixed 2 servingsnr, "TARGET_SINR".toList, fixed 2 targetsnr,
    "REMARK".toList, remark]

theorem handoverText_eq (ue serving target : Str) (timeMs servingsnr targetsnr : ℚ) (remark : Str) :
    handoverText ue serving target timeMs servingsnr targetsnr remark =
      join ',' (handoverParts ue serving target timeMs servingsnr targetsnr remark) ++ ['\n'] := by
  unfold handoverText handoverParts
  generalize fixed 2 timeMs = time
  generalize fixed 2 servingsnr = servingSinr
  generalize fixed 2 targetsnr = targetSinr
  simp [join]

/-- The parts of the text of a ping-pong. -/
def pingpongParts (e : PingpongEvent) : List Str :=
  ["PINGPONG".toList, "UE".toList, decimal (asInt e.ue), "FROM".toList, decimal (asInt e.fromCell),
    "TO".toList, decimal (asInt e.toCell), "DT".toList, fixed 6 e.dt]

theorem pingpongText_eq (e : PingpongEvent) : e.text = join ',' (pingpongParts e) ++ ['\n'] := by
  unfold PingpongEvent.text pingpongParts
  generalize decimal (asInt e.ue) = ue
  generalize decimal (asInt e.fromCell) = fromCell
  generalize decimal (asInt e.toCell) = toCell
  generalize fixed 6 e.dt = dt
  simp [join]

/-- **The event of a handover.** -/
theorem parse_handoverText {ue serving target remark : Str} (hue : IsField ue) (hserving : IsField serving)
    (htarget : IsField target) (hremark : IsField remark) (timeMs servingsnr targetsnr : ℚ) :
    parseLine (handoverText ue serving target timeMs servingsnr targetsnr remark) =
      some ⟨.handover, some (.finite (fixedValue 2 timeMs)), some ue, some serving, some target, none,
        remark⟩ := by
  have hfields : ∀ part ∈ handoverParts ue serving target timeMs servingsnr targetsnr remark, IsField part := by
    have hnumber := fun x => isField_number (fixed_number 2 x)
    unfold handoverParts
    simp only [List.forall_mem_cons]
    exact ⟨by decide, by decide, hue, by decide, hserving, by decide, htarget, by decide, hnumber _, by decide,
      hnumber _, by decide, hnumber _, by decide, hremark, nofun⟩
  have hne : join ',' (handoverParts ue serving target timeMs servingsnr targetsnr remark) ≠ [] := by
    unfold handoverParts
    exact List.append_ne_nil_of_left_ne_nil (by decide) _
  obtain ⟨hstrip, hsplit⟩ := parts_of_text hne hfields
  have hprefix : "HANDOVER".toList.isPrefixOf (upper "HANDOVER".toList) = true := by decide
  unfold parseLine
  rw [handoverText_eq]
  dsimp only
  rw [hstrip, if_neg hne, hsplit]
  unfold handoverParts
  dsimp only
  rw [if_pos hprefix]
  refine congrArg some ?_
  rw [handoverFields_set _ (by decide) rfl, handoverFields_set _ (by decide) rfl,
    handoverFields_set _ (by decide) rfl, handoverFields_set _ (by decide) rfl]
  -- The two ratios and their keys are not used.
  rw [handoverFields_skip _ (by decide) rfl,
    handoverFields_skip _ (upper_number_ne (fixed_number 2 servingsnr) ⟨'R', by decide, by decide⟩)
      (setHandoverField_number _ (fixed_number 2 servingsnr) _),
    handoverFields_skip _ (by decide) rfl,
    handoverFields_skip _ (upper_number_ne (fixed_number 2 targetsnr) ⟨'R', by decide, by decide⟩)
      (setHandoverField_number _ (fixed_number 2 targetsnr) _),
    handoverFields, if_pos (by decide), parseFloat_fixed]
  rfl

/-- **The event of a ping-pong.** -/
theorem parse_pingpongText (e : PingpongEvent) : parseLine e.text =
    some ⟨.pingPong, none, some (decimal (asInt e.ue)), some (decimal (asInt e.fromCell)),
      some (decimal (asInt e.toCell)), some (.finite (fixedValue 6 e.dt)), []⟩ := by
  have hfields : ∀ part ∈ pingpongParts e, IsField part := by
    have hnumber := fun i => isField_number (decimal_number i)
    unfold pingpongParts
    simp only [List.forall_mem_cons]
    exact ⟨by decide, by decide, hnumber _, by decide, hnumber _, by decide, hnumber _, by decide,
      isField_number (fixed_number 6 e.dt), nofun⟩
  have hne : join ',' (pingpongParts e) ≠ [] := by
    unfold pingpongParts
    exact List.append_ne_nil_of_left_ne_nil (by decide) _
  obtain ⟨hstrip, hsplit⟩ := parts_of_text hne hfields
  have hhandover : ¬ "HANDOVER".toList.isPrefixOf (upper "PINGPONG".toList) = true := by decide
  have hpingpong : "PINGPONG".toList.isPrefixOf (upper "PINGPONG".toList) = true := by decide
  unfold parseLine
  rw [pingpongText_eq]
  dsimp only
  rw [hstrip, if_neg hne, hsplit]
  unfold pingpongParts
  dsimp only
  rw [if_neg hhandover, if_pos hpingpong]
  refine congrArg some ?_
  rw [pingPongFields_set _ rfl, pingPongFields_set _ rfl, pingPongFields_set _ rfl, pingPongFields_set _ rfl,
    pingPongFields, parseFloat_fixed]
  rfl

/-- A text that fits in the buffer is sent. -/
theorem pySendHandoverEvent_eq_some {deviceName : ℕ → Str} {ldEventTime : ℚ} {ueID : ℕ}
    {servingsnr targetsnr : ℚ} {servinggnb targetgnb : ℕ} {remark : Option Str} {text : Str} :
    pySendHandoverEvent true deviceName ldEventTime ueID servingsnr targetsnr servinggnb targetgnb remark =
        some [text] ↔
      handoverText (deviceName ueID) (deviceName servinggnb) (deviceName targetgnb)
          (ldEventTime / millisecond) servingsnr targetsnr (remark.getD []) = text ∧ utf8Length text < 512 := by
  rw [pySendHandoverEvent, if_neg (fun h => Bool.false_ne_true h.symm)]
  dsimp only
  split
  · rename_i hfits
    constructor
    · intro hsent
      obtain rfl := List.head_eq_of_cons_eq (Option.some.inj hsent)
      exact ⟨rfl, hfits⟩
    · rintro ⟨rfl, -⟩
      rfl
  · rename_i hlong
    refine ⟨nofun, ?_⟩
    rintro ⟨rfl, hfits⟩
    exact absurd hfits hlong

/-- **What the listener makes of an event that is sent**: its kind and its fields, the time up to five
microseconds, and a ping-pong's interval up to half a microsecond. -/
theorem events_parsed :
    (∀ (deviceName : ℕ → Str) (ldEventTime : ℚ) (ueID : ℕ) (servingsnr targetsnr : ℚ)
      (servinggnb targetgnb : ℕ) (remark : Option Str) (text : Str),
      IsField (deviceName ueID) → IsField (deviceName servinggnb) → IsField (deviceName targetgnb) →
      IsField (remark.getD []) →
      pySendHandoverEvent true deviceName ldEventTime ueID servingsnr targetsnr servinggnb targetgnb remark =
        some [text] →
      ∃ timeMs : ℚ, parseLine text = some ⟨.handover, some (.finite timeMs), some (deviceName ueID),
          some (deviceName servinggnb), some (deviceName targetgnb), none, remark.getD []⟩ ∧
        |timeMs / 1000 - ldEventTime / second| ≤ 5 / 1000000 ∧
        (timeMs / 1000 = ldEventTime / second ↔ ∃ i : ℤ, ldEventTime = 10 * i)) ∧
      ∀ e : PingpongEvent, ∃ ev, parseLine e.text = some ev ∧ ev.type = .pingPong ∧
        ev.ue = some (decimal (asInt e.ue)) ∧ ev.serving = some (decimal (asInt e.fromCell)) ∧
        ev.target = some (decimal (asInt e.toCell)) ∧ ev.remark = [] ∧
        ∃ dt : ℚ, ev.dt = some (.finite dt) ∧ |dt - e.dt| ≤ 1 / 2 / 1000000 := by
  constructor
  · intro deviceName ldEventTime ueID servingsnr targetsnr servinggnb targetgnb remark text hue hserving
      htarget hremark hsent
    have hthousand : (0 : ℚ) < 1000 := by norm_num
    have hscale : fixedValue 2 (ldEventTime / millisecond) / 1000 - ldEventTime / second =
        (fixedValue 2 (ldEventTime / millisecond) - ldEventTime / millisecond) / 1000 := by
      unfold millisecond second
      ring
    refine ⟨fixedValue 2 (ldEventTime / millisecond), ?_, ?_, ?_⟩
    · obtain ⟨rfl, -⟩ := pySendHandoverEvent_eq_some.1 hsent
      exact parse_handoverText hue hserving htarget hremark _ servingsnr targetsnr
    · have hclose := fixedValue_close 2 (ldEventTime / millisecond)
      rw [hscale, abs_div, abs_of_pos hthousand, div_le_iff₀ hthousand]
      exact hclose.trans (by norm_num)
    · have heq : fixedValue 2 (ldEventTime / millisecond) / 1000 = ldEventTime / second ↔
          fixedValue 2 (ldEventTime / millisecond) = ldEventTime / millisecond := by
        rw [← sub_eq_zero, hscale, div_eq_zero_iff, or_iff_left hthousand.ne', sub_eq_zero]
      rw [heq, fixedValue_eq_iff]
      refine exists_congr fun i => ?_
      unfold millisecond
      constructor <;> intro h <;> linarith
  · intro e
    exact ⟨_, parse_pingpongText e, rfl, rfl, rfl, rfl, rfl, _, rfl, fixedValue_close 6 e.dt⟩

/-- Names of devices. -/
def exampleName (id : ℕ) : Str := if id = 7 then "UE_7".toList else if id = 1 then "gNB_1".toList else "gNB_2".toList

/-- A handover at twelve milliseconds. -/
theorem events_parsed_handover : ∃ timeMs : ℚ,
    parseLine (handoverText "UE_7".toList "gNB_1".toList "gNB_2".toList (12000 / millisecond) 3 5 "ok".toList) =
      some ⟨.handover, some (.finite timeMs), some "UE_7".toList, some "gNB_1".toList, some "gNB_2".toList, none,
        "ok".toList⟩ ∧
    |timeMs / 1000 - 12000 / second| ≤ 5 / 1000000 ∧
    (timeMs / 1000 = 12000 / second ↔ ∃ i : ℤ, (12000 : ℚ) = 10 * i) :=
  events_parsed.1 exampleName 12000 7 3 5 1 2 (some "ok".toList) _ (by decide) (by decide) (by decide) (by decide)
    (pySendHandoverEvent_eq_some.2 ⟨rfl, by decide +kernel⟩)

/-- The instant is not the same a microsecond after the start, and a ping-pong has none. -/
theorem events_inexact :
    (∃ text, pySendHandoverEvent true exampleName 1 7 3 5 1 2 none = some [text] ∧
        ∃ timeMs : ℚ, (parseLine text).bind Event.timeMs = some (.finite timeMs) ∧
          timeMs / 1000 ≠ 1 / second) ∧
      (parseLine (PingpongEvent.text ⟨7, 1, 2, 1⟩)).bind Event.timeMs = none := by
  constructor
  · refine ⟨_, pySendHandoverEvent_eq_some.2 ⟨rfl, by decide +kernel⟩, fixedValue 2 (1 / millisecond), ?_, ?_⟩
    · rw [parse_handoverText (by decide) (by decide) (by decide) (by decide)]
      rfl
    · have hzero : fixedValue 2 (1 / millisecond) = 0 := by decide +kernel
      rw [hzero]
      unfold second
      norm_num
  · rw [parse_pingpongText]
    rfl

end NetSim.Listener
