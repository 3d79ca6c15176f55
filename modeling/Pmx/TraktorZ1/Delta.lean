import Pmx.TraktorZ1

/-!
# What the published deltas carry

A reader of a sequence pod expects a control header in front of every value, and
the router writes one header for all changes of a report.  So the changes come
through exactly when no report moves two controls at once and the sequences fit
their buffers (`received_iff`); the reader can then follow the device
(`replayMessages_messages`).
-/

namespace Pmx.TraktorZ1

open Cxx Osc PodBuilder DeltaEncoding

/-- The messages that are due between two reports. -/
def messages (pair : TraktorZ1Message × TraktorZ1Message) : List OscMessage :=
  (delta Field.all pair.1.get pair.2.get).map fun update => oscMessage (update.1.path, update.2)

theorem mem_messages {pair : TraktorZ1Message × TraktorZ1Message} {message : OscMessage} :
    message ∈ messages pair ↔ ∃ f, pair.1.get f ≠ pair.2.get f ∧
      oscMessage (f.path, pair.2.get f) = message := by
  simp [messages, delta, changed, mem_all]

/-- What a reader decodes from some sequences. -/
def received (sequences : List (List (Item OscMessage))) : List OscMessage :=
  (sequences.flatMap decode).map fun entry => entry.2.2

/-- The control and the value that a message is for. -/
def readMessage (message : OscMessage) : Option (Field × UInt16) :=
  (Field.all.find? fun f => f.path = message.address).bind fun f =>
    match message.args with
    | [.float32 value] => some (f, value.num.toNat.toUInt16)
    | _ => none

/-- The messages replayed on the controls of a report. -/
def replayMessages (first : TraktorZ1Message) (received : List OscMessage) : Field → UInt16 :=
  replay first.get (received.filterMap readMessage)

/-- The report that the next one is compared with. -/
def State.last (state : State) : Option TraktorZ1Message :=
  if state.isInit then none else some state.previous

/-- The pairs of reports that a cycle compares. -/
def comparedPairs (state : State) (input : Cycle) : List (TraktorZ1Message × TraktorZ1Message) :=
  consecutive (state.last.toList ++ input.popped)

/-- The sequence of every cycle fits the buffer of the cycle. -/
def SequencesFit (state : State) : List Cycle → Prop
  | [] => True
  | input :: rest =>
      (∀ maxsize, input.outBuffer = some maxsize →
        GroupsFit maxsize controlOsc OscMessage.size ((comparedPairs state input).map messages)) ∧
      SequencesFit (cycle state input).1 rest

/-! ## One cycle -/

theorem messages_eq (previous message : TraktorZ1Message) :
    messages (previous, message) = ((changes previous message).filterMap id).map oscMessage := by
  rw [filterMap_changes, List.map_map]
  rfl

theorem writeChanges_eq (builder : Builder OscMessage) (previous message : TraktorZ1Message) :
    writeChanges builder (changes previous message) =
      writeAll builder (groupWrites controlOsc OscMessage.size (messages (previous, message))) := by
  rw [messages_eq, writeChanges]
  cases hchanges : (changes previous message).filterMap id with
  | nil =>
      have hnone : (changes previous message).any Option.isSome = false := by
        rw [List.any_eq_false]
        intro change hchange
        have hempty : change = none := List.filterMap_eq_nil_iff.mp hchanges change hchange
        rw [hempty]
        exact Bool.false_ne_true
      rw [hnone]
      rfl
  | cons change rest =>
      have hsome : (changes previous message).any Option.isSome = true := by
        rw [List.any_eq_true]
        have hmem : change ∈ (changes previous message).filterMap id := by
          rw [hchanges]
          exact List.mem_cons_self ..
        obtain ⟨entry, hentry, hchange⟩ := List.mem_filterMap.mp hmem
        exact ⟨entry, hentry, Option.isSome_iff_exists.mpr ⟨change, hchange⟩⟩
      rw [if_pos hsome]
      simp only [groupWrites, writeAll, List.map_cons, List.map_map, List.foldl_cons,
        List.foldl_map, writeControl, writeValue, Function.comp_def]

/-- The loop over the queue compares neighbours and remembers the last report. -/
theorem foldl_handleReport (reports : List TraktorZ1Message) (state : State)
    (builder : Builder OscMessage) :
    (reports.foldl handleReport (state, builder)).1.last =
        (state.last.toList ++ reports).getLast? ∧
      (reports.foldl handleReport (state, builder)).2 =
        writeAll builder (((consecutive (state.last.toList ++ reports)).map messages).flatMap
          (groupWrites controlOsc OscMessage.size)) := by
  induction reports generalizing state builder with
  | nil =>
      cases hinit : state.isInit with
      | true => simp [State.last, hinit, consecutive, writeAll]
      | false => simp [State.last, hinit, consecutive, writeAll]
  | cons message rest ih =>
      rw [List.foldl_cons]
      cases hinit : state.isInit with
      | true =>
          -- the first report is remembered, nothing is compared
          have hstep : handleReport (state, builder) message = (⟨message, false⟩, builder) := by
            simp [handleReport, hinit]
          have hlast : state.last = none := by simp [State.last, hinit]
          rw [hstep, hlast]
          exact ih _ _
      | false =>
          have hstep : handleReport (state, builder) message = (⟨message, false⟩,
              writeAll builder
                (groupWrites controlOsc OscMessage.size (messages (state.previous, message)))) := by
            rw [← writeChanges_eq]
            simp [handleReport, hinit]
          have hlast : state.last = some state.previous := by simp [State.last, hinit]
          obtain ⟨hstate, hbuilder⟩ := ih ⟨message, false⟩
            (writeAll builder
              (groupWrites controlOsc OscMessage.size (messages (state.previous, message))))
          rw [hstep, hlast]
          constructor
          · rw [hstate]
            rfl
          · rw [hbuilder, ← writeAll_append]
            rfl

theorem last_cycle (state : State) (input : Cycle) :
    (cycle state input).1.last = (state.last.toList ++ input.popped).getLast? := by
  have hkept : state.last = (state.last.toList ++ []).getLast? := by
    cases state.last <;> rfl
  unfold cycle Cycle.popped
  by_cases hreports : input.reports = []
  · rw [if_pos hreports, hreports]
    cases input.outBuffer <;> exact hkept
  · rw [if_neg hreports]
    cases input.outBuffer with
    | none => exact hkept
    | some maxsize => exact (foldl_handleReport input.reports state _).1

/-- A cycle pops nothing and publishes nothing, or it publishes the groups of all
pairs that it compares. -/
theorem cycle_cases (state : State) (input : Cycle) :
    ((cycle state input).2 = none ∧ input.popped = []) ∨
      ∃ maxsize, input.outBuffer = some maxsize ∧
        (cycle state input).2 = some (groupItems maxsize controlOsc OscMessage.size
          ((comparedPairs state input).map messages)) := by
  unfold cycle comparedPairs Cycle.popped
  cases hbuffer : input.outBuffer with
  | none =>
      refine Or.inl ⟨?_, rfl⟩
      split <;> rfl
  | some maxsize =>
      by_cases hreports : input.reports = []
      · refine Or.inl ⟨?_, hreports⟩
        rw [if_pos hreports]
      · refine Or.inr ⟨maxsize, rfl, ?_⟩
        rw [if_neg hreports]
        simp only [groupItems, (foldl_handleReport input.reports state _).2]

/-- What one cycle publishes, read back. -/
theorem received_cycle (state : State) (input : Cycle) :
    (received (cycle state input).2.toList).length ≤
        ((comparedPairs state input).flatMap messages).length ∧
      (received (cycle state input).2.toList = (comparedPairs state input).flatMap messages ↔
        (∀ pair ∈ comparedPairs state input, (messages pair).length ≤ 1) ∧
          ∀ maxsize, input.outBuffer = some maxsize →
            GroupsFit maxsize controlOsc OscMessage.size
              ((comparedPairs state input).map messages)) := by
  rcases cycle_cases state input with ⟨hquiet, hpopped⟩ | ⟨maxsize, hbuffer, hitems⟩
  · have hnothing : comparedPairs state input = [] := by
      rw [comparedPairs, hpopped]
      cases state.last <;> rfl
    rw [hnothing, hquiet]
    simp [received, GroupsFit]
  · have hreceived : received (cycle state input).2.toList =
        (decode (groupItems maxsize controlOsc OscMessage.size
          ((comparedPairs state input).map messages))).map fun entry => entry.2.2 := by
      simp [received, hitems]
    rw [hreceived, hbuffer, List.flatMap_def]
    constructor
    · rw [List.length_map]
      exact length_decode_groupItems_le maxsize _
    · rw [values_decode_groupItems_iff, List.forall_mem_map]
      refine and_congr_right fun _ => ?_
      constructor
      · intro hfit size hsize
        cases hsize
        exact hfit
      · intro hfit
        exact hfit maxsize rfl

/-! ## Runs -/

/-- The pairs that a run compares are the neighbours among the popped reports. -/
theorem comparedPairs_append (state : State) (input : Cycle) (rest : List Cycle) :
    consecutive (state.last.toList ++ popped (input :: rest)) =
      comparedPairs state input ++
        consecutive ((cycle state input).1.last.toList ++ popped rest) := by
  rw [last_cycle, comparedPairs, ← consecutive_append, List.append_assoc]
  rfl

theorem reportMessages_eq (reports : List TraktorZ1Message) (state : State) :
    reportMessages state reports =
      (consecutive (state.last.toList ++ reports)).flatMap messages := by
  induction reports generalizing state with
  | nil => cases hinit : state.isInit <;> simp [reportMessages, State.last, hinit, consecutive]
  | cons message rest ih =>
      rw [reportMessages, ih]
      cases hinit : state.isInit with
      | true => simp [State.last, hinit]
      | false =>
          rw [← messages_eq]
          simp [State.last, hinit, consecutive]

/-- Written are the messages that are due between neighbouring reports. -/
theorem written_eq (cycles : List Cycle) (state : State) :
    written state cycles = (consecutive (state.last.toList ++ popped cycles)).flatMap messages := by
  induction cycles generalizing state with
  | nil => cases hlast : state.last <;> simp [written, popped, consecutive]
  | cons input rest ih =>
      rw [written, reportMessages_eq, ih, comparedPairs_append, List.flatMap_append]
      rfl

/-- Of two parts that are each not too long, neither can make up for what the other
one lacks. -/
theorem append_eq_append_iff_of_le {α : Type} {d D e E : List α} (hd : d.length ≤ e.length)
    (hD : D.length ≤ E.length) : d ++ D = e ++ E ↔ d = e ∧ D = E := by
  constructor
  · intro h
    have htotal := congrArg List.length h
    rw [List.length_append, List.length_append] at htotal
    exact List.append_inj h (by omega)
  · rintro ⟨rfl, rfl⟩
    rfl

/-- **A run, read back from any state.** -/
theorem received_run (cycles : List Cycle) (state : State) :
    (received (published state cycles)).length ≤
        ((consecutive (state.last.toList ++ popped cycles)).flatMap messages).length ∧
      (received (published state cycles) =
          (consecutive (state.last.toList ++ popped cycles)).flatMap messages ↔
        (∀ pair ∈ consecutive (state.last.toList ++ popped cycles), (messages pair).length ≤ 1) ∧
          SequencesFit state cycles) := by
  induction cycles generalizing state with
  | nil =>
      have hnone : consecutive (state.last.toList ++ popped []) = [] := by
        cases state.last <;> rfl
      rw [hnone]
      simp [received, published, SequencesFit]
  | cons input rest ih =>
      obtain ⟨hlength, hcycle⟩ := received_cycle state input
      obtain ⟨hrestLength, hrest⟩ := ih (cycle state input).1
      have happend : received (published state (input :: rest)) =
          received (cycle state input).2.toList ++
            received (published (cycle state input).1 rest) := by
        simp [received, published]
      rw [comparedPairs_append, List.flatMap_append, happend]
      constructor
      · rw [List.length_append, List.length_append]
        exact Nat.add_le_add hlength hrestLength
      · rw [append_eq_append_iff_of_le hlength hrestLength, hcycle, hrest, SequencesFit]
        simp only [List.mem_append, or_imp, forall_and]
        tauto

/-! ## Replaying -/

theorem readMessage_oscMessage (f : Field) (value : UInt16) :
    readMessage (oscMessage (f.path, value)) = some (f, value) := by
  have hfind : Field.all.find? (fun g => g.path = f.path) = some f := by
    cases f <;> decide
  show (Field.all.find? fun g => g.path = f.path).bind _ = _
  rw [hfind]
  show some (f, ((value.toNat : ℚ).num.toNat).toUInt16) = some (f, value)
  rw [Rat.num_natCast, Int.toNat_natCast]
  simp

theorem replayMessages_messages (first : TraktorZ1Message) (rest : List TraktorZ1Message) :
    replayMessages first ((consecutive (first :: rest)).flatMap messages) =
      ((first :: rest).getLast (List.cons_ne_nil _ _)).get := by
  have hread : ((consecutive (first :: rest)).flatMap messages).filterMap readMessage =
      deltas Field.all ((first :: rest).map TraktorZ1Message.get) := by
    rw [deltas, consecutive_map, List.flatMap_map, List.filterMap_flatMap]
    refine List.flatMap_congr fun pair _ => ?_
    rw [messages, List.filterMap_map]
    have hid : (readMessage ∘ fun update : Field × UInt16 =>
        oscMessage (update.1.path, update.2)) = some := by
      funext update
      exact readMessage_oscMessage update.1 update.2
    rw [hid, List.filterMap_some]
  rw [replayMessages, hread, List.map_cons, replay_deltas mem_all]
  exact List.getLast_map (f := TraktorZ1Message.get) (l := first :: rest) (by simp)

/-- **Delta encoding.**  A reader gets one message for every control that has
moved between neighbouring reports, and with these arrives at the last report,
exactly when no two controls move at once and all sequences fit. -/
theorem delta_lossless_iff (cycles : List Cycle) :
    (received (published initial cycles) = (consecutive (popped cycles)).flatMap messages ∧
      ∀ first rest, popped cycles = first :: rest →
        replayMessages first (received (published initial cycles)) =
          ((first :: rest).getLast (List.cons_ne_nil _ _)).get) ↔
      (∀ pair ∈ consecutive (popped cycles),
        (changed Field.all pair.1.get pair.2.get).length ≤ 1) ∧ SequencesFit initial cycles := by
  have hmessages : ∀ pair, (messages pair).length =
      (changed Field.all pair.1.get pair.2.get).length := by
    intro pair
    rw [messages, delta, List.length_map, List.length_map]
  have hrun := (received_run cycles initial).2
  rw [show initial.last.toList ++ popped cycles = popped cycles from rfl] at hrun
  simp only [hmessages] at hrun
  constructor
  · rintro ⟨hreceived, _⟩
    exact hrun.mp hreceived
  · intro hcondition
    have hreceived := hrun.mpr hcondition
    refine ⟨hreceived, ?_⟩
    intro first rest hpopped
    rw [hreceived, hpopped]
    exact replayMessages_messages first rest

/-- Two controls that move between two reports. -/
theorem two_controls_at_once :
    ¬ (received (published initial
          [⟨some 4096, [initial.previous, { initial.previous with gainL := 1, hiL := 1 }]⟩]) =
        (consecutive [initial.previous, { initial.previous with gainL := 1, hiL := 1 }]).flatMap
          messages) := by
  intro hreceived
  have hsingle := ((received_run
    [⟨some 4096, [initial.previous, { initial.previous with gainL := 1, hiL := 1 }]⟩]
    initial).2.mp hreceived).1
  exact absurd (hsingle _ (List.mem_cons_self ..)) (by decide)

end Pmx.TraktorZ1
