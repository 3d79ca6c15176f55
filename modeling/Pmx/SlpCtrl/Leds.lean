import Pmx.SlpCtrl

/-!
# Pad LEDs

A pad shows the state of its loop by the last note message that it has been
sent.  The signal processor sends one in every cycle, if the state is one of the
five that have a colour.  In the other states the pad goes on showing an older
state, so that what it shows is no function of the state reported last.

The notes share a sequence with the bar LEDs and the set-up of the mixer, and none of
it comes out if the whole does not fit.  Where every cycle has room for the whole and
leaves the loops in states with a colour, the pads show what has been reported last
(`led_of_reported`).
-/

namespace Pmx.SlpCtrl

open Cxx Osc PodBuilder Ump

/-! ## What is reported -/

/-- The report of a packet: the index of a loop, and its state. -/
def reportOf (packet : Packet) : Option (Int32 × State) :=
  match packet.arguments with
  | .ok (loopIndex, parameterName, value) =>
      if packet.address = lit "/sl/loops" ∧ parameterName = lit "state" then
        some (loopIndex, translateState value)
      else none
  | .error _ => none

def packetsOf (buffer : Option OscBuffer) : List Packet :=
  buffer.elim [] OscBuffer.packets

/-- The reports of some cycles, oldest first. -/
def reports (cycles : List Cycle) : List (Int32 × State) :=
  cycles.flatMap fun input => (packetsOf input.slOsc).filterMap reportOf

/-- The last report for a loop. -/
def lastReport (loopIndex : Fin 8) (reports : List (Int32 × State)) : Option State :=
  reports.reverse.findSome? fun report =>
    if report.1.toInt = (loopIndex.val : ℤ) then some report.2 else none

/-- The state of a loop by the reports. -/
def reportedState (loopIndex : Fin 8) (cycles : List Cycle) : State :=
  (lastReport loopIndex (reports cycles)).getD .off

/-! ## What is shown -/

/-- A note message for a pad: a channel message with the status note off or note
on. -/
def isNote (pad : ℕ) : UmpMessage → Bool
  | [message] =>
      message.toNat / 2 ^ 28 = 2 && (message.toNat / 2 ^ 20 % 16 = 8 ||
        message.toNat / 2 ^ 20 % 16 = 9) && message.toNat / 2 ^ 8 % 256 = pad
  | _ => false

/-- The messages for the Launchpad that come out of a cycle. -/
def Output.umpMessages (output : Output) : List UmpMessage :=
  output.lpMini.elim [] values

/-- The LED of the pad of a loop: the last note for it. -/
def led (loopIndex : Fin 8) (outputs : List Output) : Option UmpMessage :=
  (outputs.flatMap Output.umpMessages).reverse.find? (isNote (81 + loopIndex.val))

/-- The note for a loop in some state. -/
def noteFor (loopIndex : Fin 8) (state : State) : Option UmpMessage :=
  (colour state).map fun entry => padMessage loopIndex entry.1 entry.2

/-- The message of the Launchpad that asks for the mixer mode. -/
def mixerControl : Control :=
  ⟨controlUmp, .length8 1085298944 0⟩

/-- The bytes that the messages for the Launchpad take: the header, eight pads and eight
bars, and the set-up of the mixer in a cycle that asks for it. -/
def lpMiniBytes (input : Cycle) : ℕ :=
  400 + if (input.lpMini.getD []).any (· = mixerControl) then 216 else 0

/-- How many of the loops are in states with a colour. -/
def colouredLoops (loopers : Fin 8 → State) : ℕ :=
  (List.finRange 8).countP fun loopIndex => (colour (loopers loopIndex)).isSome

/-- The bytes that the messages take with the loops in some states: the others have no
message. -/
def neededBytes (loopers : Fin 8 → State) (input : Cycle) : ℕ :=
  208 + 24 * colouredLoops loopers +
    if (input.lpMini.getD []).any (· = mixerControl) then 216 else 0

/-- The cycle has room for all messages for the Launchpad, and the last report for a
loop that it reads, if there is one, is of a state with a colour. -/
structure Shown (input : Cycle) : Prop where
  room : ∃ maxsize, input.lpMiniOut = some maxsize ∧ lpMiniBytes input ≤ maxsize
  coloured : ∀ loopIndex state, lastReport loopIndex (reports [input]) = some state →
    (colour state).isSome

/-! ## Reports and states -/

theorem lastReport_append (loopIndex : Fin 8) (first second : List (Int32 × State)) :
    lastReport loopIndex (first ++ second) =
      (lastReport loopIndex second).or (lastReport loopIndex first) := by
  rw [lastReport, List.reverse_append, List.findSome?_append]
  rfl

/-- The update for a report. -/
def update (report : Int32 × State) : StateUpdate :=
  ⟨report.1.toUInt32, report.2⟩

theorem handlePacket_updates {current next : ℚ × List StateUpdate} {packet : Packet}
    (h : handlePacket current packet = .ok next) :
    next.2 = current.2 ++ ((reportOf packet).map update).toList := by
  unfold handlePacket at h
  split at h
  · rename_i haddress
    obtain ⟨⟨loopIndex, parameterName, value⟩, harguments, hnext⟩ := bind_eq_ok.mp h
    have hother : lit "/sl/global" ≠ lit "/sl/loops" := by decide
    have hnone : reportOf packet = none := by simp [reportOf, harguments, haddress, hother]
    rw [hnone, Option.map_none, Option.toList_none, List.append_nil]
    dsimp only at hnext
    split at hnext <;> cases hnext <;> rfl
  · split at h
    · rename_i haddress
      obtain ⟨⟨loopIndex, parameterName, value⟩, harguments, hnext⟩ := bind_eq_ok.mp h
      dsimp only at hnext
      split at hnext
      · rename_i hname
        cases hnext
        simp [reportOf, harguments, haddress, hname, update]
      · rename_i hname
        cases hnext
        simp [reportOf, harguments, hname]
    · rename_i haddress
      cases h
      cases harguments : packet.arguments <;> simp [reportOf, harguments, haddress]

theorem foldlM_handlePacket_updates {packets : List Packet} {current next : ℚ × List StateUpdate}
    (h : packets.foldlM handlePacket current = .ok next) :
    next.2 = current.2 ++ (packets.filterMap reportOf).map update := by
  induction packets generalizing current with
  | nil =>
      cases h
      exact (List.append_nil _).symm
  | cons packet rest ih =>
      rw [List.foldlM_cons] at h
      obtain ⟨middle, hpacket, hrest⟩ := bind_eq_ok.mp h
      rw [ih hrest, handlePacket_updates hpacket, List.append_assoc]
      cases hreport : reportOf packet with
      | none => rw [List.filterMap_cons_none hreport]; rfl
      | some report => rw [List.filterMap_cons_some hreport]; rfl

/-- An index below eight is the same number with and without a sign. -/
theorem index_eq_iff (index : Int32) (loopIndex : Fin 8) :
    index.toUInt32.toNat = loopIndex.val ↔ index.toInt = (loopIndex.val : ℤ) := by
  have hsigned : index.toInt = if 2 * index.toUInt32.toNat < 2 ^ 32 then
      (index.toUInt32.toNat : ℤ) else index.toUInt32.toNat - (2 ^ 32 : ℕ) :=
    BitVec.toInt_eq_toNat_cond index.toBitVec
  have := index.toUInt32.toNat_lt
  rw [hsigned]
  split <;> omega

theorem applyUpdate_update (loopers : Fin 8 → State) (report : Int32 × State)
    (loopIndex : Fin 8) :
    applyUpdate loopers (update report) loopIndex =
      if report.1.toInt = (loopIndex.val : ℤ) then report.2 else loopers loopIndex := by
  unfold applyUpdate
  rw [← if_congr (index_eq_iff report.1 loopIndex) rfl rfl]
  split
  · rw [Function.update_apply]
    exact if_congr (by rw [Fin.ext_iff, eq_comm]; rfl) rfl rfl
  · rename_i houtside
    have hne : report.1.toUInt32.toNat ≠ loopIndex.val := fun heq =>
      houtside (heq.trans_lt loopIndex.isLt)
    exact (if_neg hne).symm

/-- The table of the loops holds the last report of each. -/
theorem foldl_applyUpdate (reports : List (Int32 × State)) (loopers : Fin 8 → State)
    (loopIndex : Fin 8) :
    (reports.map update).foldl applyUpdate loopers loopIndex =
      (lastReport loopIndex reports).getD (loopers loopIndex) := by
  induction reports generalizing loopers with
  | nil => rfl
  | cons report rest ih =>
      rw [List.map_cons, List.foldl_cons, ih, applyUpdate_update, ← List.singleton_append,
        lastReport_append]
      cases lastReport loopIndex rest with
      | some state => rfl
      | none =>
          by_cases hindex : report.1.toInt = (loopIndex.val : ℤ) <;> simp [lastReport, hindex]

/-- The loops after a cycle. -/
theorem loopers_of_cycle {memory memory' : Memory} {input : Cycle} {output : Output}
    (h : cycle memory input = .ok (memory', output)) (loopIndex : Fin 8) :
    memory'.groupChannelLoopers loopIndex =
      (lastReport loopIndex (reports [input])).getD (memory.groupChannelLoopers loopIndex) := by
  obtain ⟨⟨read, hread, hloopers⟩, _⟩ := cycle_of_ok h
  rw [hloopers]
  have hreports : reports [input] = (packetsOf input.slOsc).filterMap reportOf := by
    simp [reports]
  rw [hreports]
  cases hbuffer : input.slOsc with
  | none =>
      rw [hbuffer] at hread
      cases hread
      rfl
  | some buffer =>
      rw [hbuffer] at hread
      obtain ⟨⟨known, updates⟩, hpackets, hmemory⟩ := bind_eq_ok.mp hread
      cases hmemory
      have hupdates := foldlM_handlePacket_updates hpackets
      rw [← foldl_applyUpdate]
      exact congrArg (fun updates => List.foldl applyUpdate memory.groupChannelLoopers updates
        loopIndex) hupdates

/-- The loops after some cycles. -/
theorem loopers_of_run {memory memory' : Memory} {cycles : List Cycle} {outputs : List Output}
    (h : run memory cycles = .ok (memory', outputs)) (loopIndex : Fin 8) :
    memory'.groupChannelLoopers loopIndex =
      (lastReport loopIndex (reports cycles)).getD (memory.groupChannelLoopers loopIndex) := by
  induction cycles generalizing memory outputs with
  | nil =>
      cases h
      rfl
  | cons input rest ih =>
      obtain ⟨memory₁, output, later, hcycle, hrun, rfl⟩ := run_cons_of_ok h
      have hsplit : lastReport loopIndex (reports (input :: rest)) =
          (lastReport loopIndex (reports rest)).or (lastReport loopIndex (reports [input])) := by
        rw [← lastReport_append, reports, reports, reports, ← List.flatMap_append]
        rfl
      calc memory'.groupChannelLoopers loopIndex
          = (lastReport loopIndex (reports rest)).getD (memory₁.groupChannelLoopers loopIndex) :=
            ih hrun
        _ = (lastReport loopIndex (reports rest)).getD
              ((lastReport loopIndex (reports [input])).getD
                (memory.groupChannelLoopers loopIndex)) := by rw [loopers_of_cycle hcycle]
        _ = (lastReport loopIndex (reports (input :: rest))).getD
              (memory.groupChannelLoopers loopIndex) := by
            rw [hsplit]
            cases lastReport loopIndex (reports rest) <;> rfl

/-! ## One output -/

theorem isNote_padMessage {state : State} {entry : UInt32 × UInt32} (h : colour state = some entry)
    (loopIndex other : Fin 8) :
    isNote (81 + loopIndex.val) (padMessage other entry.1 entry.2) = true ↔ other = loopIndex := by
  cases state <;> cases h <;> revert loopIndex other <;> decide

theorem isNote_barMessages (loopIndex : Fin 8) (ppmCount : UInt64) :
    ∀ message ∈ barMessages ppmCount, isNote (81 + loopIndex.val) message = false := by
  have hall : ∀ loopIndex : Fin 8, ∀ entry ∈ barToCcMapping.zipIdx,
      isNote (81 + loopIndex.val) (barMessage entry.1 49) = false ∧
        isNote (81 + loopIndex.val) (barMessage entry.1 33) = false := by
    decide
  intro message hmem
  obtain ⟨entry, hentry, rfl⟩ := List.mem_map.mp hmem
  split
  · exact (hall loopIndex entry hentry).1
  · exact (hall loopIndex entry hentry).2

theorem isNote_mixerMessages (loopIndex : Fin 8) :
    ∀ message ∈ mixerMessages, isNote (81 + loopIndex.val) message = false := by
  revert loopIndex
  decide

/-- A message of one word takes 24 bytes. -/
theorem framedBytes_of_words {messages : List UmpMessage}
    (hwords : ∀ message ∈ messages, message.length = 1) :
    framedBytes UmpMessage.size messages = 24 * messages.length := by
  induction messages with
  | nil => rfl
  | cons message rest ih =>
      rw [List.forall_mem_cons] at hwords
      have hpod : podSize (4 * 1) = 16 := by decide
      rw [framedBytes_cons, ih hwords.2, UmpMessage.size, hwords.1, hpod, List.length_cons]
      omega

theorem framedBytes_padMessages (loopers : Fin 8 → State) :
    framedBytes UmpMessage.size (padMessages loopers) = 24 * colouredLoops loopers := by
  rw [framedBytes_of_words]
  · rw [padMessages, List.length_filterMap_eq_countP, colouredLoops]
    simp only [Option.isSome_map]
  · intro message hmem
    obtain ⟨loopIndex, _, hmessage⟩ := List.mem_filterMap.mp hmem
    obtain ⟨entry, _, rfl⟩ := Option.map_eq_some_iff.mp hmessage
    rfl

theorem framedBytes_barMessages (ppmCount : UInt64) :
    framedBytes UmpMessage.size (barMessages ppmCount) = 192 := by
  rw [framedBytes_of_words]
  · simp [barMessages, barToCcMapping]
  · intro message hmem
    obtain ⟨entry, _, rfl⟩ := List.mem_map.mp hmem
    rfl

theorem framedBytes_mixerMessages : framedBytes UmpMessage.size mixerMessages = 216 := by
  decide

theorem switchToMixerMode_handleLpMini (presses : Presses) (control : Control) :
    (handleLpMini presses control).switchToMixerMode =
      (presses.switchToMixerMode || decide (control = mixerControl)) := by
  have hpad : loopCtrlPresses.lookup 1085298944 = none := rfl
  obtain ⟨type, body⟩ := control
  unfold handleLpMini
  by_cases htype : type = controlUmp
  · subst htype
    cases body with
    | length8 first second =>
        by_cases hsecond : second = 0
        · by_cases hfirst : first = 1085298944
          · simp [hsecond, hfirst, hpad, mixerControl]
          · simp only [ne_eq, not_true_eq_false, ↓reduceIte, hsecond, hfirst, mixerControl,
              Control.mk.injEq, Body.length8.injEq, and_true, and_false, decide_false,
              Bool.or_false]
            split <;> rfl
        · simp [hsecond, mixerControl]
    | length4 message => simp [mixerControl]
    | other => simp [mixerControl]
  · simp [htype, mixerControl]

/-- The mixer mode is switched to if a message asks for it. -/
theorem switchToMixerMode_readLpMini (controls : Option (List Control)) :
    (readLpMini controls).switchToMixerMode = (controls.getD []).any (· = mixerControl) := by
  have hall : ∀ (controls : List Control) (presses : Presses),
      (controls.foldl handleLpMini presses).switchToMixerMode =
        (presses.switchToMixerMode || controls.any (· = mixerControl)) := by
    intro controls
    induction controls with
    | nil => exact fun presses => (Bool.or_false _).symm
    | cons control rest ih =>
        intro presses
        rw [List.foldl_cons, ih, switchToMixerMode_handleLpMini, List.any_cons, Bool.or_assoc]
  exact hall _ _

/-- The bytes of the messages of a cycle for the Launchpad. -/
theorem framedBytes_lpMiniMessages (memory : Memory) (input : Cycle) :
    16 + framedBytes UmpMessage.size (lpMiniMessages memory (readLpMini input.lpMini)) =
      neededBytes memory.groupChannelLoopers input := by
  rw [lpMiniMessages, framedBytes_append, framedBytes_append, framedBytes_padMessages,
    framedBytes_barMessages, switchToMixerMode_readLpMini, neededBytes]
  split
  · rw [framedBytes_mixerMessages]
    omega
  · rw [framedBytes_nil]
    omega

/-- **Room.**  It is enough for eight pads. -/
theorem neededBytes_le (loopers : Fin 8 → State) (input : Cycle) :
    neededBytes loopers input ≤ lpMiniBytes input := by
  have hloops : colouredLoops loopers ≤ 8 :=
    List.countP_le_length.trans_eq List.length_finRange
  rw [neededBytes, lpMiniBytes]
  omega

/-- The only entry that passes a test is found. -/
theorem find?_eq_of_unique {α : Type} {p : α → Bool} {a : α} {entries : List α}
    (hmem : a ∈ entries) (ha : p a = true) (hunique : ∀ b ∈ entries, p b = true → b = a) :
    entries.find? p = some a := by
  cases hfind : entries.find? p with
  | none => exact absurd ha (List.find?_eq_none.mp hfind a hmem)
  | some b => rw [hunique b (List.mem_of_find?_eq_some hfind) (List.find?_some hfind)]

/-- In the messages of a cycle there is one note for each pad with a colour. -/
theorem find?_note {memory : Memory} (presses : Presses) {loopIndex : Fin 8}
    (hcoloured : (colour (memory.groupChannelLoopers loopIndex)).isSome) :
    (lpMiniMessages memory presses).reverse.find? (isNote (81 + loopIndex.val)) =
      noteFor loopIndex (memory.groupChannelLoopers loopIndex) := by
  obtain ⟨entry, hentry⟩ := Option.isSome_iff_exists.mp hcoloured
  have hnote : padMessage loopIndex entry.1 entry.2 ∈ padMessages memory.groupChannelLoopers :=
    List.mem_filterMap.mpr ⟨loopIndex, List.mem_finRange _, by rw [hentry]; rfl⟩
  rw [noteFor, hentry]
  refine find?_eq_of_unique (List.mem_reverse.mpr ?_) ((isNote_padMessage hentry ..).mpr rfl) ?_
  · exact List.mem_append_left _ (List.mem_append_left _ hnote)
  · intro message hmem hisNote
    rcases List.mem_append.mp (List.mem_reverse.mp hmem) with hfirst | hmixer
    · rcases List.mem_append.mp hfirst with hpad | hbar
      · obtain ⟨other, _, hmessage⟩ := List.mem_filterMap.mp hpad
        obtain ⟨otherEntry, hother, rfl⟩ := Option.map_eq_some_iff.mp hmessage
        obtain rfl := (isNote_padMessage hother ..).mp hisNote
        rw [hentry] at hother
        cases hother
        rfl
      · rw [isNote_barMessages loopIndex _ message hbar] at hisNote
        cases hisNote
    · split at hmixer
      · rw [isNote_mixerMessages loopIndex message hmixer] at hisNote
        cases hisNote
      · cases hmixer

/-! ## Runs -/

/-- With room for them, all messages come out, and otherwise none. -/
theorem umpMessages_of_cycle {memory memory' : Memory} {input : Cycle} {output : Output}
    {maxsize : ℕ} (hcycle : cycle memory input = .ok (memory', output))
    (hout : input.lpMiniOut = some maxsize) :
    output.umpMessages = if neededBytes memory'.groupChannelLoopers input ≤ maxsize then
      lpMiniMessages memory' (readLpMini input.lpMini) else [] := by
  obtain ⟨_, _, houtput⟩ := cycle_of_ok hcycle
  rw [Output.umpMessages, houtput, hout, ← framedBytes_lpMiniMessages]
  exact values_sequence ..

theorem led_singleton {memory memory' : Memory} {input : Cycle} {output : Output}
    (hcycle : cycle memory input = .ok (memory', output)) (hshown : Shown input)
    {loopIndex : Fin 8} (hcoloured : (colour (memory'.groupChannelLoopers loopIndex)).isSome) :
    led loopIndex [output] = noteFor loopIndex (memory'.groupChannelLoopers loopIndex) := by
  obtain ⟨maxsize, hout, hroom⟩ := hshown.room
  rw [led, List.flatMap_singleton, umpMessages_of_cycle hcycle hout,
    if_pos ((neededBytes_le _ input).trans hroom)]
  exact find?_note _ hcoloured

theorem led_append (loopIndex : Fin 8) (first second : List Output) :
    led loopIndex (first ++ second) = (led loopIndex second).or (led loopIndex first) := by
  rw [led, List.flatMap_append, List.reverse_append, List.find?_append]
  rfl

/-- A cycle that reports only states with a colour leaves all loops in such states. -/
theorem coloured_of_cycle {memory memory' : Memory} {input : Cycle} {output : Output}
    (hcycle : cycle memory input = .ok (memory', output)) (hshown : Shown input)
    (hcoloured : ∀ loopIndex, (colour (memory.groupChannelLoopers loopIndex)).isSome)
    (loopIndex : Fin 8) : (colour (memory'.groupChannelLoopers loopIndex)).isSome := by
  rw [loopers_of_cycle hcycle]
  cases hreport : lastReport loopIndex (reports [input]) with
  | none => exact hcoloured loopIndex
  | some state => exact hshown.coloured loopIndex state hreport

/-- After some cycles every pad shows its loop as it is in the memory. -/
theorem led_of_run {memory memory' : Memory} {cycles : List Cycle} {outputs : List Output}
    (hcoloured : ∀ loopIndex, (colour (memory.groupChannelLoopers loopIndex)).isSome)
    (hshown : ∀ input ∈ cycles, Shown input)
    (hrun : run memory cycles = .ok (memory', outputs)) :
    (∀ loopIndex, (colour (memory'.groupChannelLoopers loopIndex)).isSome) ∧
      (cycles ≠ [] → ∀ loopIndex,
        led loopIndex outputs = noteFor loopIndex (memory'.groupChannelLoopers loopIndex)) := by
  induction cycles generalizing memory outputs with
  | nil =>
      cases hrun
      exact ⟨hcoloured, fun hne => absurd rfl hne⟩
  | cons input rest ih =>
      rw [List.forall_mem_cons] at hshown
      obtain ⟨memory₁, output, outputs, hcycle, hlater, rfl⟩ := run_cons_of_ok hrun
      have hmiddle := coloured_of_cycle hcycle hshown.1 hcoloured
      obtain ⟨hfinal, hleds⟩ := ih hmiddle hshown.2 hlater
      refine ⟨hfinal, fun _ loopIndex => ?_⟩
      rw [← List.singleton_append, led_append]
      cases rest with
      | nil =>
          cases hlater
          exact led_singleton hcycle hshown.1 (hmiddle loopIndex)
      | cons next later =>
          -- a later note covers the older ones
          rw [hleds (List.cons_ne_nil _ _) loopIndex]
          obtain ⟨entry, hentry⟩ := Option.isSome_iff_exists.mp (hfinal loopIndex)
          rw [noteFor, hentry]
          rfl

/-- A run from the start whose cycles have room for the notes and report only
states with a colour. -/
structure ShownRun (cycles : List Cycle) (outputs : List Output) : Prop where
  ne_nil : cycles ≠ []
  shown : ∀ input ∈ cycles, Shown input
  run : ∃ memory, run initial cycles = .ok (memory, outputs)

theorem led_of_shownRun {cycles : List Cycle} {outputs : List Output}
    (h : ShownRun cycles outputs) (loopIndex : Fin 8) :
    led loopIndex outputs = noteFor loopIndex (reportedState loopIndex cycles) := by
  obtain ⟨hne, hshown, memory, hrun⟩ := h
  calc led loopIndex outputs
      = noteFor loopIndex (memory.groupChannelLoopers loopIndex) :=
        (led_of_run (fun _ => rfl) hshown hrun).2 hne loopIndex
    _ = noteFor loopIndex (reportedState loopIndex cycles) :=
        congrArg (noteFor loopIndex) (loopers_of_run hrun loopIndex)

/-- **Pad LEDs.**  In such a run every pad shows the state reported last, and two
such runs with the same states reported last leave the same LEDs. -/
theorem led_of_reported {cycles : List Cycle} {outputs : List Output}
    (h : ShownRun cycles outputs) :
    (∀ loopIndex, led loopIndex outputs = noteFor loopIndex (reportedState loopIndex cycles)) ∧
      ∀ cycles' outputs', ShownRun cycles' outputs' →
        (∀ loopIndex, reportedState loopIndex cycles = reportedState loopIndex cycles') →
          ∀ loopIndex, led loopIndex outputs = led loopIndex outputs' := by
  refine ⟨led_of_shownRun h, ?_⟩
  intro cycles' outputs' h' hsame loopIndex
  calc led loopIndex outputs
      = noteFor loopIndex (reportedState loopIndex cycles) := led_of_shownRun h loopIndex
    _ = noteFor loopIndex (reportedState loopIndex cycles') := by rw [hsame]
    _ = led loopIndex outputs' := (led_of_shownRun h' loopIndex).symm

/-- A cycle that reports a state of the first loop. -/
def reportCycle (value : ℚ) : Cycle :=
  ⟨some (.ok ((Vector.replicate 16 none).set 0
      (some ⟨lit "/sl/loops", .ok (0, lit "state", value)⟩))),
    none, none, some 4096, some 4096⟩

theorem reports_reportCycle (value : ℚ) :
    reports [reportCycle value] = [(0, translateState value)] := rfl

theorem shown_reportCycles {values : List ℚ}
    (hcoloured : ∀ value ∈ values, (colour (translateState value)).isSome) :
    ∀ input ∈ values.map reportCycle, Shown input := by
  intro input hmem
  obtain ⟨value, hvalue, rfl⟩ := List.mem_map.mp hmem
  refine ⟨⟨4096, rfl, Nat.le_of_ble_eq_true rfl⟩, fun loopIndex state hreport => ?_⟩
  rw [reports_reportCycle, lastReport, List.reverse_singleton, List.findSome?_cons] at hreport
  split at hreport
  · rename_i found hfound
    split_ifs at hfound
    cases hreport
    cases hfound
    exact hcoloured value hvalue
  · cases hreport

/-- The first loop is playing, recorded in one run and started late in the other. -/
theorem led_of_reported_recorded :
    ∃ outputs outputs', ShownRun ([1, 2, 3, 4].map reportCycle) outputs ∧
      ShownRun ([4, 0, 4].map reportCycle) outputs' ∧
      led 0 outputs = noteFor 0 .playing ∧ led 7 outputs = noteFor 7 .off ∧
        ∀ loopIndex, led loopIndex outputs = led loopIndex outputs' := by
  obtain ⟨⟨memory, outputs⟩, hrun⟩ : ∃ result,
      run initial ([1, 2, 3, 4].map reportCycle) = .ok result := ⟨_, rfl⟩
  obtain ⟨⟨memory', outputs'⟩, hrun'⟩ : ∃ result,
      run initial ([4, 0, 4].map reportCycle) = .ok result := ⟨_, rfl⟩
  have hshown : ShownRun ([1, 2, 3, 4].map reportCycle) outputs :=
    ⟨List.cons_ne_nil _ _, shown_reportCycles (by decide), memory, hrun⟩
  have hshown' : ShownRun ([4, 0, 4].map reportCycle) outputs' :=
    ⟨List.cons_ne_nil _ _, shown_reportCycles (by decide), memory', hrun'⟩
  obtain ⟨hreported, htwo⟩ := led_of_reported hshown
  exact ⟨outputs, outputs', hshown, hshown', hreported 0, hreported 7,
    htwo _ _ hshown' (by decide)⟩

/-- A loop is muted after recording in one run and after playing in another. -/
theorem muted_leds_differ :
    ¬ ∃ shown : Fin 8 → State → Option UmpMessage, ∀ cycles memory outputs, cycles ≠ [] →
      (∀ input ∈ cycles, input.slOscOut = some 4096 ∧ input.lpMiniOut = some 4096) →
        run initial cycles = .ok (memory, outputs) → ∀ loopIndex,
          led loopIndex outputs = shown loopIndex (reportedState loopIndex cycles) := by
  rintro ⟨shown, h⟩
  have hrecorded := h [reportCycle 2, reportCycle 10] _ _ (List.cons_ne_nil _ _)
    (by simp [reportCycle]) rfl 0
  have hplayed := h [reportCycle 4, reportCycle 10] _ _ (List.cons_ne_nil _ _)
    (by simp [reportCycle]) rfl 0
  have hsame : reportedState 0 [reportCycle 2, reportCycle 10] =
      reportedState 0 [reportCycle 4, reportCycle 10] := by decide
  rw [hsame, ← hplayed] at hrecorded
  revert hrecorded
  decide

end Pmx.SlpCtrl
