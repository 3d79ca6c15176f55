import Pmx.CtrlPipe
import Pmx.LpMiniInit
import Pmx.MidiRouter
import Pmx.SlpCtrl

/-!
# The buffers of the signal processors

The signal processors of the router, of the looper's controller and of the Launchpad's
set-up, with what they do with their buffers.  Each computes what its model without
buffers computes (`result_signalProcessor`).  The router and the set-up give back every
buffer of a cycle.

The controller gives back its OSC input buffer behind the packets, and an argument
that cannot be read raises an exception on the way there.
-/

namespace Pmx

open BufferUse Cxx
open CtrlPipe (Port Pod)

/-! ## pmx-midi-router -/

namespace MidiRouter

/-- The signal processor.  `get_midi_messages` gives back the buffer of its port. -/
def signalProcessor (state : RouterState) (buffers : Buffers) : Use Port Fault Result := do
  match ← getBuffer (.output 0) (if buffers.outBuffer then some () else none) with
  -- the input ports are not even asked for
  | none => return ⟨state, false, []⟩
  | some _ =>
      let group ← useBuffer (.input 1) buffers.groupChannels fun buffer =>
        return groupChannels state buffer
      let mix ← useBuffer (.input 2) buffers.inputChannelsMix fun buffer =>
        return inputChannelsMix group.state buffer
      let routed ← useBuffer (.input 0) buffers.inputChannels fun buffer =>
        return inputChannels mix.state buffer
      finish (.output 0)
      return ⟨mix.state, group.changes || mix.changes, group.routed ++ mix.routed ++ routed⟩

/-- A cycle from the state of the previous one. -/
def bufferStep (state : RouterState) (buffers : Buffers) :
    Use Port Fault (RouterState × Result) := do
  let result ← signalProcessor state buffers
  return (result.state, result)

theorem result_signalProcessor (state : RouterState) (buffers : Buffers) :
    (signalProcessor state buffers).result = .ok (process state buffers) := by
  unfold signalProcessor process
  cases buffers.outBuffer with
  | false => rfl
  | true => simp [bind]

theorem takes_signalProcessor (state : RouterState) (buffers : Buffers) :
    Takes [] (signalProcessor state buffers) [] := by
  unfold signalProcessor
  cases buffers.outBuffer with
  | false => exact (takes_getBuffer_none [] (Port.output 0)).bind rfl (takes_pure [] _)
  | true =>
      refine (takes_getBuffer_some [] (Port.output 0) ()).bind rfl ?_
      refine Takes.work (Takes.work (Takes.work ?_))
      exact (takes_finish [] (Port.output 0)).bind rfl (takes_pure [] _)

theorem takes_bufferStep (state : RouterState) (buffers : Buffers) :
    Takes [] (bufferStep state buffers) [] := by
  unfold bufferStep
  exact (takes_signalProcessor state buffers).bind (result_signalProcessor state buffers)
    (takes_pure [] _)

end MidiRouter

/-! ## pmx-slp-ctrl -/

namespace SlpCtrl

open PodBuilder Ump Osc

/-- A packet, or the exception that the constructors of its message and of its
arguments raise. -/
abbrev Received := Except Fault Packet

abbrev ReceivedBuffer := Except Str (Vector (Option Received) 16)

def ReceivedBuffer.packets : ReceivedBuffer → List Received
  | .ok slots => slots.toList.filterMap id
  | .error _ => []

/-- The buffers of a cycle, of which only the OSC input is parsed. -/
structure Input where
  slOsc : Option ReceivedBuffer
  lpMini : Option (Pod Control)
  midiClock : Option (Pod Control)
  slOscOut : Option ℕ
  lpMiniOut : Option ℕ

/-- A message is made of a packet and is handled. -/
def handleReceived (current : ℚ × List StateUpdate) (received : Received) :
    Except Fault (ℚ × List StateUpdate) := do
  let packet ← received
  handlePacket current packet

/-- The work on the OSC input buffer. -/
def readReceived (memory : Memory) (buffer : Option ReceivedBuffer) : Except Fault Memory :=
  match buffer with
  | none => return memory
  | some buffer => do
      let (known, updates) ←
        buffer.packets.foldlM handleReceived (memory.knownEighthPerCycle, [])
      return { memory with
        groupChannelLoopers := updates.foldl applyUpdate memory.groupChannelLoopers
        knownEighthPerCycle := known }

/-- The signal processor. -/
def signalProcessor (memory : Memory) (input : Input) :
    Use Port Fault (Memory × Output) := do
  let memory ← useBuffer (.input 0) input.slOsc fun buffer => lift (readReceived memory buffer)
  let presses ← useBuffer (.input 1) input.lpMini fun buffer =>
    return readLpMini (buffer.map Pod.controls)
  let memory ← useBuffer (.input 2) input.midiClock fun buffer =>
    return { memory with
      ppmCount := ((buffer.map Pod.controls).getD []).foldl handleMidiClock memory.ppmCount }
  let slOsc ← useBuffer (.output 0) input.slOscOut fun buffer =>
    return buffer.map (sequence controlOsc OscMessage.size (slOscMessages memory presses))
  let lpMini ← useBuffer (.output 1) input.lpMiniOut fun buffer =>
    return buffer.map (sequence controlUmp UmpMessage.size (lpMiniMessages memory presses))
  return (memory, ⟨slOsc, lpMini⟩)

/-- The arguments are only read at two addresses. -/
def Received.Readable (received : Received) : Prop :=
  ∃ packet, received = .ok packet ∧
    (packet.address = lit "/sl/global" ∨ packet.address = lit "/sl/loops" →
      ∃ arguments, packet.arguments = .ok arguments)

def Input.Readable (input : Input) : Prop :=
  ∀ buffer, input.slOsc = some buffer → ∀ received ∈ buffer.packets, received.Readable

/-- A cycle in which every packet has a message, and every pod is a sequence. -/
def Cycle.received (input : Cycle) : Input :=
  ⟨input.slOsc.map (Except.map (Vector.map (Option.map Except.ok))),
    input.lpMini.map (Pod.mk true), input.midiClock.map (Pod.mk true),
    input.slOscOut, input.lpMiniOut⟩

theorem packets_map_ok (buffer : OscBuffer) :
    ReceivedBuffer.packets (buffer.map (Vector.map (Option.map Except.ok))) =
      buffer.packets.map Except.ok := by
  cases buffer with
  | error message => rfl
  | ok slots =>
      change (slots.map (Option.map Except.ok)).toList.filterMap id =
        (slots.toList.filterMap id).map Except.ok
      rw [Vector.toList_map, List.filterMap_map, List.map_filterMap]
      rfl

theorem readReceived_map_ok (memory : Memory) (buffer : Option OscBuffer) :
    readReceived memory (buffer.map (Except.map (Vector.map (Option.map Except.ok)))) =
      readSlOsc memory buffer := by
  cases buffer with
  | none => rfl
  | some buffer =>
      change (do
        let (known, updates) ← List.foldlM handleReceived _ (ReceivedBuffer.packets _)
        _) = _
      rw [packets_map_ok, List.foldlM_map]
      rfl

/-- The result of the model without buffers. -/
theorem result_signalProcessor (memory : Memory) (input : Cycle) :
    (signalProcessor memory input.received).result = cycle memory input := by
  have hcontrols : ∀ controls : Option (List Control),
      (controls.map (Pod.mk true)).map Pod.controls = controls := by
    intro controls
    cases controls <;> rfl
  simp only [signalProcessor, result_bind, result_useBuffer, result_lift, Cycle.received,
    readReceived_map_ok, hcontrols]
  rfl

/-- A packet raises nothing just if what is read of it can be read. -/
theorem handleReceived_ok_iff (current : ℚ × List StateUpdate) (received : Received) :
    (∃ next, handleReceived current received = .ok next) ↔ received.Readable := by
  cases received with
  | error fault =>
      refine iff_of_false ?_ ?_
      · rintro ⟨next, hnext⟩
        cases hnext
      · rintro ⟨packet, hpacket, _⟩
        cases hpacket
  | ok packet =>
      have hreadable : Received.Readable (.ok packet) ↔
          (packet.address = lit "/sl/global" ∨ packet.address = lit "/sl/loops" →
            ∃ arguments, packet.arguments = .ok arguments) := by
        refine ⟨?_, fun h => ⟨packet, rfl, h⟩⟩
        rintro ⟨_, hpacket, h⟩
        cases hpacket
        exact h
      rw [hreadable]
      change (∃ next, handlePacket current packet = .ok next) ↔ _
      unfold handlePacket
      split_ifs with hglobal hloops
      · rw [forall_prop_of_true (Or.inl hglobal)]
        cases packet.arguments <;> simp [bind, Except.bind, pure, Except.pure]
      · rw [forall_prop_of_true (Or.inr hloops)]
        cases packet.arguments <;> simp [bind, Except.bind, pure, Except.pure]
      · exact iff_of_true ⟨current, rfl⟩ fun h => absurd h (by simp [hglobal, hloops])

theorem foldlM_handleReceived_ok_iff (current : ℚ × List StateUpdate)
    (packets : List Received) :
    (∃ next, packets.foldlM handleReceived current = .ok next) ↔
      ∀ received ∈ packets, received.Readable := by
  induction packets generalizing current with
  | nil => exact iff_of_true ⟨current, rfl⟩ (by simp)
  | cons received rest ih =>
      rw [List.forall_mem_cons, ← handleReceived_ok_iff current received]
      constructor
      · rintro ⟨final, hfinal⟩
        obtain ⟨next, hnext, hrest⟩ := bind_eq_ok.mp hfinal
        exact ⟨⟨next, hnext⟩, (ih next).mp ⟨final, hrest⟩⟩
      · rintro ⟨⟨next, hnext⟩, hrest⟩
        obtain ⟨final, hfinal⟩ := (ih next).mpr hrest
        exact ⟨final, bind_eq_ok.mpr ⟨next, hnext, hfinal⟩⟩

theorem readReceived_ok_iff (memory : Memory) (buffer : Option ReceivedBuffer) :
    (∃ read, readReceived memory buffer = .ok read) ↔
      ∀ found, buffer = some found → ∀ received ∈ found.packets, received.Readable := by
  cases buffer with
  | none => exact iff_of_true ⟨memory, rfl⟩ (by simp)
  | some found =>
      have hfound : (∀ other, some found = some other →
          ∀ received ∈ other.packets, received.Readable) ↔
          ∀ received ∈ found.packets, received.Readable := by
        simp
      rw [hfound, ← foldlM_handleReceived_ok_iff (memory.knownEighthPerCycle, [])]
      constructor
      · rintro ⟨read, hread⟩
        obtain ⟨next, hnext, _⟩ := bind_eq_ok.mp hread
        exact ⟨next, hnext⟩
      · rintro ⟨next, hnext⟩
        exact ⟨_, bind_eq_ok.mpr ⟨next, hnext, rfl⟩⟩

/-- The signal processor behind the OSC input. -/
theorem takes_signalProcessor_ok {memory read : Memory} {input : Input}
    (hread : readReceived memory input.slOsc = .ok read) :
    Takes [] (signalProcessor memory input) [] ∧
      ∃ result, (signalProcessor memory input).result = .ok result := by
  constructor
  · refine (Takes.useBuffer _ (fun out => takes_lift out _) hread [] _).bind
      ((result_useBuffer _ _ _).trans hread) ?_
    exact Takes.work (Takes.work (Takes.work (Takes.work (takes_pure [] _))))
  · simp only [signalProcessor, result_bind, result_useBuffer, result_lift, hread]
    exact ⟨_, rfl⟩

/-- A cycle conserves its buffers just if it raises nothing, and that is just if its
packets can be read. -/
theorem conserves_iff (memory : Memory) (input : Input) :
    Conserves (signalProcessor memory input).log ↔ input.Readable := by
  rw [Input.Readable, ← readReceived_ok_iff memory]
  cases hread : readReceived memory input.slOsc with
  | ok read =>
      refine iff_of_true ?_ ⟨read, rfl⟩
      exact (takes_signalProcessor_ok hread).1.conserves_iff.mpr rfl
  | error fault =>
      refine iff_of_false ?_ (by simp)
      cases hbuffer : input.slOsc with
      | none =>
          rw [hbuffer] at hread
          cases hread
      | some found =>
          rw [hbuffer] at hread
          have htakes : Takes [] (signalProcessor memory input) [Port.input 0] := by
            unfold signalProcessor
            rw [hbuffer]
            exact (Takes.useBuffer_error (fun out => takes_lift out _) hread [] _).bind_error
              ((result_useBuffer _ _ _).trans hread)
          rw [htakes.conserves_iff]
          exact List.cons_ne_nil _ _

theorem signalProcessor_ok_of_readable (memory : Memory) (input : Input)
    (h : input.Readable) : ∃ result, (signalProcessor memory input).result = .ok result := by
  obtain ⟨read, hread⟩ := (readReceived_ok_iff memory input.slOsc).mpr h
  exact (takes_signalProcessor_ok hread).2

end SlpCtrl

/-! ## pmx-lp-mini-init -/

namespace LpMiniInit

open Ump

/-- A cycle with the pod of its input buffer, of any kind. -/
structure Input where
  inBuffer : Option (Pod Control)
  outBuffer : Option ℕ
  testTime : ℤ
  sendTime : ℤ
  beyond : UInt32 × UInt32

def Input.cycle (input : Input) : Cycle :=
  ⟨input.inBuffer.map Pod.controls, input.outBuffer, input.testTime, input.sendTime,
    input.beyond⟩

/-- The task in front gets the buffers of both ports. -/
def signalProcessor (s : State) (input : Input) : Use Port Fault (State × List Sent) :=
  match s.tasks with
  | [] => lift (.error .indexOutOfBounds)
  | ⟨.handShake, lastSendTime⟩ :: rest => do
      let expected ← useBuffer (.input 0) input.inBuffer fun buffer =>
        return ((buffer.map Pod.controls).getD []).foldl handleControl s.handshakeResponse
      let (task, sent) ← useBuffer (.output 0) input.outBuffer fun buffer =>
        return if buffer.isSome && !expected.isEmpty && due lastSendTime input.testTime then
          (⟨.handShake, some input.sendTime⟩,
            (emitted buffer [deviceIdRequest]).map (Sent.mk input.sendTime))
        else ((⟨.handShake, lastSendTime⟩ : Task), [])
      return (⟨if expected.isEmpty then rest else task :: rest, expected⟩, sent)
  | ⟨.enableSessionMode, lastSendTime⟩ :: rest => do
      useBuffer (.input 0) input.inBuffer fun _ => return ()
      useBuffer (.output 0) input.outBuffer fun buffer =>
        return if buffer.isNone then (s, [])
        else
          ({ s with tasks := rest },
            if lastSendTime.isNone then
              (emitted buffer [sessionModeWords, sessionModeSecond input.beyond]).map
                (Sent.mk input.sendTime)
            else [])
  | ⟨.setupInitialSessionState, lastSendTime⟩ :: rest => do
      useBuffer (.input 0) input.inBuffer fun _ => return ()
      useBuffer (.output 0) input.outBuffer fun buffer =>
        return if buffer.isSome && lastSendTime.isNone then
          ({ s with tasks := ⟨.setupInitialSessionState, some input.sendTime⟩ :: rest },
            (emitted buffer [initialSessionState]).map (Sent.mk input.sendTime))
        else (s, [])

/-- The result of the model without buffers. -/
theorem result_signalProcessor (s : State) (input : Input) :
    (signalProcessor s input).result = cycle s input.cycle := by
  obtain ⟨_ | ⟨⟨_ | _ | _, lastSendTime⟩, rest⟩, response⟩ := s
  · rfl
  · simp only [signalProcessor, cycle, handShake, result_bind, result_useBuffer]
    change Except.ok _ = Except.ok _
    cases hsends : (input.outBuffer.isSome &&
      !(((input.inBuffer.map Pod.controls).getD []).foldl handleControl response).isEmpty &&
      due lastSendTime input.testTime) <;> simp [Input.cycle, hsends]
  · simp only [signalProcessor, cycle, enableSessionMode, result_bind, result_useBuffer]
    rfl
  · simp only [signalProcessor, cycle, setupInitialSessionState, result_bind, result_useBuffer]
    rfl

theorem takes_signalProcessor (s : State) (input : Input) :
    Takes [] (signalProcessor s input) [] := by
  obtain ⟨_ | ⟨⟨_ | _ | _, lastSendTime⟩, rest⟩, response⟩ := s
  · exact takes_lift [] _
  · exact Takes.work (Takes.work (takes_pure [] _))
  · refine Takes.work (Takes.useBuffer _ (fun out => ?_) rfl [] _)
    exact takes_pure out _
  · refine Takes.work (Takes.useBuffer _ (fun out => ?_) rfl [] _)
    exact takes_pure out _

end LpMiniInit

/-! ## All four -/

/-- Any runs of the four signal processors. -/
structure Runs where
  pipe : List CtrlPipe.Cycle
  routerState : MidiRouter.RouterState
  router : List MidiRouter.Buffers
  memory : SlpCtrl.Memory
  slp : List SlpCtrl.Input
  tasks : LpMiniInit.State
  lp : List LpMiniInit.Input

/-- The logs of all cycles of the runs. -/
def Runs.logs (runs : Runs) : List (List (Event Port)) :=
  BufferUse.logs CtrlPipe.step () runs.pipe ++
    BufferUse.logs MidiRouter.bufferStep runs.routerState runs.router ++
    BufferUse.logs SlpCtrl.signalProcessor runs.memory runs.slp ++
    BufferUse.logs LpMiniInit.signalProcessor runs.tasks runs.lp

/-- The router conserves its buffers in every run. -/
theorem MidiRouter.conserves_run (state : MidiRouter.RouterState)
    (inputs : List MidiRouter.Buffers) :
    ∀ log ∈ logs MidiRouter.bufferStep state inputs, Conserves log :=
  conserves_logs (fun state buffers =>
    (MidiRouter.takes_bufferStep state buffers).conserves_iff.mpr rfl) state inputs

/-- The set-up conserves its buffers in every run. -/
theorem LpMiniInit.conserves_run (s : LpMiniInit.State) (inputs : List LpMiniInit.Input) :
    ∀ log ∈ logs LpMiniInit.signalProcessor s inputs, Conserves log :=
  conserves_logs (fun s input =>
    (LpMiniInit.takes_signalProcessor s input).conserves_iff.mpr rfl) s inputs

/-- The pipe does just if no cycle gets buffers on both ports. -/
theorem CtrlPipe.conserves_run_iff (inputs : List CtrlPipe.Cycle) :
    (∀ log ∈ logs CtrlPipe.step () inputs, Conserves log) ↔
      ∀ input ∈ inputs, input.outBuffer = none ∨ input.inBuffer = none := by
  refine conserves_logs_iff (fun _ input => CtrlPipe.conserves_iff input) ?_ () inputs
  intro _ input _
  obtain ⟨result, hresult⟩ := CtrlPipe.signalProcessor_ok input
  exact ⟨((), result), congrArg (Except.map (Prod.mk ())) hresult⟩

/-- The controller does just if its packets can be read. -/
theorem SlpCtrl.conserves_run_iff (memory : SlpCtrl.Memory) (inputs : List SlpCtrl.Input) :
    (∀ log ∈ logs SlpCtrl.signalProcessor memory inputs, Conserves log) ↔
      ∀ input ∈ inputs, input.Readable :=
  conserves_logs_iff SlpCtrl.conserves_iff SlpCtrl.signalProcessor_ok_of_readable memory inputs

/-- In any runs of the four signal processors, every buffer is given back once in its
cycle just if the pipe never gets buffers on both ports and the controller can read its
packets.  A cycle of the controller that returns has given back all. -/
theorem conserves_runs_iff (runs : Runs) :
    ((∀ log ∈ runs.logs, Conserves log) ↔
      (∀ input ∈ runs.pipe, input.outBuffer = none ∨ input.inBuffer = none) ∧
        ∀ input ∈ runs.slp, input.Readable) ∧
      ∀ memory input result, (SlpCtrl.signalProcessor memory input).result = .ok result →
        Conserves (SlpCtrl.signalProcessor memory input).log := by
  constructor
  · unfold Runs.logs
    rw [List.forall_mem_append, List.forall_mem_append, List.forall_mem_append,
      CtrlPipe.conserves_run_iff, SlpCtrl.conserves_run_iff,
      and_iff_left (LpMiniInit.conserves_run _ _), and_iff_left (MidiRouter.conserves_run _ _)]
  · intro memory input result hresult
    rw [SlpCtrl.conserves_iff, SlpCtrl.Input.Readable, ← SlpCtrl.readReceived_ok_iff memory]
    simp only [SlpCtrl.signalProcessor, result_bind, result_useBuffer, result_lift] at hresult
    obtain ⟨read, hread, _⟩ := bind_eq_ok.mp hresult
    exact ⟨read, hread⟩

/-- The pipe forwards a control: its input buffer stays out. -/
theorem not_conserves_pipe :
    (CtrlPipe.signalProcessor ⟨some 4096, some (some ⟨true, [⟨4, [0, 1, 2, 3]⟩]⟩)⟩).log =
        [.get (.output 0), .get (.input 0), .finish (.output 0)] ∧
      ¬ Conserves
        (CtrlPipe.signalProcessor ⟨some 4096, some (some ⟨true, [⟨4, [0, 1, 2, 3]⟩]⟩)⟩).log :=
  ⟨rfl, by decide⟩

end Pmx
