import Pmx.OscNetworkSender
import Pmx.SlpCtrl.Commands

/-!
# From the pads to the looper

`pmx-slp-ctrl` publishes its commands for the looper, and the network sender behind it
reads them in the same cycle and sends each as one datagram.  A step of the whole is a
cycle of both, a turn of the sender's loop, or a step of its thread.

Whatever the buffers and the queue do, what is sent is part of what was asked for, in
order.  With 392 bytes of room in every cycle and a queue that is not full it is all of
it: a record command for each loop whose pad has been pressed, and a reminder in every
cycle for as long as the looper has not reported its 64 eighths (`commands_of_run`).
-/

namespace Pmx.LooperControl

open Cxx OscNetworkSender PodBuilder Transition

open Osc (OscMessage)
open SlpCtrl (Cycle commands commandsOf lastEighth)

/-- `inputs` are the inputs of the cycles so far. -/
structure State where
  controller : SlpCtrl.Memory
  sender : OscNetworkSender.State
  inputs : List Cycle

/-- Both programs have just started. -/
def initial : State :=
  ⟨SlpCtrl.initial, OscNetworkSender.initial, []⟩

/-- A cycle of the controller, or a step of the sender. -/
inductive Label
  | cycle (input : Cycle)
  | sender (label : OscNetworkSender.Label)

variable (encode : OscMessage → Str)

/-- A message as a control. -/
def control (message : OscMessage) : Control :=
  ⟨SlpCtrl.controlOsc, .bytes (encode message)⟩

/-- The pod that the sender finds in its buffer. -/
def pod (items : List (Item OscMessage)) : Pod :=
  ⟨true, (decode items).map fun entry => ⟨entry.2.1, .bytes (encode entry.2.2)⟩⟩

/-- The sender's loop is through with a cycle before the next one. -/
def step (s : State) : Label → Option State
  | .cycle input =>
      match SlpCtrl.cycle s.controller input with
      | .ok (controller, output) =>
          (OscNetworkSender.step s.sender
              (.cycle (output.slOsc.map fun items => some (pod encode items)))).map fun sender =>
            ⟨controller, sender, s.inputs ++ [input]⟩
      | .error _ => none
  | .sender (.cycle _) => none
  | .sender label =>
      (OscNetworkSender.step s.sender label).map fun sender => { s with sender }

/-- Nothing gets lost: the commands have a buffer with room, and the sender keeps all. -/
def Reliable (s : State) : Label → Prop
  | .cycle input => 392 ≤ input.slOscOut.getD 0
  | .sender label => Keeps s.sender label

instance (s : State) : DecidablePred (Reliable s)
  | .cycle input => inferInstanceAs (Decidable (392 ≤ input.slOscOut.getD 0))
  | .sender label => inferInstanceAs (Decidable (Keeps s.sender label))

/-- The controls of all cycles. -/
def State.controls (s : State) : List Control :=
  s.sender.handled ++ s.sender.remaining.getD []

/-- All that the controller wanted to be done. -/
def State.asked (s : State) : List OscMessage :=
  commands 64 s.inputs

/-! ## One step -/

/-- A step of the sender within a cycle leaves the controls alone. -/
theorem controls_sender {s s' : OscNetworkSender.State} {label : OscNetworkSender.Label}
    (hcycle : ∀ buffer, label ≠ .cycle buffer) (h : OscNetworkSender.step s label = some s') :
    s'.handled ++ s'.remaining.getD [] = s.handled ++ s.remaining.getD [] := by
  cases label with
  | cycle buffer => exact absurd rfl (hcycle buffer)
  | next =>
      simp only [OscNetworkSender.step] at h
      cases hremaining : s.remaining with
      | none => rw [hremaining] at h; cases h
      | some controls =>
          rw [hremaining] at h
          cases controls with
          | nil => cases h; rfl
          | cons control rest =>
              simp only [handleControl] at h
              split_ifs at h
              · cases h
                simp
              · split at h
                · cases h
                  simp
                · cases h
  | protocol protocol => cases h; rfl
  | pop =>
      simp only [OscNetworkSender.step] at h
      split at h
      · cases h; rfl
      · cases h
  | send =>
      simp only [OscNetworkSender.step] at h
      split at h
      · cases h; rfl
      · cases h

/-- What the sender finds of the commands of a cycle. -/
theorem pod_sequence (maxsize : ℕ) (messages : List OscMessage) :
    pod encode (SlpCtrl.sequence SlpCtrl.controlOsc OscMessage.size messages maxsize) =
      ⟨true, (ifFits OscMessage.size maxsize messages).map (control encode)⟩ := by
  rw [pod, SlpCtrl.sequence, decode_pop_foldl_addFramed, List.map_map]
  rfl

/-- What a cycle adds to the controls. -/
def found (known : ℚ) (input : Cycle) : List OscMessage :=
  input.slOscOut.elim [] fun maxsize =>
    ifFits OscMessage.size maxsize (commandsOf known input)

theorem found_sublist_commandsOf (known : ℚ) (input : Cycle) :
    (found known input).Sublist (commandsOf known input) := by
  rw [found]
  cases input.slOscOut with
  | none => exact List.nil_sublist _
  | some maxsize => exact ifFits_sublist ..

theorem found_of_room (known : ℚ) {input : Cycle} (hroom : 392 ≤ input.slOscOut.getD 0) :
    found known input = commandsOf known input := by
  rw [found]
  cases hout : input.slOscOut with
  | none =>
      rw [hout] at hroom
      cases hroom
  | some maxsize =>
      rw [hout] at hroom
      exact ifFits_of_fits ((SlpCtrl.size_commandsOf known input).trans hroom)

/-- What a cycle of both programs does. -/
theorem of_cycle {s s' : State} {input : Cycle} (h : step encode s (.cycle input) = some s') :
    (∃ buffer, OscNetworkSender.step s.sender (.cycle buffer) = some s'.sender) ∧
      s'.inputs = s.inputs ++ [input] ∧
      s'.controller.knownEighthPerCycle = lastEighth s.controller.knownEighthPerCycle input ∧
      s'.controls =
        s.controls ++ (found s.controller.knownEighthPerCycle input).map (control encode) := by
  simp only [step] at h
  split at h
  · rename_i controller output hcycle
    obtain ⟨sender, hsender, rfl⟩ := Option.map_eq_some_iff.mp h
    obtain ⟨hknown, hslOsc⟩ := SlpCtrl.slOsc_of_cycle hcycle
    refine ⟨⟨_, hsender⟩, rfl, hknown, ?_⟩
    simp only [OscNetworkSender.step] at hsender
    split at hsender
    · rename_i hremaining
      cases hsender
      rw [hslOsc, found, State.controls, State.controls, hremaining]
      cases hout : input.slOscOut with
      | none => simp [startCycle, hremaining]
      | some maxsize =>
          simp only [Option.map_some, pod_sequence, startCycle, if_true, Option.getD_some,
            Option.getD_none, List.append_nil, Option.elim_some]
    · cases hsender
  · cases h

theorem of_sender {s s' : State} {label : OscNetworkSender.Label}
    (h : step encode s (.sender label) = some s') :
    OscNetworkSender.step s.sender label = some s'.sender ∧ s'.inputs = s.inputs ∧
      s'.controller = s.controller ∧ s'.controls = s.controls := by
  have hcycle : ∀ buffer, label ≠ .cycle buffer := by
    rintro buffer rfl
    cases h
  have hmap : (OscNetworkSender.step s.sender label).map (fun sender => { s with sender }) =
      some s' := by
    cases label with
    | cycle buffer => exact absurd rfl (hcycle buffer)
    | _ => exact h
  obtain ⟨sender, hsender, rfl⟩ := Option.map_eq_some_iff.mp hmap
  exact ⟨hsender, rfl, rfl, controls_sender hcycle hsender⟩

/-! ## Whole runs -/

/-- The controller knows the last report, and the controls are part of what was asked
for. -/
structure Tracks (s : State) : Prop where
  known : s.controller.knownEighthPerCycle = s.inputs.foldl lastEighth 64
  controls : s.controls.Sublist (s.asked.map (control encode))

theorem tracks_step {s s' : State} {label : Label} (htracks : Tracks encode s)
    (h : step encode s label = some s') : Tracks encode s' := by
  cases label with
  | cycle input =>
      obtain ⟨-, hinputs, hknown, hcontrols⟩ := of_cycle encode h
      refine ⟨?_, ?_⟩
      · rw [hknown, hinputs, List.foldl_concat, htracks.known]
      · rw [hcontrols, State.asked, hinputs, SlpCtrl.commands_concat, List.map_append,
          ← htracks.known]
        exact htracks.controls.append ((found_sublist_commandsOf _ input).map _)
  | sender label =>
      obtain ⟨-, hinputs, hcontroller, hcontrols⟩ := of_sender encode h
      refine ⟨?_, ?_⟩
      · rw [hcontroller, hinputs, htracks.known]
      · rw [hcontrols, State.asked, hinputs]
        exact htracks.controls

theorem tracks_of_run {labels : List Label} {s : State}
    (run : Reaches (step encode) initial labels s) : Tracks encode s :=
  run.state_invariant (I := Tracks encode) ⟨rfl, List.Sublist.refl _⟩
    fun _ _ _ htracks _ h => tracks_step encode htracks h

/-- With room for the commands all of them are found. -/
theorem controls_of_run {labels : List Label} {s : State}
    (run : Run (step encode) Reliable initial labels s) :
    s.controls = s.asked.map (control encode) := by
  induction run with
  | nil => rfl
  | @snoc labels s s' label run hmeets hstep ih =>
      have hknown := (tracks_of_run encode (run.mono fun _ _ _ => trivial)).known
      cases label with
      | cycle input =>
          obtain ⟨-, hinputs, -, hcontrols⟩ := of_cycle encode hstep
          rw [hcontrols, ih, found_of_room _ hmeets, State.asked, State.asked, hinputs,
            SlpCtrl.commands_concat, List.map_append, hknown]
      | sender label =>
          obtain ⟨-, hinputs, -, hcontrols⟩ := of_sender encode hstep
          rw [hcontrols, ih, State.asked, State.asked, hinputs]

/-- The sender has a run of its own. -/
theorem sender_of_run {guard : State → Label → Prop}
    (guard' : OscNetworkSender.State → OscNetworkSender.Label → Prop)
    (hcycle : ∀ s buffer, guard' s (.cycle buffer))
    (hsender : ∀ s label, guard s (.sender label) → guard' s.sender label)
    {labels : List Label} {s : State} (run : Run (step encode) guard initial labels s) :
    ∃ labels', Run OscNetworkSender.step guard' OscNetworkSender.initial labels' s.sender := by
  refine run.project State.sender fun _ s label s' _ hmeets hstep => Or.inr ?_
  cases label with
  | cycle input =>
      obtain ⟨⟨buffer, hbuffer⟩, -⟩ := of_cycle encode hstep
      exact ⟨.cycle buffer, hcycle _ _, hbuffer⟩
  | sender label => exact ⟨label, hsender _ _ hmeets, (of_sender encode hstep).1⟩

/-! ## Datagrams -/

variable {encode}

theorem data_control {message : OscMessage} (h : (encode message).length ≤ 4096) :
    (control encode message).datagram.map QueueMessage.data = some (encode message) := by
  have htype : (control encode message).type = OscNetworkSender.controlOsc := rfl
  rw [Control.datagram, if_pos htype, Control.message]
  simp only [control, dif_pos h]
  rfl

theorem data_offered (s : OscNetworkSender.State) :
    s.offered.map QueueMessage.data =
      s.handled.filterMap fun control => control.datagram.map QueueMessage.data :=
  List.map_filterMap

/-- The bytes of the commands fit into the messages of the sender. -/
theorem data_asked (hencode : ∀ message, (encode message).length = message.size) (s : State) :
    (s.asked.map (control encode)).filterMap
        (fun control => control.datagram.map QueueMessage.data) = s.asked.map encode := by
  rw [List.filterMap_map, ← List.filterMap_eq_map]
  refine List.filterMap_congr fun message hmem => data_control ?_
  rw [hencode]
  exact (SlpCtrl.size_of_mem_commands hmem).trans (by decide)

/-- **From the pads to the looper.**  What has been sent is part of what was asked for, in
order.  With room in the buffers and in the queue it is the beginning of that, and once
the sender is through with everything it is all of it. -/
theorem commands_of_run (hencode : ∀ message, (encode message).length = message.size)
    {labels : List Label} {s : State} :
    (Reaches (step encode) initial labels s →
      (s.sender.sent.map QueueMessage.data).Sublist (s.asked.map encode)) ∧
    (Run (step encode) Reliable initial labels s →
      s.sender.sent.map QueueMessage.data <+: s.asked.map encode ∧
      (s.sender.remaining.getD [] = [] → s.sender.queue.items = [] → s.sender.message = none →
        s.sender.sent.map QueueMessage.data = s.asked.map encode)) := by
  have hsent : s.sender.sent <+: s.sender.forwarded := by
    rw [OscNetworkSender.State.forwarded, List.append_assoc]
    exact List.prefix_append _ _
  have hhandled : s.sender.handled <+: s.controls := List.prefix_append _ _
  constructor
  · intro run
    obtain ⟨_, hsender⟩ := sender_of_run encode (fun _ _ => True) (fun _ _ => trivial)
      (fun _ _ _ => trivial) run
    have hoffered : s.sender.sent.Sublist s.sender.offered :=
      hsent.sublist.trans (OscNetworkSender.sublist_of_run hsender)
    have hcontrols : s.sender.handled.Sublist (s.asked.map (control encode)) :=
      hhandled.sublist.trans (tracks_of_run encode run).controls
    have hdata : (s.sender.offered.map QueueMessage.data).Sublist (s.asked.map encode) := by
      rw [data_offered, ← data_asked hencode]
      exact hcontrols.filterMap _
    exact (hoffered.map _).trans hdata
  · intro run
    obtain ⟨_, hsender⟩ := sender_of_run encode Keeps (fun _ _ => trivial)
      (fun _ _ hkeeps => hkeeps) run
    have hforwarded := OscNetworkSender.forwarded_of_run hsender
    have hcontrols := controls_of_run encode run
    rw [hforwarded] at hsent
    rw [hcontrols] at hhandled
    have hdata : s.sender.offered.map QueueMessage.data <+: s.asked.map encode := by
      rw [data_offered, ← data_asked hencode]
      exact hhandled.filterMap _
    refine ⟨(hsent.map _).trans hdata, fun hremaining hqueue hmessage => ?_⟩
    have hall : s.sender.handled = s.asked.map (control encode) := by
      rw [← hcontrols, State.controls, hremaining, List.append_nil]
    calc s.sender.sent.map QueueMessage.data
        = s.sender.forwarded.map QueueMessage.data := by
          rw [OscNetworkSender.State.forwarded, hqueue, hmessage]
          simp
      _ = s.sender.offered.map QueueMessage.data := by rw [hforwarded]
      _ = s.asked.map encode := by rw [data_offered, hall, data_asked hencode]

/-! ## A press and a report -/

open Osc (OscArgument stringSize)

/-- A string with its padding. -/
def padded (text : Str) : Str :=
  text ++ List.replicate (stringSize text.length - text.length) 0

/-- The bytes of a word, the highest first. -/
def wordBytes (word : UInt32) : Str :=
  [(word >>> 24).toUInt8, (word >>> 16).toUInt8, (word >>> 8).toUInt8, word.toUInt8]

/-- The type tag of an argument. -/
def argumentTag : OscArgument → UInt8
  | .float32 _ => 102
  | .int32 _ => 105
  | .string _ => 115
  | .blob _ => 98

/-- The bytes of an argument, with 64 as the only float. -/
def argumentBytes : OscArgument → Str
  | .float32 value => wordBytes (if value = 64 then 0x42800000 else 0)
  | .int32 value => wordBytes (UInt32.ofNat (value % 2 ^ 32).toNat)
  | .string value => padded value
  | .blob value => wordBytes (UInt32.ofNat value.length) ++ value ++
      List.replicate ((value.length + 3) / 4 * 4 - value.length) 0

/-- A message in the format of OSC 1.0. -/
def messageBytes (message : OscMessage) : Str :=
  padded message.address ++ padded (44 :: message.args.map argumentTag) ++
    message.args.flatMap argumentBytes

theorem length_padded (text : Str) : (padded text).length = stringSize text.length := by
  rw [padded, List.length_append, List.length_replicate, stringSize]
  omega

theorem length_argumentBytes (argument : OscArgument) :
    (argumentBytes argument).length = argument.size := by
  cases argument with
  | float32 value => rfl
  | int32 value => rfl
  | string value => exact length_padded value
  | blob value =>
      simp only [argumentBytes, OscArgument.size, List.length_append, List.length_replicate]
      have hword : (wordBytes (UInt32.ofNat value.length)).length = 4 := rfl
      omega

theorem length_messageBytes (message : OscMessage) :
    (messageBytes message).length = message.size := by
  have hargs : (message.args.flatMap argumentBytes).length =
      (message.args.map OscArgument.size).sum := by
    rw [List.length_flatMap]
    exact congrArg (List.sum <| List.map · message.args) (funext length_argumentBytes)
  rw [messageBytes, List.length_append, List.length_append, length_padded, length_padded, hargs,
    OscMessage.size, List.length_cons, List.length_map, Nat.add_comm 1]

/-- The looper reports 16 eighths while the third pad is pressed. -/
def pressAndReport : Cycle where
  slOsc := some (.ok (Vector.ofFn fun place =>
    if place.val = 0 then some ⟨lit "/sl/global", .ok (0, lit "eighth_per_cycle", 16)⟩ else none))
  lpMini := some [SlpCtrl.pressControl 2]
  midiClock := none
  slOscOut := some 392
  lpMiniOut := none

def pressAndReportRun : List Label :=
  [.cycle pressAndReport, .sender .next, .sender .next, .sender .next, .sender .pop,
    .sender .send, .sender .pop, .sender .send]

theorem commands_of_run_press :
    ∃ s : State, s.asked = [SlpCtrl.hitMessage 2, SlpCtrl.eighthPerCycleMessage] ∧
      s.sender.sent.map QueueMessage.data = s.asked.map messageBytes := by
  have htrace : (exec (fun s a => if decide (Reliable s a) then step messageBytes s a else none)
      initial pressAndReportRun).map (fun s => decide (s.sender.remaining.getD [] = [] ∧
        s.sender.queue.items = [] ∧ s.sender.message = none ∧
        s.asked = [SlpCtrl.hitMessage 2, SlpCtrl.eighthPerCycleMessage])) = some true := by
    decide
  obtain ⟨s, hs, hlast⟩ := Option.map_eq_some_iff.mp htrace
  obtain ⟨hremaining, hqueue, hmessage, hasked⟩ := of_decide_eq_true hlast
  have hrun : Run (step messageBytes) Reliable initial pressAndReportRun s :=
    run_of_checked (fun _ _ => of_decide_eq_true) hs
  exact ⟨s, hasked, ((commands_of_run length_messageBytes).2 hrun).2 hremaining hqueue hmessage⟩

end Pmx.LooperControl
