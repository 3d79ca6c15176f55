import Pmx.FilterChainCtrl
import Pmx.Library.Transition
import Pmx.Osc.Path

/-!
# From the packets to the plugins

The signal processor queues the accepted messages and `filter_controller_thread`
turns them into calls of `set_props_param`, one at a time.  A step of the model
is one packet, one change of the node parameters, one `pop`, or one call.

The `pop` is the one for output iterators, since it is given the address of the
message: it takes out all that is queued, and writes it to the message and on behind
it.  Only the oldest entry gets into the message, and no call comes of the others.

`accepted` records the messages that the processor has accepted; the queue drops
such a message when it is full.  As long as no message is accepted over a full
queue, and none is queued behind the one that is popped, calls, message in hand and
queue together are the accepted messages in their order, which is `Lossless`.
-/

namespace Pmx.FilterChainCtrl

open Cxx Osc Transition

/-- The message that the processor accepts a packet as. -/
def acceptedMessage (parameters : List (Str × PropertyValue)) (packet : OscMessage) :
    Option QueueMessage :=
  match parseOscPath packet.address with
  | .ok (.ok oscPath) =>
      match nodeParameterName oscPath with
      | some name =>
          match filterChainId name parameters, packet.float32 with
          | .ok (some id), .ok value => some ⟨oscPath, id, value⟩
          | _, _ => none
      | none => none
  | _ => none

/-- A call of `tools::set_props_param`. -/
structure SetPropsParam (Client : Type) where
  client : Client
  parameterName : Str
  value : ℚ

variable {Client : Type}

/-- The call for a message.  `client` is what `get_proxy` and `client()` give
for a node id; without a client there is a warning instead of a call. -/
def callOf (client : ℤ → Option Client) (message : QueueMessage) :
    Option (SetPropsParam Client) := do
  let handle ← client message.filterChainId
  let name ← parameterName message.path
  return ⟨handle, name, message.value⟩

/-- `overrun`: a `pop` has written behind the message of the thread. -/
structure State (Client : Type) where
  parameters : List (Str × PropertyValue)
  queue : BoundedFifo 128 QueueMessage
  message : Option QueueMessage
  overrun : Bool
  calls : List (SetPropsParam Client)
  accepted : List QueueMessage

inductive Label
  | packet (message : OscMessage)
  | parameters (parameters : List (Str × PropertyValue))
  | pop
  | call

/-- Both threads before their first step. -/
def initial (Client : Type) (parameters : List (Str × PropertyValue)) : State Client :=
  ⟨parameters, .empty, none, false, [], []⟩

def step (client : ℤ → Option Client) (s : State Client) : Label → Option (State Client)
  | .packet packet =>
      match handlePacket s.parameters ⟨s.queue, false, []⟩ packet with
      | .ok next => some { s with
          queue := next.queue
          accepted := s.accepted ++ (acceptedMessage s.parameters packet).toList }
      -- nothing catches the exception: the process ends
      | .error _ => none
  | .parameters parameters => some { s with parameters }
  | .pop =>
      -- all entries are written from `&message` on, and only the first one has room there
      match s.message, s.queue.drain with
      | none, some (message, behind) => some { s with
          queue := .empty, message := some message, overrun := s.overrun || !behind.isEmpty }
      | _, _ => none
  | .call =>
      match s.message with
      | some message => some { s with
          message := none, calls := s.calls ++ (callOf client message).toList }
      | none => none

/-- The node an accepted message is for is known and has a client. -/
def TargetKnown (client : ℤ → Option Client) (s : State Client) : Label → Prop
  | .packet packet => ∀ message, acceptedMessage s.parameters packet = some message →
      (client message.filterChainId).isSome
  | _ => True

/-- A message is accepted only while the queue has room for it. -/
def RoomForAccepted (s : State Client) : Label → Prop
  | .packet packet => (acceptedMessage s.parameters packet).isSome → s.queue.HasRoom
  | _ => True

/-- No message is queued behind the one that is popped. -/
def SinglePop (s : State Client) : Label → Prop
  | .pop => s.queue.items.length ≤ 1
  | _ => True

instance (s : State Client) : DecidablePred (SinglePop s)
  | .pop => inferInstanceAs (Decidable (s.queue.items.length ≤ 1))
  | .packet _ | .parameters _ | .call => inferInstanceAs (Decidable True)

/-- Nothing gets lost in the step. -/
structure Keeps (client : ℤ → Option Client) (s : State Client) (label : Label) : Prop where
  known : TargetKnown client s label
  room : RoomForAccepted s label
  single : SinglePop s label

/-! ## Plugin controls -/

/-- The value a control has after some calls. -/
def controlValue [DecidableEq Client] (calls : List (SetPropsParam Client))
    (control : Client × Str) : Option ℚ :=
  (calls.reverse.find? fun call => (call.client, call.parameterName) = control).map
    SetPropsParam.value

/-- The value of the last message for a control. -/
def lastValue [DecidableEq Client] (client : ℤ → Option Client)
    (messages : List QueueMessage) (control : Client × Str) : Option ℚ :=
  (messages.reverse.find? fun message =>
    (callOf client message).map (fun call => (call.client, call.parameterName)) =
      some control).map QueueMessage.value

/-- Calls are made in the order of acceptance, one for each message, and once
everything is through every control has the value of its last message. -/
structure Delivers [DecidableEq Client] (client : ℤ → Option Client) (s : State Client) :
    Prop where
  contained : s.overrun = false
  inOrder : ∃ outstanding, s.accepted.map (callOf client) = s.calls.map some ++ outstanding
  drained : s.queue.items = [] → s.message = none →
    s.accepted.map (callOf client) = s.calls.map some ∧
      ∀ control, controlValue s.calls control = lastValue client s.accepted control

theorem value_of_callOf {client : ℤ → Option Client} {message : QueueMessage}
    {call : SetPropsParam Client} (h : callOf client message = some call) :
    call.value = message.value := by
  simp only [callOf, Option.bind_eq_bind, Option.bind_eq_some_iff, Option.pure_def,
    Option.some.injEq] at h
  obtain ⟨_, _, _, _, rfl⟩ := h
  rfl

/-- Calls that stand one for one for the messages leave each control with the
value of its last message. -/
theorem controlValue_of_calls [DecidableEq Client] {client : ℤ → Option Client}
    {messages : List QueueMessage} {calls : List (SetPropsParam Client)}
    (h : messages.map (callOf client) = calls.map some) (control : Client × Str) :
    controlValue calls control = lastValue client messages control := by
  induction messages using List.reverseRecOn generalizing calls with
  | nil =>
      cases List.map_eq_nil_iff.mp h.symm
      rfl
  | append_singleton messages message ih =>
      rw [List.map_append, List.map_singleton] at h
      obtain ⟨before, last, rfl, hbefore, hlast⟩ := List.map_eq_append_iff.mp h.symm
      obtain ⟨call, rfl, hcall⟩ := List.map_eq_singleton_iff.mp hlast
      -- the last call decides for its own control, the calls before it for the others
      have hvalue := value_of_callOf hcall.symm
      have hrest := ih hbefore.symm
      unfold controlValue lastValue at hrest ⊢
      rw [List.reverse_append, List.reverse_append, List.reverse_singleton,
        List.reverse_singleton, List.singleton_append, List.singleton_append,
        List.find?_cons, List.find?_cons, ← hcall, Option.map_some]
      by_cases hcontrol : (call.client, call.parameterName) = control
      · simp [hcontrol, hvalue]
      · simpa [hcontrol] using hrest

/-! ## One step -/

/-- What `get_filter_chain_id_and_add_to_queue` does when it returns: with a node
id it pushes the message, without one it leaves the queue. -/
theorem addToQueue_cases {capacity : ℕ} {queue queue' : BoundedFifo capacity QueueMessage}
    {name : Str} {parameters : List (Str × PropertyValue)} {oscPath : OscPath}
    {packet : OscMessage} {added : Bool}
    (h : getFilterChainIdAndAddToQueue queue name parameters oscPath packet =
      .ok (added, queue')) :
    (∃ id value, filterChainId name parameters = .ok (some id) ∧ packet.float32 = .ok value ∧
        added = true ∧ queue' = (queue.push ⟨oscPath, id, value⟩).2) ∨
      (filterChainId name parameters = .ok none ∧ added = false ∧ queue' = queue) := by
  obtain ⟨id?, hid, h⟩ := bind_eq_ok.mp h
  cases id? with
  | none =>
      cases h
      exact Or.inr ⟨hid, rfl, rfl⟩
  | some id =>
      obtain ⟨value, hvalue, h⟩ := bind_eq_ok.mp h
      cases h
      exact Or.inl ⟨id, value, hid, hvalue, rfl, rfl⟩

/-- A handled packet pushes the message it is accepted as, and nothing else. -/
theorem queue_of_handlePacket {capacity : ℕ} {parameters : List (Str × PropertyValue)}
    {state next : LoopState capacity} {packet : OscMessage}
    (h : handlePacket parameters state packet = .ok next) :
    next.queue =
      match acceptedMessage parameters packet with
      | some message => (state.queue.push message).2
      | none => state.queue := by
  obtain ⟨result, hparse, h⟩ := bind_eq_ok.mp h
  unfold acceptedMessage
  cases result with
  | error error =>
      cases h
      simp only [hparse]
      rfl
  | ok oscPath =>
      cases hname : nodeParameterName oscPath with
      | none =>
          simp only [hname] at h
          cases h
          simp only [hparse, hname]
      | some name =>
          simp only [hname] at h
          obtain ⟨⟨added, queue⟩, hadd, h⟩ := bind_eq_ok.mp h
          cases h
          rcases addToQueue_cases hadd with ⟨id, value, hid, hvalue, _, rfl⟩ | ⟨hid, _, rfl⟩
          · simp only [hparse, hname, hid, hvalue]
          · simp only [hparse, hname, hid]

/-- An accepted message has a name for its control. -/
theorem parameterName_of_accepted {parameters : List (Str × PropertyValue)} {packet : OscMessage}
    {message : QueueMessage} (h : acceptedMessage parameters packet = some message) :
    (parameterName message.path).isSome := by
  unfold acceptedMessage at h
  split at h
  · split at h
    · rename_i hname
      split at h
      · cases h
        unfold nodeParameterName at hname
        unfold parameterName nodeName
        split at hname <;> simp_all
        split <;> rfl
      · cases h
    · cases h
  · cases h

/-- Every accepted message can be delivered, and has been, is in hand or is
queued. -/
structure Lossless (client : ℤ → Option Client) (s : State Client) : Prop where
  contained : s.overrun = false
  deliverable : ∀ message ∈ s.accepted, (callOf client message).isSome
  partition : ∃ delivered, s.accepted = delivered ++ s.message.toList ++ s.queue.items ∧
    delivered.map (callOf client) = s.calls.map some

theorem callOf_of_accepted {client : ℤ → Option Client} {parameters : List (Str × PropertyValue)}
    {packet : OscMessage} {message : QueueMessage}
    (hmessage : acceptedMessage parameters packet = some message)
    (hclient : (client message.filterChainId).isSome) : (callOf client message).isSome := by
  obtain ⟨handle, hhandle⟩ := Option.isSome_iff_exists.mp hclient
  obtain ⟨name, hname⟩ := Option.isSome_iff_exists.mp (parameterName_of_accepted hmessage)
  simp [callOf, hhandle, hname]

/-- With room in the queue, an accepted message is its last one. -/
theorem Lossless.accept {client : ℤ → Option Client} {s : State Client} {message : QueueMessage}
    (h : Lossless client s) (hroom : s.queue.HasRoom)
    (hdeliverable : (callOf client message).isSome) :
    Lossless client { s with
      queue := (s.queue.push message).2, accepted := s.accepted ++ [message] } := by
  obtain ⟨hcontained, hall, delivered, haccepted, hcalls⟩ := h
  refine ⟨hcontained, ?_, delivered, ?_, hcalls⟩
  · rw [List.forall_mem_append, List.forall_mem_singleton]
    exact ⟨hall, hdeliverable⟩
  · simp only [BoundedFifo.items_push_of_hasRoom hroom, haccepted, List.append_assoc]

/-- The only message goes into the thread's hands. -/
theorem Lossless.pop {client : ℤ → Option Client} {s : State Client} {message : QueueMessage}
    {behind : List QueueMessage} (h : Lossless client s) (hempty : s.message = none)
    (hpop : s.queue.drain = some (message, behind)) (hsingle : s.queue.items.length ≤ 1) :
    Lossless client { s with
      queue := .empty, message := some message, overrun := s.overrun || !behind.isEmpty } := by
  obtain ⟨hcontained, hall, delivered, haccepted, hcalls⟩ := h
  obtain ⟨hitems, hbehind⟩ := BoundedFifo.drain_of_length_le hpop hsingle
  refine ⟨by simp [hcontained, hbehind], hall, delivered, ?_, hcalls⟩
  rw [haccepted, hempty, hitems]
  simp

/-- The message in hand is an accepted one, so there is a call for it. -/
theorem Lossless.call {client : ℤ → Option Client} {s : State Client} {message : QueueMessage}
    (h : Lossless client s) (hmessage : s.message = some message) :
    Lossless client { s with
      message := none, calls := s.calls ++ (callOf client message).toList } := by
  obtain ⟨hcontained, hall, delivered, haccepted, hcalls⟩ := h
  have hmem : message ∈ s.accepted := by
    rw [haccepted, hmessage]
    simp
  obtain ⟨call, hcall⟩ := Option.isSome_iff_exists.mp (hall message hmem)
  refine ⟨hcontained, hall, delivered ++ [message], ?_, ?_⟩
  · rw [haccepted, hmessage]
    simp
  · simp [hcalls, hcall]

theorem lossless_step {client : ℤ → Option Client} {s s' : State Client} {label : Label}
    (hlossless : Lossless client s) (hkeeps : Keeps client s label)
    (hstep : step client s label = some s') : Lossless client s' := by
  obtain ⟨hknown, hroom, hsingle⟩ := hkeeps
  cases label with
  | packet packet =>
      simp only [step] at hstep
      split at hstep
      · rename_i next hnext
        cases hstep
        rw [queue_of_handlePacket hnext]
        cases hmessage : acceptedMessage s.parameters packet with
        | none =>
            -- nothing is accepted, nothing is pushed
            simpa using hlossless
        | some message =>
            have hdeliverable := callOf_of_accepted hmessage (hknown message hmessage)
            exact hlossless.accept (hroom (by rw [hmessage]; rfl)) hdeliverable
      · cases hstep
  | parameters parameters =>
      cases hstep
      exact ⟨hlossless.contained, hlossless.deliverable, hlossless.partition⟩
  | pop =>
      simp only [step] at hstep
      split at hstep
      · rename_i message behind hempty hpop
        cases hstep
        exact hlossless.pop hempty hpop hsingle
      · cases hstep
  | call =>
      simp only [step] at hstep
      split at hstep
      · rename_i message hmessage
        cases hstep
        exact hlossless.call hmessage
      · cases hstep

/-! ## Whole runs -/

theorem lossless_of_run {client : ℤ → Option Client} {parameters : List (Str × PropertyValue)}
    {labels : List Label} {s : State Client}
    (run : Run (step client) (Keeps client) (initial Client parameters) labels s) :
    Lossless client s := by
  refine run.state_invariant (I := Lossless client) ⟨rfl, ?_, [], rfl, rfl⟩
    fun _ _ _ hlossless hkeeps hstep => lossless_step hlossless hkeeps hstep
  exact fun _ h => absurd h List.not_mem_nil

theorem Lossless.delivers [DecidableEq Client] {client : ℤ → Option Client} {s : State Client}
    (h : Lossless client s) : Delivers client s := by
  obtain ⟨hcontained, _, delivered, haccepted, hcalls⟩ := h
  refine ⟨hcontained, ?_, ?_⟩
  · refine ⟨(s.message.toList ++ s.queue.items).map (callOf client), ?_⟩
    rw [haccepted, List.append_assoc, List.map_append, hcalls]
  · intro hqueue hmessage
    have hall : s.accepted.map (callOf client) = s.calls.map some := by
      rw [haccepted, hqueue, hmessage]
      simpa using hcalls
    exact ⟨hall, controlValue_of_calls hall⟩

/-- A `pop` with messages behind the first one loses them: one call is made, and with
everything through the others are missing. -/
theorem lost_of_overrun {client : ℤ → Option Client} {s : State Client}
    (h : Lossless client s) (hempty : s.message = none) (hqueue : 2 ≤ s.queue.items.length) :
    ∃ s', exec (step client) s [.pop, .call] = some s' ∧ s'.overrun = true ∧
      s'.queue.items = [] ∧ s'.message = none ∧ s'.accepted = s.accepted ∧
        s'.accepted.map (callOf client) ≠ s'.calls.map some := by
  obtain ⟨_, _, delivered, haccepted, hcalls⟩ := h
  match hitems : s.queue.items with
  | [] | [_] => simp [hitems] at hqueue
  | message :: second :: behind =>
      have hdrain := BoundedFifo.drain_eq_some.mpr hitems
      refine ⟨{ s with
        queue := .empty, message := none, overrun := true,
        calls := s.calls ++ (callOf client message).toList }, ?_, rfl, rfl, rfl, rfl, ?_⟩
      · simp [exec, step, hempty, hdrain]
      · -- one call at most has been made for two messages at least
        intro hall
        have hlength := congrArg List.length hall
        have hmade : (callOf client message).toList.length ≤ 1 := by
          cases callOf client message <;> simp
        have hbefore : s.calls.length = delivered.length := by
          simpa using (congrArg List.length hcalls).symm
        simp only [List.length_map, haccepted, hitems, List.length_append,
          List.length_cons] at hlength
        omega

/-- **Delivery.**  While no message is accepted over a full queue, and none is queued
behind the one that is popped, calls are made in the order of acceptance and the last
value wins.  The first `pop` over more than one message loses the others, and `true`
means that the message is in the queue exactly when the queue had room for it. -/
theorem delivers_of_single_pops [DecidableEq Client] (client : ℤ → Option Client)
    (parameters : List (Str × PropertyValue)) :
    (∀ labels s, Run (step client) (Keeps client) (initial Client parameters) labels s →
      Delivers client s ∧
        (s.message = none → 2 ≤ s.queue.items.length →
          ∃ s', exec (step client) s [.pop, .call] = some s' ∧ s'.queue.items = [] ∧
            s'.message = none ∧ s'.accepted.map (callOf client) ≠ s'.calls.map some)) ∧
      ∀ (queue queue' : BoundedFifo 128 QueueMessage) name parameters oscPath packet,
        getFilterChainIdAndAddToQueue queue name parameters oscPath packet =
            .ok (true, queue') →
          ∃ message : QueueMessage, message.path = oscPath ∧
            packet.float32 = .ok message.value ∧
            (queue'.items = queue.items ++ [message] ↔ queue.HasRoom) := by
  constructor
  · intro labels s run
    have hlossless := lossless_of_run run
    refine ⟨hlossless.delivers, fun hempty hqueue => ?_⟩
    obtain ⟨s', hexec, -, hdrained, hmessage, -, hlost⟩ := lost_of_overrun hlossless hempty hqueue
    exact ⟨s', hexec, hdrained, hmessage, hlost⟩
  · intro queue queue' name parameters oscPath packet h
    rcases addToQueue_cases h with ⟨id, value, _, hvalue, _, rfl⟩ | ⟨_, hadded, _⟩
    · refine ⟨⟨oscPath, id, value⟩, rfl, hvalue, ?_⟩
      constructor
      · intro hitems
        by_contra hfull
        rw [BoundedFifo.push_of_not_hasRoom hfull] at hitems
        exact absurd hitems (by simp)
      · intro hroom
        exact BoundedFifo.items_push_of_hasRoom hroom _
    · cases hadded

/-- A packet for a control of the first channel's equalizer. -/
def equalizerPacket (name : Str) (value : ℚ) : OscMessage :=
  ⟨lit "/I/A/1/EQU/" ++ name, [.float32 value]⟩

/-- The node id of the chain for the input channels. -/
def inputChannelsParameter : List (Str × PropertyValue) :=
  [(lit "inputChannels", .int 40)]

/-- Every node has a client. -/
theorem targetKnown_const (s : State Unit) (label : Label) :
    TargetKnown (fun _ => some ()) s label := by
  cases label with
  | packet packet => exact fun _ _ => rfl
  | parameters parameters => trivial
  | pop => trivial
  | call => trivial

/-- A test for `Keeps`. -/
def isKept (s : State Unit) : Label → Bool
  | .packet _ => s.queue.HasRoom
  | .pop => s.queue.items.length ≤ 1
  | _ => true

theorem keeps_of_isKept {s : State Unit} {label : Label} (h : isKept s label = true) :
    Keeps (fun _ => some ()) s label := by
  have hknown := targetKnown_const s label
  cases label with
  | packet packet => exact ⟨hknown, fun _ => of_decide_eq_true h, trivial⟩
  | parameters parameters => exact ⟨hknown, trivial, trivial⟩
  | pop =>
      have hsingle : s.queue.items.length ≤ 1 := of_decide_eq_true h
      exact ⟨hknown, trivial, hsingle⟩
  | call => exact ⟨hknown, trivial, trivial⟩

/-- Three messages for two controls, the last one queued during the call before it. -/
def deliveredTrace : List Label :=
  [.packet (equalizerPacket (lit "low") 0), .pop, .call,
    .packet (equalizerPacket (lit "high") 3), .pop,
    .packet (equalizerPacket (lit "low") 1), .call, .pop, .call]

theorem delivers_of_single_pops_three_messages : ∃ s : State Unit,
    s.accepted.map QueueMessage.value = [0, 3, 1] ∧
      s.accepted.map (callOf fun _ => some ()) = s.calls.map some ∧
        controlValue s.calls ((), lit "Equalizer-1:low") = some 1 ∧
          controlValue s.calls ((), lit "Equalizer-1:high") = some 3 := by
  have htrace : (exec (fun s a => if isKept s a then step (fun _ => some ()) s a else none)
      (initial Unit inputChannelsParameter) deliveredTrace).map (fun s =>
        s.queue.items.isEmpty && s.message.isNone &&
          decide (s.accepted.map QueueMessage.value = [0, 3, 1] ∧
            lastValue (fun _ => some ()) s.accepted ((), lit "Equalizer-1:low") = some 1 ∧
            lastValue (fun _ => some ()) s.accepted ((), lit "Equalizer-1:high") = some 3)) =
      some true := by
    decide +kernel
  obtain ⟨s, hs, hlast⟩ := Option.map_eq_some_iff.mp htrace
  simp only [Bool.and_eq_true, List.isEmpty_iff, Option.isNone_iff_eq_none,
    decide_eq_true_eq] at hlast
  obtain ⟨⟨hqueue, hmessage⟩, haccepted, hlow, hhigh⟩ := hlast
  have hdelivers := ((delivers_of_single_pops (fun _ => some ()) inputChannelsParameter).1 _ s
    (run_of_checked (fun _ _ => keeps_of_isKept) hs)).1
  obtain ⟨hall, hvalues⟩ := hdelivers.drained hqueue hmessage
  exact ⟨s, haccepted, hall, (hvalues _).trans hlow, (hvalues _).trans hhigh⟩

/-- Two values for a control are accepted before the thread pops, and then everything is
drained: the control keeps the first one. -/
theorem second_value_lost :
    ¬ ∀ labels s, Run (step fun _ => some ()) (TargetKnown fun _ => some ())
        (initial Unit inputChannelsParameter) labels s →
      Delivers (fun _ => some ()) s := by
  intro h
  have htrace : (exec (step fun _ => some ()) (initial Unit inputChannelsParameter)
      [.packet (equalizerPacket (lit "low") 0), .packet (equalizerPacket (lit "low") 1),
        .pop, .call]).map (fun s => s.queue.items.isEmpty && s.message.isNone &&
          decide (s.accepted.map QueueMessage.value = [0, 1] ∧
            s.calls.map SetPropsParam.value = [0])) = some true := by
    decide +kernel
  obtain ⟨s, run, hs⟩ := exists_of_exec htrace
  simp only [Bool.and_eq_true, List.isEmpty_iff, Option.isNone_iff_eq_none,
    decide_eq_true_eq] at hs
  obtain ⟨⟨hqueue, hmessage⟩, haccepted, hcalls⟩ := hs
  -- two messages are accepted, and only one call comes of them
  have hknown := run.mono fun s label _ => targetKnown_const s label
  have hall := congrArg List.length ((h _ s hknown).drained hqueue hmessage).1
  have htwo := congrArg List.length haccepted
  have hone := congrArg List.length hcalls
  simp only [List.length_map, List.length_cons, List.length_nil] at hall htwo hone
  omega

end Pmx.FilterChainCtrl
