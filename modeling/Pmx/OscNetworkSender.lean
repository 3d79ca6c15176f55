import Pmx.Library.BoundedFifo
import Pmx.Library.Cxx
import Pmx.Library.Transition

/-!
# pmx-osc-network-sender

In every cycle the signal processor goes through the controls of its input
buffer and copies the bytes of each OSC control into a message of 4096 bytes,
which it pushes on a queue.  A thread pops the queue and sends each message to
the target as one datagram.

The result of `push` is not looked at, so a message is lost while the queue is
full, and a message is only sent while the parameter `target.protocol` is `udp`.
Nothing else is lost, and nothing is ever torn, repeated or overtaken
(`sent_of_run`).
-/

namespace Pmx.OscNetworkSender

open Cxx Transition

/-- `SPA_CONTROL_OSC`. -/
def controlOsc : ℕ := 3

/-- The value pod of a control: its bytes, or a pod of another type. -/
inductive Value
  | bytes (data : Str)
  | other
  deriving DecidableEq

/-- A control of a sequence, with its type. -/
structure Control where
  type : ℕ
  value : Value
  deriving DecidableEq

/-- The pod of a buffer, with the controls that `SPA_POD_SEQUENCE_FOREACH` finds in it. -/
structure Pod where
  isSequence : Bool
  controls : List Control
  deriving DecidableEq

/-- `queue_message`: the bytes of `data` up to `size`. -/
structure QueueMessage where
  data : Str
  bounded : data.length ≤ 4096

instance : DecidableEq QueueMessage := fun first second =>
  decidable_of_iff (first.data = second.data) <| by
    cases first; cases second; simp

/-- The message made of a control.  `spa_pod_get_bytes` leaves the length
undefined for a pod that holds no bytes, and `copy_n` does not compare the length
with the array. -/
def Control.message (control : Control) : Except Fault QueueMessage :=
  match control.value with
  | .bytes data => if h : data.length ≤ 4096 then .ok ⟨data, h⟩ else .error .indexOutOfBounds
  | .other => .error .indexOutOfBounds

/-- `remaining` are the controls of the cycle in progress that the loop has not
come to, `message` is what the thread has popped.  `handled` are the controls
that the loops have gone through. -/
structure State where
  remaining : Option (List Control)
  queue : BoundedFifo 128 QueueMessage
  protocol : Str
  message : Option QueueMessage
  sent : List QueueMessage
  handled : List Control

/-- `target.protocol` is set up as `udp`. -/
def initial : State :=
  ⟨none, .empty, lit "udp", none, [], []⟩

/-- `cycle` is the start of a cycle with the buffer of the input port and its
pod, if there are any, and `next` the next turn of the loop over the controls.
`protocol` is a change of the parameter `target.protocol`. -/
inductive Label
  | cycle (buffer : Option (Option Pod))
  | next
  | protocol (protocol : Str)
  | pop
  | send
  deriving DecidableEq

/-- The start of a cycle: only a sequence is gone through. -/
def startCycle (s : State) : Option (Option Pod) → State
  | some (some pod) => if pod.isSequence then { s with remaining := some pod.controls } else s
  | _ => s

/-- The body of the loop over the controls; a fault ends the process. -/
def handleControl (s : State) (control : Control) (rest : List Control) : Option State :=
  if control.type ≠ controlOsc then
    some { s with remaining := some rest, handled := s.handled ++ [control] }
  else
    match control.message with
    | .ok message => some { s with
        remaining := some rest
        queue := (s.queue.push message).2
        handled := s.handled ++ [control] }
    | .error _ => none

def step (s : State) : Label → Option State
  | .cycle buffer =>
      match s.remaining with
      | none => some (startCycle s buffer)
      | some _ => none
  | .next =>
      match s.remaining with
      | some (control :: rest) => handleControl s control rest
      | some [] => some { s with remaining := none }
      | none => none
  | .protocol protocol => some { s with protocol }
  | .pop =>
      match s.message, s.queue.pop with
      | none, some (message, rest) => some { s with queue := rest, message := some message }
      | _, _ => none
  | .send =>
      match s.message with
      | some message => some { s with
          message := none
          sent := if s.protocol = lit "udp" then s.sent ++ [message] else s.sent }
      | none => none

theorem sent_startCycle (s : State) (buffer : Option (Option Pod)) :
    (startCycle s buffer).sent = s.sent := by
  unfold startCycle
  split
  · split <;> rfl
  · rfl

theorem sent_handleControl {s s' : State} {control : Control} {rest : List Control}
    (h : handleControl s control rest = some s') : s'.sent = s.sent := by
  unfold handleControl at h
  split at h
  · cases h
    rfl
  · split at h <;> cases h
    rfl

/-! ## What is to be sent -/

/-- The datagram that a control asks for. -/
def Control.datagram (control : Control) : Option QueueMessage :=
  if control.type = controlOsc then control.message.toOption else none

/-- The datagrams of all controls that the loops have gone through. -/
def State.offered (s : State) : List QueueMessage :=
  s.handled.filterMap Control.datagram

/-- What has been sent, the message in hand and the queue. -/
def State.forwarded (s : State) : List QueueMessage :=
  s.sent ++ s.message.toList ++ s.queue.items

/-- The control that the loop comes to next is an OSC control. -/
def State.nextIsOsc (s : State) : Bool :=
  match s.remaining with
  | some (control :: _) => control.type = controlOsc
  | _ => false

/-- Nothing gets lost in a step: an OSC control finds room in the queue, and a
message its protocol. -/
def Keeps (s : State) : Label → Prop
  | .next => s.nextIsOsc = true → s.queue.HasRoom
  | .send => s.protocol = lit "udp"
  | _ => True

instance (s : State) : DecidablePred (Keeps s)
  | .cycle _ => isTrue trivial
  | .next => inferInstanceAs (Decidable (s.nextIsOsc = true → s.queue.HasRoom))
  | .protocol _ => isTrue trivial
  | .pop => isTrue trivial
  | .send => inferInstanceAs (Decidable (s.protocol = lit "udp"))

/-! ## One step -/

/-- What a step means for the messages. -/
inductive Effect (s : State) (label : Label) (s' : State) : Prop
  | kept (keeps : Keeps s label) (forwarded : s'.forwarded = s.forwarded)
      (offered : s'.offered = s.offered)
  | pushed (message : QueueMessage) (isNext : label = .next) (isOsc : s.nextIsOsc = true)
      (forwarded : s'.forwarded = s.sent ++ s.message.toList ++ (s.queue.push message).2.items)
      (offered : s'.offered = s.offered ++ [message])
  | dropped (isSend : label = .send) (unknown : s.protocol ≠ lit "udp")
      (inHand : s.message.isSome)
      (forwarded : s'.forwarded = s.sent ++ s.queue.items) (offered : s'.offered = s.offered)

theorem effect_startCycle (s : State) (buffer : Option (Option Pod)) :
    Effect s (.cycle buffer) (startCycle s buffer) := by
  unfold startCycle
  split
  · split <;> exact .kept trivial rfl rfl
  · exact .kept trivial rfl rfl

theorem effect_handleControl {s s' : State} {control : Control} {rest : List Control}
    (hremaining : s.remaining = some (control :: rest))
    (h : handleControl s control rest = some s') : Effect s .next s' := by
  unfold handleControl at h
  by_cases htype : control.type = controlOsc
  · rw [if_neg (not_not.mpr htype)] at h
    cases hmessage : control.message with
    | error fault => simp [hmessage] at h
    | ok message =>
        simp only [hmessage, Option.some.injEq] at h
        subst h
        have hdatagram : control.datagram = some message := by
          rw [Control.datagram, if_pos htype, hmessage]
          rfl
        refine .pushed message rfl ?_ rfl ?_
        · simp [State.nextIsOsc, hremaining, htype]
        · simp [State.offered, hdatagram]
  · rw [if_pos htype] at h
    cases h
    have hdatagram : control.datagram = none := if_neg htype
    have hother : s.nextIsOsc = false := by
      simp [State.nextIsOsc, hremaining, htype]
    refine .kept (fun hosc => ?_) rfl ?_
    · rw [hother] at hosc
      cases hosc
    · simp [State.offered, hdatagram]

theorem effect_step {s s' : State} {label : Label} (hstep : step s label = some s') :
    Effect s label s' := by
  cases label with
  | cycle buffer =>
      simp only [step] at hstep
      split at hstep
      · cases hstep
        exact effect_startCycle s buffer
      · cases hstep
  | next =>
      simp only [step] at hstep
      split at hstep
      · rename_i control rest hremaining
        exact effect_handleControl hremaining hstep
      · rename_i hremaining
        cases hstep
        have hother : s.nextIsOsc = false := by
          simp [State.nextIsOsc, hremaining]
        refine .kept (fun hosc => ?_) rfl rfl
        rw [hother] at hosc
        cases hosc
      · cases hstep
  | protocol protocol =>
      cases hstep
      exact .kept trivial rfl rfl
  | pop =>
      simp only [step] at hstep
      split at hstep
      · rename_i message rest hempty hpop
        cases hstep
        refine .kept trivial ?_ rfl
        simp [State.forwarded, hempty, BoundedFifo.items_of_pop hpop]
      · cases hstep
  | send =>
      simp only [step] at hstep
      split at hstep
      · rename_i message hmessage
        cases hstep
        by_cases hprotocol : s.protocol = lit "udp"
        · exact .kept hprotocol (by simp [State.forwarded, hmessage, hprotocol]) rfl
        · have hinHand : s.message.isSome := by rw [hmessage]; rfl
          exact .dropped rfl hprotocol hinHand (by simp [State.forwarded, hprotocol]) rfl
      · cases hstep

theorem sublist_step {s s' : State} {label : Label} (h : s.forwarded.Sublist s.offered)
    (hstep : step s label = some s') : s'.forwarded.Sublist s'.offered := by
  cases effect_step hstep with
  | kept _ hforwarded hoffered => rwa [hforwarded, hoffered]
  | pushed message _ _ hforwarded hoffered =>
      rw [hforwarded, hoffered, BoundedFifo.items_push]
      split
      · rw [← List.append_assoc]
        exact h.append (List.Sublist.refl _)
      · exact h.trans (List.sublist_append_left _ _)
  | dropped _ _ _ hforwarded hoffered =>
      rw [hforwarded, hoffered]
      refine List.Sublist.trans ?_ h
      exact (List.sublist_append_left _ _).append (List.Sublist.refl _)

/-- A step that loses something makes the forwarded messages fall behind the
offered ones, and no step makes up for it. -/
theorem length_step {s s' : State} {label : Label} (hstep : step s label = some s') :
    s.offered.length + s'.forwarded.length ≤ s'.offered.length + s.forwarded.length ∧
      (s.offered.length + s'.forwarded.length = s'.offered.length + s.forwarded.length ↔
        Keeps s label) := by
  cases effect_step hstep with
  | kept hkeeps hforwarded hoffered =>
      rw [hforwarded, hoffered]
      exact ⟨le_rfl, iff_of_true rfl hkeeps⟩
  | pushed message hnext hosc hforwarded hoffered =>
      subst hnext
      have hkeeps : Keeps s .next ↔ s.queue.items.length < 128 := by
        simp [Keeps, hosc, BoundedFifo.HasRoom]
      rw [hkeeps, hforwarded, hoffered, BoundedFifo.items_push]
      simp only [State.forwarded, List.length_append, List.length_singleton]
      split_ifs with hroom
      · simp only [List.length_append, List.length_singleton]
        omega
      · omega
  | dropped hsend hunknown hmessage hforwarded hoffered =>
      subst hsend
      obtain ⟨message, hmessage⟩ := Option.isSome_iff_exists.mp hmessage
      rw [hforwarded, hoffered]
      have hlost : ¬ Keeps s .send := hunknown
      simp only [State.forwarded, hmessage, List.length_append, Option.toList_some,
        List.length_singleton, iff_false_right hlost]
      omega

/-! ## Whole runs -/

theorem sublist_of_run {labels : List Label} {s : State} (run : Reaches step initial labels s) :
    s.forwarded.Sublist s.offered :=
  run.state_invariant (I := fun s => s.forwarded.Sublist s.offered) (List.Sublist.refl _)
    fun _ _ _ h _ hstep => sublist_step h hstep

/-- The runs that forward as many messages as they are offered are those in
which no step loses one. -/
theorem length_eq_iff_keeps {labels : List Label} {s : State}
    (run : Reaches step initial labels s) :
    s.forwarded.length = s.offered.length ↔ Run step Keeps initial labels s := by
  constructor
  · intro hlength
    induction run with
    | nil => exact .nil
    | @snoc labels s s' label run _ hstep ih =>
        -- the state before the step has lost nothing either
        have hbefore := (sublist_of_run run).length_le
        obtain ⟨hle, hkeeps⟩ := length_step hstep
        exact .snoc (ih (by omega)) (hkeeps.mp (by omega)) hstep
  · intro hrun
    refine hrun.state_invariant (I := fun s => s.forwarded.length = s.offered.length) rfl ?_
    intro s label s' hlength hkeeps hstep
    have hkept := (length_step hstep).2.mpr hkeeps
    omega

theorem forwarded_of_run {labels : List Label} {s : State} (run : Run step Keeps initial labels s) :
    s.forwarded = s.offered := by
  have hreaches : Reaches step initial labels s := run.mono fun _ _ _ => trivial
  exact (sublist_of_run hreaches).eq_of_length ((length_eq_iff_keeps hreaches).mpr run)

/-- **Forwarding.**  What has been sent, is in hand and is queued is part of what
the OSC controls have offered, in its order; it is all of it exactly in the runs
in which every OSC control finds room in the queue and every message its
protocol.  In such a run everything offered has been sent once the queue is
empty and the thread waits. -/
theorem sent_of_run {labels : List Label} {s : State} (run : Reaches step initial labels s) :
    s.forwarded.Sublist s.offered ∧
      (s.forwarded = s.offered ↔ Run step Keeps initial labels s) ∧
      (s.queue.items = [] → s.message = none →
        (s.sent = s.offered ↔ Run step Keeps initial labels s)) := by
  have hall : s.forwarded = s.offered ↔ Run step Keeps initial labels s :=
    ⟨fun heq => (length_eq_iff_keeps run).mp (congrArg List.length heq), forwarded_of_run⟩
  refine ⟨sublist_of_run run, hall, fun hqueue hmessage => ?_⟩
  rw [← hall, State.forwarded, hqueue, hmessage]
  simp

/-- A cycle with two OSC controls behind another one; the thread pops the first before the
second is pushed. -/
def twoControls : List Label :=
  [.cycle (some (some ⟨true, [⟨4, .other⟩, ⟨3, .bytes (lit "/a")⟩, ⟨3, .bytes (lit "/b")⟩]⟩)),
    .next, .next, .pop, .next, .send, .next, .pop, .send]

theorem sent_of_run_two_controls :
    ∃ s : State, s.sent.map QueueMessage.data = [lit "/a", lit "/b"] ∧ s.sent = s.offered := by
  have htrace : (exec (fun s a => if decide (Keeps s a) then step s a else none) initial
      twoControls).map (fun s => decide (s.sent.map QueueMessage.data = [lit "/a", lit "/b"] ∧
        s.queue.items = [] ∧ s.message = none)) = some true := by
    decide
  obtain ⟨s, hs, hlast⟩ := Option.map_eq_some_iff.mp htrace
  obtain ⟨hsent, hqueue, hmessage⟩ := of_decide_eq_true hlast
  have hrun : Run step Keeps initial twoControls s :=
    run_of_checked (fun _ _ => of_decide_eq_true) hs
  have hreaches : Reaches step initial twoControls s := hrun.mono fun _ _ _ => trivial
  exact ⟨s, hsent, ((sent_of_run hreaches).2.2 hqueue hmessage).mpr hrun⟩

end Pmx.OscNetworkSender
