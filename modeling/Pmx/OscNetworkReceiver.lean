import Pmx.Library.BoundedFifo
import Pmx.Library.Cxx
import Pmx.Library.PodBuilder
import Pmx.Library.Transition

/-!
# pmx-osc-network-receiver

A thread receives datagrams and puts them into a queue.  The signal processor
empties the queue into the output buffer, one control for each datagram, and
publishes what the builder has counted as the size of the chunk.

Nobody compares the datagrams with the buffer.  When they do not fit, the published
size exceeds the buffer and the sequence in it says that it is empty; otherwise every
datagram arrives whole and in order (`delivered_iff_allFit`).
-/

namespace Pmx.OscNetworkReceiver

open Cxx PodBuilder Transition

/-- `SPA_CONTROL_OSC`. -/
def controlOsc : ℕ := 3

/-- `queue_message`: the bytes of `data` up to `size`. -/
structure QueueMessage where
  data : Str
  bounded : data.length ≤ 4096
  deriving DecidableEq

/-- The number of bytes of a message. -/
def QueueMessage.size (message : QueueMessage) : ℕ :=
  message.data.length

/-- A sequence that has been published: the capacity of its buffer, the size of
the chunk and what the buffer holds.  `taken` are the messages that the cycle
has popped. -/
structure Published where
  maxsize : ℕ
  chunkSize : ℕ
  items : List (Item QueueMessage)
  taken : List QueueMessage

/-- Where the signal processor is, with what it has popped in the cycle. -/
inductive Phase
  | idle
  | started (builder : Builder QueueMessage)
  | draining (builder : Builder QueueMessage) (taken : List QueueMessage)
  | finishing (builder : Builder QueueMessage) (taken : List QueueMessage)

/-- `received` are the datagrams of the receiver in the order of arrival. -/
structure State where
  queue : BoundedFifo 128 QueueMessage
  phase : Phase
  published : List Published
  received : List QueueMessage

/-- Nothing has been received, and no cycle runs. -/
def initial : State :=
  ⟨.empty, .idle, [], []⟩

/-- `cycle` is the start of a cycle, with the capacity of the output buffer if
there is one. -/
inductive Label
  | receive (message : QueueMessage)
  | cycle (maxsize : Option ℕ)
  | readAvailable
  | pop
  | publish

/-- The control of a message: `spa_pod_builder_control` and
`spa_pod_builder_bytes`. -/
def addMessage (builder : Builder QueueMessage) (message : QueueMessage) : Builder QueueMessage :=
  writeValue (writeControl builder 0 controlOsc) message.size message

/-- The network and the cycle take their steps in any order. -/
def step (s : State) : Label → Option State
  | .receive message =>
      some { s with
        queue := (s.queue.push message).2
        received := s.received ++ [message] }
  | .cycle none =>
      match s.phase with
      | .idle => some s
      | _ => none
  | .cycle (some maxsize) =>
      match s.phase with
      | .idle => some { s with phase := .started (pushSequence maxsize) }
      | _ => none
  | .readAvailable =>
      match s.phase with
      | .started builder =>
          -- `read_available` is asked once, in front of the loop
          if 0 < s.queue.items.length then some { s with phase := .draining builder [] }
          else some { s with phase := .finishing builder [] }
      | _ => none
  | .pop =>
      match s.phase with
      | .draining builder taken =>
          match s.queue.pop with
          | some (message, rest) => some { s with
              queue := rest
              phase := .draining (addMessage builder message) (taken ++ [message]) }
          | none => some { s with phase := .finishing builder taken }
      | _ => none
  | .publish =>
      match s.phase with
      | .finishing builder taken => some { s with
          phase := .idle
          published := s.published ++ [⟨builder.size, builder.offset, builder.pop, taken⟩] }
      | _ => none

/-! ## What is wanted -/

/-- No more than 128 datagrams are pending. -/
def WithinQueue (s : State) : Label → Prop
  | .receive _ => s.queue.HasRoom
  | _ => True

instance (s : State) : DecidablePred (WithinQueue s)
  | .receive _ => inferInstanceAs (Decidable s.queue.HasRoom)
  | .cycle _ => isTrue trivial
  | .readAvailable => isTrue trivial
  | .pop => isTrue trivial
  | .publish => isTrue trivial

/-- The messages that a cycle in progress has popped. -/
def Phase.taken : Phase → List QueueMessage
  | .idle => []
  | .started _ => []
  | .draining _ taken => taken
  | .finishing _ taken => taken

/-- No chunk exceeds its buffer, and the published messages, the ones of the
cycle in progress and the queue are the received ones in their order. -/
structure Delivered (s : State) : Prop where
  chunks : ∀ sequence ∈ s.published, sequence.chunkSize ≤ sequence.maxsize
  messages : (s.published.flatMap fun sequence => values sequence.items) ++ s.phase.taken ++
    s.queue.items = s.received

/-- The header of a sequence and the controls of what its cycle has popped fit
in the buffer. -/
def Published.Fits (sequence : Published) : Prop :=
  16 + framedBytes QueueMessage.size sequence.taken ≤ sequence.maxsize

/-! ## Runs -/

/-- The builder has been given the header and the controls of some messages. -/
def Holds (builder : Builder QueueMessage) (messages : List QueueMessage) : Prop :=
  builder = messages.foldl addMessage (pushSequence builder.size)

/-- What is in the builder while a cycle drains the queue. -/
def Phase.Holds : Phase → Prop
  | .idle => True
  | .started builder => OscNetworkReceiver.Holds builder []
  | .draining builder taken => OscNetworkReceiver.Holds builder taken
  | .finishing builder taken => OscNetworkReceiver.Holds builder taken

/-- What a step does: a datagram arrives; or the cycle goes on, pops a message, or publishes
what it has popped. -/
inductive Effect (s : State) : Label → State → Prop
  | receive (message : QueueMessage) : Effect s (.receive message) { s with
      queue := (s.queue.push message).2
      received := s.received ++ [message] }
  | phase {label : Label} (phase : Phase) (htaken : phase.taken = s.phase.taken)
      (hholds : s.phase.Holds → phase.Holds) : Effect s label { s with phase := phase }
  | pop {builder : Builder QueueMessage} {taken : List QueueMessage}
      (hphase : s.phase = .draining builder taken) {message : QueueMessage}
      {rest : BoundedFifo 128 QueueMessage} (hpop : s.queue.pop = some (message, rest)) :
      Effect s .pop { s with
        queue := rest
        phase := .draining (addMessage builder message) (taken ++ [message]) }
  | publish {builder : Builder QueueMessage} {taken : List QueueMessage}
      (hphase : s.phase = .finishing builder taken) : Effect s .publish { s with
        phase := .idle
        published := s.published ++ [⟨builder.size, builder.offset, builder.pop, taken⟩] }

theorem effect_step {s s' : State} {label : Label} (hstep : step s label = some s') :
    Effect s label s' := by
  cases label with
  | receive message =>
      cases hstep
      exact .receive message
  | cycle maxsize =>
      cases hphase : s.phase with
      | idle =>
          cases maxsize with
          | none =>
              -- without a buffer the cycle is over at once
              simp only [step, hphase, Option.some.injEq] at hstep
              subst hstep
              exact .phase s.phase rfl id
          | some maxsize =>
              simp only [step, hphase, Option.some.injEq] at hstep
              subst hstep
              exact .phase _ (by rw [hphase]; rfl) fun _ => rfl
      | started | draining | finishing => cases maxsize <;> simp [step, hphase] at hstep
  | readAvailable =>
      cases hphase : s.phase with
      | started builder =>
          simp only [step, hphase] at hstep
          split at hstep <;> cases hstep <;>
            exact .phase _ (by rw [hphase]; rfl) fun hholds => by
              rw [hphase] at hholds
              exact hholds
      | idle | draining | finishing => simp [step, hphase] at hstep
  | pop =>
      cases hphase : s.phase with
      | draining builder taken =>
          simp only [step, hphase] at hstep
          split at hstep
          · rename_i message rest hpop
            cases hstep
            exact .pop hphase hpop
          · -- the queue is empty, so the loop is over
            cases hstep
            exact .phase _ (by rw [hphase]; rfl) fun hholds => by
              rw [hphase] at hholds
              exact hholds
      | idle | started | finishing => simp [step, hphase] at hstep
  | publish =>
      cases hphase : s.phase with
      | finishing builder taken =>
          simp only [step, hphase, Option.some.injEq] at hstep
          subst hstep
          exact .publish hphase
      | idle | started | draining => simp [step, hphase] at hstep

/-- What becomes of a datagram: it waits in the queue, or a cycle has popped it
and has given it to the builder. -/
structure Accounted (s : State) : Prop where
  received : s.published.flatMap Published.taken ++ s.phase.taken ++ s.queue.items = s.received
  builder : s.phase.Holds
  published : ∀ sequence ∈ s.published,
    sequence.chunkSize = 16 + framedBytes QueueMessage.size sequence.taken ∧
      values sequence.items = ifFits QueueMessage.size sequence.maxsize sequence.taken

theorem holds_addMessage {builder : Builder QueueMessage} {taken : List QueueMessage}
    (h : Holds builder taken) (message : QueueMessage) :
    Holds (addMessage builder message) (taken ++ [message]) := by
  have hsize : (addMessage builder message).size = builder.size := rfl
  unfold Holds at h ⊢
  rw [hsize, List.foldl_append, ← h]
  rfl

/-- What is published of a builder. -/
theorem published_of_holds {builder : Builder QueueMessage} {taken : List QueueMessage}
    (h : Holds builder taken) :
    builder.offset = 16 + framedBytes QueueMessage.size taken ∧
      values builder.pop = ifFits QueueMessage.size builder.size taken := by
  constructor
  · calc builder.offset
        = (taken.foldl addMessage (pushSequence builder.size)).offset :=
          congrArg Builder.offset h
      _ = 16 + framedBytes QueueMessage.size taken := offset_foldl_addFramed taken _
  · calc values builder.pop
        = values (taken.foldl addMessage (pushSequence builder.size)).pop :=
          congrArg (fun b => values b.pop) h
      _ = ifFits QueueMessage.size builder.size taken :=
          values_pop_foldl_addFramed builder.size taken

theorem accounted_receive {s : State} (h : Accounted s) {message : QueueMessage}
    (hroom : s.queue.HasRoom) :
    Accounted { s with
      queue := (s.queue.push message).2
      received := s.received ++ [message] } := by
  refine ⟨?_, h.builder, h.published⟩
  show _ ++ (s.queue.push message).2.items = s.received ++ [message]
  rw [BoundedFifo.items_push_of_hasRoom hroom, ← h.received, List.append_assoc _ s.queue.items]

/-- The signal processor goes on without popping or publishing. -/
theorem accounted_phase {s : State} (h : Accounted s) {phase : Phase}
    (htaken : phase.taken = s.phase.taken) (hholds : phase.Holds) :
    Accounted { s with phase := phase } := by
  refine ⟨?_, hholds, h.published⟩
  show _ ++ phase.taken ++ _ = s.received
  rw [htaken, h.received]

theorem accounted_pop {s : State} (h : Accounted s) {builder : Builder QueueMessage}
    {taken : List QueueMessage} (hphase : s.phase = .draining builder taken)
    {message : QueueMessage} {rest : BoundedFifo 128 QueueMessage}
    (hpop : s.queue.pop = some (message, rest)) :
    Accounted { s with
      queue := rest
      phase := .draining (addMessage builder message) (taken ++ [message]) } := by
  have hreceived := h.received
  have hbuilder := h.builder
  rw [hphase] at hreceived hbuilder
  refine ⟨?_, holds_addMessage hbuilder message, h.published⟩
  calc s.published.flatMap Published.taken ++ (taken ++ [message]) ++ rest.items
      = s.published.flatMap Published.taken ++ taken ++ (message :: rest.items) := by simp
    _ = s.received := by rw [← BoundedFifo.items_of_pop hpop]; exact hreceived

theorem accounted_publish {s : State} (h : Accounted s) {builder : Builder QueueMessage}
    {taken : List QueueMessage} (hphase : s.phase = .finishing builder taken) :
    Accounted { s with
      phase := .idle
      published := s.published ++ [⟨builder.size, builder.offset, builder.pop, taken⟩] } := by
  have hreceived := h.received
  have hbuilder := h.builder
  rw [hphase] at hreceived hbuilder
  refine ⟨?_, trivial, ?_⟩
  · simpa [Phase.taken] using hreceived
  · intro sequence hmem
    rcases List.mem_append.mp hmem with hold | hnew
    · exact h.published sequence hold
    · cases List.mem_singleton.mp hnew
      exact published_of_holds hbuilder

theorem accounted_step {s s' : State} {label : Label} (h : Accounted s)
    (hguard : WithinQueue s label) (hstep : step s label = some s') : Accounted s' := by
  cases effect_step hstep with
  | receive message => exact accounted_receive h hguard
  | phase phase htaken hholds => exact accounted_phase h htaken (hholds h.builder)
  | pop hphase hpop => exact accounted_pop h hphase hpop
  | publish hphase => exact accounted_publish h hphase

theorem accounted_of_run {labels : List Label} {s : State}
    (run : Run step WithinQueue initial labels s) : Accounted s := by
  refine run.state_invariant ⟨rfl, trivial, ?_⟩ fun _ _ _ => accounted_step
  exact fun _ hmem => absurd hmem List.not_mem_nil

/-- A sequence that fits has all messages of its cycle. -/
theorem values_of_fits {s : State} (h : Accounted s) {sequence : Published}
    (hmem : sequence ∈ s.published) (hfits : sequence.Fits) :
    values sequence.items = sequence.taken :=
  (h.published sequence hmem).2.trans (ifFits_of_fits hfits)

/-- **Datagrams.**  While at most 128 datagrams are pending, chunks keep to their
buffers and datagrams arrive whole, once and in order, exactly when in every
cycle the controls of what it has popped fit in the buffer. -/
theorem delivered_iff_allFit {labels : List Label} {s : State}
    (run : Run step WithinQueue initial labels s) :
    Delivered s ↔ ∀ sequence ∈ s.published, sequence.Fits := by
  have h := accounted_of_run run
  constructor
  · intro hdelivered sequence hmem
    calc 16 + framedBytes QueueMessage.size sequence.taken
        = sequence.chunkSize := (h.published sequence hmem).1.symm
      _ ≤ sequence.maxsize := hdelivered.chunks sequence hmem
  · intro hfits
    constructor
    · intro sequence hmem
      rw [(h.published sequence hmem).1]
      exact hfits sequence hmem
    · have hvalues : (s.published.flatMap fun sequence => values sequence.items) =
          s.published.flatMap Published.taken :=
        List.flatMap_congr fun sequence hmem => values_of_fits h hmem (hfits sequence hmem)
      rw [hvalues]
      exact h.received

/-- A message of 32 bytes. -/
def smallMessage : QueueMessage :=
  ⟨List.replicate 32 47, by simp⟩

/-- Some messages that arrive before a cycle with a buffer of 4096 bytes. -/
def burst (count : ℕ) : List Label :=
  List.replicate count (.receive smallMessage) ++ [.cycle (some 4096), .readAvailable] ++
    List.replicate (count + 1) .pop ++ [.publish]

/-- The controls of 85 messages still fit. -/
theorem delivered_iff_allFit_burst :
    ∃ s, s.received.length = 85 ∧ s.queue.items = [] ∧ Delivered s := by
  have htrace : (exec (fun s a => if decide (WithinQueue s a) then step s a else none) initial
      (burst 85)).map (fun s => decide (s.received.length = 85 ∧ s.queue.items = [] ∧
        ∀ sequence ∈ s.published,
          16 + framedBytes QueueMessage.size sequence.taken ≤ sequence.maxsize)) = some true := by
    decide +kernel
  obtain ⟨s, hs, hlast⟩ := Option.map_eq_some_iff.mp htrace
  obtain ⟨hreceived, hqueue, hfits⟩ := of_decide_eq_true hlast
  exact ⟨s, hreceived, hqueue,
    (delivered_iff_allFit (run_of_checked (fun _ _ => of_decide_eq_true) hs)).mpr hfits⟩

/-- A burst of 100 messages is lost, and the chunk exceeds the buffer. -/
theorem burst_overflows :
    ¬ ∀ labels s, Run step WithinQueue initial labels s → Delivered s := by
  intro h
  have htrace : (exec (fun s a => if decide (WithinQueue s a) then step s a else none) initial
      (burst 100)).map (fun s => decide (s.published.map (fun sequence =>
        (sequence.maxsize, sequence.chunkSize,
          (values sequence.items).length)) = [(4096, 4816, 0)])) =
          some true := by
    decide +kernel
  obtain ⟨s, hs, hlast⟩ := Option.map_eq_some_iff.mp htrace
  have hpublished := of_decide_eq_true hlast
  have hdelivered := h _ s (run_of_checked (fun _ _ => of_decide_eq_true) hs)
  obtain ⟨sequence, hmem, hsequence⟩ : ∃ sequence ∈ s.published,
      (sequence.maxsize, sequence.chunkSize, (values sequence.items).length) = (4096, 4816, 0) :=
    List.mem_map.mp (by rw [hpublished]; exact List.mem_singleton.mpr rfl)
  have hchunk := hdelivered.chunks sequence hmem
  rw [Prod.mk.injEq, Prod.mk.injEq] at hsequence
  omega

end Pmx.OscNetworkReceiver
