import Pmx.Library.BoundedFifo
import Pmx.Library.Transition
import Pmx.MidiRouter

/-!
# The two threads of pmx-midi-router

The state of the router lives in three node parameters.  The signal processor
reads them one after the other, processes its ports, and pushes the new state if
it has changed; `update_parameter_value_thread` empties the queue and writes the
last state it has popped into the parameters, one after the other.

The `pop` is the one for output iterators, since it is given the address of the
message: it takes out all that is queued, and writes it to the message and on behind
it, so that only the oldest state gets into the message.

The newest state is the last one in the queue, or the one in the hands of the
thread, or else the parameters.  A cycle that has read anything else computes
from a stale state and takes the updates in between back, and a push on a full
queue is lost.  `NothingStale` excludes both.  Under it no second state is ever
queued, since the cycles in between read what the first one replaces
(`oneQueued_step`), and the newest state is that of the sequential run
(`followsRun_step`).
-/

namespace Pmx.MidiRouter

open Cxx Transition

/-- How far a cycle has come. -/
inductive CyclePhase
  | idle
  | readLayer (buffers : Buffers) (activeLayer : Str)
  | readBase (buffers : Buffers) (activeLayer : Str) (baseChannelId : ℤ)
  | ready (buffers : Buffers) (state : RouterState)

/-- How far `update_parameter_value_thread` has come; `latest` is the last state
it has popped. -/
inductive ThreadPhase
  | waiting
  | draining (latest : RouterState)
  | wroteLayer (latest : RouterState)
  | wroteBase (latest : RouterState)
  deriving DecidableEq

/-- `overrun`: a `pop` has written behind the message of the thread.  `processed`: the
buffers of all cycles that are over. -/
structure State where
  parameters : RouterState
  queue : BoundedFifo 2 RouterState
  cycle : CyclePhase
  thread : ThreadPhase
  overrun : Bool
  processed : List Buffers

/-- A cycle with its buffers begins, the cycle goes on, or the thread does. -/
inductive Label
  | begin (buffers : Buffers)
  | cycle
  | thread

/-- Nothing is queued, no cycle is running, and the thread waits. -/
def initial (start : RouterState) : State :=
  ⟨start, .empty, .idle, .waiting, false, []⟩

/-- A step of the signal processor. -/
def cycleStep (s : State) : Option State :=
  match s.cycle with
  | .idle => none
  | .readLayer buffers activeLayer =>
      some { s with cycle := .readBase buffers activeLayer s.parameters.baseChannelId }
  | .readBase buffers activeLayer baseChannelId =>
      some { s with
        cycle := .ready buffers ⟨activeLayer, baseChannelId, s.parameters.selectedChannelId⟩ }
  | .ready buffers state =>
      let result := process state buffers
      some { s with
        queue := if result.changes then (s.queue.push result.state).2 else s.queue
        cycle := .idle
        processed := s.processed ++ [buffers] }

/-- `queue.pop(&message)` with some states behind the oldest one. -/
def popped (s : State) (message : RouterState) (behind : List RouterState) : State :=
  { s with
    queue := .empty
    thread := .draining message
    overrun := s.overrun || !behind.isEmpty }

/-- A step of `update_parameter_value_thread`. -/
def threadStep (s : State) : Option State :=
  match s.thread with
  | .waiting => s.queue.drain.map fun (message, behind) => popped s message behind
  | .draining latest =>
      match s.queue.drain with
      | some (message, behind) => some (popped s message behind)
      | none => some { s with
          parameters := { s.parameters with activeLayer := latest.activeLayer }
          thread := .wroteLayer latest }
  | .wroteLayer latest => some { s with
      parameters := { s.parameters with baseChannelId := latest.baseChannelId }
      thread := .wroteBase latest }
  | .wroteBase latest => some { s with
      parameters := { s.parameters with selectedChannelId := latest.selectedChannelId }
      thread := .waiting }

/-- A cycle without an output buffer is over at once. -/
def step (s : State) : Label → Option State
  | .begin buffers =>
      match s.cycle with
      | .idle =>
          -- without an output buffer the cycle is over at once
          if buffers.outBuffer = false then some { s with processed := s.processed ++ [buffers] }
          else some { s with cycle := .readLayer buffers s.parameters.activeLayer }
      | _ => none
  | .cycle => cycleStep s
  | .thread => threadStep s

/-- What a step of the signal processor does: it reads the next parameter, or it processes the
messages with what it has read. -/
theorem cycleStep_cases {s s' : State} (hstep : cycleStep s = some s') :
    (∃ buffers activeLayer, s.cycle = .readLayer buffers activeLayer ∧
        s' = { s with cycle := .readBase buffers activeLayer s.parameters.baseChannelId }) ∨
      (∃ buffers activeLayer baseChannelId,
        s.cycle = .readBase buffers activeLayer baseChannelId ∧
          s' = { s with
            cycle :=
              .ready buffers ⟨activeLayer, baseChannelId, s.parameters.selectedChannelId⟩ }) ∨
      ∃ buffers state, s.cycle = .ready buffers state ∧
        s' = { s with
          queue := if (process state buffers).changes then
            (s.queue.push (process state buffers).state).2 else s.queue
          cycle := .idle
          processed := s.processed ++ [buffers] } := by
  unfold cycleStep at hstep
  cases hcycle : s.cycle with
  | idle =>
      rw [hcycle] at hstep
      cases hstep
  | readLayer buffers activeLayer =>
      rw [hcycle] at hstep
      exact Or.inl ⟨buffers, activeLayer, rfl, (Option.some.inj hstep).symm⟩
  | readBase buffers activeLayer baseChannelId =>
      rw [hcycle] at hstep
      exact Or.inr (Or.inl ⟨buffers, activeLayer, baseChannelId, rfl, (Option.some.inj hstep).symm⟩)
  | ready buffers state =>
      rw [hcycle] at hstep
      exact Or.inr (Or.inr ⟨buffers, state, rfl, (Option.some.inj hstep).symm⟩)

/-- What a step of the thread does: it pops what is queued, or it writes the next parameter of
the state it popped last. -/
theorem threadStep_cases {s s' : State} (hstep : threadStep s = some s') :
    (((∃ latest, s.thread = .draining latest) ∨ s.thread = .waiting) ∧
        ∃ message behind, s.queue.drain = some (message, behind) ∧
          s' = popped s message behind) ∨
      (∃ latest, s.thread = .draining latest ∧ s.queue.items = [] ∧
        s' = { s with
          parameters := { s.parameters with activeLayer := latest.activeLayer }
          thread := .wroteLayer latest }) ∨
      (∃ latest, s.thread = .wroteLayer latest ∧
        s' = { s with
          parameters := { s.parameters with baseChannelId := latest.baseChannelId }
          thread := .wroteBase latest }) ∨
      ∃ latest, s.thread = .wroteBase latest ∧
        s' = { s with
          parameters := { s.parameters with selectedChannelId := latest.selectedChannelId }
          thread := .waiting } := by
  unfold threadStep at hstep
  cases hthread : s.thread with
  | waiting =>
      rw [hthread] at hstep
      obtain ⟨⟨message, behind⟩, hpop, rfl⟩ := Option.map_eq_some_iff.mp hstep
      exact Or.inl ⟨Or.inr rfl, message, behind, hpop, rfl⟩
  | draining latest =>
      simp only [hthread] at hstep
      cases hpop : s.queue.drain with
      | some entries =>
          rw [hpop] at hstep
          exact Or.inl ⟨Or.inl ⟨latest, rfl⟩, entries.1, entries.2, rfl,
            (Option.some.inj hstep).symm⟩
      | none =>
          rw [hpop] at hstep
          exact Or.inr (Or.inl ⟨latest, rfl, BoundedFifo.drain_eq_none.mp hpop,
            (Option.some.inj hstep).symm⟩)
  | wroteLayer latest =>
      rw [hthread] at hstep
      exact Or.inr (Or.inr (Or.inl ⟨latest, rfl, (Option.some.inj hstep).symm⟩))
  | wroteBase latest =>
      rw [hthread] at hstep
      exact Or.inr (Or.inr (Or.inr ⟨latest, rfl, (Option.some.inj hstep).symm⟩))

/-- The state that the parameters are about to have, or have. -/
def inHand (s : State) : RouterState :=
  match s.thread with
  | .waiting => s.parameters
  | .draining latest => latest
  | .wroteLayer latest => latest
  | .wroteBase latest => latest

/-- The last state that was pushed. -/
def newest (s : State) : RouterState :=
  s.queue.items.getLast?.getD (inHand s)

/-- No message asks for a layer, bank or channel other than those of `state`. -/
structure Inert (state : RouterState) (buffers : Buffers) : Prop where
  layer : ∀ buffer, buffers.groupChannels = some buffer → ∀ value,
    .controlChange 64 value ∈ getMidiMessages buffer → requestedLayer value = state.activeLayer
  numbers : ∀ buffer, buffers.inputChannelsMix = some buffer →
    (0 ≤ state.baseChannelId ∧ state.baseChannelId ≤ 255) ∧
      0 ≤ state.selectedChannelId ∧ state.selectedChannelId ≤ 255
  bank : ∀ buffer, buffers.inputChannelsMix = some buffer → ∀ note bank,
    .noteOff note ∈ getMidiMessages buffer → bankNotes.lookup note = some bank →
      (bank.toNat : ℤ) = state.baseChannelId
  selection : ∀ buffer, buffers.inputChannelsMix = some buffer → ∀ note offset,
    .noteOff note ∈ getMidiMessages buffer → bankNotes.lookup note = none →
      selectionNotes.lookup note = some offset →
        ((UInt8.ofInt state.baseChannelId + offset).toNat : ℤ) = state.selectedChannelId

/-- A cycle that is about to process has read the newest state and finds room in
the queue, or its messages ask for nothing new. -/
def NothingStale (s : State) : Label → Prop
  | .cycle => ∀ buffers state, s.cycle = .ready buffers state →
      (state = newest s ∧ s.queue.HasRoom) ∨ (Inert state buffers ∧ Inert (newest s) buffers)
  | _ => True

/-- No state is queued behind the one that the thread pops. -/
def SinglePop (s : State) : Label → Prop
  | .thread =>
      match s.thread with
      | .waiting | .draining _ => s.queue.items.length ≤ 1
      | _ => True
  | _ => True

instance (s : State) : DecidablePred (SinglePop s)
  | .begin _ | .cycle => inferInstanceAs (Decidable True)
  | .thread =>
      match h : s.thread with
      | .waiting | .draining _ =>
          decidable_of_iff (s.queue.items.length ≤ 1) (by simp only [SinglePop, h])
      | .wroteLayer _ | .wroteBase _ => isTrue (by simp only [SinglePop, h])

/-! ## Messages that ask for nothing new -/

/-- A message that asks for no other layer leaves the layer. -/
theorem layer_groupChannelsStep {layer : Str} {current : Str × List Routed} {message : Message}
    (hasked : ∀ value, message = .controlChange 64 value → requestedLayer value = layer)
    (hcurrent : current.1 = layer) : (groupChannelsStep current message).1 = layer := by
  cases message with
  | controlChange ccNumber value =>
      by_cases hselector : ccNumber = 64
      · rw [groupChannelsStep, if_pos hselector]
        apply hasked
        rw [hselector]
      · rw [groupChannelsStep, if_neg hselector]
        cases Parameters.findTargetParameterForGroupChannels ccNumber <;> exact hcurrent
  | noteOff note => exact hcurrent
  | other => exact hcurrent

theorem groupChannels_of_inert {state : RouterState} {buffers : Buffers}
    (hinert : Inert state buffers) : (groupChannels state buffers.groupChannels).state = state := by
  cases hbuffer : buffers.groupChannels with
  | none => rfl
  | some buffer =>
      have hlayer : (processGroupChannelsPort buffer state.activeLayer).1 = state.activeLayer := by
        unfold processGroupChannelsPort
        apply List.foldlRecOn
          (motive := fun current : Str × List Routed => current.1 = state.activeLayer)
        · rfl
        · intro current hcurrent message hmessage
          apply layer_groupChannelsStep _ hcurrent
          rintro value rfl
          exact hinert.layer buffer hbuffer value hmessage
      simp only [groupChannels, hlayer]

/-- The mix port is at the numbers of a state. -/
def AtNumbers (state : RouterState) (current : MixState) : Prop :=
  current.baseChannelId = UInt8.ofInt state.baseChannelId ∧
    current.selectedChannelId = UInt8.ofInt state.selectedChannelId

/-- A message that asks for no other bank or channel leaves the numbers. -/
theorem atNumbers_inputChannelsMixStep {state : RouterState} {buffers : Buffers} {buffer : Buffer}
    {current : MixState} {message : Message} (hinert : Inert state buffers)
    (hbuffer : buffers.inputChannelsMix = some buffer) (hmessage : message ∈ getMidiMessages buffer)
    (hcurrent : AtNumbers state current) :
    AtNumbers state (inputChannelsMixStep state.activeLayer current message) := by
  obtain ⟨⟨hbaseLow, hbaseHigh⟩, hselectedLow, hselectedHigh⟩ := hinert.numbers buffer hbuffer
  have hbase := toNat_ofInt hbaseLow hbaseHigh
  have hselected := toNat_ofInt hselectedLow hselectedHigh
  cases message with
  | controlChange ccNumber value => exact hcurrent
  | noteOff note =>
      simp only [inputChannelsMixStep]
      cases hbank : bankNotes.lookup note with
      | some bank =>
          have hsame := hinert.bank buffer hbuffer note bank hmessage hbank
          refine ⟨UInt8.toNat_inj.mp ?_, hcurrent.2⟩
          show bank.toNat = (UInt8.ofInt state.baseChannelId).toNat
          omega
      | none =>
          cases hselection : selectionNotes.lookup note with
          | some offset =>
              have hsame := hinert.selection buffer hbuffer note offset hmessage hbank hselection
              refine ⟨hcurrent.1, UInt8.toNat_inj.mp ?_⟩
              simp only [hcurrent.1]
              omega
          | none => exact hcurrent
  | other => exact hcurrent

theorem inputChannelsMix_of_inert {state : RouterState} {buffers : Buffers}
    (hinert : Inert state buffers) :
    (inputChannelsMix state buffers.inputChannelsMix).state = state := by
  cases hbuffer : buffers.inputChannelsMix with
  | none => rfl
  | some buffer =>
      obtain ⟨⟨hbaseLow, hbaseHigh⟩, hselectedLow, hselectedHigh⟩ := hinert.numbers buffer hbuffer
      have hfinal : AtNumbers state (processInputChannelsMixPort buffer state.activeLayer
          (UInt8.ofInt state.baseChannelId) (UInt8.ofInt state.selectedChannelId)) := by
        unfold processInputChannelsMixPort
        apply List.foldlRecOn (motive := AtNumbers state)
        · exact ⟨rfl, rfl⟩
        · intro current hcurrent message hmessage
          exact atNumbers_inputChannelsMixStep hinert hbuffer hmessage hcurrent
      simp only [inputChannelsMix, hfinal.1, hfinal.2, toNat_ofInt hbaseLow hbaseHigh,
        toNat_ofInt hselectedLow hselectedHigh]

theorem process_of_inert {state : RouterState} {buffers : Buffers}
    (hinert : Inert state buffers) :
    (process state buffers).state = state ∧ (process state buffers).changes = false := by
  have hstate : (process state buffers).state = state := by
    unfold process
    split_ifs
    · rfl
    · show (inputChannelsMix (groupChannels state buffers.groupChannels).state
        buffers.inputChannelsMix).state = state
      rw [groupChannels_of_inert hinert, inputChannelsMix_of_inert hinert]
  refine ⟨hstate, ?_⟩
  rw [Bool.eq_false_iff, ne_eq, changes_iff]
  exact not_not_intro hstate

/-! ## One step -/

theorem processAll_append (state : RouterState) (first second : List Buffers) :
    (processAll state (first ++ second)).1 = (processAll (processAll state first).1 second).1 := by
  induction first generalizing state with
  | nil => rfl
  | cons buffers rest ih => exact ih _

/-- The newest state is that of the sequential run, and a thread that is writing
has already written what lies behind it. -/
structure FollowsRun (start : RouterState) (s : State) : Prop where
  newest_eq : newest s = (processAll start s.processed).1
  layerWritten : ∀ latest, s.thread = .wroteLayer latest →
    s.parameters.activeLayer = latest.activeLayer
  baseWritten : ∀ latest, s.thread = .wroteBase latest →
    s.parameters.activeLayer = latest.activeLayer ∧
      s.parameters.baseChannelId = latest.baseChannelId

theorem processAll_snoc (state : RouterState) (cycles : List Buffers) (buffers : Buffers) :
    (processAll state (cycles ++ [buffers])).1 =
      (process (processAll state cycles).1 buffers).state := by
  rw [processAll_append]
  rfl

/-- With messages in the queue, only the last one matters. -/
theorem newest_of_getLast? {s : State} {message : RouterState}
    (h : s.queue.items.getLast? = some message) : newest s = message := by
  rw [newest, h, Option.getD_some]

/-- The newest state depends on the queue and on the hand only. -/
theorem newest_congr {s s' : State} (hqueue : s'.queue = s.queue) (hhand : inHand s' = inHand s) :
    newest s' = newest s := by
  rw [newest, newest, hqueue, hhand]

/-- The only message was the newest one. -/
theorem newest_popped {s : State} {message : RouterState} {behind : List RouterState}
    (hpop : s.queue.drain = some (message, behind)) (hlength : s.queue.items.length ≤ 1) :
    newest (popped s message behind) = newest s := by
  have hitems := (BoundedFifo.drain_of_length_le hpop hlength).1
  rw [newest_of_getLast? (s := s) (by rw [hitems]; rfl)]
  rfl

/-- A cycle that processes leaves the state of the sequential run as the newest one. -/
theorem newest_of_ready {start : RouterState} {s : State} {buffers : Buffers}
    {state : RouterState} (hnewest : newest s = (processAll start s.processed).1)
    (hcurrent : (state = newest s ∧ s.queue.HasRoom) ∨
      (Inert state buffers ∧ Inert (newest s) buffers)) :
    newest { s with
        queue := if (process state buffers).changes then
          (s.queue.push (process state buffers).state).2 else s.queue
        cycle := .idle
        processed := s.processed ++ [buffers] } =
      (processAll start (s.processed ++ [buffers])).1 := by
  rw [processAll_snoc, ← hnewest]
  rcases hcurrent with ⟨rfl, hroom⟩ | ⟨hinert, hinertNewest⟩
  · -- the cycle has read the newest state, and pushes the one after it
    cases hchanges : (process (newest s) buffers).changes with
    | true =>
        apply newest_of_getLast?
        show (s.queue.push (process (newest s) buffers).state).2.items.getLast? = _
        rw [BoundedFifo.items_push_of_hasRoom hroom, List.getLast?_concat]
    | false =>
        have hsame : (process (newest s) buffers).state = newest s := by
          by_contra hdiffers
          have hpushed := (changes_iff _ _).mpr hdiffers
          rw [hchanges] at hpushed
          cases hpushed
        rw [hsame]
        rfl
  · -- the messages change neither the state the cycle has read nor the newest one
    rw [(process_of_inert hinert).2, (process_of_inert hinertNewest).1]
    rfl

theorem followsRun_cycleStep {start : RouterState} {s s' : State}
    (hfollows : FollowsRun start s) (hguard : NothingStale s .cycle)
    (hstep : cycleStep s = some s') : FollowsRun start s' := by
  obtain ⟨hnewest, hlayer, hbase⟩ := hfollows
  rcases cycleStep_cases hstep with
    ⟨_, _, _, rfl⟩ | ⟨_, _, _, _, rfl⟩ | ⟨buffers, state, hcycle, rfl⟩
  · exact ⟨hnewest, hlayer, hbase⟩
  · exact ⟨hnewest, hlayer, hbase⟩
  · exact ⟨newest_of_ready hnewest (hguard buffers state hcycle), hlayer, hbase⟩

theorem followsRun_threadStep {start : RouterState} {s s' : State}
    (hfollows : FollowsRun start s) (hlength : s.queue.items.length ≤ 1)
    (hstep : threadStep s = some s') : FollowsRun start s' := by
  obtain ⟨hnewest, hlayer, hbase⟩ := hfollows
  rcases threadStep_cases hstep with ⟨-, message, behind, hpop, rfl⟩ |
    ⟨latest, hthread, -, rfl⟩ | ⟨latest, hthread, rfl⟩ | ⟨latest, hthread, rfl⟩
  · exact ⟨(newest_popped hpop hlength).trans hnewest, (fun _ h => by cases h),
      (fun _ h => by cases h)⟩
  · have hhand : inHand s = latest := by rw [inHand, hthread]
    refine ⟨?_, fun _ h => ?_, (fun _ h => by cases h)⟩
    · rw [← hnewest]
      exact newest_congr rfl hhand.symm
    · cases h
      rfl
  · have hhand : inHand s = latest := by rw [inHand, hthread]
    refine ⟨?_, (fun _ h => by cases h), fun _ h => ?_⟩
    · rw [← hnewest]
      exact newest_congr rfl hhand.symm
    · cases h
      exact ⟨hlayer latest hthread, rfl⟩
  · -- with the third write the parameters are the state in hand
    have hhand : inHand s = latest := by rw [inHand, hthread]
    obtain ⟨hlayerWritten, hbaseWritten⟩ := hbase latest hthread
    have hparameters :
        { s.parameters with selectedChannelId := latest.selectedChannelId } = latest :=
      RouterState.ext hlayerWritten hbaseWritten rfl
    refine ⟨?_, (fun _ h => by cases h), (fun _ h => by cases h)⟩
    rw [hparameters, ← hnewest]
    exact newest_congr rfl hhand.symm

theorem followsRun_step {start : RouterState} {s s' : State} {label : Label}
    (hfollows : FollowsRun start s) (hlength : s.queue.items.length ≤ 1)
    (hguard : NothingStale s label)
    (hstep : step s label = some s') : FollowsRun start s' := by
  cases label with
  | begin buffers =>
      simp only [step] at hstep
      split at hstep
      · split at hstep
        · rename_i hout
          cases hstep
          refine ⟨?_, hfollows.layerWritten, hfollows.baseWritten⟩
          rw [processAll_snoc, process, if_pos hout]
          exact hfollows.newest_eq
        · cases hstep
          exact ⟨hfollows.newest_eq, hfollows.layerWritten, hfollows.baseWritten⟩
      · cases hstep
  | cycle => exact followsRun_cycleStep hfollows hguard hstep
  | thread => exact followsRun_threadStep hfollows hlength hstep

/-! ## One state in the queue -/

/-- What the cycle has read so far passes some tests. -/
def CyclePhase.Reads (layer : Str → Prop) (base selected : ℤ → Prop) : CyclePhase → Prop
  | .idle => True
  | .readLayer _ activeLayer => layer activeLayer
  | .readBase _ activeLayer baseChannelId => layer activeLayer ∧ base baseChannelId
  | .ready _ state =>
      layer state.activeLayer ∧ base state.baseChannelId ∧ selected state.selectedChannelId

theorem CyclePhase.Reads.mono {layer layer' : Str → Prop} {base base' selected selected' : ℤ → Prop}
    {phase : CyclePhase} (h : phase.Reads layer base selected) (hlayer : ∀ a, layer a → layer' a)
    (hbase : ∀ n, base n → base' n) (hselected : ∀ n, selected n → selected' n) :
    phase.Reads layer' base' selected' := by
  cases phase with
  | idle => trivial
  | readLayer buffers activeLayer => exact hlayer _ h
  | readBase buffers activeLayer baseChannelId => exact ⟨hlayer _ h.1, hbase _ h.2⟩
  | ready buffers state => exact ⟨hlayer _ h.1, hbase _ h.2.1, hselected _ h.2.2⟩

/-- The cycle has read the parameters as they are. -/
def ReadsParameters (s : State) : Prop :=
  s.cycle.Reads (· = s.parameters.activeLayer) (· = s.parameters.baseChannelId)
    (· = s.parameters.selectedChannelId)

/-- Where the cycle has read the state in hand, the parameter has it. -/
def ReadsWritten (s : State) : Prop :=
  s.cycle.Reads (fun a => a = (inHand s).activeLayer → s.parameters.activeLayer = a)
    (fun n => n = (inHand s).baseChannelId → s.parameters.baseChannelId = n)
    fun n => n = (inHand s).selectedChannelId → s.parameters.selectedChannelId = n

/-- At most one state is queued.  While it is, the parameters are the state in hand, which
is another one, and the cycle reads them; and nothing has been written behind a message. -/
structure OneQueued (s : State) : Prop where
  contained : s.overrun = false
  length : s.queue.items.length ≤ 1
  queued : s.queue.items ≠ [] →
    s.parameters = inHand s ∧ newest s ≠ inHand s ∧ ReadsParameters s
  written : s.queue.items = [] → ReadsWritten s

theorem newest_of_empty {s : State} (h : s.queue.items = []) : newest s = inHand s := by
  rw [newest, h]
  rfl

/-- A cycle that has read the newest state finds the queue empty, and the parameters are
that state. -/
theorem OneQueued.of_ready {s : State} (h : OneQueued s) {buffers : Buffers} {state : RouterState}
    (hcycle : s.cycle = .ready buffers state) (hnewest : state = newest s) :
    s.queue.items = [] ∧ s.parameters = inHand s ∧ state = inHand s := by
  by_cases hqueue : s.queue.items = []
  · have hhand : state = inHand s := hnewest.trans (newest_of_empty hqueue)
    have hwritten := h.written hqueue
    rw [ReadsWritten, hcycle, ← hhand] at hwritten
    obtain ⟨hlayer, hbase, hselected⟩ := hwritten
    have hparameters : s.parameters = state :=
      RouterState.ext (hlayer rfl) (hbase rfl) (hselected rfl)
    exact ⟨hqueue, hparameters.trans hhand, hhand⟩
  · obtain ⟨hparameters, hother, hreads⟩ := h.queued hqueue
    rw [ReadsParameters, hcycle] at hreads
    obtain ⟨hlayer, hbase, hselected⟩ := hreads
    have hstate : state = s.parameters := RouterState.ext hlayer hbase hselected
    exact absurd (hnewest.symm.trans (hstate.trans hparameters)) hother

/-- A cycle that pushes has read the newest state, and finds the queue empty. -/
theorem OneQueued.processed {s : State} (h : OneQueued s) {buffers : Buffers}
    {state : RouterState} (hcycle : s.cycle = .ready buffers state)
    (hcurrent : (state = newest s ∧ s.queue.HasRoom) ∨
      (Inert state buffers ∧ Inert (newest s) buffers)) :
    OneQueued { s with
      queue := if (process state buffers).changes then
        (s.queue.push (process state buffers).state).2 else s.queue
      cycle := .idle
      processed := s.processed ++ [buffers] } := by
  by_cases hchanges : (process state buffers).changes = true
  · obtain ⟨hnewest, hroom⟩ : state = newest s ∧ s.queue.HasRoom :=
      hcurrent.resolve_right fun hinert => by
        rw [(process_of_inert hinert.1).2] at hchanges
        cases hchanges
    obtain ⟨hqueue, hparameters, hhand⟩ := h.of_ready hcycle hnewest
    have hpushed : (s.queue.push (process state buffers).state).2.items =
        [(process state buffers).state] := by
      rw [BoundedFifo.items_push_of_hasRoom hroom, hqueue, List.nil_append]
    simp only [hchanges, if_true]
    refine ⟨h.contained, by simp only [hpushed]; exact le_rfl, fun _ => ⟨hparameters, ?_, trivial⟩,
      fun hnone => ?_⟩
    · rw [newest_of_getLast? (by simp only [hpushed]; rfl)]
      exact hhand ▸ (changes_iff _ _).mp hchanges
    · simp only [hpushed] at hnone
      cases hnone
  · simp only [hchanges, Bool.false_eq_true, if_false]
    refine ⟨h.contained, h.length, fun hqueue => ?_, fun _ => trivial⟩
    obtain ⟨hparameters, hother, -⟩ := h.queued hqueue
    exact ⟨hparameters, hother, trivial⟩

theorem oneQueued_cycleStep {s s' : State} (h : OneQueued s) (hguard : NothingStale s .cycle)
    (hstep : cycleStep s = some s') : OneQueued s' := by
  rcases cycleStep_cases hstep with ⟨buffers, activeLayer, hcycle, rfl⟩ |
    ⟨buffers, activeLayer, baseChannelId, hcycle, rfl⟩ | ⟨buffers, state, hcycle, rfl⟩
  · refine ⟨h.contained, h.length, fun hqueue => ?_, fun hqueue => ?_⟩
    · obtain ⟨hparameters, hother, hreads⟩ := h.queued hqueue
      rw [ReadsParameters, hcycle] at hreads
      exact ⟨hparameters, hother, hreads, rfl⟩
    · have hwritten := h.written hqueue
      rw [ReadsWritten, hcycle] at hwritten
      exact ⟨hwritten, fun _ => rfl⟩
  · refine ⟨h.contained, h.length, fun hqueue => ?_, fun hqueue => ?_⟩
    · obtain ⟨hparameters, hother, hreads⟩ := h.queued hqueue
      rw [ReadsParameters, hcycle] at hreads
      exact ⟨hparameters, hother, hreads.1, hreads.2, rfl⟩
    · have hwritten := h.written hqueue
      rw [ReadsWritten, hcycle] at hwritten
      exact ⟨hwritten.1, hwritten.2, fun _ => rfl⟩
  · exact h.processed hcycle (hguard buffers state hcycle)

theorem OneQueued.popped {s : State} (h : OneQueued s) {message : RouterState}
    {behind : List RouterState} (hpop : s.queue.drain = some (message, behind)) :
    OneQueued (popped s message behind) := by
  obtain ⟨hitems, hbehind⟩ := BoundedFifo.drain_of_length_le hpop h.length
  obtain ⟨-, -, hreads⟩ := h.queued (by rw [hitems]; exact List.cons_ne_nil _ _)
  refine ⟨?_, Nat.zero_le _, fun hqueue => absurd rfl hqueue, fun _ => ?_⟩
  · show (s.overrun || !behind.isEmpty) = false
    rw [h.contained, hbehind]
    rfl
  · exact hreads.mono (fun _ hread _ => hread.symm) (fun _ hread _ => hread.symm)
      fun _ hread _ => hread.symm

theorem oneQueued_threadStep {s s' : State} (h : OneQueued s)
    (hstep : threadStep s = some s') : OneQueued s' := by
  rcases threadStep_cases hstep with ⟨-, message, behind, hpop, rfl⟩ |
    ⟨latest, hthread, hempty, rfl⟩ | ⟨latest, hthread, rfl⟩ | ⟨latest, hthread, rfl⟩
  · exact h.popped hpop
  · have hhand : inHand s = latest := by rw [inHand, hthread]
    have hwritten := h.written hempty
    rw [ReadsWritten, hhand] at hwritten
    exact ⟨h.contained, h.length, fun hqueue => absurd hempty hqueue, fun _ =>
      hwritten.mono (fun _ _ hread => hread.symm) (fun _ hread => hread) fun _ hread => hread⟩
  · have hhand : inHand s = latest := by rw [inHand, hthread]
    refine ⟨h.contained, h.length, fun hqueue => ?_, fun hqueue => ?_⟩
    · -- the parameters have the state in hand already
      obtain ⟨hparameters, hother, hreads⟩ := h.queued hqueue
      have hsame : { s.parameters with baseChannelId := latest.baseChannelId } = s.parameters := by
        rw [hparameters, hhand]
      rw [hsame]
      refine ⟨hparameters.trans hhand, fun hnewest => hother ?_, hreads⟩
      exact (hnewest.symm.trans (newest_congr (s := s) rfl hhand.symm)).symm.trans hhand.symm
    · have hwritten := h.written hqueue
      rw [ReadsWritten, hhand] at hwritten
      exact hwritten.mono (fun _ hread => hread) (fun _ _ hread => hread.symm) fun _ hread => hread
  · have hhand : inHand s = latest := by rw [inHand, hthread]
    refine ⟨h.contained, h.length, fun hqueue => ?_, fun hqueue => ?_⟩
    · obtain ⟨hparameters, hother, hreads⟩ := h.queued hqueue
      have hsame :
          { s.parameters with selectedChannelId := latest.selectedChannelId } = s.parameters := by
        rw [hparameters, hhand]
      rw [hsame]
      refine ⟨rfl, fun hnewest => hother ?_, hreads⟩
      exact (hnewest.symm.trans (newest_congr (s := s) rfl hparameters)).symm.trans hparameters
    · -- the third write completes the state in hand
      exact (h.written hqueue).mono (fun _ _ hread => hread.symm) (fun _ _ hread => hread.symm)
        fun _ _ hread => hread.symm

theorem oneQueued_step {s s' : State} {label : Label} (h : OneQueued s)
    (hguard : NothingStale s label) (hstep : step s label = some s') : OneQueued s' := by
  cases label with
  | begin buffers =>
      simp only [step] at hstep
      split at hstep
      · rename_i hcycle
        split at hstep
        · cases hstep
          exact ⟨h.contained, h.length, h.queued, h.written⟩
        · cases hstep
          refine ⟨h.contained, h.length, fun hqueue => ?_, fun _ _ => rfl⟩
          obtain ⟨hparameters, hother, -⟩ := h.queued hqueue
          exact ⟨hparameters, hother, rfl⟩
      · cases hstep
  | cycle => exact oneQueued_cycleStep h hguard hstep
  | thread => exact oneQueued_threadStep h hstep

/-! ## Whole runs -/

theorem followsRun_of_run {start : RouterState} {labels : List Label} {s : State}
    (run : Run step NothingStale (initial start) labels s) : FollowsRun start s ∧ OneQueued s := by
  refine run.state_invariant (I := fun s => FollowsRun start s ∧ OneQueued s) ?_ ?_
  · exact ⟨⟨rfl, (fun _ h => by cases h), (fun _ h => by cases h)⟩,
      ⟨rfl, Nat.zero_le _, fun hqueue => absurd rfl hqueue, fun _ => trivial⟩⟩
  · rintro s label s' ⟨hfollows, hone⟩ hguard hstep
    exact ⟨followsRun_step hfollows hone.length hguard hstep,
      oneQueued_step hone hguard hstep⟩

/-- **No update is lost** in a run in which no cycle works from a stale state: once
the queue is empty and the thread waits, the parameters are the state after all
buffers, processed one after another, and nothing has been written behind a message. -/
theorem parameters_eq_processAll {start : RouterState} {labels : List Label} {s : State}
    (run : Run step NothingStale (initial start) labels s) (hqueue : s.queue.items = [])
    (hthread : s.thread = .waiting) :
    s.parameters = (processAll start s.processed).1 ∧ s.overrun = false := by
  obtain ⟨hfollows, hone⟩ := followsRun_of_run run
  refine ⟨?_, hone.contained⟩
  calc s.parameters = newest s := by
        rw [newest_of_empty hqueue, inHand, hthread]
    _ = (processAll start s.processed).1 := hfollows.newest_eq

/-- The first slot of a buffer. -/
def single (message : Message) : Buffer :=
  .ok (Vector.ofFn fun i => if i.val = 0 then some message else none)

/-- The layer selector on the group port. -/
def selectLayerB : Buffers :=
  ⟨true, some (single (.controlChange 64 4294967295)), none, none⟩

/-- The second bank on the mix port. -/
def selectSecondBank : Buffers :=
  ⟨true, none, some (single (.noteOff 26)), none⟩

/-- A cycle from its first read to its push. -/
def wholeCycle (buffers : Buffers) : List Label :=
  [.begin buffers, .cycle, .cycle, .cycle]

/-- The layer is switched and written, and still there after the next cycle. -/
theorem parameters_eq_processAll_two_cycles :
    ∃ s : State, s.parameters = (processAll initialState s.processed).1 ∧
      s.parameters = ⟨lit "B", 8, 1⟩ := by
  let check : State → Label → Bool := fun s label =>
    match label, s.cycle with
    | .cycle, .ready _ state => state = newest s ∧ s.queue.HasRoom
    | _, _ => true
  have hcheck : ∀ s label, check s label = true → NothingStale s label := by
    intro s label hpassed
    cases label with
    | begin buffers => trivial
    | cycle =>
        intro buffers state hready
        simp only [check, hready, decide_eq_true_eq] at hpassed
        exact Or.inl hpassed
    | thread => trivial
  have htrace : (exec (fun s a => if check s a then step s a else none) (initial initialState)
      (wholeCycle selectLayerB ++ List.replicate 4 .thread ++
        wholeCycle selectSecondBank ++ List.replicate 4 .thread)).map (fun s =>
          decide (s.queue.items = [] ∧ s.thread = .waiting ∧ s.parameters = ⟨lit "B", 8, 1⟩)) =
      some true := by
    decide
  obtain ⟨s, hs, hlast⟩ := Option.map_eq_some_iff.mp htrace
  obtain ⟨hqueue, hthread, hparameters⟩ := of_decide_eq_true hlast
  exact ⟨s, (parameters_eq_processAll (run_of_checked hcheck hs) hqueue hthread).1, hparameters⟩

/-- The second cycle reads the layer after the thread has popped the switch and before it
has written it, and takes it back; every `pop` finds a single state. -/
theorem layer_switch_lost :
    ¬ ∀ labels s, Run step SinglePop (initial initialState) labels s → s.queue.items = [] →
      s.thread = .waiting → s.parameters = (processAll initialState s.processed).1 := by
  intro h
  have htrace : (exec (fun s a => if decide (SinglePop s a) then step s a else none)
      (initial initialState) (wholeCycle selectLayerB ++ [.thread] ++ wholeCycle selectSecondBank ++
        List.replicate 4 .thread)).map (fun s =>
          decide (s.queue.items = [] ∧ s.thread = .waiting ∧
            s.parameters ≠ (processAll initialState s.processed).1)) = some true := by
    decide
  obtain ⟨s, hs, hlast⟩ := Option.map_eq_some_iff.mp htrace
  obtain ⟨hqueue, hthread, hlost⟩ := of_decide_eq_true hlast
  exact hlost (h _ s (run_of_checked (fun _ _ => of_decide_eq_true) hs) hqueue hthread)

end Pmx.MidiRouter
