import Pmx.Library.Cxx
import Pmx.Library.GreedyMatch
import Pmx.Library.PodBuilder
import Pmx.Ump

/-!
# pmx-lp-mini-init

The application brings a Launchpad into its session mode.  Three tasks wait in a
queue, and a cycle works on the one in front.  The handshake asks for the device
id, again after every five seconds, until the three words of the answer have come
in their order.  Then the session mode is enabled and the first state is sent,
each as soon as there is an output buffer.

Messages that do not fit into the output buffer come out as an empty sequence, and
the task goes on as if they had been sent.  The second message of the session mode
is taken from the third of four words on, but with the length of all four: behind
its two words it carries two more, from behind the array.
-/

namespace Pmx.LpMiniInit

open Cxx PodBuilder Ump

/-- What the program has to do, one after the other. -/
inductive TaskType
  | handShake
  | enableSessionMode
  | setupInitialSessionState
  deriving DecidableEq, Repr

/-- A task, with the time of its last message. -/
structure Task where
  type : TaskType
  lastSendTime : Option ℤ

/-- `tasks` and `handshake_response`. -/
structure State where
  tasks : List Task
  handshakeResponse : List UInt32

/-- The words of the answer. -/
def handshakeResponse : List UInt32 :=
  [806780416, 807807251, 808649734]

/-- The tasks at the start, in their order. -/
def initial : State :=
  ⟨[⟨.handShake, none⟩, ⟨.enableSessionMode, none⟩, ⟨.setupInitialSessionState, none⟩],
    handshakeResponse⟩

/-- Five seconds, in the ticks of the system clock. -/
def timeout : ℤ := 5000000000

/-! ## Messages -/

/-- The word of four bytes. -/
def word (first second third fourth : UInt32) : UInt32 :=
  first <<< 24 ||| second <<< 16 ||| third <<< 8 ||| fourth

/-- The request of the handshake: a device inquiry. -/
def deviceIdRequest : UmpMessage :=
  [word 0b00110000 4 126 127, word 6 1 0 0]

/-- `ump_message` of the session mode. -/
def sessionModeWords : UmpMessage :=
  [word 0b00110000 0b00010110 0 32, word 41 2 13 16, word 0b00110000 0b00110001 1 0,
    word 0 0 0 0]

/-- The sixteen bytes from the third word on, where `beyond` are the two words
behind the array. -/
def sessionModeSecond (beyond : UInt32 × UInt32) : UmpMessage :=
  sessionModeWords.drop 2 ++ [beyond.1, beyond.2]

/-- The message for the first pad of the session. -/
def initialSessionState : UmpMessage :=
  [word 0b00100000 0b10000001 81 144]

/-! ## A cycle -/

/-- What a cycle finds: its buffers, the output buffer by its capacity, the clock
at its test for the timeout and when it notes the time of sending, and the memory
behind `ump_message`. -/
structure Cycle where
  inBuffer : Option (List Control)
  outBuffer : Option ℕ
  testTime : ℤ
  sendTime : ℤ
  beyond : UInt32 × UInt32

/-- A message in an output buffer, with the time that is noted for it. -/
structure Sent where
  time : ℤ
  message : UmpMessage
  deriving DecidableEq

/-- One control of the input in the handshake. -/
def handleControl (expected : List UInt32) (control : Control) : List UInt32 :=
  if control.type ≠ controlUmp then expected
  else
    match control.body with
    | .length8 first second => GreedyMatch.consume (GreedyMatch.consume expected first) second
    | _ => expected

/-- What an output buffer holds behind the writes of some messages. -/
def emitted (outBuffer : Option ℕ) (messages : List UmpMessage) : List UmpMessage :=
  match outBuffer with
  | some maxsize =>
      values (messages.foldl (addFramed controlUmp UmpMessage.size) (pushSequence maxsize)).pop
  | none => []

/-- The first request, and one that comes later than the timeout. -/
def due (lastSendTime : Option ℤ) (now : ℤ) : Bool :=
  match lastSendTime with
  | none => true
  | some time => time + timeout < now

/-- `hand_shake`: the answer is awaited, and the request repeated after a timeout. -/
def handShake (s : State) (lastSendTime : Option ℤ) (rest : List Task) (input : Cycle) :
    State × List Sent :=
  let expected := (input.inBuffer.getD []).foldl handleControl s.handshakeResponse
  let sends : Bool :=
    input.outBuffer.isSome && !expected.isEmpty && due lastSendTime input.testTime
  let task : Task := ⟨.handShake, if sends then some input.sendTime else lastSendTime⟩
  (⟨if expected.isEmpty then rest else task :: rest, expected⟩,
    if sends then (emitted input.outBuffer [deviceIdRequest]).map (Sent.mk input.sendTime)
    else [])

/-- `enable_session_mode`: both messages in one cycle, and the task is done. -/
def enableSessionMode (s : State) (lastSendTime : Option ℤ) (rest : List Task) (input : Cycle) :
    State × List Sent :=
  if input.outBuffer.isNone then (s, [])
  else
    ({ s with tasks := rest },
      if lastSendTime.isNone then
        (emitted input.outBuffer [sessionModeWords, sessionModeSecond input.beyond]).map
          (Sent.mk input.sendTime)
      else [])

/-- `setup_initial_session_state`: sent once, and the task stays. -/
def setupInitialSessionState (s : State) (lastSendTime : Option ℤ) (rest : List Task)
    (input : Cycle) : State × List Sent :=
  if input.outBuffer.isSome && lastSendTime.isNone then
    ({ s with tasks := ⟨.setupInitialSessionState, some input.sendTime⟩ :: rest },
      (emitted input.outBuffer [initialSessionState]).map (Sent.mk input.sendTime))
  else (s, [])

/-- The signal processor.  `front()` needs a task. -/
def cycle (s : State) (input : Cycle) : Except Fault (State × List Sent) :=
  match s.tasks with
  | [] => .error .indexOutOfBounds
  | ⟨.handShake, lastSendTime⟩ :: rest => .ok (handShake s lastSendTime rest input)
  | ⟨.enableSessionMode, lastSendTime⟩ :: rest =>
      .ok (enableSessionMode s lastSendTime rest input)
  | ⟨.setupInitialSessionState, lastSendTime⟩ :: rest =>
      .ok (setupInitialSessionState s lastSendTime rest input)

/-- The state after some cycles, and all that they have sent. -/
def run (s : State) : List Cycle → Except Fault (State × List Sent)
  | [] => return (s, [])
  | input :: rest => do
      let (next, sent) ← cycle s input
      let (final, later) ← run next rest
      return (final, sent ++ later)

/-! ## What a run sends -/

/-- The words of an eight byte message. -/
def controlWords (control : Control) : List UInt32 :=
  if control.type ≠ controlUmp then []
  else
    match control.body with
    | .length8 first second => [first, second]
    | _ => []

/-- The words that a cycle receives. -/
def inputWords (input : Cycle) : List UInt32 :=
  (input.inBuffer.getD []).flatMap controlWords

/-- The words that some cycles receive. -/
def words (cycles : List Cycle) : List UInt32 :=
  cycles.flatMap inputWords

/-- Requests for the device id, each later than a time, if there is one, and any two
of them more than the timeout apart. -/
structure AreRequests (after : Option ℤ) (requests : List Sent) : Prop where
  message : ∀ request ∈ requests, request.message = deviceIdRequest
  later : ∀ time, after = some time → ∀ request ∈ requests, time + timeout < request.time
  apart : requests.Pairwise fun first second => first.time + timeout < second.time

/-- The first state, at most once. -/
def IsSetup (sent : List Sent) : Prop :=
  sent = [] ∨ ∃ time, sent = [⟨time, initialSessionState⟩]

/-- The two messages of the session mode as they are sent. -/
def IsSession (sent : List Sent) : Prop :=
  ∃ time beyond, sent = [⟨time, sessionModeWords⟩, ⟨time, sessionModeSecond beyond⟩]

/-- The two messages that the array is meant for: the first with all its words, or with
the first two of them, and the second with the last two. -/
def IsSessionPair (sent : List Sent) : Prop :=
  ∃ first, (first = sessionModeWords ∨ first = sessionModeWords.take 2) ∧
    sent.map Sent.message = [first, sessionModeWords.drop 2]

/-- Requests, then at most one session mode of a kind, then at most one first
state. -/
def Ordered (session : List Sent → Prop) (sent : List Sent) : Prop :=
  ∃ requests sessionMode setup, sent = requests ++ sessionMode ++ setup ∧
    AreRequests none requests ∧ (sessionMode = [] ∨ session sessionMode) ∧ IsSetup setup

/-- The type of the task in front. -/
def State.active (s : State) : Option TaskType :=
  s.tasks.head?.map Task.type

/-- The session mode has its turn, with room for its messages. -/
def EmitsSession (s : State) (input : Cycle) : Prop :=
  s.active = some .enableSessionMode ∧ ∃ maxsize, input.outBuffer = some maxsize ∧ 80 ≤ maxsize

/-- No cycle of a run emits the session mode. -/
def NeverEmitsSession (s : State) : List Cycle → Prop
  | [] => True
  | input :: rest => ¬ EmitsSession s input ∧
      ∀ next sent, cycle s input = .ok (next, sent) → NeverEmitsSession next rest

/-- The handshake is not over. -/
def HandshakeOpen (s : State) : Prop :=
  .handShake ∈ s.tasks.map Task.type

/-! ## Single cycles -/

theorem handleControl_eq (expected : List UInt32) (control : Control) :
    handleControl expected control = GreedyMatch.consumeAll expected (controlWords control) := by
  unfold handleControl controlWords
  split_ifs
  · rfl
  · cases control.body <;> rfl

/-- The handshake of a cycle takes the received words greedily. -/
theorem foldl_handleControl (expected : List UInt32) (controls : List Control) :
    controls.foldl handleControl expected =
      GreedyMatch.consumeAll expected (controls.flatMap controlWords) := by
  induction controls generalizing expected with
  | nil => rfl
  | cons control rest ih =>
      rw [List.foldl_cons, ih, handleControl_eq, List.flatMap_cons,
        GreedyMatch.consumeAll_append]

theorem emitted_eq (maxsize : ℕ) (messages : List UmpMessage) :
    emitted (some maxsize) messages = ifFits UmpMessage.size maxsize messages :=
  values_pop_foldl_addFramed maxsize messages

/-- A single message is emitted, or nothing is. -/
theorem emitted_single (outBuffer : Option ℕ) (message : UmpMessage) :
    emitted outBuffer [message] = [] ∨ emitted outBuffer [message] = [message] := by
  cases outBuffer with
  | none => exact Or.inl rfl
  | some maxsize =>
      rw [emitted_eq, ifFits_singleton]
      split_ifs
      · exact Or.inr rfl
      · exact Or.inl rfl

/-- The session mode comes out whole or not at all. -/
theorem emitted_session (maxsize : ℕ) (beyond : UInt32 × UInt32) :
    emitted (some maxsize) [sessionModeWords, sessionModeSecond beyond] =
      if 80 ≤ maxsize then [sessionModeWords, sessionModeSecond beyond] else [] := by
  have hlength : UmpMessage.size (sessionModeSecond beyond) = 16 := rfl
  have hbytes : 16 + framedBytes UmpMessage.size [sessionModeWords, sessionModeSecond beyond] =
      80 := by
    rw [framedBytes_cons, framedBytes_cons, hlength]
    rfl
  rw [emitted_eq, ifFits, hbytes]

/-- The run behind a cycle. -/
theorem run_cons {s next final : State} {input : Cycle} {rest : List Cycle}
    {sent later : List Sent} (hcycle : cycle s input = .ok (next, sent))
    (hrun : run next rest = .ok (final, later)) :
    run s (input :: rest) = .ok (final, sent ++ later) := by
  rw [run, hcycle]
  simp [bind, Except.bind, hrun, pure, Except.pure]

theorem neverEmitsSession_cons {s next : State} {input : Cycle} {rest : List Cycle}
    {sent : List Sent} (hcycle : cycle s input = .ok (next, sent)) :
    NeverEmitsSession s (input :: rest) ↔ ¬ EmitsSession s input ∧ NeverEmitsSession next rest := by
  rw [NeverEmitsSession, hcycle]
  refine and_congr_right fun _ => ⟨fun h => h next sent rfl, fun h _ _ heq => ?_⟩
  cases heq
  exact h

/-- A cycle with another task in front emits no session mode. -/
theorem not_emitsSession {s : State} {task : Task} {rest : List Task}
    (hfront : s.tasks = task :: rest) (hother : task.type ≠ .enableSessionMode)
    (input : Cycle) : ¬ EmitsSession s input := by
  intro hemits
  have hactive := hemits.1
  rw [State.active, hfront] at hactive
  exact hother (Option.some.inj hactive)

/-! ## The last task -/

/-- The state in which only the first state is left to send. -/
def setupState (lastSendTime : Option ℤ) (response : List UInt32) : State :=
  ⟨[⟨.setupInitialSessionState, lastSendTime⟩], response⟩

theorem run_setupState (response : List UInt32) (lastSendTime : Option ℤ)
    (cycles : List Cycle) :
    ∃ final sent, run (setupState lastSendTime response) cycles = .ok (final, sent) ∧
      IsSetup sent ∧ (lastSendTime.isSome → sent = []) ∧ ¬ HandshakeOpen final ∧
      NeverEmitsSession (setupState lastSendTime response) cycles := by
  induction cycles generalizing lastSendTime with
  | nil =>
      exact ⟨_, [], rfl, Or.inl rfl, fun _ => rfl, by simp [HandshakeOpen, setupState], trivial⟩
  | cons input rest ih =>
      have hquiet : ¬ EmitsSession (setupState lastSendTime response) input :=
        not_emitsSession rfl TaskType.noConfusion input
      by_cases hsends : (input.outBuffer.isSome && lastSendTime.isNone) = true
      · -- the one cycle that sends
        obtain ⟨final, sent, hrun, _, hsilent, hopen, hnever⟩ := ih (some input.sendTime)
        have hcycle : cycle (setupState lastSendTime response) input =
            .ok (setupState (some input.sendTime) response,
              (emitted input.outBuffer [initialSessionState]).map (Sent.mk input.sendTime)) :=
          congrArg Except.ok (if_pos hsends)
        refine ⟨final, _, run_cons hcycle hrun, ?_, ?_, hopen,
          (neverEmitsSession_cons hcycle).mpr ⟨hquiet, hnever⟩⟩
        · rw [hsilent rfl, List.append_nil]
          rcases emitted_single input.outBuffer initialSessionState with hnone | hone
          · rw [hnone]
            exact Or.inl rfl
          · rw [hone]
            exact Or.inr ⟨input.sendTime, rfl⟩
        · intro hsome
          rw [Bool.and_eq_true, Option.isNone_iff_eq_none] at hsends
          rw [hsends.2] at hsome
          cases hsome
      · obtain ⟨final, sent, hrun, hsetup, hsilent, hopen, hnever⟩ := ih lastSendTime
        have hcycle : cycle (setupState lastSendTime response) input =
            .ok (setupState lastSendTime response, []) :=
          congrArg Except.ok (if_neg hsends)
        exact ⟨final, sent, run_cons hcycle hrun, hsetup, hsilent, hopen,
          (neverEmitsSession_cons hcycle).mpr ⟨hquiet, hnever⟩⟩

/-! ## The session mode -/

/-- Either nothing of the session mode is emitted and never will be, or it is. -/
def SessionOutcome (s : State) (cycles : List Cycle) (session : List Sent) : Prop :=
  (session = [] ∧ NeverEmitsSession s cycles) ∨
    (IsSession session ∧ ¬ NeverEmitsSession s cycles)

theorem sessionOutcome_cons {s next : State} {input : Cycle} {rest : List Cycle}
    {sent session : List Sent} (hcycle : cycle s input = .ok (next, sent))
    (hquiet : ¬ EmitsSession s input) (h : SessionOutcome next rest session) :
    SessionOutcome s (input :: rest) session := by
  unfold SessionOutcome
  rw [neverEmitsSession_cons hcycle, and_iff_right hquiet]
  exact h

/-- The session mode has its turn, and nothing has been sent for it. -/
def sessionState (response : List UInt32) : State :=
  ⟨[⟨.enableSessionMode, none⟩, ⟨.setupInitialSessionState, none⟩], response⟩

/-- Without an output buffer the session mode waits. -/
theorem cycle_sessionState_none (response : List UInt32) {input : Cycle}
    (houtput : input.outBuffer = none) :
    cycle (sessionState response) input = .ok (sessionState response, []) :=
  congrArg Except.ok (if_pos (by rw [houtput]; rfl))

/-- With one it has its only turn. -/
theorem cycle_sessionState_some (response : List UInt32) {input : Cycle} {maxsize : ℕ}
    (houtput : input.outBuffer = some maxsize) :
    cycle (sessionState response) input =
      .ok (setupState none response,
        (emitted (some maxsize) [sessionModeWords, sessionModeSecond input.beyond]).map
          (Sent.mk input.sendTime)) := by
  rw [← houtput]
  exact congrArg Except.ok (if_neg (by rw [houtput]; exact Bool.false_ne_true))

theorem emitsSession_sessionState (response : List UInt32) {input : Cycle} {maxsize : ℕ}
    (houtput : input.outBuffer = some maxsize) :
    EmitsSession (sessionState response) input ↔ 80 ≤ maxsize := by
  constructor
  · rintro ⟨_, size, hsome, hroom⟩
    rw [houtput] at hsome
    cases hsome
    exact hroom
  · exact fun hroom => ⟨rfl, maxsize, houtput, hroom⟩

/-- The turn of the session mode decides what becomes of it. -/
theorem sessionOutcome_turn (response : List UInt32) {input : Cycle} {rest : List Cycle}
    {maxsize : ℕ} (houtput : input.outBuffer = some maxsize)
    (hnever : NeverEmitsSession (setupState none response) rest) :
    SessionOutcome (sessionState response) (input :: rest)
      ((emitted (some maxsize) [sessionModeWords, sessionModeSecond input.beyond]).map
        (Sent.mk input.sendTime)) := by
  have hemits : NeverEmitsSession (sessionState response) (input :: rest) ↔ ¬ 80 ≤ maxsize := by
    rw [neverEmitsSession_cons (cycle_sessionState_some response houtput),
      emitsSession_sessionState response houtput, and_iff_left hnever]
  rw [SessionOutcome, hemits, emitted_session, not_not]
  by_cases hroom : 80 ≤ maxsize
  · rw [if_pos hroom]
    exact Or.inr ⟨⟨input.sendTime, input.beyond, rfl⟩, hroom⟩
  · rw [if_neg hroom]
    exact Or.inl ⟨rfl, hroom⟩

theorem run_sessionState (response : List UInt32) (cycles : List Cycle) :
    ∃ final session setup, run (sessionState response) cycles = .ok (final, session ++ setup) ∧
      SessionOutcome (sessionState response) cycles session ∧ IsSetup setup ∧
      ¬ HandshakeOpen final := by
  induction cycles with
  | nil =>
      exact ⟨_, [], [], rfl, Or.inl ⟨rfl, trivial⟩, Or.inl rfl,
        by simp [HandshakeOpen, sessionState]⟩
  | cons input rest ih =>
      cases houtput : input.outBuffer with
      | none =>
          obtain ⟨final, session, setup, hrun, hsession, hsetup, hopen⟩ := ih
          have hcycle := cycle_sessionState_none response houtput
          have hquiet : ¬ EmitsSession (sessionState response) input := by
            rintro ⟨_, maxsize, hsome, _⟩
            rw [houtput] at hsome
            cases hsome
          have hwhole : run (sessionState response) (input :: rest) =
              .ok (final, session ++ setup) := by
            simpa using run_cons hcycle hrun
          exact ⟨final, session, setup, hwhole, sessionOutcome_cons hcycle hquiet hsession, hsetup,
            hopen⟩
      | some maxsize =>
          obtain ⟨final, setup, hrun, hsetup, _, hopen, hnever⟩ :=
            run_setupState response none rest
          exact ⟨final, _, setup, run_cons (cycle_sessionState_some response houtput) hrun,
            sessionOutcome_turn response houtput hnever, hsetup, hopen⟩

/-! ## The handshake -/

/-- The state in the handshake, with what is still expected of the answer. -/
def handshakeState (lastSendTime : Option ℤ) (expected : List UInt32) : State :=
  ⟨[⟨.handShake, lastSendTime⟩, ⟨.enableSessionMode, none⟩, ⟨.setupInitialSessionState, none⟩],
    expected⟩

theorem AreRequests.nil (after : Option ℤ) : AreRequests after [] :=
  ⟨by simp, by simp, List.Pairwise.nil⟩

/-- A request that is due, and those that are later than it. -/
theorem AreRequests.cons {after : Option ℤ} {input : Cycle} {requests : List Sent}
    (hdue : due after input.testTime = true) (hclock : input.testTime ≤ input.sendTime)
    (h : AreRequests (some input.sendTime) requests) :
    AreRequests after requests ∧
      AreRequests after (⟨input.sendTime, deviceIdRequest⟩ :: requests) := by
  have hafter : ∀ time, after = some time → time + timeout < input.sendTime := by
    rintro time rfl
    exact (of_decide_eq_true hdue).trans_le hclock
  have hlater : ∀ time, after = some time → ∀ request ∈ requests,
      time + timeout < request.time := by
    intro time htime request hrequest
    have hfirst := hafter time htime
    have hsecond := h.later _ rfl request hrequest
    unfold timeout at *
    omega
  refine ⟨⟨h.message, hlater, h.apart⟩, ?_, ?_, ?_⟩
  · rw [List.forall_mem_cons]
    exact ⟨rfl, h.message⟩
  · intro time htime
    rw [List.forall_mem_cons]
    exact ⟨hafter time htime, hlater time htime⟩
  · rw [List.pairwise_cons]
    exact ⟨h.later _ rfl, h.apart⟩

/-- A cycle of the handshake ends it, or sends what is due. -/
theorem cycle_handshakeState (lastSendTime : Option ℤ) (expected : List UInt32) (input : Cycle) :
    (GreedyMatch.consumeAll expected (inputWords input) = [] ∧
        cycle (handshakeState lastSendTime expected) input = .ok (sessionState [], [])) ∨
      (GreedyMatch.consumeAll expected (inputWords input) ≠ [] ∧ ∃ after sent,
        cycle (handshakeState lastSendTime expected) input =
          .ok (handshakeState after (GreedyMatch.consumeAll expected (inputWords input)), sent) ∧
        (input.testTime ≤ input.sendTime → ∀ requests, AreRequests after requests →
          AreRequests lastSendTime (sent ++ requests))) := by
  have hwords : (input.inBuffer.getD []).foldl handleControl expected =
      GreedyMatch.consumeAll expected (inputWords input) :=
    foldl_handleControl expected _
  have hcycle : cycle (handshakeState lastSendTime expected) input =
      .ok (handShake (handshakeState lastSendTime expected) lastSendTime
        [⟨.enableSessionMode, none⟩, ⟨.setupInitialSessionState, none⟩] input) := rfl
  rw [hcycle]
  simp only [handShake, handshakeState, hwords]
  cases hleft : GreedyMatch.consumeAll expected (inputWords input) with
  | nil => exact Or.inl ⟨rfl, by simp [sessionState]⟩
  | cons next rest =>
      refine Or.inr ⟨List.cons_ne_nil _ _, ?_⟩
      by_cases hsends : (input.outBuffer.isSome && !(next :: rest).isEmpty &&
          due lastSendTime input.testTime) = true
      · refine ⟨some input.sendTime, (emitted input.outBuffer [deviceIdRequest]).map
          (Sent.mk input.sendTime), by simp only [hsends]; rfl, ?_⟩
        intro hclock requests hrequests
        rw [Bool.and_eq_true] at hsends
        obtain ⟨hdropped, hsent⟩ := hrequests.cons hsends.2 hclock
        rcases emitted_single input.outBuffer deviceIdRequest with hnone | hone
        · rw [hnone]
          exact hdropped
        · rw [hone]
          exact hsent
      · rw [Bool.not_eq_true] at hsends
        exact ⟨lastSendTime, [], by simp only [hsends]; rfl, fun _ requests hrequests => hrequests⟩

theorem run_handshakeState {lastSendTime : Option ℤ} {expected : List UInt32}
    (hexpected : expected ≠ []) (cycles : List Cycle)
    (hclock : ∀ input ∈ cycles, input.testTime ≤ input.sendTime) :
    ∃ final requests session setup,
      run (handshakeState lastSendTime expected) cycles =
        .ok (final, requests ++ (session ++ setup)) ∧
      AreRequests lastSendTime requests ∧
      SessionOutcome (handshakeState lastSendTime expected) cycles session ∧ IsSetup setup ∧
      (HandshakeOpen final ↔ ¬ expected.Sublist (words cycles)) ∧
      (¬ expected.Sublist (words cycles) → session = [] ∧ setup = []) := by
  induction cycles generalizing lastSendTime expected with
  | nil =>
      refine ⟨_, [], [], [], rfl, AreRequests.nil _, Or.inl ⟨rfl, trivial⟩, Or.inl rfl, ?_,
        fun _ => ⟨rfl, rfl⟩⟩
      simp [HandshakeOpen, handshakeState, words, hexpected]
  | cons input rest ih =>
      obtain ⟨hinput, hclock⟩ := List.forall_mem_cons.mp hclock
      have hquiet : ¬ EmitsSession (handshakeState lastSendTime expected) input :=
        not_emitsSession rfl TaskType.noConfusion input
      have hwords : expected.Sublist (words (input :: rest)) ↔
          (GreedyMatch.consumeAll expected (inputWords input)).Sublist (words rest) :=
        GreedyMatch.sublist_append_iff_consumeAll expected (inputWords input) (words rest)
      rw [hwords]
      rcases cycle_handshakeState lastSendTime expected input with
        ⟨hdone, hcycle⟩ | ⟨hleft, after, sent, hcycle, hrequests⟩
      · -- the answer is complete: the session mode is next
        obtain ⟨final, session, setup, hrun, hsession, hsetup, hopen⟩ := run_sessionState [] rest
        refine ⟨final, [], session, setup, run_cons hcycle hrun, AreRequests.nil _,
          sessionOutcome_cons hcycle hquiet hsession, hsetup, ?_, ?_⟩
        · rw [hdone]
          simp [hopen]
        · intro hnot
          rw [hdone] at hnot
          exact absurd (List.nil_sublist _) hnot
      · obtain ⟨final, requests, session, setup, hrun, hlater, hsession, hsetup, hopen, hnone⟩ :=
          ih hleft hclock
        refine ⟨final, sent ++ requests, session, setup, ?_, hrequests hinput requests hlater,
          sessionOutcome_cons hcycle hquiet hsession, hsetup, hopen, hnone⟩
        rw [List.append_assoc]
        exact run_cons hcycle hrun

/-! ## Whole runs -/

/-- The first message of the session mode comes with the second one of a pair. -/
theorem pair_of_sessionModeWords {sent : List Sent} (hordered : Ordered IsSessionPair sent)
    (hmem : sessionModeWords ∈ sent.map Sent.message) :
    sessionModeWords.drop 2 ∈ sent.map Sent.message := by
  obtain ⟨requests, session, setup, rfl, hrequests, hsession, hsetup⟩ := hordered
  have hrequest : sessionModeWords ∉ requests.map Sent.message := by
    rw [List.mem_map]
    rintro ⟨request, hrequest, hmessage⟩
    rw [hrequests.message request hrequest] at hmessage
    exact absurd hmessage (by decide)
  have hstate : sessionModeWords ∉ setup.map Sent.message := by
    rcases hsetup with rfl | ⟨time, rfl⟩
    · exact List.not_mem_nil
    · exact (by decide : sessionModeWords ∉ [initialSessionState])
  rw [List.map_append, List.map_append, List.mem_append, List.mem_append] at hmem ⊢
  rcases hsession with rfl | ⟨first, _, hpair⟩
  · rcases hmem with (hmem | hmem) | hmem
    · exact absurd hmem hrequest
    · cases hmem
    · exact absurd hmem hstate
  · rw [hpair]
    exact Or.inl (Or.inr (List.mem_cons_of_mem _ (List.mem_singleton_self _)))

/-- No output has the second message of a pair: the one that is sent is longer. -/
theorem second_not_mem {requests session setup : List Sent} (hrequests : AreRequests none requests)
    (hsession : IsSession session) (hsetup : IsSetup setup) :
    sessionModeWords.drop 2 ∉ (requests ++ (session ++ setup)).map Sent.message := by
  rw [List.mem_map]
  rintro ⟨sent, hmem, hmessage⟩
  rw [List.mem_append, List.mem_append] at hmem
  rcases hmem with hmem | hmem | hmem
  · rw [hrequests.message sent hmem] at hmessage
    exact absurd hmessage (by decide)
  · -- all of these have four words
    have hlength : sent.message.length = 4 := by
      obtain ⟨time, beyond, rfl⟩ := hsession
      rcases List.mem_pair.mp hmem with rfl | rfl <;> rfl
    rw [hmessage] at hlength
    exact absurd hlength (by decide)
  · rcases hsetup with rfl | ⟨time, rfl⟩
    · cases hmem
    · rw [List.mem_singleton.mp hmem] at hmessage
      exact absurd (congrArg List.length hmessage) (by decide : ¬ 1 = 2)

/-- Once the session mode is emitted, it is no pair. -/
theorem not_ordered_pair {requests session setup : List Sent}
    (hrequests : AreRequests none requests) (hsession : IsSession session)
    (hsetup : IsSetup setup) : ¬ Ordered IsSessionPair (requests ++ (session ++ setup)) := by
  intro hordered
  refine second_not_mem hrequests hsession hsetup (pair_of_sessionModeWords hordered ?_)
  rw [List.map_append, List.map_append, List.mem_append, List.mem_append]
  obtain ⟨time, beyond, rfl⟩ := hsession
  exact Or.inr (Or.inl List.mem_cons_self)

/-- A run has a task in every cycle, and keeps the order of the requests, the
session mode and the first state; the handshake is open until its answer has come,
and before there are only requests.  The session mode is a pair of messages just
if it is never emitted. -/
theorem run_initial (cycles : List Cycle)
    (hclock : ∀ input ∈ cycles, input.testTime ≤ input.sendTime) :
    ∃ final sent, run initial cycles = .ok (final, sent) ∧ Ordered IsSession sent ∧
      (HandshakeOpen final ↔ ¬ handshakeResponse.Sublist (words cycles)) ∧
      (¬ handshakeResponse.Sublist (words cycles) → AreRequests none sent) ∧
      (Ordered IsSessionPair sent ↔ NeverEmitsSession initial cycles) := by
  obtain ⟨final, requests, session, setup, hrun, hrequests, hsession, hsetup, hopen, hnone⟩ :=
    @run_handshakeState none handshakeResponse (List.cons_ne_nil _ _) cycles hclock
  refine ⟨final, _, hrun, ?_, hopen, ?_, ?_⟩
  · refine ⟨requests, session, setup, (List.append_assoc _ _ _).symm, hrequests, ?_, hsetup⟩
    exact hsession.imp And.left And.left
  · intro hnot
    obtain ⟨rfl, rfl⟩ := hnone hnot
    simpa using hrequests
  · rcases hsession with ⟨rfl, hnever⟩ | ⟨hsession, hemits⟩
    · refine iff_of_true ⟨requests, [], setup, ?_, hrequests, Or.inl rfl, hsetup⟩ hnever
      simp
    · exact iff_of_false (not_ordered_pair hrequests hsession hsetup) hemits

/-- A cycle with a buffer of some size, and with an input of some words. -/
def roomyCycle (input : List (UInt32 × UInt32)) (time : ℤ) : Cycle :=
  ⟨some (input.map fun pair => ⟨controlUmp, .length8 pair.1 pair.2⟩), some 4096, time, time,
    (0, 0)⟩

/-- A run that is still in the handshake after six seconds. -/
theorem run_initial_waiting :
    ∃ final sent,
      run initial [roomyCycle [] 0, roomyCycle [(806780416, 7)] 6000000000] =
        .ok (final, sent) ∧ Ordered IsSession sent ∧
      (HandshakeOpen final ↔ ¬ handshakeResponse.Sublist
        (words [roomyCycle [] 0, roomyCycle [(806780416, 7)] 6000000000])) ∧
      (¬ handshakeResponse.Sublist
        (words [roomyCycle [] 0, roomyCycle [(806780416, 7)] 6000000000]) →
        AreRequests none sent) ∧
      (Ordered IsSessionPair sent ↔
        NeverEmitsSession initial [roomyCycle [] 0, roomyCycle [(806780416, 7)] 6000000000]) :=
  run_initial _ (by simp [roomyCycle])

/-- The answer in one cycle and the session mode in the next one: its second
message has two words from behind the array. -/
theorem run_answered_not_pair :
    run initial [roomyCycle [(806780416, 807807251), (808649734, 0)] 0, roomyCycle [] 1] =
        .ok (setupState none [],
          [⟨1, sessionModeWords⟩, ⟨1, sessionModeWords.drop 2 ++ [0, 0]⟩]) ∧
      ¬ Ordered IsSessionPair
        [⟨1, sessionModeWords⟩, ⟨1, sessionModeWords.drop 2 ++ [0, 0]⟩] := by
  have hsession : IsSession [⟨1, sessionModeWords⟩, ⟨1, sessionModeSecond (0, 0)⟩] :=
    ⟨1, (0, 0), rfl⟩
  exact ⟨rfl, not_ordered_pair (AreRequests.nil none) hsession (Or.inl rfl)⟩

end Pmx.LpMiniInit
