import Pmx.Library.Mailbox
import Pmx.Library.PodBuilder
import Pmx.Osc.Message
import Pmx.Osc.Path

/-!
# pmx-console

The console reads a line, makes a request of it and hands it to the signal processor,
which sends it on its OSC port in the next cycle.  Request and response are two
structures that the threads share, guarded by the flags `has_request` and
`has_response`: the mailbox of the library.

The signal processor answers `OK` whenever it gets a buffer, also when the message did
not fit into it.  It sets the status of the response only when it gets none, and no
path sets it back.
-/

namespace Pmx.Console

open Cxx Mailbox Osc PodBuilder Transition

variable {F : Type}

/-! ## Messages -/

/-- `console::command`. -/
inductive Command
  | send
  deriving DecidableEq

/-- `console::sub_command`. -/
inductive SubCommand
  | osc
  | midi
  deriving DecidableEq

/-- An OSC message with one float. -/
structure Packet (F : Type) where
  path : Str
  value : F

/-- `packet.size()`. -/
def Packet.size (packet : Packet F) : ℕ :=
  (floatMessage packet.path 0).size

/-- `request_message`, with the packet that `data` holds. -/
structure RequestMessage (F : Type) where
  command : Command
  subCommand : SubCommand
  data : Option (Packet F)
  size : ℕ

/-- `response_message_status`. -/
inductive ResponseMessageStatus
  | ok
  | error
  deriving DecidableEq

/-- `response_message`.  A status that has never been set has no value. -/
structure ResponseMessage where
  status : Option ResponseMessageStatus
  message : Str
  deriving DecidableEq

/-! ## The command -/

/-- The tokens that `>>` reads from a line. -/
def tokens (line : Str) : List Str :=
  (line.splitOnP isSpace).filter (· ≠ [])

/-- The capacity of `data`. -/
def capacity : ℕ := 1024

/-- `send_command` on the tokens behind the command.  A packet that does not fit
raises an exception. -/
def sendCommand (fromChars : Str → Option F) :
    List Str → Except Fault (Except Error (RequestMessage F))
  | [] => return .error (.invalidArgument (lit "missing sub-command"))
  | subCommand :: stream =>
      if subCommand ≠ lit "osc" then
        return .error (.invalidArgument (lit "unsupported sub-command " ++ subCommand))
      else
        match stream with
        | path :: descriptor :: stream =>
            if descriptor = lit "f" then
              match stream with
              | value :: _ =>
                  match fromChars value with
                  | some value =>
                      let packet : Packet F := ⟨path, value⟩
                      -- the packet has the 1024 bytes of `message.data`, and throws beyond them
                      if capacity < packet.size then .error .uncaught
                      else return .ok ⟨.send, .osc, some packet, packet.size⟩
                  | none => return .error (.invalidArgument (lit "invalid value"))
              -- a missing value leaves the nested conditions, and ends where a missing path does
              | [] => return .error (.invalidArgument (lit "missing path"))
            else return .error (.invalidArgument (lit "not implemented: " ++ descriptor))
        | [_] => return .error (.invalidArgument (lit "missing message descriptor"))
        | [] => return .error (.invalidArgument (lit "missing path"))

/-! ## The signal processor -/

/-- `SPA_CONTROL_OSC`. -/
def controlOsc : ℕ := 3

/-- What a reader of an output buffer finds behind the work on a request. -/
def emitted (request : RequestMessage F) (maxsize : ℕ) : List (Option (Packet F)) :=
  values (addFramed controlOsc (fun _ => request.size) (pushSequence maxsize) request.data).pop

/-- The writes to the response, where `buffer` is what `get_buffer` finds. -/
def answer (_ : RequestMessage F) : Option ℕ → Answer ResponseMessage
  | some _ => ⟨[], [fun response => { response with message := lit "OK" }]⟩
  | none =>
      ⟨[fun response => { response with message := lit "No buffer" },
        fun response => { response with status := some .error }], []⟩

/-! ## The threads -/

abbrev State (F : Type) := Mailbox.State (RequestMessage F) ResponseMessage (Option ℕ)

/-- A line is typed, or one of the threads goes on; `buffer` is what the port has for
a cycle. -/
inductive Label
  | type (line : Str)
  | console
  | cycle (buffer : Option ℕ)

/-- The start, with what the memory of the response's status holds. -/
def initial (status : Option ResponseMessageStatus) : State F :=
  Mailbox.initial ⟨.send, .osc, none, 0⟩ ⟨status, []⟩

/-- A line with the command `send`.  An exception ends the process. -/
def typeLine (fromChars : Str → Option F) (s : State F) (line : Str) : Option (State F) :=
  match tokens line with
  | [] => none
  | token :: stream =>
      if token ≠ lit "send" then none
      else
        match sendCommand fromChars stream with
        | .ok (.ok request) => submitStep s request
        -- the error is printed, and nothing is requested
        | .ok (.error _) => if s.client = .idle then some s else none
        | .error _ => none

def step (fromChars : Str → Option F) (s : State F) : Label → Option (State F)
  | .type line => typeLine fromChars s line
  | .console => clientStep s
  | .cycle buffer => some (serverStep answer s buffer)

/-! ## Right responses -/

/-- The request is in the output buffer. -/
def IsEmitted (entry : RequestMessage F × Option ℕ) : Prop :=
  ∃ maxsize, entry.2 = some maxsize ∧ emitted entry.1 maxsize = [entry.1.data]

/-- The response that says what has become of a request. -/
def IsRight (entry : RequestMessage F × Option ℕ) (response : ResponseMessage) : Prop :=
  (IsEmitted entry ∧ response = ⟨some .ok, lit "OK"⟩) ∨
    (¬ IsEmitted entry ∧ response = ⟨some .error, lit "No buffer"⟩)

/-- A request that gets a buffer fits into it, finds the status `ok` in memory and no
earlier request without a buffer. -/
def Conforms (status : Option ResponseMessageStatus) :
    List (RequestMessage F × Option ℕ) → Prop
  | [] => True
  | (_, none) :: rest => Conforms (some .error) rest
  | (request, some maxsize) :: rest =>
      status = some .ok ∧ 24 + podSize request.size ≤ maxsize ∧ Conforms status rest

instance decidableConforms : (status : Option ResponseMessageStatus) →
    (served : List (RequestMessage F × Option ℕ)) → Decidable (Conforms status served)
  | _, [] => isTrue trivial
  | _, (_, none) :: rest => decidableConforms (some .error) rest
  | status, (request, some maxsize) :: rest =>
      have := decidableConforms status rest
      inferInstanceAs (Decidable (status = some .ok ∧ 24 + podSize request.size ≤ maxsize ∧
        Conforms status rest))

/-- A request is emitted when it fits. -/
theorem isEmitted_some (request : RequestMessage F) (maxsize : ℕ) :
    IsEmitted (request, some maxsize) ↔ 24 + podSize request.size ≤ maxsize := by
  have hemitted : emitted request maxsize =
      ifFits (fun _ => request.size) maxsize [request.data] :=
    @values_pop_foldl_addFramed _ controlOsc (fun _ => request.size) maxsize [request.data]
  have hvalue : IsEmitted (request, some maxsize) ↔
      emitted request maxsize = [request.data] := by
    simp [IsEmitted]
  rw [hvalue, hemitted, ifFits_singleton]
  split_ifs with hfits
  · exact iff_of_true rfl hfits
  · exact iff_of_false (by simp) hfits

theorem not_isEmitted_none (request : RequestMessage F) : ¬ IsEmitted (request, none) := by
  simp [IsEmitted]

/-- The response to a request without a buffer is right. -/
theorem isRight_none (request : RequestMessage F) (response : ResponseMessage) :
    IsRight (request, none) ((answer request none).apply response) :=
  Or.inr ⟨not_isEmitted_none request, rfl⟩

/-- The response to a request with a buffer has the status of the previous one. -/
theorem isRight_some (request : RequestMessage F) (maxsize : ℕ) (response : ResponseMessage) :
    IsRight (request, some maxsize) ((answer request (some maxsize)).apply response) ↔
      response.status = some .ok ∧ 24 + podSize request.size ≤ maxsize := by
  have happly : (answer request (some maxsize)).apply response =
      ⟨response.status, lit "OK"⟩ := rfl
  rw [happly, IsRight, isEmitted_some, ResponseMessage.mk.injEq, ResponseMessage.mk.injEq]
  have hmessage : lit "OK" ≠ lit "No buffer" := by decide
  tauto

/-- The responses to some served requests are right just if they conform. -/
theorem forall_isRight_iff (response : ResponseMessage)
    (served : List (RequestMessage F × Option ℕ)) :
    List.Forall₂ IsRight served (responses answer response served) ↔
      Conforms response.status served := by
  induction served generalizing response with
  | nil => exact iff_of_true .nil trivial
  | cons entry rest ih =>
      obtain ⟨request, _ | maxsize⟩ := entry
      · rw [responses, List.forall₂_cons, ih, and_iff_right (isRight_none request response)]
        rfl
      · rw [responses, List.forall₂_cons, ih, isRight_some, and_assoc]
        rfl

/-! ## Runs -/

theorem typeLine_cases {fromChars : Str → Option F} {s s' : State F} {line : Str}
    (h : typeLine fromChars s line = some s') :
    s' = s ∨ ∃ request, submitStep s request = some s' := by
  unfold typeLine at h
  cases htokens : tokens line with
  | nil =>
      rw [htokens] at h
      cases h
  | cons token stream =>
      simp only [htokens] at h
      by_cases htoken : token ≠ lit "send"
      · rw [if_pos htoken] at h
        cases h
      · rw [if_neg htoken] at h
        rcases hsend : sendCommand fromChars stream with fault | error | request
        · simp only [hsend] at h
          cases h
        · simp only [hsend] at h
          split_ifs at h
          exact Or.inl (Option.some.inj h).symm
        · simp only [hsend] at h
          exact Or.inr ⟨request, h⟩

/-- A step of the console is one of the mailbox, or a line is turned down. -/
theorem step_cases {fromChars : Str → Option F} {s s' : State F} {label : Label}
    (h : step fromChars s label = some s') :
    s' = s ∨ ∃ action, Mailbox.step answer s action = some s' := by
  cases label with
  | type line =>
      rcases typeLine_cases h with rfl | ⟨request, hsubmit⟩
      · exact Or.inl rfl
      · exact Or.inr ⟨.submit request, hsubmit⟩
  | console => exact Or.inr ⟨.client, h⟩
  | cycle buffer => exact Or.inr ⟨.server buffer, h⟩

theorem consistent_of_run {fromChars : Str → Option F}
    {status : Option ResponseMessageStatus} {labels : List Label} {s : State F}
    (run : Reaches (step fromChars) (initial status) labels s) :
    Consistent answer ⟨status, []⟩ s := by
  refine run.state_invariant (consistent_initial _ _) ?_
  intro s label s' h _ hstep
  rcases step_cases hstep with rfl | ⟨action, haction⟩
  · exact h
  · exact consistent_step h haction

/-- The served requests that the console has read the response of. -/
def answered (s : State F) : List (RequestMessage F × Option ℕ) :=
  s.served.take s.answers.length

/-- What the console has read are their responses. -/
theorem answers_eq {s : State F} {response : ResponseMessage}
    (h : Consistent answer response s) :
    s.answers = responses answer response (answered s) := by
  rw [answered, responses_take]
  exact List.prefix_iff_eq_take.mp h.answers.1

/-- A step that writes another request finds none outstanding. -/
theorem settled_of_request_ne {fromChars : Str → Option F} {s s' : State F} {label : Label}
    {response : ResponseMessage} (h : Consistent answer response s)
    (hstep : step fromChars s label = some s') (hrequest : s'.request ≠ s.request) :
    s.served.map Prod.fst = s.accepted := by
  rcases step_cases hstep with rfl | ⟨action, haction⟩
  · exact absurd rfl hrequest
  · by_contra hopen
    refine hrequest (request_eq_of_step haction fun hidle => hopen ?_)
    exact (h.settled hidle).1

/-- A waiting console is answered within seven steps of the signal processor. -/
theorem answered_of_waiting {fromChars : Str → Option F} {s : State F}
    {response : ResponseMessage} (h : Consistent answer response s)
    (hwaiting : s.client = .waiting) (buffers : List (Option ℕ)) (hlong : 7 ≤ buffers.length) :
    ∃ s', exec (step fromChars) s (buffers.map Label.cycle) = some s' ∧
      s'.client = .waiting ∧ s'.hasResponse = true := by
  have hbound : ∀ (request : RequestMessage F) buffer,
      (answer request buffer).before.length + (answer request buffer).after.length ≤ 2 := by
    intro request buffer
    cases buffer
    · exact le_rfl
    · exact Nat.le_succ 1
  have hexec : ∀ s : State F, exec (step fromChars) s (buffers.map Label.cycle) =
      exec (Mailbox.step answer) s (buffers.map Mailbox.Label.server) := by
    clear hlong
    induction buffers with
    | nil => exact fun _ => rfl
    | cons buffer rest ih => exact fun s => ih (serverStep answer s buffer)
  rw [hexec]
  exact h.answered_of_waiting hbound buffers hwaiting fun _ =>
    (h.remaining_le hbound).trans hlong

/-- In every run the requests are served once each and in order, with at most one
outstanding, the request is not written while it is, a waiting console is answered, and
the k-th response is the one to the k-th request.  The responses say what has become of
the requests just if the requests conform. -/
theorem responses_right_iff (fromChars : Str → Option F)
    (status : Option ResponseMessageStatus) (labels : List Label) (s : State F)
    (run : Reaches (step fromChars) (initial status) labels s) :
    (s.served.map Prod.fst <+: s.accepted ∧ s.accepted.length ≤ s.served.length + 1) ∧
      (∀ label s', step fromChars s label = some s' → s'.request ≠ s.request →
        s.served.map Prod.fst = s.accepted) ∧
      (s.client = .waiting → ∀ buffers : List (Option ℕ), 7 ≤ buffers.length →
        ∃ s', exec (step fromChars) s (buffers.map Label.cycle) = some s' ∧
          s'.client = .waiting ∧ s'.hasResponse = true) ∧
      s.answers = responses answer ⟨status, []⟩ (answered s) ∧
      (List.Forall₂ IsRight (answered s) s.answers ↔ Conforms status (answered s)) := by
  have hconsistent := consistent_of_run run
  refine ⟨?_, fun label s' => settled_of_request_ne hconsistent,
    answered_of_waiting hconsistent, answers_eq hconsistent, ?_⟩
  · rcases hconsistent.served with hall | hlast
    · rw [← hall]
      exact ⟨List.prefix_rfl, by simp⟩
    · rw [← hlast]
      exact ⟨List.prefix_append _ _, by simp⟩
  · rw [answers_eq hconsistent]
    exact forall_isRight_iff ⟨status, []⟩ (answered s)

/-- A value that is one digit. -/
def digitValue (text : Str) : Option ℕ :=
  match text with
  | [digit] => if isDigit digit then some (digit.toNat - 48) else none
  | _ => none

/-- The steps of a request from its line to its response. -/
def exchange (line : String) (buffer : Option ℕ) : List Label :=
  [.type (lit line), .console] ++
    List.replicate (if buffer.isSome then 6 else 7) (.cycle buffer) ++
    [.console, .console, .console]

/-- Two requests with a buffer, and then one without. -/
theorem responses_right_iff_last_no_buffer :
    ∃ s : State ℕ, s.answers =
        [⟨some .ok, lit "OK"⟩, ⟨some .ok, lit "OK"⟩, ⟨some .error, lit "No buffer"⟩] ∧
      List.Forall₂ IsRight (answered s) s.answers := by
  have htrace : (exec (step digitValue) (initial (some .ok))
      (exchange "send osc /x f 1" (some 4096) ++ exchange "send osc /y f 2" (some 4096) ++
        exchange "send osc /x f 3" none)).map (fun s => decide (s.answers =
          [⟨some .ok, lit "OK"⟩, ⟨some .ok, lit "OK"⟩, ⟨some .error, lit "No buffer"⟩] ∧
            Conforms (some .ok) (answered s))) = some true := by
    decide +kernel
  obtain ⟨s, run, hs⟩ := exists_of_exec htrace
  obtain ⟨hanswers, hconforms⟩ := of_decide_eq_true hs
  exact ⟨s, hanswers, (responses_right_iff digitValue (some .ok) _ s run).2.2.2.2.mpr hconforms⟩

theorem not_isRight_left_over (entry : RequestMessage F × Option ℕ) :
    ¬ IsRight entry ⟨some .error, lit "OK"⟩ := by
  have hstatus : (⟨some .error, lit "OK"⟩ : ResponseMessage) ≠ ⟨some .ok, lit "OK"⟩ := by decide
  have hmessage : (⟨some .error, lit "OK"⟩ : ResponseMessage) ≠
      ⟨some .error, lit "No buffer"⟩ := by
    decide
  exact not_or.mpr ⟨fun h => hstatus h.2, fun h => hmessage h.2⟩

/-- The response to the first request leaves its status in the one to the second. -/
theorem error_left_over :
    ∃ s : State ℕ, Reaches (step digitValue) (initial (some .ok))
        (exchange "send osc /x f 1" none ++ exchange "send osc /x f 2" (some 4096)) s ∧
      s.answers = [⟨some .error, lit "No buffer"⟩, ⟨some .error, lit "OK"⟩] ∧
      ¬ List.Forall₂ IsRight (answered s) s.answers := by
  have htrace : (exec (step digitValue) (initial (some .ok))
      (exchange "send osc /x f 1" none ++ exchange "send osc /x f 2" (some 4096))).map
      (fun s => decide (s.answers =
        [⟨some .error, lit "No buffer"⟩, ⟨some .error, lit "OK"⟩])) = some true := by
    decide
  obtain ⟨s, run, hs⟩ := exists_of_exec htrace
  have hanswers := of_decide_eq_true hs
  refine ⟨s, run, hanswers, ?_⟩
  rw [hanswers]
  generalize answered s = entries
  intro h
  cases h with
  | cons _ hrest =>
      cases hrest with
      | cons hsecond _ => exact not_isRight_left_over _ hsecond

end Pmx.Console
