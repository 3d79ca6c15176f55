import Pmx.Library.Transition

/-!
# A mailbox of two threads

A client and a server share a request, a response and two flags.  The client stores
a request, sets the first flag, waits for the second one, takes it back and reads the
response.  The server works in cycles: it tests the first flag, asks for an offer of
its surroundings, tests the flag again and serves the request; an answer is some
writes to the response, and between two of them the first flag is taken back.  Then
it sets the second flag.

Every access to a flag and every write to the response is a step of its own, and
the steps of the two threads interleave in any way.  `Consistent` lists the
configurations that are reachable, and says where in its history each of them is.
The requests are served once each and in order, an answered request leaves the
response that its answer makes of the previous one, and a waiting client is answered
within a number of steps of the server.
-/

namespace Mailbox

open Transition

variable {R P I : Type}

/-- The writes of an answer, before and after the first flag is taken back. -/
structure Answer (P : Type) where
  before : List (P → P)
  after : List (P → P)

/-- The writes, in their order. -/
def applyAll (writes : List (P → P)) (response : P) : P :=
  writes.foldl (fun current write => write current) response

/-- What an answer makes of a response. -/
def Answer.apply (answer : Answer P) (response : P) : P :=
  applyAll (answer.before ++ answer.after) response

/-- Where the client is: with nothing to do, or with the request that it has stored last. -/
inductive Client
  | idle
  | stored
  | waiting
  | woken
  | cleared
  deriving DecidableEq

/-- Where the server is in its work on a request. -/
inductive Server (P I : Type)
  | resting
  | checked
  | offered (offer : I)
  | clearing (before after : List (P → P))
  | responding (after : List (P → P))

/-- `accepted`, `served` and `answers` are the history: the requests that were stored,
those that were served as the server has read them, each with its offer, and the
responses that the client has read. -/
structure State (R P I : Type) where
  request : R
  response : P
  hasRequest : Bool
  hasResponse : Bool
  client : Client
  server : Server P I
  accepted : List R
  served : List (R × I)
  answers : List P

/-- A request of the user, a step of the client, and one of the server with its offer. -/
inductive Label (R I : Type)
  | submit (request : R)
  | client
  | server (offer : I)

/-- Both flags are clear, and nothing has been stored. -/
def initial (request : R) (response : P) : State R P I :=
  ⟨request, response, false, false, .idle, .resting, [], [], []⟩

/-- The client stores a request when it is idle. -/
def submitStep (s : State R P I) (request : R) : Option (State R P I) :=
  match s.client with
  | .idle => some { s with
      request := request, client := .stored, accepted := s.accepted ++ [request] }
  | _ => none

/-- The client raises its flag, waits for the other, clears that one and reads the response. -/
def clientStep (s : State R P I) : Option (State R P I) :=
  match s.client with
  | .idle => none
  | .stored => some { s with hasRequest := true, client := .waiting }
  | .waiting => if s.hasResponse then some { s with client := .woken } else none
  | .woken => some { s with hasResponse := false, client := .cleared }
  | .cleared => some { s with client := .idle, answers := s.answers ++ [s.response] }

/-- An offer is only looked at between the two tests. -/
def serverStep (answer : R → I → Answer P) (s : State R P I) (offer : I) : State R P I :=
  match s.server with
  | .resting => if s.hasRequest then { s with server := .checked } else s
  | .checked => { s with server := .offered offer }
  | .offered offer =>
      -- the request is read only now, and may be another one than the one that was seen
      if s.hasRequest then
        { s with
          server := .clearing (answer s.request offer).before (answer s.request offer).after
          served := s.served ++ [(s.request, offer)] }
      else { s with server := .resting }
  | .clearing (write :: before) after =>
      { s with response := write s.response, server := .clearing before after }
  | .clearing [] after => { s with hasRequest := false, server := .responding after }
  | .responding (write :: after) =>
      { s with response := write s.response, server := .responding after }
  | .responding [] => { s with hasResponse := true, server := .resting }

/-- The steps of both sides may come in any order. -/
def step (answer : R → I → Answer P) (s : State R P I) : Label R I → Option (State R P I)
  | .submit request => submitStep s request
  | .client => clientStep s
  | .server offer => some (serverStep answer s offer)

/-! ## The history -/

/-- The response behind each of some served requests. -/
def responses (answer : R → I → Answer P) (response : P) : List (R × I) → List P
  | [] => []
  | (request, offer) :: rest =>
      (answer request offer).apply response ::
        responses answer ((answer request offer).apply response) rest

/-- The response behind all of them. -/
def responseAfter (answer : R → I → Answer P) (response : P) (served : List (R × I)) : P :=
  served.foldl (fun current entry => (answer entry.1 entry.2).apply current) response

variable {answer : R → I → Answer P} {first : P}

@[simp] theorem length_responses (response : P) (served : List (R × I)) :
    (responses answer response served).length = served.length := by
  induction served generalizing response with
  | nil => rfl
  | cons entry rest ih => exact congrArg Nat.succ (ih _)

theorem responses_take (response : P) (served : List (R × I)) (n : ℕ) :
    responses answer response (served.take n) = (responses answer response served).take n := by
  induction served generalizing response n with
  | nil => simp [responses]
  | cons entry rest ih =>
      cases n with
      | zero => rfl
      | succ n => exact congrArg (List.cons _) (ih _ n)

theorem responses_snoc (response : P) (served : List (R × I)) (request : R) (offer : I) :
    responses answer response (served ++ [(request, offer)]) =
      responses answer response served ++
        [responseAfter answer response (served ++ [(request, offer)])] := by
  induction served generalizing response with
  | nil => rfl
  | cons entry rest ih => exact congrArg (List.cons _) (ih _)

theorem responseAfter_snoc (response : P) (served : List (R × I)) (request : R) (offer : I) :
    responseAfter answer response (served ++ [(request, offer)]) =
      (answer request offer).apply (responseAfter answer response served) :=
  List.foldl_append ..

/-! ## The invariant -/

/-- A server that has not read the request. -/
def Server.IsOpen : Server P I → Prop
  | .clearing .. => False
  | .responding _ => False
  | _ => True

/-- The reachable configurations: nothing is outstanding, a request is stored, the
server comes to it, the server answers, and the client takes the answer. -/
inductive Consistent (answer : R → I → Answer P) (first : P) : State R P I → Prop
  | idle (request : R) (served : List (R × I)) :
      Consistent answer first ⟨request, responseAfter answer first served, false, false,
        .idle, .resting, served.map Prod.fst, served, responses answer first served⟩
  | stored (request : R) (served : List (R × I)) :
      Consistent answer first ⟨request, responseAfter answer first served, false, false,
        .stored, .resting, served.map Prod.fst ++ [request], served,
        responses answer first served⟩
  | requested (request : R) (served : List (R × I)) (server : Server P I)
      (hopen : server.IsOpen) :
      Consistent answer first ⟨request, responseAfter answer first served, true, false,
        .waiting, server, served.map Prod.fst ++ [request], served,
        responses answer first served⟩
  | clearing (request : R) (served : List (R × I)) (offer : I) (response : P)
      (before after : List (P → P)) (hbefore : before <:+ (answer request offer).before)
      (hafter : after <:+ (answer request offer).after)
      (hrest : applyAll (before ++ after) response =
        responseAfter answer first (served ++ [(request, offer)])) :
      Consistent answer first ⟨request, response, true, false, .waiting,
        .clearing before after, served.map Prod.fst ++ [request],
        served ++ [(request, offer)], responses answer first served⟩
  | responding (request : R) (served : List (R × I)) (offer : I) (response : P)
      (after : List (P → P)) (hafter : after <:+ (answer request offer).after)
      (hrest : applyAll after response =
        responseAfter answer first (served ++ [(request, offer)])) :
      Consistent answer first ⟨request, response, false, false, .waiting,
        .responding after, served.map Prod.fst ++ [request],
        served ++ [(request, offer)], responses answer first served⟩
  | answered (request : R) (served : List (R × I)) (offer : I) (client : Client)
      (hclient : client = .waiting ∨ client = .woken) :
      Consistent answer first ⟨request,
        responseAfter answer first (served ++ [(request, offer)]), false, true, client,
        .resting, served.map Prod.fst ++ [request], served ++ [(request, offer)],
        responses answer first served⟩
  | cleared (request : R) (served : List (R × I)) (offer : I) :
      Consistent answer first ⟨request,
        responseAfter answer first (served ++ [(request, offer)]), false, false, .cleared,
        .resting, served.map Prod.fst ++ [request], served ++ [(request, offer)],
        responses answer first served⟩

theorem consistent_initial (request : R) (response : P) :
    Consistent answer response (initial request response : State R P I) :=
  .idle request []

theorem consistent_submitStep {s s' : State R P I} {request : R}
    (h : Consistent answer first s) (hstep : submitStep s request = some s') :
    Consistent answer first s' := by
  cases h with
  | idle _ served =>
      cases hstep
      exact .stored request served
  | answered _ _ _ client hclient =>
      rcases hclient with rfl | rfl <;> cases hstep
  | _ => cases hstep

theorem consistent_clientStep {s s' : State R P I} (h : Consistent answer first s)
    (hstep : clientStep s = some s') : Consistent answer first s' := by
  cases h with
  | stored request served =>
      cases hstep
      exact .requested request served .resting trivial
  | answered request served offer client hclient =>
      rcases hclient with rfl | rfl
      · cases hstep
        exact .answered request served offer .woken (Or.inr rfl)
      · cases hstep
        exact .cleared request served offer
  | cleared request served offer =>
      cases hstep
      have hidle : Consistent answer first ⟨request, _, false, false, .idle, .resting, _, _, _⟩ :=
        .idle request (served ++ [(request, offer)])
      rw [responses_snoc, List.map_append] at hidle
      exact hidle
  | _ => cases hstep

theorem consistent_serverStep {s : State R P I} (h : Consistent answer first s) (offer : I) :
    Consistent answer first (serverStep answer s offer) := by
  cases h with
  | idle request served => exact .idle request served
  | stored request served => exact .stored request served
  | requested request served server hopen =>
      cases server with
      | resting => exact .requested request served .checked trivial
      | checked => exact .requested request served (.offered offer) trivial
      | offered offer =>
          -- the request is read here, and it is still the one that was accepted
          exact .clearing request served offer _ _ _ List.suffix_rfl List.suffix_rfl
            (responseAfter_snoc first served _ _).symm
      | clearing before after => exact hopen.elim
      | responding after => exact hopen.elim
  | clearing request served offer response before after hbefore hafter hrest =>
      cases before with
      | nil => exact .responding request served offer response after hafter hrest
      | cons write before =>
          exact .clearing request served offer (write response) before after
            ((List.suffix_cons write before).trans hbefore) hafter hrest
  | responding request served offer response after hafter hrest =>
      cases after with
      | nil =>
          have hresponse : response = responseAfter answer first (served ++ [(request, offer)]) :=
            hrest
          subst hresponse
          exact .answered request served offer .waiting (Or.inl rfl)
      | cons write after =>
          exact .responding request served offer (write response) after
            ((List.suffix_cons write after).trans hafter) hrest
  | answered request served offer client hclient =>
      exact .answered request served offer client hclient
  | cleared request served offer => exact .cleared request served offer

theorem consistent_step {s s' : State R P I} {label : Label R I}
    (h : Consistent answer first s) (hstep : step answer s label = some s') :
    Consistent answer first s' := by
  cases label with
  | submit request => exact consistent_submitStep h hstep
  | client => exact consistent_clientStep h hstep
  | server offer =>
      cases hstep
      exact consistent_serverStep h offer

/-! ## What is consistent -/

/-- The requests are served in their order, and at most one is outstanding. -/
theorem Consistent.served {s : State R P I} (h : Consistent answer first s) :
    s.served.map Prod.fst = s.accepted ∨
      s.served.map Prod.fst ++ [s.request] = s.accepted := by
  cases h with
  | idle => exact Or.inl rfl
  | stored => exact Or.inr rfl
  | requested => exact Or.inr rfl
  | _ => exact Or.inl (by simp)

/-- The client has read the responses of all served requests, or of all but the
last. -/
theorem Consistent.answers {s : State R P I} (h : Consistent answer first s) :
    s.answers <+: responses answer first s.served ∧
      s.served.length ≤ s.answers.length + 1 := by
  have hlast : ∀ (served : List (R × I)) (request : R) (offer : I),
      responses answer first served <+:
          responses answer first (served ++ [(request, offer)]) ∧
        (served ++ [(request, offer)]).length ≤ (responses answer first served).length + 1 := by
    intro served request offer
    rw [responses_snoc]
    exact ⟨List.prefix_append _ _, by simp⟩
  cases h with
  | idle _ served => exact ⟨List.prefix_rfl, by simp⟩
  | stored _ served => exact ⟨List.prefix_rfl, by simp⟩
  | requested _ served => exact ⟨List.prefix_rfl, by simp⟩
  | clearing request served offer => exact hlast served request offer
  | responding request served offer => exact hlast served request offer
  | answered request served offer => exact hlast served request offer
  | cleared request served offer => exact hlast served request offer

/-- An idle client has seen everything through. -/
theorem Consistent.settled {s : State R P I} (h : Consistent answer first s)
    (hidle : s.client = .idle) :
    s.served.map Prod.fst = s.accepted ∧ s.answers = responses answer first s.served := by
  cases h with
  | idle => exact ⟨rfl, rfl⟩
  | answered _ _ _ client hclient => rcases hclient with rfl | rfl <;> cases hidle
  | _ => cases hidle

/-- A step writes another request only when the client is idle. -/
theorem request_eq_of_step {s s' : State R P I} {label : Label R I}
    (hstep : step answer s label = some s') (houtstanding : s.client ≠ .idle) :
    s'.request = s.request := by
  cases label with
  | submit request =>
      rw [step, submitStep] at hstep
      cases hclient : s.client with
      | idle => exact absurd hclient houtstanding
      | _ =>
          rw [hclient] at hstep
          cases hstep
  | client =>
      rw [step, clientStep] at hstep
      cases hclient : s.client with
      | idle => exact absurd hclient houtstanding
      | waiting =>
          simp only [hclient] at hstep
          split_ifs at hstep
          cases hstep
          rfl
      | _ =>
          rw [hclient] at hstep
          cases hstep
          rfl
  | server offer =>
      cases hstep
      unfold serverStep
      split <;> first | rfl | split_ifs <;> rfl

/-! ## Progress -/

/-- The steps of the server up to its response, with answers of at most `bound`
writes. -/
def remaining (bound : ℕ) : Server P I → ℕ
  | .resting => bound + 5
  | .checked => bound + 4
  | .offered _ => bound + 3
  | .clearing before after => before.length + after.length + 2
  | .responding after => after.length + 1

/-- No configuration is further from a response than one with a request that the
server has not come to. -/
theorem Consistent.remaining_le {s : State R P I} {bound : ℕ}
    (hbound : ∀ request offer, (answer request offer).before.length +
      (answer request offer).after.length ≤ bound)
    (h : Consistent answer first s) : remaining bound s.server ≤ bound + 5 := by
  cases h with
  | requested request served server hopen =>
      cases server with
      | clearing before after => exact hopen.elim
      | responding after => exact hopen.elim
      | _ => simp [remaining]
  | clearing request served offer response before after hbefore hafter =>
      have hlength := hbound request offer
      have hfirst := hbefore.length_le
      have hsecond := hafter.length_le
      simp only [remaining]
      omega
  | responding request served offer response after hafter =>
      have hlength := hbound request offer
      have hsecond := hafter.length_le
      simp only [remaining]
      omega
  | _ => exact Nat.le_refl _

/-- A step of the server answers a waiting client, or comes closer to it. -/
theorem Consistent.progress {s : State R P I} {bound : ℕ}
    (hbound : ∀ request offer, (answer request offer).before.length +
      (answer request offer).after.length ≤ bound)
    (h : Consistent answer first s) (hwaiting : s.client = .waiting)
    (hresponse : s.hasResponse = false) (offer : I) :
    (serverStep answer s offer).client = .waiting ∧
      ((serverStep answer s offer).hasResponse = true ∨
        (serverStep answer s offer).hasResponse = false ∧
          remaining bound (serverStep answer s offer).server < remaining bound s.server) := by
  cases h with
  | requested request served server hopen =>
      cases server with
      | resting => exact ⟨rfl, Or.inr ⟨rfl, Nat.lt_succ_self _⟩⟩
      | checked => exact ⟨rfl, Or.inr ⟨rfl, Nat.lt_succ_self _⟩⟩
      | offered offer =>
          refine ⟨rfl, Or.inr ⟨rfl, ?_⟩⟩
          have hlength := hbound request offer
          simp only [serverStep, remaining, if_true]
          omega
      | clearing before after => exact hopen.elim
      | responding after => exact hopen.elim
  | clearing request served offer response before after =>
      cases before with
      | nil =>
          refine ⟨rfl, Or.inr ⟨rfl, ?_⟩⟩
          simp [serverStep, remaining]
      | cons write before =>
          refine ⟨rfl, Or.inr ⟨rfl, ?_⟩⟩
          simp [serverStep, remaining]
  | responding request served offer response after =>
      cases after with
      | nil => exact ⟨rfl, Or.inl rfl⟩
      | cons write after => exact ⟨rfl, Or.inr ⟨rfl, Nat.lt_succ_self _⟩⟩
  | answered => cases hresponse
  | _ => cases hwaiting

/-- Once it is answered, the server leaves the client its answer. -/
theorem Consistent.answered_stays {s : State R P I} (h : Consistent answer first s)
    (hresponse : s.hasResponse = true) (offer : I) : serverStep answer s offer = s := by
  cases h with
  | answered => rfl
  | _ => cases hresponse

/-- A waiting client is answered, whatever the server is offered meanwhile. -/
theorem Consistent.answered_of_waiting {bound : ℕ}
    (hbound : ∀ request offer, (answer request offer).before.length +
      (answer request offer).after.length ≤ bound) (offers : List I) {s : State R P I}
    (h : Consistent answer first s) (hwaiting : s.client = .waiting)
    (hlong : s.hasResponse = false → remaining bound s.server ≤ offers.length) :
    ∃ s', exec (step answer) s (offers.map Label.server) = some s' ∧
      s'.client = .waiting ∧ s'.hasResponse = true := by
  induction offers generalizing s with
  | nil =>
      refine ⟨s, rfl, hwaiting, ?_⟩
      cases hresponse : s.hasResponse with
      | true => rfl
      | false =>
          have hnone := hlong hresponse
          cases hserver : s.server <;> simp [hserver, remaining] at hnone
  | cons offer rest ih =>
      have hnext := consistent_serverStep h offer
      cases hresponse : s.hasResponse with
      | true =>
          have hstays : serverStep answer s offer = s := h.answered_stays hresponse offer
          obtain ⟨s', hexec, hlast⟩ := ih h hwaiting (fun hnone => by simp [hresponse] at hnone)
          refine ⟨s', ?_, hlast⟩
          rw [List.map_cons, exec, step, hstays]
          exact hexec
      | false =>
          obtain ⟨hclient, hprogress⟩ := h.progress hbound hwaiting hresponse offer
          refine ih hnext hclient ?_
          intro hnone
          rcases hprogress with hdone | ⟨_, hcloser⟩
          · rw [hdone] at hnone
            cases hnone
          · have hlength := hlong hresponse
            rw [List.length_cons] at hlength
            omega

end Mailbox
