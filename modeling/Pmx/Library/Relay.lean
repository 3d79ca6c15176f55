import Pmx.Library.Transition

/-!
# Changes that are seen later

Requests make changes.  A session sees the changes in their order, each at some time after
the request, and has events of its own in between.

When the changes are seen does not matter for a value that they alone make: together with
the pending changes it is what all requests ask for (`value_of_run`).  Where the session
can settle, and any change is in time once it has settled, all changes can be seen
(`exists_drained`).
-/

namespace Relay

open Transition

variable {ρ γ σ ε : Type*}

/-- What requests, changes and events do, with a condition on each: `asks` on a request,
`inTime` on a change when it is seen, and `may` on an event. -/
structure System (ρ γ σ ε : Type*) where
  changesOf : ρ → List γ
  see : σ → γ → σ
  act : σ → ε → Option σ
  asks : ρ → Prop
  inTime : σ → γ → Prop
  may : σ → ε → Prop

/-- `requests` are those handled so far, and `pending` are the changes that the session
has not seen. -/
structure State (ρ γ σ : Type*) where
  requests : List ρ
  pending : List γ
  session : σ

/-- No request has been handled. -/
def initial (session : σ) : State ρ γ σ :=
  ⟨[], [], session⟩

/-- A request, the next change coming to the session, and an event of its own. -/
inductive Label (ρ ε : Type*)
  | request (request : ρ)
  | changeSeen
  | session (event : ε)

namespace System

variable (sys : System ρ γ σ ε)

/-- A request is handled at once, and its changes wait behind those before. -/
def step (s : State ρ γ σ) : Label ρ ε → Option (State ρ γ σ)
  | .request request =>
      some { s with
        requests := s.requests ++ [request]
        pending := s.pending ++ sys.changesOf request }
  | .changeSeen =>
      match s.pending with
      | [] => none
      | change :: rest => some { s with pending := rest, session := sys.see s.session change }
  | .session event => (sys.act s.session event).map fun session => { s with session }

/-- The condition on a step. -/
def Orderly (s : State ρ γ σ) : Label ρ ε → Prop
  | .request request => sys.asks request
  | .changeSeen => ∀ change ∈ s.pending.head?, sys.inTime s.session change
  | .session event => sys.may s.session event

instance [DecidablePred sys.asks] [∀ s, DecidablePred (sys.inTime s)]
    [∀ s, DecidablePred (sys.may s)] (s : State ρ γ σ) (label : Label ρ ε) :
    Decidable (sys.Orderly s label) :=
  match label with
  | .request request => inferInstanceAs (Decidable (sys.asks request))
  | .changeSeen => inferInstanceAs (Decidable (∀ change ∈ s.pending.head?, _))
  | .session event => inferInstanceAs (Decidable (sys.may s.session event))

variable {sys}

theorem step_cases {s s' : State ρ γ σ} {label : Label ρ ε} (h : sys.step s label = some s') :
    (∃ request, label = .request request ∧ s' = { s with
      requests := s.requests ++ [request], pending := s.pending ++ sys.changesOf request }) ∨
    (∃ change rest, label = .changeSeen ∧ s.pending = change :: rest ∧
      s' = { s with pending := rest, session := sys.see s.session change }) ∨
    ∃ event session, label = .session event ∧ sys.act s.session event = some session ∧
      s' = { s with session } := by
  cases label with
  | request request => exact Or.inl ⟨request, rfl, (Option.some.inj h).symm⟩
  | changeSeen =>
      cases hpending : s.pending with
      | nil =>
          simp only [step, hpending] at h
          cases h
      | cons change rest =>
          simp only [step, hpending] at h
          exact Or.inr (Or.inl ⟨change, rest, rfl, rfl, (Option.some.inj h).symm⟩)
  | session event =>
      obtain ⟨session, hsession, rfl⟩ := Option.map_eq_some_iff.mp h
      exact Or.inr (Or.inr ⟨event, session, rfl, hsession, rfl⟩)

/-! ## What every run keeps -/

/-- The changes of requests are `Valid`, and with such changes the session keeps `Inv`. -/
structure Keeps (sys : System ρ γ σ ε) (Valid : γ → Prop) (Inv : σ → Prop) : Prop where
  asked : ∀ request, sys.asks request → ∀ change ∈ sys.changesOf request, Valid change
  seen : ∀ s change, Inv s → Valid change → sys.inTime s change → Inv (sys.see s change)
  acted : ∀ s event s', Inv s → sys.may s event → sys.act s event = some s' → Inv s'

section Runs

variable {Valid : γ → Prop} {Inv : σ → Prop} {start : σ} {labels : List (Label ρ ε)}
  {s : State ρ γ σ}

theorem Keeps.of_run (h : sys.Keeps Valid Inv) (hstart : Inv start)
    (run : Run sys.step sys.Orderly (initial start) labels s) :
    (∀ change ∈ s.pending, Valid change) ∧ Inv s.session := by
  refine run.state_invariant (I := fun s => (∀ change ∈ s.pending, Valid change) ∧ Inv s.session)
    ⟨fun _ hmem => absurd hmem List.not_mem_nil, hstart⟩ ?_
  rintro s label s' ⟨hvalid, hinv⟩ horderly hstep
  rcases step_cases hstep with ⟨request, rfl, rfl⟩ | ⟨change, rest, rfl, hpending, rfl⟩ |
    ⟨event, session, rfl, hact, rfl⟩
  · refine ⟨fun change hmem => ?_, hinv⟩
    exact (List.mem_append.mp hmem).elim (hvalid change) (h.asked request horderly change)
  · rw [hpending] at hvalid
    have htime : sys.inTime s.session change := horderly change (by rw [hpending]; rfl)
    exact ⟨fun other hmem => hvalid other (List.mem_cons_of_mem _ hmem),
      h.seen _ _ hinv (hvalid change List.mem_cons_self) htime⟩
  · exact ⟨hvalid, h.acted _ _ _ hinv horderly hact⟩

/-- A value that changes alone make is, with those that are pending, what the requests
ask for. -/
theorem Keeps.value_of_run {α : Type*} (h : sys.Keeps Valid Inv) (hstart : Inv start)
    (value : σ → α) (after : α → γ → α)
    (hsee : ∀ s change, Inv s → Valid change → value (sys.see s change) = after (value s) change)
    (hact : ∀ s event s', sys.act s event = some s' → value s' = value s)
    (run : Run sys.step sys.Orderly (initial start) labels s) :
    s.pending.foldl after (value s.session) =
      (s.requests.flatMap sys.changesOf).foldl after (value start) := by
  induction run with
  | nil => rfl
  | @snoc labels s s' label run horderly hstep ih =>
      obtain ⟨hvalid, hinv⟩ := h.of_run hstart run
      rcases step_cases hstep with ⟨request, rfl, rfl⟩ | ⟨change, rest, rfl, hpending, rfl⟩ |
        ⟨event, session, rfl, hsession, rfl⟩
      · simp only [List.foldl_append, List.flatMap_append, List.flatMap_singleton, ih]
      · rw [hpending] at hvalid ih
        show rest.foldl after (value (sys.see s.session change)) = _
        rw [← ih, List.foldl_cons, hsee _ _ hinv (hvalid change List.mem_cons_self)]
      · show s.pending.foldl after (value session) = _
        rw [hact _ _ _ hsession, ih]

end Runs

/-! ## Reaching the end -/

/-- `s'` is reached from `s` without requests, and the session has kept what it is. -/
structure Quietly {κ : Type*} (kept : σ → κ) (s s' : State ρ γ σ) : Prop where
  requests : s'.requests = s.requests
  session : kept s'.session = kept s.session

theorem Quietly.trans {κ : Type*} {kept : σ → κ} {s s' s'' : State ρ γ σ}
    (h : Quietly kept s s') (h' : Quietly kept s' s'') : Quietly kept s s'' :=
  ⟨h'.requests.trans h.requests, h'.session.trans h.session⟩

section Settling

variable {start : σ} {labels : List (Label ρ ε)} {s : State ρ γ σ}

/-- What the session does by itself can happen in a run. -/
theorem run_session (run : Run sys.step sys.Orderly (initial start) labels s)
    {events : List ε} {session : σ} (h : Run sys.act sys.may s.session events session) :
    Run sys.step sys.Orderly (initial start) (labels ++ events.map .session)
      { s with session } := by
  refine run.embed (fun session => { s with session }) Label.session (fun _ _ hmay => hmay) ?_ h
  intro session event session' hact
  rw [step, hact]
  rfl

variable {Valid : γ → Prop} {Inv : σ → Prop} {κ : Type*} (Settled : σ → Prop) (kept : σ → κ)

/-- The session can settle in every run. -/
theorem exists_settled
    (hsettle : ∀ s, ∃ events s', Run sys.act sys.may s events s' ∧ Settled s' ∧ kept s' = kept s)
    (run : Run sys.step sys.Orderly (initial start) labels s) :
    ∃ more s', Run sys.step sys.Orderly (initial start) (labels ++ more) s' ∧ Quietly kept s s' ∧
      s'.pending = s.pending ∧ Settled s'.session := by
  obtain ⟨events, session, hevents, hsettled, hkept⟩ := hsettle s.session
  exact ⟨_, _, run_session run hevents, ⟨rfl, hkept⟩, rfl, hsettled⟩

/-- Without further requests all changes can be seen, each one in time, and the session
settle. -/
theorem Keeps.exists_drained (h : sys.Keeps Valid Inv) (hstart : Inv start)
    (hsettle : ∀ s, ∃ events s', Run sys.act sys.may s events s' ∧ Settled s' ∧ kept s' = kept s)
    (htime : ∀ s change, Settled s → Valid change → sys.inTime s change)
    (hsee : ∀ s change, Inv s → Valid change → kept (sys.see s change) = kept s)
    (run : Run sys.step sys.Orderly (initial start) labels s) :
    ∃ more s', Run sys.step sys.Orderly (initial start) (labels ++ more) s' ∧ Quietly kept s s' ∧
      s'.pending = [] ∧ Settled s'.session := by
  induction hpending : s.pending generalizing labels s with
  | nil =>
      obtain ⟨more, s', run', hquiet, hpending', hsettled⟩ :=
        exists_settled Settled kept hsettle run
      exact ⟨more, s', run', hquiet, hpending'.trans hpending, hsettled⟩
  | cons change rest ih =>
      obtain ⟨more, s', run', hquiet, hpending', hsettled⟩ :=
        exists_settled Settled kept hsettle run
      rw [hpending] at hpending'
      obtain ⟨hvalid, hinv⟩ := h.of_run hstart run'
      rw [hpending'] at hvalid
      have hchange := hvalid change List.mem_cons_self
      -- the next change is in time, since the session has settled
      have horderly : sys.Orderly s' .changeSeen := by
        intro next hnext
        rw [hpending', List.head?_cons, Option.mem_some_iff] at hnext
        exact hnext ▸ htime _ _ hsettled hchange
      have hstep : sys.step s' .changeSeen =
          some { s' with pending := rest, session := sys.see s'.session change } := by
        simp only [step, hpending']
      have hfirst : Quietly kept s'
          { s' with pending := rest, session := sys.see s'.session change } :=
        ⟨rfl, hsee _ _ hinv hchange⟩
      obtain ⟨last, s'', run'', hquiet', hdrained, hlast⟩ := ih (run'.snoc horderly hstep) rfl
      rw [List.append_assoc, List.append_assoc] at run''
      exact ⟨_, s'', run'', hquiet.trans (hfirst.trans hquiet'), hdrained, hlast⟩

end Settling

end System

end Relay
