import Pmx.Library.Transition

/-!
# Calls that the main loop carries out

Any number of threads want operations done that only the main loop may do.  A
thread takes an outer mutex, so that one call is made at a time, and then an
inner one; it schedules a callback, waits on the condition variable of its call,
which releases the inner mutex, and returns when it has the inner mutex back.
The callback takes the inner mutex, performs the operation on data of the call,
notifies the condition variable and releases the mutex.

The wait has no predicate.  A wake-up without a notify lets the call return
while its callback is still to come, unless the callback has the inner mutex
already: then the call gets the mutex only when the callback is through.
`wokenInTime` is that condition.  Runs that keep to it are safe (`safe_of_run`),
and where it is broken the call can return too early at once
(`exists_early_return`).
-/

namespace IdleCall

open Transition

/-- Where the thread is that has the outer mutex. -/
inductive Stage (ω : Type*)
  | entered (operation : ω)
  | locked (operation : ω)
  | scheduled (call : ℕ)
  | waiting (call : ℕ)
  | woken (call : ℕ)
  | relocked (call : ℕ)

/-- Where the main loop is. -/
inductive MainPhase (ω : Type*)
  | idle
  | started (call : ℕ) (operation : ω)
  | holding (call : ℕ) (operation : ω)
  | performed (call : ℕ)
  | notified (call : ℕ)

/-- `holder` is the thread with the outer mutex; every other thread is outside or
waits for that mutex.  `performed` are the operations carried out, with their
results, `completed` the calls whose callback has run to its end, and `returned`
the calls that have returned, with the result they found. -/
structure State (τ ω σ ρ : Type*) where
  holder : Option (τ × Stage ω)
  inner : Bool
  queue : List (ℕ × ω)
  main : MainPhase ω
  nextCall : ℕ
  store : σ
  performed : List (ℕ × ω × ρ)
  completed : List ℕ
  returned : List (ℕ × Option ρ)

/-- The steps of threads and of the main loop; `wakeUp` is one without a notify. -/
inductive Label (τ ω : Type*)
  | enter (thread : τ) (operation : ω)
  | thread (thread : τ)
  | wakeUp (thread : τ)
  | main

variable {τ ω σ ρ : Type*}

/-- Nobody holds a mutex, and nothing has been scheduled. -/
def initial (store : σ) : State τ ω σ ρ where
  holder := none
  inner := false
  queue := []
  main := .idle
  nextCall := 0
  store := store
  performed := []
  completed := []
  returned := []

/-- The result that the data of a call hold. -/
def resultOf (s : State τ ω σ ρ) (call : ℕ) : Option ρ :=
  (s.performed.find? fun entry => entry.1 = call).map fun entry => entry.2.2

/-- The next step of the thread with the outer mutex.  `waiting` has none. -/
def stageStep (s : State τ ω σ ρ) (thread : τ) : Stage ω → Option (State τ ω σ ρ)
  | .entered operation =>
      if s.inner then none
      else some { s with holder := some (thread, .locked operation), inner := true }
  | .locked operation =>
      some { s with
        holder := some (thread, .scheduled s.nextCall)
        queue := s.queue ++ [(s.nextCall, operation)]
        nextCall := s.nextCall + 1 }
  -- the lock is given back while the thread waits
  | .scheduled call => some { s with holder := some (thread, .waiting call), inner := false }
  | .waiting _ => none
  -- a wait without a predicate: the lock is taken again, and nothing else is looked at
  | .woken call =>
      if s.inner then none
      else some { s with holder := some (thread, .relocked call), inner := true }
  | .relocked call =>
      some { s with
        holder := none
        inner := false
        returned := s.returned ++ [(call, resultOf s call)] }

/-- The notify reaches the thread that waits on the condition variable of the call. -/
def notify (call : ℕ) : Option (τ × Stage ω) → Option (τ × Stage ω)
  | some (thread, .waiting waitedFor) =>
      some (thread, if waitedFor = call then .woken waitedFor else .waiting waitedFor)
  | holder => holder

/-- The next step of the main loop. -/
def mainStep (apply : ω → σ → σ × ρ) (s : State τ ω σ ρ) : Option (State τ ω σ ρ) :=
  match s.main with
  | .idle =>
      match s.queue with
      | [] => none
      | (call, operation) :: rest =>
          some { s with main := .started call operation, queue := rest }
  -- the callback takes the lock for its whole body
  | .started call operation =>
      if s.inner then none else some { s with main := .holding call operation, inner := true }
  | .holding call operation =>
      some { s with
        main := .performed call
        store := (apply operation s.store).1
        performed := s.performed ++ [(call, operation, (apply operation s.store).2)] }
  | .performed call => some { s with main := .notified call, holder := notify call s.holder }
  | .notified call =>
      some { s with main := .idle, inner := false, completed := s.completed ++ [call] }

def step [DecidableEq τ] (apply : ω → σ → σ × ρ) (s : State τ ω σ ρ) :
    Label τ ω → Option (State τ ω σ ρ)
  | .enter thread operation =>
      match s.holder with
      | none => some { s with holder := some (thread, .entered operation) }
      | some _ => none
  | .thread thread =>
      match s.holder with
      | some (holder, stage) => if holder = thread then stageStep s thread stage else none
      | none => none
  | .wakeUp thread =>
      match s.holder with
      | some (holder, .waiting call) =>
          if holder = thread then some { s with holder := some (thread, .woken call) } else none
      | _ => none
  | .main => mainStep apply s

/-! ## What is wanted -/

/-- The call whose callback the main loop is in. -/
def MainPhase.call : MainPhase ω → Option ℕ
  | .idle => none
  | .started call _ => some call
  | .holding call _ => some call
  | .performed call => some call
  | .notified call => some call

/-- The call that the callback in progress has yet to notify. -/
def MainPhase.toNotify : MainPhase ω → Option ℕ
  | .notified _ => none
  | phase => phase.call

/-- The callback of the call is still to come, or in progress. -/
def Pending (s : State τ ω σ ρ) (call : ℕ) : Prop :=
  call ∈ s.queue.map Prod.fst ∨ s.main.call = some call

/-- The notify of the call's callback is still to come. -/
def NotifyToCome (s : State τ ω σ ρ) (call : ℕ) : Prop :=
  call ∈ s.queue.map Prod.fst ∨ s.main.toNotify = some call

/-- A call that has returned has had its callback run to its end and has found
its result; no callback is left that would touch its data; and nobody waits for
a notify that has been given. -/
structure Safe (s : State τ ω σ ρ) : Prop where
  completed : ∀ call result, (call, result) ∈ s.returned →
    call ∈ s.completed ∧ ∃ operation value, (call, operation, value) ∈ s.performed ∧
      result = some value
  untouched : ∀ call result, (call, result) ∈ s.returned → ¬ Pending s call
  notLost : ∀ thread call, s.holder = some (thread, .waiting call) → NotifyToCome s call

/-- A waiting call wakes up without a notify only when the inner mutex is taken. -/
def wokenInTime (s : State τ ω σ ρ) : Label τ ω → Prop
  | .wakeUp _ => s.inner = true
  | _ => True

instance (s : State τ ω σ ρ) : DecidablePred (wokenInTime s)
  | .enter _ _ => isTrue trivial
  | .thread _ => isTrue trivial
  | .wakeUp _ => inferInstanceAs (Decidable (s.inner = true))
  | .main => isTrue trivial

/-! ## The invariant -/

/-- The callback has carried out the operation of the call. -/
def Done (s : State τ ω σ ρ) (call : ℕ) : Prop :=
  ∃ operation value, (call, operation, value) ∈ s.performed

/-- A call that has been scheduled and whose callback is not through. -/
def Open (s : State τ ω σ ρ) (call : ℕ) : Prop :=
  call ∉ s.completed ∧ call < s.nextCall

/-- The states of a call, with the callback where it can be at the time. -/
inductive Configuration (s : State τ ω σ ρ) : Prop
  | free (hholder : s.holder = none) (hinner : s.inner = false) (hqueue : s.queue = [])
      (hmain : s.main = .idle)
  | entered {thread : τ} {operation : ω} (hholder : s.holder = some (thread, .entered operation))
      (hinner : s.inner = false) (hqueue : s.queue = []) (hmain : s.main = .idle)
  | locked {thread : τ} {operation : ω} (hholder : s.holder = some (thread, .locked operation))
      (hinner : s.inner = true) (hqueue : s.queue = []) (hmain : s.main = .idle)
  | scheduled {thread : τ} {call : ℕ} {operation : ω}
      (hholder : s.holder = some (thread, .scheduled call)) (hinner : s.inner = true)
      (hqueue : s.queue = [(call, operation)]) (hmain : s.main = .idle) (hopen : Open s call)
  | scheduledStarted {thread : τ} {call : ℕ} {operation : ω}
      (hholder : s.holder = some (thread, .scheduled call)) (hinner : s.inner = true)
      (hqueue : s.queue = []) (hmain : s.main = .started call operation) (hopen : Open s call)
  | waiting {thread : τ} {call : ℕ} {operation : ω}
      (hholder : s.holder = some (thread, .waiting call)) (hinner : s.inner = false)
      (hqueue : s.queue = [(call, operation)]) (hmain : s.main = .idle) (hopen : Open s call)
  | started {thread : τ} {call : ℕ} {operation : ω}
      (hholder : s.holder = some (thread, .waiting call)) (hinner : s.inner = false)
      (hqueue : s.queue = []) (hmain : s.main = .started call operation) (hopen : Open s call)
  | holding {thread : τ} {stage : Stage ω} {call : ℕ} {operation : ω}
      (hholder : s.holder = some (thread, stage))
      (hstage : stage = .waiting call ∨ stage = .woken call) (hinner : s.inner = true)
      (hqueue : s.queue = []) (hmain : s.main = .holding call operation) (hopen : Open s call)
  | performed {thread : τ} {stage : Stage ω} {call : ℕ}
      (hholder : s.holder = some (thread, stage))
      (hstage : stage = .waiting call ∨ stage = .woken call) (hinner : s.inner = true)
      (hqueue : s.queue = []) (hmain : s.main = .performed call) (hopen : Open s call)
      (hdone : Done s call)
  | notified {thread : τ} {call : ℕ} (hholder : s.holder = some (thread, .woken call))
      (hinner : s.inner = true) (hqueue : s.queue = []) (hmain : s.main = .notified call)
      (hopen : Open s call) (hdone : Done s call)
  | woken {thread : τ} {call : ℕ} (hholder : s.holder = some (thread, .woken call))
      (hinner : s.inner = false) (hqueue : s.queue = []) (hmain : s.main = .idle)
      (hcompleted : call ∈ s.completed)
  | relocked {thread : τ} {call : ℕ} (hholder : s.holder = some (thread, .relocked call))
      (hinner : s.inner = true) (hqueue : s.queue = []) (hmain : s.main = .idle)
      (hcompleted : call ∈ s.completed)

structure Consistent (s : State τ ω σ ρ) : Prop where
  configuration : Configuration s
  completed : ∀ call ∈ s.completed, call < s.nextCall ∧ Done s call
  returned : ∀ call result, (call, result) ∈ s.returned →
    call ∈ s.completed ∧ ∃ operation value, (call, operation, value) ∈ s.performed ∧
      result = some value

/-- What a call finds is what its callback has left. -/
theorem resultOf_of_done {s : State τ ω σ ρ} {call : ℕ} (hdone : Done s call) :
    ∃ operation value, (call, operation, value) ∈ s.performed ∧
      resultOf s call = some value := by
  obtain ⟨operation, value, hmem⟩ := hdone
  cases hfind : s.performed.find? fun entry => entry.1 = call with
  | none =>
      rw [List.find?_eq_none] at hfind
      exact absurd (hfind _ hmem) (by simp)
  | some entry =>
      have hcall : entry.1 = call := by simpa using List.find?_some hfind
      obtain ⟨found, operation, value⟩ := entry
      obtain rfl : found = call := hcall
      exact ⟨operation, value, List.mem_of_find?_eq_some hfind, by rw [resultOf, hfind]; rfl⟩

/-! ## One step -/

section Steps

variable {s s' : State τ ω σ ρ}

/-- A call is scheduled under a fresh number. -/
theorem consistent_schedule (h : Consistent s) (thread : τ) (operation : ω)
    (hinner : s.inner = true) (hqueue : s.queue = []) (hmain : s.main = .idle) :
    Consistent { s with
      holder := some (thread, .scheduled s.nextCall)
      queue := s.queue ++ [(s.nextCall, operation)]
      nextCall := s.nextCall + 1 } := by
  have hqueue' : s.queue ++ [(s.nextCall, operation)] = [(s.nextCall, operation)] := by
    rw [hqueue]
    rfl
  have hfresh : s.nextCall ∉ s.completed := fun hold =>
    Nat.lt_irrefl _ (h.completed _ hold).1
  refine ⟨.scheduled rfl hinner hqueue' hmain ⟨hfresh, Nat.lt_succ_self _⟩, ?_, h.returned⟩
  exact fun call hcall => ⟨Nat.lt_succ_of_lt (h.completed call hcall).1,
    (h.completed call hcall).2⟩

/-- A call returns with what its callback has left. -/
theorem consistent_return (h : Consistent s) {call : ℕ} (hqueue : s.queue = [])
    (hmain : s.main = .idle) (hcompleted : call ∈ s.completed) :
    Consistent ({ s with
      holder := none
      inner := false
      returned := s.returned ++ [(call, resultOf s call)] } : State τ ω σ ρ) := by
  refine ⟨.free rfl rfl hqueue hmain, h.completed, ?_⟩
  intro other result hmem
  rcases List.mem_append.mp hmem with hold | hnew
  · exact h.returned other result hold
  · obtain ⟨rfl, rfl⟩ := Prod.mk.inj (List.mem_singleton.mp hnew)
    exact ⟨hcompleted, resultOf_of_done (h.completed _ hcompleted).2⟩

/-- The callback performs its operation. -/
theorem consistent_perform (h : Consistent s) {thread : τ} {stage : Stage ω} {call : ℕ}
    {operation : ω} (hholder : s.holder = some (thread, stage))
    (hstage : stage = .waiting call ∨ stage = .woken call) (hinner : s.inner = true)
    (hqueue : s.queue = []) (hopen : Open s call) (store : σ) (value : ρ) :
    Consistent { s with
      main := .performed call
      store := store
      performed := s.performed ++ [(call, operation, value)] } := by
  refine ⟨.performed hholder hstage hinner hqueue rfl hopen ⟨operation, value, ?_⟩, ?_, ?_⟩
  · exact List.mem_append_right _ (List.mem_singleton.mpr rfl)
  · intro other hother
    obtain ⟨hlt, operation', value', hmem⟩ := h.completed other hother
    exact ⟨hlt, operation', value', List.mem_append_left _ hmem⟩
  · intro other result hmem
    obtain ⟨hdone, operation', value', hperformed, hresult⟩ := h.returned other result hmem
    exact ⟨hdone, operation', value', List.mem_append_left _ hperformed, hresult⟩

/-- The callback is through. -/
theorem consistent_complete (h : Consistent s) {thread : τ} {call : ℕ}
    (hholder : s.holder = some (thread, .woken call)) (hqueue : s.queue = [])
    (hopen : Open s call) (hdone : Done s call) :
    Consistent { s with
      main := .idle
      inner := false
      completed := s.completed ++ [call] } := by
  refine ⟨.woken hholder rfl hqueue rfl (by simp), ?_, ?_⟩
  · intro other hother
    rcases List.mem_append.mp hother with hold | hnew
    · exact h.completed other hold
    · obtain rfl := List.mem_singleton.mp hnew
      exact ⟨hopen.2, hdone⟩
  · intro other result hmem
    exact ⟨List.mem_append_left _ (h.returned other result hmem).1,
      (h.returned other result hmem).2⟩

/-- The thread with the outer mutex takes its next step. -/
theorem consistent_stageStep (h : Consistent s) {thread : τ} {stage : Stage ω}
    (hstage : s.holder = some (thread, stage)) (hstep : stageStep s thread stage = some s') :
    Consistent s' := by
  have ⟨hconfiguration, hcompleted, hreturned⟩ := h
  cases hconfiguration with
  | free hholder =>
      rw [hholder] at hstage
      cases hstage
  | entered hholder hinner hqueue hmain =>
      rw [hholder] at hstage
      cases hstage
      simp only [stageStep, hinner] at hstep
      cases hstep
      exact ⟨.locked rfl rfl hqueue hmain, hcompleted, hreturned⟩
  | @locked _ operation hholder hinner hqueue hmain =>
      rw [hholder] at hstage
      cases hstage
      cases hstep
      exact consistent_schedule h _ operation hinner hqueue hmain
  | scheduled hholder hinner hqueue hmain hopen =>
      rw [hholder] at hstage
      cases hstage
      cases hstep
      exact ⟨.waiting rfl rfl hqueue hmain hopen, hcompleted, hreturned⟩
  | scheduledStarted hholder hinner hqueue hmain hopen =>
      rw [hholder] at hstage
      cases hstage
      cases hstep
      exact ⟨.started rfl rfl hqueue hmain hopen, hcompleted, hreturned⟩
  -- the thread waits for a wake-up
  | waiting hholder | started hholder =>
      rw [hholder] at hstage
      cases hstage
      cases hstep
  -- the main loop has the lock, so a thread that woke up too early cannot go on
  | holding hholder hstages hinner | performed hholder hstages hinner =>
      rw [hholder] at hstage
      cases hstage
      rcases hstages with rfl | rfl
      · cases hstep
      · simp [stageStep, hinner] at hstep
  | notified hholder hinner =>
      rw [hholder] at hstage
      cases hstage
      simp [stageStep, hinner] at hstep
  | woken hholder hinner hqueue hmain hdone =>
      rw [hholder] at hstage
      cases hstage
      simp only [stageStep, hinner] at hstep
      cases hstep
      exact ⟨.relocked rfl rfl hqueue hmain hdone, hcompleted, hreturned⟩
  | @relocked _ call hholder hinner hqueue hmain hdone =>
      rw [hholder] at hstage
      cases hstage
      cases hstep
      exact consistent_return h hqueue hmain hdone

/-- The main loop takes its next step. -/
theorem consistent_mainStep {apply : ω → σ → σ × ρ} (h : Consistent s)
    (hstep : mainStep apply s = some s') : Consistent s' := by
  have ⟨hconfiguration, hcompleted, hreturned⟩ := h
  cases hconfiguration with
  -- the main loop has nothing to do
  | free _ _ hqueue hmain
  | entered _ _ hqueue hmain
  | locked _ _ hqueue hmain
  | woken _ _ hqueue hmain
  | relocked _ _ hqueue hmain => simp [mainStep, hmain, hqueue] at hstep
  | scheduled hholder hinner hqueue hmain hopen =>
      simp only [mainStep, hmain, hqueue, Option.some.injEq] at hstep
      subst hstep
      exact ⟨.scheduledStarted hholder hinner rfl rfl hopen, hcompleted, hreturned⟩
  -- the thread has the lock until it waits
  | scheduledStarted _ hinner _ hmain => simp [mainStep, hmain, hinner] at hstep
  | waiting hholder hinner hqueue hmain hopen =>
      simp only [mainStep, hmain, hqueue, Option.some.injEq] at hstep
      subst hstep
      exact ⟨.started hholder hinner rfl rfl hopen, hcompleted, hreturned⟩
  | started hholder hinner hqueue hmain hopen =>
      simp only [mainStep, hmain, hinner] at hstep
      cases hstep
      exact ⟨.holding hholder (Or.inl rfl) rfl hqueue rfl hopen, hcompleted, hreturned⟩
  | @holding _ _ call operation hholder hstages hinner hqueue hmain hopen =>
      simp only [mainStep, hmain, Option.some.injEq] at hstep
      subst hstep
      exact consistent_perform h hholder hstages hinner hqueue hopen _ _
  | @performed thread _ call hholder hstages hinner hqueue hmain hopen hdone =>
      simp only [mainStep, hmain, Option.some.injEq] at hstep
      subst hstep
      have hwoken : notify call s.holder = some (thread, .woken call) := by
        rw [hholder]
        rcases hstages with rfl | rfl
        · simp [notify]
        · rfl
      exact ⟨.notified hwoken hinner hqueue rfl hopen hdone, hcompleted, hreturned⟩
  | @notified _ call hholder hinner hqueue hmain hopen hdone =>
      simp only [mainStep, hmain, Option.some.injEq] at hstep
      subst hstep
      exact consistent_complete h hholder hqueue hopen hdone

/-- A wake-up while the callback has the inner mutex. -/
theorem consistent_wakeUp (h : Consistent s) {thread : τ} {call : ℕ}
    (hholder : s.holder = some (thread, .waiting call)) (hinner : s.inner = true) :
    Consistent { s with holder := some (thread, .woken call) } := by
  obtain ⟨hconfiguration, hcompleted, hreturned⟩ := h
  refine ⟨?_, hcompleted, hreturned⟩
  cases hconfiguration with
  | waiting _ hfree | started _ hfree =>
      rw [hfree] at hinner
      cases hinner
  | holding h hstages hinner hqueue hmain hopen =>
      rw [h] at hholder
      cases hholder
      rcases hstages with hcall | hcall
      · cases hcall
        exact .holding rfl (Or.inr rfl) hinner hqueue hmain hopen
      · cases hcall
  | performed h hstages hinner hqueue hmain hopen hdone =>
      rw [h] at hholder
      cases hholder
      rcases hstages with hcall | hcall
      · cases hcall
        exact .performed rfl (Or.inr rfl) hinner hqueue hmain hopen hdone
      · cases hcall
  | _ h =>
      rw [h] at hholder
      cases hholder

/-- A thread takes the free outer mutex. -/
theorem consistent_enter (h : Consistent s) (hholder : s.holder = none) (thread : τ)
    (operation : ω) : Consistent { s with holder := some (thread, .entered operation) } := by
  obtain ⟨hconfiguration, hcompleted, hreturned⟩ := h
  refine ⟨?_, hcompleted, hreturned⟩
  cases hconfiguration with
  | free _ hinner hqueue hmain => exact .entered rfl hinner hqueue hmain
  | _ h =>
      rw [h] at hholder
      cases hholder

/-- No thread touches the store or the record of the callbacks. -/
theorem stageStep_store {thread : τ} {stage : Stage ω}
    (hstep : stageStep s thread stage = some s') :
    s'.store = s.store ∧ s'.performed = s.performed := by
  cases stage with
  | entered | woken =>
      simp only [stageStep] at hstep
      split at hstep
      · cases hstep
      · cases hstep
        exact ⟨rfl, rfl⟩
  | locked | scheduled | relocked =>
      cases hstep
      exact ⟨rfl, rfl⟩
  | waiting => cases hstep

/-- The main loop performs one operation in a step, or none. -/
theorem mainStep_store {apply : ω → σ → σ × ρ} (hstep : mainStep apply s = some s') :
    (s'.store = s.store ∧ s'.performed = s.performed) ∨
      ∃ call operation, s'.store = (apply operation s.store).1 ∧
        s'.performed = s.performed ++ [(call, operation, (apply operation s.store).2)] := by
  unfold mainStep at hstep
  split at hstep
  · split at hstep
    · cases hstep
    · cases hstep
      exact Or.inl ⟨rfl, rfl⟩
  · split at hstep
    · cases hstep
    · cases hstep
      exact Or.inl ⟨rfl, rfl⟩
  · -- the callback at work
    cases hstep
    exact Or.inr ⟨_, _, rfl, rfl⟩
  · cases hstep
    exact Or.inl ⟨rfl, rfl⟩
  · cases hstep
    exact Or.inl ⟨rfl, rfl⟩

end Steps

/-- A callback that is still to come or in progress belongs to the one call that
is being made, and that call is open. -/
theorem open_of_pending {s : State τ ω σ ρ} (h : Configuration s) {call : ℕ}
    (hpending : Pending s call) : Open s call := by
  unfold Pending at hpending
  cases h with
  | scheduled _ _ hqueue hmain hopen
  | waiting _ _ hqueue hmain hopen
  | scheduledStarted _ _ hqueue hmain hopen
  | started _ _ hqueue hmain hopen
  | holding _ _ _ hqueue hmain hopen
  | performed _ _ _ hqueue hmain hopen
  | notified _ _ hqueue hmain hopen =>
      simp [hqueue, hmain, MainPhase.call] at hpending
      exact hpending ▸ hopen
  | free _ _ hqueue hmain
  | entered _ _ hqueue hmain
  | locked _ _ hqueue hmain
  | woken _ _ hqueue hmain
  | relocked _ _ hqueue hmain => simp [hqueue, hmain, MainPhase.call] at hpending

/-- The callback of a waiting call has its notify ahead of it. -/
theorem notifyToCome_of_waiting {s : State τ ω σ ρ} (h : Configuration s) {thread : τ} {call : ℕ}
    (hwaiting : s.holder = some (thread, .waiting call)) : NotifyToCome s call := by
  unfold NotifyToCome
  cases h with
  | waiting hholder _ hqueue =>
      rw [hholder] at hwaiting
      cases hwaiting
      exact Or.inl (by simp [hqueue])
  | started hholder _ _ hmain =>
      rw [hholder] at hwaiting
      cases hwaiting
      exact Or.inr (by rw [hmain]; rfl)
  | holding hholder hstages _ _ hmain | performed hholder hstages _ _ hmain =>
      rw [hholder] at hwaiting
      cases hwaiting
      rcases hstages with hcall | hcall
      · cases hcall
        exact Or.inr (by rw [hmain]; rfl)
      · cases hcall
  | _ hholder =>
      rw [hholder] at hwaiting
      cases hwaiting

/-! ## Runs -/

variable [DecidableEq τ] {apply : ω → σ → σ × ρ}

/-- What a step can be. -/
theorem step_cases {s s' : State τ ω σ ρ} {label : Label τ ω}
    (hstep : step apply s label = some s') :
    (∃ thread operation, label = .enter thread operation ∧ s.holder = none ∧
        s' = { s with holder := some (thread, .entered operation) }) ∨
      (∃ thread stage, label = .thread thread ∧ s.holder = some (thread, stage) ∧
        stageStep s thread stage = some s') ∨
      (∃ thread call, label = .wakeUp thread ∧ s.holder = some (thread, .waiting call) ∧
        s' = { s with holder := some (thread, .woken call) }) ∨
      (label = .main ∧ mainStep apply s = some s') := by
  cases label with
  | enter thread operation =>
      simp only [step] at hstep
      split at hstep
      · rename_i hholder
        cases hstep
        exact Or.inl ⟨thread, operation, rfl, hholder, rfl⟩
      · cases hstep
  | thread thread =>
      simp only [step] at hstep
      split at hstep
      · rename_i holder stage hholder
        split at hstep
        · rename_i hthread
          exact Or.inr (Or.inl ⟨thread, stage, rfl, hthread ▸ hholder, hstep⟩)
        · cases hstep
      · cases hstep
  | wakeUp thread =>
      simp only [step] at hstep
      split at hstep
      · rename_i holder call hholder
        split at hstep
        · rename_i hthread
          cases hstep
          exact Or.inr (Or.inr (Or.inl ⟨thread, call, rfl, hthread ▸ hholder, rfl⟩))
        · cases hstep
      · cases hstep
  | main => exact Or.inr (Or.inr (Or.inr ⟨rfl, hstep⟩))

theorem consistent_step {s s' : State τ ω σ ρ} {label : Label τ ω} (h : Consistent s)
    (hguard : wokenInTime s label) (hstep : step apply s label = some s') : Consistent s' := by
  rcases step_cases hstep with ⟨thread, operation, rfl, hholder, rfl⟩ |
    ⟨thread, stage, rfl, hholder, hstage⟩ | ⟨thread, call, rfl, hholder, rfl⟩ | ⟨rfl, hmain⟩
  · exact consistent_enter h hholder thread operation
  · exact consistent_stageStep h hholder hstage
  · exact consistent_wakeUp h hholder hguard
  · exact consistent_mainStep h hmain

theorem consistent_of_run {store : σ} {labels : List (Label τ ω)} {s : State τ ω σ ρ}
    (run : Run (step apply) wokenInTime (initial store) labels s) : Consistent s := by
  refine run.state_invariant ⟨.free rfl rfl rfl rfl, ?_, ?_⟩ fun _ _ _ => consistent_step
  · exact fun _ hcall => absurd hcall List.not_mem_nil
  · exact fun _ _ hcall => absurd hcall List.not_mem_nil

/-- A run in which calls wake up in time is safe. -/
theorem safe_of_run {store : σ} {labels : List (Label τ ω)} {s : State τ ω σ ρ}
    (run : Run (step apply) wokenInTime (initial store) labels s) : Safe s := by
  have h := consistent_of_run run
  refine ⟨h.returned, ?_, fun _ _ => notifyToCome_of_waiting h.configuration⟩
  intro call result hmem hpending
  exact (open_of_pending h.configuration hpending).1 (h.returned call result hmem).1

/-- The store after the operations of some callbacks. -/
def storeAfter (apply : ω → σ → σ × ρ) (store : σ) (performed : List (ℕ × ω × ρ)) : σ :=
  performed.foldl (fun current entry => (apply entry.2.1 current).1) store

/-- The store has all performed operations, in their order, and no others. -/
theorem store_of_run {store : σ} {labels : List (Label τ ω)} {s : State τ ω σ ρ}
    (run : Reaches (step apply) (initial store) labels s) :
    s.store = storeAfter apply store s.performed := by
  refine run.state_invariant (I := fun s => s.store = storeAfter apply store s.performed) rfl ?_
  intro s label s' h _ hstep
  rcases step_cases hstep with ⟨_, _, _, _, rfl⟩ | ⟨_, _, _, _, hstage⟩ | ⟨_, _, _, _, rfl⟩ |
    ⟨_, hmain⟩
  · exact h
  · rw [(stageStep_store hstage).1, (stageStep_store hstage).2]
    exact h
  · exact h
  · rcases mainStep_store hmain with ⟨hstore, hperformed⟩ |
      ⟨call, operation, hstore, hperformed⟩
    · rw [hstore, hperformed]
      exact h
    · rw [hstore, hperformed, h, storeAfter, storeAfter, List.foldl_append]
      rfl

/-- Only a waiting call wakes up. -/
theorem waiting_of_wakeUp {s : State τ ω σ ρ} {thread : τ}
    (henabled : (step apply s (.wakeUp thread)).isSome) :
    ∃ call, s.holder = some (thread, .waiting call) := by
  obtain ⟨s', hstep⟩ := Option.isSome_iff_exists.mp henabled
  rcases step_cases hstep with ⟨_, _, hlabel, _⟩ | ⟨_, _, hlabel, _⟩ |
    ⟨_, call, hlabel, hholder, _⟩ | ⟨hlabel, _⟩
  · cases hlabel
  · cases hlabel
  · cases hlabel
    exact ⟨call, hholder⟩
  · cases hlabel

/-- A waiting call that wakes up while the inner mutex is free can take it and
return, with its callback still to come. -/
theorem exists_early_return (apply : ω → σ → σ × ρ) {s : State τ ω σ ρ} (h : Consistent s)
    {thread : τ} {call : ℕ} (hwaiting : s.holder = some (thread, .waiting call))
    (hfree : s.inner = false) :
    ∃ s', exec (step apply) s [.wakeUp thread, .thread thread, .thread thread] = some s' ∧
      call ∈ s'.returned.map Prod.fst ∧ call ∉ s'.completed ∧ Pending s' call := by
  have hpending : Pending s call := by
    rcases notifyToCome_of_waiting h.configuration hwaiting with hqueue | hmain
    · exact Or.inl hqueue
    · refine Or.inr ?_
      cases hphase : s.main <;> simp_all [MainPhase.toNotify]
  refine ⟨{ s with
    holder := none
    inner := false
    returned := s.returned ++ [(call, resultOf s call)] }, ?_, ?_, ?_, hpending⟩
  · simp [exec, step, stageStep, hwaiting, hfree, resultOf]
  · simp
  · exact (open_of_pending h.configuration hpending).1

end IdleCall
