import Mathlib.Data.List.Basic

/-!
# The use of buffers

A component that works in cycles gets buffers and has to give each of them back
before the cycle ends.  The log of a cycle lists what is gotten and given back, and
`outAfter` replays it: the buffers that are out, or nothing once a buffer is given
back that is not out.  A cycle conserves its buffers when its log starts and ends
with none out.

`Use` is a part of a cycle, with its log and its result.  An exception ends the
cycle, and with it the log.  `Takes` is the rule for a part: from some buffers out to
some others; `useBuffer` is the usual bracket around the work on one buffer.
-/

namespace Pmx.BufferUse

variable {B E S I O α β γ : Type}

inductive Event (B : Type)
  | get (buffer : B)
  | finish (buffer : B)
  deriving DecidableEq

section Log

variable [DecidableEq B]

/-- The buffers that are out after a log, from those that are out before. -/
def outAfter (out : List B) : List (Event B) → Option (List B)
  | [] => some out
  | .get buffer :: rest => outAfter (buffer :: out) rest
  | .finish buffer :: rest => if buffer ∈ out then outAfter (out.erase buffer) rest else none

/-- Every buffer is given back once, and none is given back otherwise. -/
def Conserves (log : List (Event B)) : Prop :=
  outAfter [] log = some []

instance (log : List (Event B)) : Decidable (Conserves log) :=
  inferInstanceAs (Decidable (_ = _))

theorem outAfter_append (out : List B) (first second : List (Event B)) :
    outAfter out (first ++ second) = (outAfter out first).bind fun out => outAfter out second := by
  induction first generalizing out with
  | nil => rfl
  | cons event rest ih =>
      cases event with
      | get buffer => exact ih (buffer :: out)
      | finish buffer =>
          rw [List.cons_append, outAfter, outAfter]
          split_ifs
          · exact ih (out.erase buffer)
          · rfl

end Log

/-! ## Parts of a cycle -/

/-- What a part of a cycle does with buffers, and its result. -/
@[ext] structure Use (B E α : Type) where
  log : List (Event B)
  result : Except E α

/-- A part that leaves the buffers alone. -/
def lift (result : Except E α) : Use B E α :=
  ⟨[], result⟩

instance : Monad (Use B E) where
  pure value := lift (.ok value)
  bind use next :=
    match use.result with
    | .ok value => ⟨use.log ++ (next value).log, (next value).result⟩
    | .error exception => ⟨use.log, .error exception⟩

/-- A port has a buffer or has none. -/
def getBuffer (buffer : B) (found : Option β) : Use B E (Option β) :=
  ⟨if found.isSome then [.get buffer] else [], .ok found⟩

def finish (buffer : B) : Use B E Unit :=
  ⟨[.finish buffer], .ok ()⟩

/-- The work on a buffer, which is given back behind it. -/
def useBuffer (buffer : B) (found : Option β) (body : Option β → Use B E α) : Use B E α := do
  let found ← getBuffer buffer found
  let value ← body found
  if found.isSome then finish buffer
  return value

theorem bind_of_ok {use : Use B E α} {value : α} (h : use.result = .ok value)
    (next : α → Use B E β) :
    (use >>= next) = ⟨use.log ++ (next value).log, (next value).result⟩ := by
  obtain ⟨log, result⟩ := use
  cases h
  rfl

theorem bind_of_error {use : Use B E α} {exception : E} (h : use.result = .error exception)
    (next : α → Use B E β) : (use >>= next) = ⟨use.log, .error exception⟩ := by
  obtain ⟨log, result⟩ := use
  cases h
  rfl

@[simp] theorem result_pure (value : α) : (pure value : Use B E α).result = .ok value := rfl

@[simp] theorem result_lift (result : Except E α) : (lift result : Use B E α).result = result :=
  rfl

@[simp] theorem result_bind (use : Use B E α) (next : α → Use B E β) :
    (use >>= next).result = use.result >>= fun value => (next value).result := by
  cases h : use.result with
  | ok value =>
      rw [bind_of_ok h]
      rfl
  | error exception =>
      rw [bind_of_error h]
      rfl

@[simp] theorem result_getBuffer (buffer : B) (found : Option β) :
    (getBuffer buffer found : Use B E (Option β)).result = .ok found := rfl

@[simp] theorem result_finish (buffer : B) : (finish buffer : Use B E Unit).result = .ok () := rfl

/-- A bracket has the result of its body. -/
@[simp] theorem result_useBuffer (buffer : B) (found : Option β)
    (body : Option β → Use B E α) :
    (useBuffer buffer found body).result = (body found).result := by
  rw [useBuffer, result_bind, result_getBuffer]
  change ((body found) >>= _).result = _
  rw [result_bind]
  cases (body found).result with
  | error exception => rfl
  | ok value =>
      cases found <;> rfl

/-! ## Rules -/

section Rules

variable [DecidableEq B] {before middle after : List B}

/-- With some buffers out before a part, some are out after it. -/
def Takes (before : List B) (use : Use B E α) (after : List B) : Prop :=
  outAfter before use.log = some after

theorem takes_lift (before : List B) (result : Except E α) : Takes before (lift result) before :=
  rfl

theorem takes_pure (before : List B) (value : α) :
    Takes before (pure value : Use B E α) before :=
  rfl

theorem takes_getBuffer_none (before : List B) (buffer : B) :
    Takes before (getBuffer buffer none : Use B E (Option β)) before :=
  rfl

theorem takes_getBuffer_some (before : List B) (buffer : B) (found : β) :
    Takes before (getBuffer buffer (some found) : Use B E (Option β)) (buffer :: before) :=
  rfl

/-- The last buffer that was gotten is given back. -/
theorem takes_finish (before : List B) (buffer : B) :
    Takes (buffer :: before) (finish buffer : Use B E Unit) before := by
  simp [Takes, finish, outAfter]

theorem Takes.bind {use : Use B E α} {value : α} {next : α → Use B E β}
    (huse : Takes before use middle) (hresult : use.result = .ok value)
    (hnext : Takes middle (next value) after) : Takes before (use >>= next) after := by
  rw [bind_of_ok hresult, Takes, outAfter_append, huse]
  exact hnext

/-- An exception leaves out what is out when it is raised. -/
theorem Takes.bind_error {use : Use B E α} {exception : E} {next : α → Use B E β}
    (huse : Takes before use middle) (hresult : use.result = .error exception) :
    Takes before (use >>= next) middle := by
  rw [bind_of_error hresult]
  exact huse

/-- A bracket is balanced when its body is and raises nothing. -/
theorem Takes.useBuffer {found : Option β} {value : α} (body : Option β → Use B E α)
    (hbody : ∀ before, Takes before (body found) before)
    (hresult : (body found).result = .ok value) (before : List B) (buffer : B) :
    Takes before (useBuffer buffer found body) before := by
  cases found with
  | none =>
      exact (takes_getBuffer_none before buffer).bind rfl
        ((hbody before).bind hresult (takes_pure before _))
  | some found =>
      refine (takes_getBuffer_some before buffer found).bind rfl
        ((hbody (buffer :: before)).bind hresult ?_)
      exact (takes_finish before buffer).bind rfl (takes_pure before value)

/-- The work on a buffer by a function, and the part behind it. -/
theorem Takes.work {buffer : B} {found : Option β} {body : Option β → α}
    {next : α → Use B E γ} (hnext : Takes before (next (body found)) after) :
    Takes before (BufferUse.useBuffer buffer found (fun found => pure (body found)) >>= next)
      after := by
  have hwork : Takes before
      (BufferUse.useBuffer buffer found fun found => (pure (body found) : Use B E α)) before :=
    Takes.useBuffer (fun found => pure (body found)) (fun before => takes_pure before _) rfl
      before buffer
  exact hwork.bind (result_useBuffer _ _ _) hnext

/-- A bracket around an exception keeps its buffer. -/
theorem Takes.useBuffer_error {found : β} {body : Option β → Use B E α} {exception : E}
    (hbody : ∀ before, Takes before (body (some found)) before)
    (hresult : (body (some found)).result = .error exception) (before : List B) (buffer : B) :
    Takes before (BufferUse.useBuffer buffer (some found) body) (buffer :: before) :=
  (takes_getBuffer_some before buffer found).bind rfl
    ((hbody (buffer :: before)).bind_error hresult)

theorem Takes.conserves_iff {use : Use B E α} (h : Takes [] use after) :
    Conserves use.log ↔ after = [] := by
  rw [Conserves, h, Option.some.injEq]

end Rules

/-! ## Runs -/

/-- The logs of a run's cycles, up to the one that raises an exception. -/
def logs (step : S → I → Use B E (S × O)) (s : S) : List I → List (List (Event B))
  | [] => []
  | input :: rest => (step s input).log ::
      match (step s input).result with
      | .ok (next, _) => logs step next rest
      | .error _ => []

section Runs

variable [DecidableEq B] {step : S → I → Use B E (S × O)}

/-- When every cycle conserves its buffers, all of a run do. -/
theorem conserves_logs (h : ∀ s input, Conserves (step s input).log) (s : S) (inputs : List I) :
    ∀ log ∈ logs step s inputs, Conserves log := by
  induction inputs generalizing s with
  | nil => simp [logs]
  | cons input rest ih =>
      rw [logs, List.forall_mem_cons]
      refine ⟨h s input, ?_⟩
      cases (step s input).result with
      | ok pair => exact ih pair.1
      | error exception => exact fun _ hmem => absurd hmem List.not_mem_nil

/-- When it is the input that decides, and a good one raises nothing, a run conserves
its buffers just if all its inputs are good. -/
theorem conserves_logs_iff {good : I → Prop}
    (h : ∀ s input, Conserves (step s input).log ↔ good input)
    (hok : ∀ s input, good input → ∃ pair, (step s input).result = .ok pair) (s : S)
    (inputs : List I) :
    (∀ log ∈ logs step s inputs, Conserves log) ↔ ∀ input ∈ inputs, good input := by
  induction inputs generalizing s with
  | nil => simp [logs]
  | cons input rest ih =>
      rw [logs, List.forall_mem_cons, List.forall_mem_cons, h]
      refine and_congr_right fun hgood => ?_
      obtain ⟨pair, hresult⟩ := hok s input hgood
      rw [hresult]
      exact ih pair.1

end Runs

end Pmx.BufferUse
