import Mathlib.Data.List.AList
import Pmx.Library.LinkTable
import Pmx.Ports

/-!
# Sessions

What `pmx_manage_connections.lua` works on: the ports and the metadata that its object
manager has, and the links that it has made.  The hooks for the inputs and for the outputs
of the input channels have each a session with the ports that concern them.

A new port runs the hooks for it.  Links are announced and removed at their own pace, and
this alone can always settle a session (`exists_settled`).
-/

namespace Pmx.ManageConnections

open Cxx Transition

/-- Without a metadata object there are no keys, and so no hook does anything. -/
structure Session (π : Type) where
  ports : List π
  metadata : AList fun _ : Str => Str
  links : List (LinkTable.Link π π)

/-- What happens to a session, the metadata aside. -/
inductive SessionEvent (π : Type)
  | portAdded (port : π)
  | link (event : LinkTable.Event)
  deriving DecidableEq

namespace Session

variable {π : Type}

def initial : Session π :=
  ⟨[], ∅, []⟩

/-- No creation and no destruction of a link is in flight. -/
def Settled (s : Session π) : Prop :=
  LinkTable.Settled s.links

instance (s : Session π) : Decidable s.Settled :=
  inferInstanceAs (Decidable (LinkTable.Settled s.links))

variable (portAlias : π → Str) (portAdded : Session π → π → Session π)

/-- Aliases of ports are unique. -/
def act (s : Session π) : SessionEvent π → Option (Session π)
  | .portAdded port =>
      if portAlias port ∈ s.ports.map portAlias then none else some (portAdded s port)
  | .link event => (LinkTable.step s.links event).map fun links => { s with links }

variable {portAlias portAdded}

theorem act_cases {s s' : Session π} {event : SessionEvent π}
    (h : act portAlias portAdded s event = some s') :
    (∃ port, event = .portAdded port ∧ portAlias port ∉ s.ports.map portAlias ∧
      s' = portAdded s port) ∨
    ∃ linkEvent links, event = .link linkEvent ∧ LinkTable.step s.links linkEvent = some links ∧
      s' = { s with links } := by
  cases event with
  | portAdded port =>
      simp only [act] at h
      split_ifs at h with hfresh
      exact Or.inl ⟨port, rfl, hfresh, (Option.some.inj h).symm⟩
  | link linkEvent =>
      obtain ⟨links, hlinks, rfl⟩ := Option.map_eq_some_iff.mp h
      exact Or.inr ⟨linkEvent, links, rfl, hlinks, rfl⟩

/-- All announcements and removals that are due can come. -/
theorem exists_settled [DecidableEq π] (may : Session π → SessionEvent π → Prop)
    (hmay : ∀ s event, may s (.link event)) (s : Session π) :
    ∃ events links, Run (act portAlias portAdded) may s events { s with links } ∧
      LinkTable.Settled links ∧
        ∀ near, LinkTable.live links near = LinkTable.live s.links near := by
  obtain ⟨events, links, hexec, hsettled⟩ := LinkTable.exists_settled s.links
  have hreaches := reaches_of_exec hexec
  refine ⟨events.map .link, links, ?_, hsettled, fun near => ?_⟩
  · refine Run.nil.embed (fun links => { s with links }) SessionEvent.link
      (fun _ event _ => hmay _ event) ?_ hreaches
    intro links event links' hstep
    rw [act, hstep]
    rfl
  · exact hreaches.state_invariant (I := fun links =>
      LinkTable.live links near = LinkTable.live s.links near) rfl
      fun _ _ _ h _ hstep => (LinkTable.live_step hstep near).trans h

end Session

end Pmx.ManageConnections
