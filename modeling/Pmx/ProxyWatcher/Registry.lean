import Pmx.ProxyWatcher.Parameters

/-!
# The registry

PipeWire reports every object that appears, and every one that goes.  For a node
with a name the watcher makes a proxy and puts it behind the others; what goes is
not listened to, so a proxy is never taken out.  `get_proxy` searches from the
front.

PipeWire gives the id of a removed node to a later one.  From then on
`get_proxy` returns the proxy of the node that is gone: it returns the most recent
proxy of an id just if there has been no other (`getProxy_iff`).
-/

namespace Pmx.ProxyWatcher

open Cxx

variable {F D Callback Client : Type}

/-- `ProxyWatcher`.  A pointer to a proxy is its position in `proxies`, which it
keeps. -/
structure State (F D Callback Client : Type) where
  proxies : List (Proxy F D Callback Client)
  watchedNames : List (Str × Callback)
  deriving DecidableEq

def State.initial : State F D Callback Client := ⟨[], []⟩

/-- `process_registry_event`; `name` is the name among the properties of the object and
`client` what binding it gives. -/
def processRegistryEvent (s : State F D Callback Client) (id : UInt32) (type : Str)
    (name : Option Str) (client : Option Client) : State F D Callback Client :=
  if type = lit "PipeWire:Interface:Node" then
    match name with
    | none => s
    | some name =>
        -- watchers of the name that came before the node
        let watched := s.watchedNames.filter fun watchedName => watchedName.1 = name
        let proxy := (watched.map Prod.snd).foldl Proxy.watchProxyPropParams
          (Proxy.new id name client)
        { s with proxies := s.proxies ++ [proxy] }
  else s

/-- `get_proxy`. -/
def getProxy (s : State F D Callback Client) (id : UInt32) : Option ℕ :=
  s.proxies.findIdx? fun proxy => proxy.id = id

/-- The client of the proxy that `get_proxy` returns. -/
def clientOf (s : State F D Callback Client) (id : UInt32) : Option Client :=
  (getProxy s id).bind fun proxy => (s.proxies[proxy]?.map Proxy.client).join

/-- `watch_proxy_by_name`. -/
def watchProxyByName (s : State F D Callback Client) (name : Str) (callback : Callback) :
    State F D Callback Client :=
  { s with watchedNames := s.watchedNames ++ [(name, callback)] }

/-- `watch_proxy_prop_params` on the proxy that a pointer is to. -/
def watchProxy (s : State F D Callback Client) (proxy : ℕ) (callback : Callback) :
    State F D Callback Client :=
  { s with
    proxies := s.proxies.modify proxy fun proxy => proxy.watchProxyPropParams callback }

/-- An object appears or goes, a node reports parameters, or a watcher is registered. -/
inductive Event (F D Callback Client : Type)
  | global (id : UInt32) (type : Str) (name : Option Str) (client : Option Client)
  | globalRemove (id : UInt32)
  | param (proxy : ℕ) (parameters : List (Parameter F D))
  | watchByName (name : Str) (callback : Callback)
  | watch (proxy : ℕ) (callback : Callback)

/-- The id of a node that a registry event adds. -/
def nodeAdded : Event F D Callback Client → Option UInt32
  | .global id type (some _) _ => if type = lit "PipeWire:Interface:Node" then some id else none
  | _ => none

/-- How often a node with an id is added. -/
def additions (events : List (Event F D Callback Client)) (id : UInt32) : ℕ :=
  events.countP fun event => nodeAdded event = some id

theorem additions_eq_zero_iff {events : List (Event F D Callback Client)} {id : UInt32} :
    additions events id = 0 ↔ ∀ event ∈ events, nodeAdded event ≠ some id := by
  simp [additions, List.countP_eq_zero]

theorem additions_split {before later : List (Event F D Callback Client)}
    {event : Event F D Callback Client} {id : UInt32} (hevent : nodeAdded event = some id) :
    additions (before ++ event :: later) id = additions before id + additions later id + 1 := by
  rw [additions, List.countP_append, List.countP_cons, if_pos (decide_eq_true hevent)]
  exact (add_assoc _ _ 1).symm

/-! ## Ids -/

/-- The ids of the proxies, in the order of the vector. -/
def ids (s : State F D Callback Client) : List UInt32 :=
  s.proxies.map Proxy.id

theorem getProxy_eq (s : State F D Callback Client) (id : UInt32) :
    getProxy s id = (ids s).findIdx? fun other => other = id := by
  rw [ids, List.findIdx?_map]
  rfl

theorem lt_of_getProxy {s : State F D Callback Client} {id : UInt32} {proxy : ℕ}
    (h : getProxy s id = some proxy) : proxy < s.proxies.length :=
  (List.findIdx?_eq_some_iff_getElem.mp h).1

/-- A field that a modification keeps. -/
theorem map_modify {α : Type} (field : Proxy F D Callback Client → α)
    {f : Proxy F D Callback Client → Proxy F D Callback Client}
    (hf : ∀ proxy, field (f proxy) = field proxy) (proxies : List (Proxy F D Callback Client))
    (i : ℕ) : (proxies.modify i f).map field = proxies.map field := by
  refine List.ext_getElem? fun j => ?_
  rw [List.getElem?_map, List.getElem?_map, List.getElem?_modify]
  cases proxies[j]? with
  | none => rfl
  | some proxy =>
      by_cases hij : i = j
      · simp [hij, hf]
      · simp [hij]

/-- The proxy for a node that a registry event adds, before it has watchers. -/
def newProxy : Event F D Callback Client → Option (Proxy F D Callback Client)
  | .global id type (some name) client =>
      if type = lit "PipeWire:Interface:Node" then some (.new id name client) else none
  | _ => none

theorem map_id_newProxy (event : Event F D Callback Client) :
    (newProxy event).map Proxy.id = nodeAdded event := by
  cases event with
  | global id type name client =>
      cases name with
      | none => rfl
      | some name =>
          rw [newProxy, nodeAdded]
          split_ifs <;> rfl
  | _ => rfl

theorem map_processRegistryEvent {α : Type} (field : Proxy F D Callback Client → α)
    (hwatch : ∀ proxy callback, field (proxy.watchProxyPropParams callback) = field proxy)
    (s : State F D Callback Client) (id : UInt32) (type : Str) (name : Option Str)
    (client : Option Client) :
    (processRegistryEvent s id type name client).proxies.map field =
      s.proxies.map field ++ ((newProxy (.global id type name client)).map field).toList := by
  have hwatchers : ∀ (callbacks : List Callback) proxy,
      field (callbacks.foldl Proxy.watchProxyPropParams proxy) = field proxy := by
    intro callbacks
    induction callbacks with
    | nil => exact fun _ => rfl
    | cons callback rest ih => exact fun proxy => (ih _).trans (hwatch proxy callback)
  unfold processRegistryEvent
  by_cases htype : type = lit "PipeWire:Interface:Node"
  · cases name with
    | none => simp [htype, newProxy]
    | some name => simp [htype, newProxy, hwatchers]
  · cases name <;> simp [htype, newProxy]

/-! ## Events -/

variable [DecidableEq F] [DecidableEq D]

/-- What `process_node_params_event` does with the parameters it has read. -/
def updateProxy (s : State F D Callback Client) (proxy : ℕ) (parameters : List (Parameter F D)) :
    State F D Callback Client :=
  { s with proxies := s.proxies.modify proxy fun proxy => proxy.updateParameters parameters }

/-- There is no handler for the removal of an object. -/
def handle (s : State F D Callback Client) :
    Event F D Callback Client → State F D Callback Client
  | .global id type name client => processRegistryEvent s id type name client
  | .globalRemove _ => s
  | .param proxy parameters => updateProxy s proxy parameters
  | .watchByName name callback => watchProxyByName s name callback
  | .watch proxy callback => watchProxy s proxy callback

/-- The state after some events. -/
def after (events : List (Event F D Callback Client)) : State F D Callback Client :=
  events.foldl handle .initial

/-- A pointer to the proxy that the last event to add a node with an id has made, or
nothing if there is no such event. -/
def MostRecent (events : List (Event F D Callback Client)) (id : UInt32) : Option ℕ → Prop
  | none => ∀ event ∈ events, nodeAdded event ≠ some id
  | some proxy => ∃ before event later, events = before ++ event :: later ∧
      nodeAdded event = some id ∧ (∀ event ∈ later, nodeAdded event ≠ some id) ∧
      proxy = (after before).proxies.length

/-- What becomes of a field that no later event changes: the proxies stay where they are,
and a new one comes behind them. -/
theorem map_handle {α : Type} (field : Proxy F D Callback Client → α)
    (hwatch : ∀ proxy callback, field (proxy.watchProxyPropParams callback) = field proxy)
    (hupdate : ∀ proxy parameters, field (proxy.updateParameters parameters) = field proxy)
    (s : State F D Callback Client) (event : Event F D Callback Client) :
    (handle s event).proxies.map field =
      s.proxies.map field ++ ((newProxy event).map field).toList := by
  cases event with
  | global id type name client => exact map_processRegistryEvent field hwatch s id type name client
  | globalRemove id => exact (List.append_nil _).symm
  | param proxy parameters =>
      exact (map_modify field (hupdate · parameters) s.proxies proxy).trans
        (List.append_nil _).symm
  | watchByName name callback => exact (List.append_nil _).symm
  | watch proxy callback =>
      exact (map_modify field (hwatch · callback) s.proxies proxy).trans (List.append_nil _).symm

/-- An event adds the id of a node, and takes none away. -/
theorem ids_handle (s : State F D Callback Client) (event : Event F D Callback Client) :
    ids (handle s event) = ids s ++ (nodeAdded event).toList := by
  rw [← map_id_newProxy]
  exact map_handle Proxy.id (fun _ _ => rfl) (fun _ _ => rfl) s event

/-- A proxy that is found stays the one that is found; a new one is found where there
was none. -/
theorem getProxy_handle (s : State F D Callback Client) (event : Event F D Callback Client)
    (id : UInt32) :
    getProxy (handle s event) id =
      (getProxy s id).or
        (if nodeAdded event = some id then some s.proxies.length else none) := by
  have hlength : (ids s).length = s.proxies.length := List.length_map _
  rw [getProxy_eq, ids_handle, List.findIdx?_append, ← getProxy_eq, hlength]
  cases hadded : nodeAdded event with
  | none => simp
  | some other => by_cases hother : other = id <;> simp [hother]

theorem getProxy_of_found {s : State F D Callback Client} {id : UInt32} {proxy : ℕ}
    (h : getProxy s id = some proxy) (events : List (Event F D Callback Client)) :
    getProxy (events.foldl handle s) id = some proxy := by
  induction events generalizing s with
  | nil => exact h
  | cons event rest ih =>
      refine ih ?_
      rw [getProxy_handle, h, Option.some_or]

theorem getProxy_eq_none_iff (events : List (Event F D Callback Client)) (id : UInt32) :
    getProxy (after events) id = none ↔ ∀ event ∈ events, nodeAdded event ≠ some id := by
  induction events using List.reverseRecOn with
  | nil => exact iff_of_true rfl fun _ h => absurd h List.not_mem_nil
  | append_singleton events event ih =>
      rw [after, List.foldl_concat, getProxy_handle, ← after, Option.or_eq_none_iff, ih]
      by_cases hevent : nodeAdded event = some id
      · simp [hevent]
      · simp [hevent, or_imp, forall_and]

/-- The first proxy of an id is the one that is returned, whatever comes later. -/
theorem getProxy_first {before later : List (Event F D Callback Client)}
    {event : Event F D Callback Client} {id : UInt32} (hevent : nodeAdded event = some id)
    (hbefore : ∀ event ∈ before, nodeAdded event ≠ some id) :
    getProxy (after (before ++ event :: later)) id = some (after before).proxies.length := by
  rw [after, List.foldl_append, List.foldl_cons, ← after]
  refine getProxy_of_found ?_ later
  rw [getProxy_handle, (getProxy_eq_none_iff before id).mpr hbefore, if_pos hevent, Option.none_or]

/-- A proxy that is returned and was not there before is the first of its id. -/
theorem not_mem_before {before later : List (Event F D Callback Client)} {id : UInt32}
    (h : getProxy (after (before ++ later)) id = some (after before).proxies.length) :
    ∀ event ∈ before, nodeAdded event ≠ some id := by
  rw [← getProxy_eq_none_iff, Option.eq_none_iff_forall_ne_some]
  intro proxy hproxy
  have hkept := getProxy_of_found hproxy later
  rw [after, List.foldl_append, ← after, hkept] at h
  exact (lt_of_getProxy hproxy).ne (Option.some.inj h)

theorem additions_le_one_of_mostRecent {events : List (Event F D Callback Client)} {id : UInt32}
    (h : MostRecent events id (getProxy (after events) id)) : additions events id ≤ 1 := by
  cases hproxy : getProxy (after events) id with
  | none =>
      rw [additions_eq_zero_iff.mpr ((getProxy_eq_none_iff events id).mp hproxy)]
      exact Nat.zero_le 1
  | some proxy =>
      rw [hproxy] at h
      obtain ⟨before, event, later, rfl, hevent, hlater, rfl⟩ := h
      rw [additions_split hevent, additions_eq_zero_iff.mpr (not_mem_before hproxy),
        additions_eq_zero_iff.mpr hlater]

theorem mostRecent_of_additions_le_one {events : List (Event F D Callback Client)} {id : UInt32}
    (h : additions events id ≤ 1) : MostRecent events id (getProxy (after events) id) := by
  by_cases hnone : ∀ event ∈ events, nodeAdded event ≠ some id
  · rw [(getProxy_eq_none_iff events id).mpr hnone]
    exact hnone
  · push Not at hnone
    obtain ⟨event, hmem, hevent⟩ := hnone
    obtain ⟨before, later, rfl⟩ := List.append_of_mem hmem
    rw [additions_split hevent] at h
    have hbefore : ∀ event ∈ before, nodeAdded event ≠ some id :=
      additions_eq_zero_iff.mp (by omega)
    have hlater : ∀ event ∈ later, nodeAdded event ≠ some id :=
      additions_eq_zero_iff.mp (by omega)
    rw [getProxy_first hevent hbefore]
    exact ⟨before, event, later, rfl, hevent, hlater, rfl⟩

/-- **`get_proxy` returns the most recent proxy of an id just if there has been no
other.** -/
theorem getProxy_iff (events : List (Event F D Callback Client)) (id : UInt32) :
    MostRecent events id (getProxy (after events) id) ↔ additions events id ≤ 1 :=
  ⟨additions_le_one_of_mostRecent, mostRecent_of_additions_le_one⟩

/-- A filter chain is stopped and started again, and gets the id it had. -/
def restarted : List (Event Unit Unit Unit ℕ) :=
  [.global 40 (lit "PipeWire:Interface:Node") (some (lit "pmx-filter-chain")) (some 1),
    .globalRemove 40,
    .global 40 (lit "PipeWire:Interface:Node") (some (lit "pmx-filter-chain")) (some 2)]

/-- The proxy of the stopped one is returned, with its client. -/
theorem getProxy_restarted :
    getProxy (after restarted) 40 = some 0 ∧ clientOf (after restarted) 40 = some 1 ∧
      ¬ MostRecent restarted 40 (getProxy (after restarted) 40) :=
  ⟨rfl, rfl, fun h => absurd (additions_le_one_of_mostRecent h) (by decide)⟩

/-! ## Parameters -/

end Pmx.ProxyWatcher
