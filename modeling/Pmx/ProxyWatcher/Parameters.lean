import Pmx.Library.UpsertList
import Pmx.ProxyWatcher

/-!
# Stored parameters

A proxy keeps the parameters of its node in a vector.  `update_parameters` puts
the parameters it is called with in there one by one and hands those that were
new or different to every watcher, also when there are none.

The vector is an upserted list, and `equal` is equality (`equal_iff`), so what a
watcher has been given leads to the same list as the parameters themselves.
-/

namespace Pmx.ProxyWatcher

open Cxx UpsertList

variable {F D Callback Client : Type}

deriving instance DecidableEq for PropertyValue

/-- A name with its value. -/
abbrev Parameter (F D : Type) := Str × PropertyValue F D

/-- A callback with the change lists it has been called with. -/
structure Watcher (F D Callback : Type) where
  callback : Callback
  given : List (List (Parameter F D))
  deriving DecidableEq

/-- `Proxy`, with the client that was bound when it was made. -/
structure Proxy (F D Callback Client : Type) where
  id : UInt32
  name : Str
  client : Option Client
  parameters : List (Parameter F D)
  watchCallbacks : List (Watcher F D Callback)
  deriving DecidableEq

/-- The constructor of `Proxy`. -/
def Proxy.new (id : UInt32) (name : Str) (client : Option Client) :
    Proxy F D Callback Client :=
  ⟨id, name, client, [], []⟩

/-- `watch_proxy_prop_params`. -/
def Proxy.watchProxyPropParams (proxy : Proxy F D Callback Client) (callback : Callback) :
    Proxy F D Callback Client :=
  { proxy with watchCallbacks := proxy.watchCallbacks ++ [⟨callback, []⟩] }

/-- The watchers registered on a new proxy, without having been called. -/
theorem foldl_watchProxyPropParams (proxy : Proxy F D Callback Client)
    (callbacks : List Callback) :
    callbacks.foldl Proxy.watchProxyPropParams proxy =
      { proxy with
        watchCallbacks :=
          proxy.watchCallbacks ++ callbacks.map fun callback => ⟨callback, []⟩ } := by
  induction callbacks generalizing proxy with
  | nil => simp
  | cons callback rest ih =>
      rw [List.foldl_cons, ih]
      simp [Proxy.watchProxyPropParams]

variable [DecidableEq F] [DecidableEq D]

/-- `equal`, over numbers that are equal just if they compare so. -/
def equal (left right : Parameter F D) : Bool :=
  if left.1 ≠ right.1 then false
  else
    match left.2, right.2 with
    | .int l, .int r => l = r
    | .long l, .long r => l = r
    | .float l, .float r => l = r
    | .double l, .double r => l = r
    | .string l, .string r => l = r
    | .bool l, .bool r => l = r
    | .none, .none => true
    | _, _ => false

/-- The body of the loop over the parameters, on the stored parameters and the
changes so far. -/
def updateParameter (result : List (Parameter F D) × List (Parameter F D))
    (parameter : Parameter F D) : List (Parameter F D) × List (Parameter F D) :=
  match result.1.findIdx? fun p => p.1 = parameter.1 with
  | some existing =>
      if result.1[existing]?.any fun p => equal p parameter then result
      else (result.1.set existing parameter, result.2 ++ [parameter])
  | none => (result.1 ++ [parameter], result.2 ++ [parameter])

/-- `update_parameters`. -/
def Proxy.updateParameters (proxy : Proxy F D Callback Client)
    (parameters : List (Parameter F D)) : Proxy F D Callback Client :=
  let result := parameters.foldl updateParameter (proxy.parameters, [])
  { proxy with
    parameters := result.1
    watchCallbacks := proxy.watchCallbacks.map fun watcher =>
      { watcher with given := watcher.given ++ [result.2] } }

/-- The calls on a proxy that has been made. -/
inductive Call (F D Callback : Type)
  | watch (callback : Callback)
  | update (parameters : List (Parameter F D))

def Proxy.call (proxy : Proxy F D Callback Client) : Call F D Callback → Proxy F D Callback Client
  | .watch callback => proxy.watchProxyPropParams callback
  | .update parameters => proxy.updateParameters parameters

/-- All parameters that come in with some calls. -/
def received : List (Call F D Callback) → List (Parameter F D)
  | [] => []
  | .watch _ :: rest => received rest
  | .update parameters :: rest => parameters ++ received rest

/-- For every update the parameters that were not stored when their turn came. -/
def changeLists (proxy : Proxy F D Callback Client) :
    List (Call F D Callback) → List (List (Parameter F D))
  | [] => []
  | .watch callback :: rest => changeLists (proxy.call (.watch callback)) rest
  | .update parameters :: rest =>
      changes proxy.parameters parameters :: changeLists (proxy.call (.update parameters)) rest

/-! ## One update -/

theorem equal_iff (left right : Parameter F D) : equal left right = true ↔ left = right := by
  obtain ⟨leftName, leftValue⟩ := left
  obtain ⟨rightName, rightValue⟩ := right
  by_cases hname : leftName = rightName
  · cases leftValue <;> cases rightValue <;> simp [equal, hname]
  · simp [equal, hname]

/-- The entry that a search finds is equal just if its value is. -/
theorem any_equal_iff {stored : List (Parameter F D)} {parameter : Parameter F D} {i : ℕ}
    (hfound : (stored.findIdx? fun p => p.1 = parameter.1) = some i) :
    (stored[i]?.any fun p => equal p parameter) = true ↔
      stored.lookup parameter.1 = some parameter.2 := by
  obtain ⟨hi, hname, -⟩ := List.findIdx?_eq_some_iff_getElem.mp hfound
  have hname : stored[i].1 = parameter.1 := of_decide_eq_true hname
  rw [lookup_eq, hfound, Option.bind_some, List.getElem?_eq_getElem hi]
  simp only [Option.any_some, equal_iff, Option.map_some, Option.some.injEq, Prod.ext_iff, hname,
    true_and]

/-- A parameter is put into the list, and is a change if it was not there. -/
theorem updateParameter_eq (stored changed : List (Parameter F D)) (parameter : Parameter F D) :
    updateParameter (stored, changed) parameter =
      (put stored parameter,
        if stored.lookup parameter.1 = some parameter.2 then changed
        else changed ++ [parameter]) := by
  rw [updateParameter, put_eq]
  cases hfound : stored.findIdx? fun p => p.1 = parameter.1 with
  | none =>
      have hlookup : stored.lookup parameter.1 = none := by rw [lookup_eq, hfound]; rfl
      simp [hlookup]
  | some i =>
      by_cases hstored : stored.lookup parameter.1 = some parameter.2
      · have hput : stored.set i parameter = stored := by
          have hsame := put_of_lookup hstored
          rwa [put_eq, hfound] at hsame
        rw [if_pos hstored]
        simp only [(any_equal_iff hfound).mpr hstored, if_true, hput]
      · rw [if_neg hstored]
        simp only [mt (any_equal_iff hfound).mp hstored]
        rfl

theorem foldl_updateParameter (stored changed parameters : List (Parameter F D)) :
    parameters.foldl updateParameter (stored, changed) =
      (replay stored parameters, changed ++ changes stored parameters) := by
  induction parameters generalizing stored changed with
  | nil => simp [changes]
  | cons parameter rest ih =>
      rw [List.foldl_cons, updateParameter_eq, ih, replay_cons, changes]
      by_cases hstored : stored.lookup parameter.1 = some parameter.2
      · rw [if_pos hstored, if_pos hstored, put_of_lookup hstored]
      · rw [if_neg hstored, if_neg hstored, List.append_assoc, List.singleton_append]

theorem updateParameters_eq (proxy : Proxy F D Callback Client)
    (parameters : List (Parameter F D)) :
    proxy.updateParameters parameters =
      { proxy with
        parameters := replay proxy.parameters parameters
        watchCallbacks := proxy.watchCallbacks.map fun watcher =>
          { watcher with given := watcher.given ++ [changes proxy.parameters parameters] } } := by
  rw [Proxy.updateParameters, foldl_updateParameter, List.nil_append]

/-! ## All updates -/

theorem parameters_calls (proxy : Proxy F D Callback Client) (calls : List (Call F D Callback)) :
    (calls.foldl Proxy.call proxy).parameters = replay proxy.parameters (received calls) := by
  induction calls generalizing proxy with
  | nil => rfl
  | cons call rest ih =>
      rw [List.foldl_cons, ih]
      cases call with
      | watch callback => rfl
      | update parameters => rw [Proxy.call, updateParameters_eq, received, replay_append]

/-- A watcher is given the change lists of all later calls. -/
theorem watchCallbacks_calls (proxy : Proxy F D Callback Client)
    (calls : List (Call F D Callback)) :
    ∃ later, (calls.foldl Proxy.call proxy).watchCallbacks =
      (proxy.watchCallbacks.map fun watcher =>
        { watcher with given := watcher.given ++ changeLists proxy calls }) ++ later := by
  induction calls generalizing proxy with
  | nil => exact ⟨[], by simp [changeLists]⟩
  | cons call rest ih =>
      obtain ⟨later, hlater⟩ := ih (proxy.call call)
      rw [List.foldl_cons, hlater]
      cases call with
      | watch callback =>
          refine ⟨⟨callback, changeLists (proxy.watchProxyPropParams callback) rest⟩ :: later, ?_⟩
          simp [Proxy.call, Proxy.watchProxyPropParams, changeLists]
      | update parameters =>
          refine ⟨later, ?_⟩
          rw [changeLists, Proxy.call, updateParameters_eq, List.map_map]
          simp [Function.comp_def]

/-- The change lists lead to the same parameters as the calls. -/
theorem replay_changeLists (proxy : Proxy F D Callback Client) (calls : List (Call F D Callback)) :
    replay proxy.parameters (changeLists proxy calls).flatten =
      replay proxy.parameters (received calls) := by
  induction calls generalizing proxy with
  | nil => rfl
  | cons call rest ih =>
      cases call with
      | watch callback => exact ih (proxy.call (.watch callback))
      | update parameters =>
          have hparameters : (proxy.call (.update parameters)).parameters =
              replay proxy.parameters parameters := by
            rw [Proxy.call, updateParameters_eq]
          have hrest := ih (proxy.call (.update parameters))
          rw [hparameters] at hrest
          calc replay proxy.parameters (changeLists proxy (.update parameters :: rest)).flatten
              = replay (replay proxy.parameters (changes proxy.parameters parameters))
                  (changeLists (proxy.call (.update parameters)) rest).flatten := by
                rw [changeLists, List.flatten_cons, replay_append]
            _ = replay (replay proxy.parameters parameters) (received rest) := by
                rw [replay_changes, hrest]
            _ = replay proxy.parameters (received (.update parameters :: rest)) := by
                rw [received, replay_append]

/-- **Every name is stored once, where it first came, with its last value.  A watcher from
before the first update has been given the parameters that were not stored when their
turn came, and these lead to what is stored.** -/
theorem parameters_of_calls (id : UInt32) (name : Str) (client : Option Client)
    (callbacks : List Callback) (calls : List (Call F D Callback)) :
    let fresh := callbacks.foldl Proxy.watchProxyPropParams (Proxy.new id name client)
    let proxy := calls.foldl Proxy.call fresh
    proxy.parameters.map Prod.fst = ((received calls).map Prod.fst).eraseDups ∧
      (proxy.parameters.map Prod.fst).Nodup ∧
      (∀ name, proxy.parameters.lookup name = (received calls).reverse.lookup name) ∧
      (proxy.watchCallbacks.take callbacks.length).map Watcher.callback = callbacks ∧
      ∀ watcher ∈ proxy.watchCallbacks.take callbacks.length,
        watcher.given = changeLists fresh calls ∧
          replay [] watcher.given.flatten = proxy.parameters := by
  intro fresh proxy
  have hfresh : fresh.parameters = [] ∧
      fresh.watchCallbacks = callbacks.map fun callback => ⟨callback, []⟩ := by
    simp only [fresh, foldl_watchProxyPropParams]
    exact ⟨rfl, rfl⟩
  have hparameters : proxy.parameters = replay [] (received calls) := by
    rw [← hfresh.1]
    exact parameters_calls fresh calls
  have hwatchers : proxy.watchCallbacks.take callbacks.length =
      callbacks.map fun callback => ⟨callback, changeLists fresh calls⟩ := by
    obtain ⟨later, hlater⟩ := watchCallbacks_calls fresh calls
    rw [hfresh.2, List.map_map] at hlater
    rw [show proxy.watchCallbacks = _ from hlater, List.take_left' (List.length_map _)]
    rfl
  refine ⟨?_, ?_, fun name => ?_, ?_, fun watcher hwatcher => ?_⟩
  · rw [hparameters, keys_replay]
  · rw [hparameters]
    exact nodup_replay (by simp) (received calls)
  · rw [hparameters, lookup_replay, List.lookup_nil, Option.or_none]
  · rw [hwatchers, List.map_map]
    exact List.map_id callbacks
  · rw [hwatchers] at hwatcher
    obtain ⟨callback, -, rfl⟩ := List.mem_map.mp hwatcher
    refine ⟨rfl, ?_⟩
    have hreplay := replay_changeLists fresh calls
    rwa [hfresh.1, ← hparameters] at hreplay

/-- The second value of the same name in one call is a change against the first. -/
example : changes ([] : List (Parameter Unit Unit))
    [(lit "gain", .int 1), (lit "gain", .long 1), (lit "gain", .long 1)] =
      [(lit "gain", .int 1), (lit "gain", .long 1)] := by
  decide

end Pmx.ProxyWatcher
