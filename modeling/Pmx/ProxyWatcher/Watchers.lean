import Pmx.ProxyWatcher.Registry

/-!
# Watchers

A watcher is registered for a name, and gets all nodes of that name that come later,
or on one proxy.  A proxy only changes in the calls on it, whatever the registry
reports of other nodes (`proxy_of_run`).

So a watcher has been given what leads from the parameters at the time of its
registration to those that are stored, and the calls on other proxies make no
difference (`watchers_of_run`).
-/

namespace Pmx.ProxyWatcher

open Cxx UpsertList

variable {F D Callback Client : Type} [DecidableEq F] [DecidableEq D]

/-! ## The calls on one proxy -/

/-- The call on a proxy that an event makes. -/
def callOn (i : ℕ) : Event F D Callback Client → Option (Call F D Callback)
  | .param proxy parameters => if proxy = i then some (.update parameters) else none
  | .watch proxy callback => if proxy = i then some (.watch callback) else none
  | _ => none

def callsOn (i : ℕ) (events : List (Event F D Callback Client)) : List (Call F D Callback) :=
  events.filterMap (callOn i)

/-- The name and the callback of an event that registers a watcher for a name. -/
def watchedName : Event F D Callback Client → Option (Str × Callback)
  | .watchByName name callback => some (name, callback)
  | _ => none

/-- The callbacks that are registered for a name. -/
def callbacksFor (events : List (Event F D Callback Client)) (name : Str) : List Callback :=
  ((events.filterMap watchedName).filter fun watched => watched.1 = name).map Prod.snd

/-- A proxy as the watchers registered for its name find it. -/
def Proxy.fresh (events : List (Event F D Callback Client)) (id : UInt32) (name : Str)
    (client : Option Client) : Proxy F D Callback Client :=
  (callbacksFor events name).foldl Proxy.watchProxyPropParams (.new id name client)

theorem watchedNames_handle (s : State F D Callback Client) (event : Event F D Callback Client) :
    (handle s event).watchedNames = s.watchedNames ++ (watchedName event).toList := by
  cases event with
  | global id type name client =>
      rw [handle]
      unfold processRegistryEvent
      split_ifs
      · cases name <;> exact (List.append_nil _).symm
      · exact (List.append_nil _).symm
  | watchByName name callback => rfl
  | _ => exact (List.append_nil _).symm

theorem watchedNames_after (events : List (Event F D Callback Client)) :
    (after events).watchedNames = events.filterMap watchedName := by
  induction events using List.reverseRecOn with
  | nil => rfl
  | append_singleton events event ih =>
      rw [after, List.foldl_concat, watchedNames_handle, ← after, ih, List.filterMap_append]
      cases hname : watchedName event <;> simp [hname]

/-- What an event does to a proxy that is there is the call on it. -/
theorem proxy_handle {s : State F D Callback Client} {i : ℕ} {proxy : Proxy F D Callback Client}
    (h : s.proxies[i]? = some proxy) (event : Event F D Callback Client) :
    (handle s event).proxies[i]? = some ((callOn i event).toList.foldl Proxy.call proxy) := by
  have hlt : i < s.proxies.length := (List.getElem?_eq_some_iff.mp h).1
  cases event with
  | global id type name client =>
      rw [handle]
      unfold processRegistryEvent
      split_ifs
      · cases name with
        | none => exact h
        | some name => exact (List.getElem?_append_left hlt).trans h
      · exact h
  | globalRemove id => exact h
  | param other parameters =>
      rw [handle, updateProxy, List.getElem?_modify, h]
      by_cases hother : other = i <;> simp [callOn, hother, Proxy.call]
  | watchByName name callback => exact h
  | watch other callback =>
      rw [handle, watchProxy, List.getElem?_modify, h]
      by_cases hother : other = i <;> simp [callOn, hother, Proxy.call]

/-! ## All proxies -/

/-- The event that a proxy has been made in. -/
structure MadeIn (events : List (Event F D Callback Client)) (i : ℕ)
    (proxy : Proxy F D Callback Client) (before later : List (Event F D Callback Client)) :
    Prop where
  events_eq : events = before ++
    .global proxy.id (lit "PipeWire:Interface:Node") (some proxy.name) proxy.client :: later
  place : (after before).proxies.length = i
  proxy_eq : proxy = (callsOn i later).foldl Proxy.call
    (.fresh before proxy.id proxy.name proxy.client)

theorem fields_calls (proxy : Proxy F D Callback Client) (calls : List (Call F D Callback)) :
    (calls.foldl Proxy.call proxy).id = proxy.id ∧
      (calls.foldl Proxy.call proxy).name = proxy.name ∧
      (calls.foldl Proxy.call proxy).client = proxy.client := by
  induction calls generalizing proxy with
  | nil => exact ⟨rfl, rfl, rfl⟩
  | cons call rest ih =>
      rw [List.foldl_cons]
      cases call <;> exact ih _

omit [DecidableEq F] [DecidableEq D] in
theorem fields_fresh (events : List (Event F D Callback Client)) (id : UInt32) (name : Str)
    (client : Option Client) :
    Proxy.fresh events id name client = ⟨id, name, client, [],
      (callbacksFor events name).map fun callback => (⟨callback, []⟩ : Watcher F D Callback)⟩ := by
  rw [Proxy.fresh, foldl_watchProxyPropParams]
  rfl

/-- A new proxy has the watchers registered for its name. -/
theorem proxies_global (events : List (Event F D Callback Client)) (id : UInt32) (name : Str)
    (client : Option Client) :
    (after (events ++ [.global id (lit "PipeWire:Interface:Node") (some name) client])).proxies =
      (after events).proxies ++ [.fresh events id name client] := by
  rw [after, List.foldl_concat, ← after, handle]
  simp only [processRegistryEvent, if_true, watchedNames_after]
  rfl

/-- A proxy in a place that there was not before is the one of the event. -/
theorem made_of_new {events : List (Event F D Callback Client)} {event : Event F D Callback Client}
    {i : ℕ} {proxy : Proxy F D Callback Client} (hnew : (after events).proxies.length ≤ i)
    (h : (after (events ++ [event])).proxies[i]? = some proxy) :
    MadeIn (events ++ [event]) i proxy events [] := by
  have hsame : (after (events ++ [event])).proxies.length = (after events).proxies.length → False :=
    fun hlength => by
      have hlt := (List.getElem?_eq_some_iff.mp h).1
      omega
  cases event with
  | global id type name client =>
      by_cases htype : type = lit "PipeWire:Interface:Node"
      · cases name with
        | none =>
            refine (hsame ?_).elim
            rw [after, List.foldl_concat, ← after, handle]
            simp [processRegistryEvent]
        | some name =>
            subst htype
            rw [proxies_global, List.getElem?_append_right hnew] at h
            obtain ⟨hplace, hproxy⟩ := List.getElem?_eq_some_iff.mp h
            have hplace : i - (after events).proxies.length = 0 := by
              simpa using hplace
            simp only [hplace, List.getElem_singleton] at hproxy
            subst hproxy
            have hfields := fields_fresh events id name client
            refine ⟨?_, by omega, ?_⟩ <;> rw [hfields]
            exact (fields_fresh events id name client).symm
      · refine (hsame ?_).elim
        rw [after, List.foldl_concat, ← after, handle]
        simp [processRegistryEvent, htype]
  | globalRemove id => exact (hsame (by rw [after, List.foldl_concat]; rfl)).elim
  | param other parameters =>
      exact (hsame (by rw [after, List.foldl_concat]; exact List.length_modify ..)).elim
  | watchByName name callback => exact (hsame (by rw [after, List.foldl_concat]; rfl)).elim
  | watch other callback =>
      exact (hsame (by rw [after, List.foldl_concat]; exact List.length_modify ..)).elim

/-- **A proxy only changes in the calls on it.** -/
theorem proxy_of_run (events : List (Event F D Callback Client)) {i : ℕ}
    {proxy : Proxy F D Callback Client} (h : (after events).proxies[i]? = some proxy) :
    ∃ before later, MadeIn events i proxy before later := by
  induction events using List.reverseRecOn generalizing proxy with
  | nil => cases h
  | append_singleton events event ih =>
      by_cases hlt : i < (after events).proxies.length
      · obtain ⟨earlier, hearlier⟩ : ∃ earlier, (after events).proxies[i]? = some earlier :=
          ⟨_, List.getElem?_eq_getElem hlt⟩
        obtain ⟨before, later, hmade⟩ := ih hearlier
        have hproxy : proxy = (callOn i event).toList.foldl Proxy.call earlier := by
          rw [after, List.foldl_concat, ← after, proxy_handle hearlier] at h
          exact (Option.some.inj h).symm
        obtain ⟨hid, hname, hclient⟩ := fields_calls earlier (callOn i event).toList
        rw [← hproxy] at hid hname hclient
        refine ⟨before, later ++ [event], ?_, hmade.place, ?_⟩
        · rw [hid, hname, hclient, hmade.events_eq, List.append_assoc, List.cons_append]
        · rw [hid, hname, hclient]
          calc proxy = (callOn i event).toList.foldl Proxy.call earlier := hproxy
            _ = (callOn i event).toList.foldl Proxy.call
                  ((callsOn i later).foldl Proxy.call
                    (.fresh before earlier.id earlier.name earlier.client)) := by
                rw [← hmade.proxy_eq]
            _ = (callsOn i (later ++ [event])).foldl Proxy.call
                  (.fresh before earlier.id earlier.name earlier.client) := by
                rw [← List.foldl_append, callsOn, callsOn, List.filterMap_append]
                cases hcall : callOn i event <;> simp [hcall]
      · exact ⟨events, [], made_of_new (not_lt.mp hlt) h⟩

/-! ## What watchers are given -/

/-- The callback that a call registers. -/
def watchedIn : Call F D Callback → Option Callback
  | .watch callback => some callback
  | .update _ => none

/-- A watcher from the point on at which it has been registered: it has been given what
leads from the parameters of then to those of now. -/
structure Informed (fresh : Proxy F D Callback Client) (calls : List (Call F D Callback)) (k : ℕ)
    (watcher : Watcher F D Callback) (first rest : List (Call F D Callback)) : Prop where
  calls_eq : calls = first ++ rest
  registered : first = [] ∨ ∃ earlier, first = earlier ++ [.watch watcher.callback] ∧
    (earlier.foldl Proxy.call fresh).watchCallbacks.length = k
  atFirst : (first.foldl Proxy.call fresh).watchCallbacks[k]? = some ⟨watcher.callback, []⟩
  given : watcher.given = changeLists (first.foldl Proxy.call fresh) rest
  replayed : replay (first.foldl Proxy.call fresh).parameters watcher.given.flatten =
    (calls.foldl Proxy.call fresh).parameters

theorem callbacks_call (proxy : Proxy F D Callback Client) (call : Call F D Callback) :
    (proxy.call call).watchCallbacks.map Watcher.callback =
      proxy.watchCallbacks.map Watcher.callback ++ (watchedIn call).toList := by
  cases call with
  | watch callback => exact List.map_append
  | update parameters =>
      rw [Proxy.call, updateParameters_eq, List.map_map]
      exact (List.append_nil _).symm

theorem callbacks_calls (proxy : Proxy F D Callback Client) (calls : List (Call F D Callback)) :
    (calls.foldl Proxy.call proxy).watchCallbacks.map Watcher.callback =
      proxy.watchCallbacks.map Watcher.callback ++ calls.filterMap watchedIn := by
  induction calls generalizing proxy with
  | nil => exact (List.append_nil _).symm
  | cons call rest ih =>
      rw [List.foldl_cons, ih, callbacks_call, List.append_assoc]
      cases hcall : watchedIn call <;> simp [hcall]

/-- A watcher was there before some calls, or one of them has registered it. -/
theorem watcher_calls {proxy : Proxy F D Callback Client} {calls : List (Call F D Callback)} {k : ℕ}
    {watcher : Watcher F D Callback}
    (h : (calls.foldl Proxy.call proxy).watchCallbacks[k]? = some watcher) :
    (∃ given, proxy.watchCallbacks[k]? = some ⟨watcher.callback, given⟩ ∧
        watcher.given = given ++ changeLists proxy calls) ∨
      ∃ earlier rest, calls = earlier ++ .watch watcher.callback :: rest ∧
        (earlier.foldl Proxy.call proxy).watchCallbacks.length = k ∧
        watcher.given =
          changeLists ((earlier ++ [.watch watcher.callback]).foldl Proxy.call proxy) rest := by
  induction calls generalizing proxy with
  | nil => exact Or.inl ⟨watcher.given, h, (List.append_nil _).symm⟩
  | cons call rest ih =>
      rcases ih h with ⟨given, hgiven, hwatcher⟩ | ⟨earlier, later, rfl, hplace, hwatcher⟩
      · cases call with
        | watch callback =>
            have hgiven : (proxy.watchCallbacks ++ [⟨callback, []⟩])[k]? =
                some ⟨watcher.callback, given⟩ := hgiven
            by_cases hk : k < proxy.watchCallbacks.length
            · rw [List.getElem?_append_left hk] at hgiven
              exact Or.inl ⟨given, hgiven, hwatcher⟩
            · rw [List.getElem?_append_right (not_lt.mp hk), List.getElem?_singleton] at hgiven
              split_ifs at hgiven with hplace
              cases hgiven
              exact Or.inr ⟨[], rest, rfl, by simp only [List.foldl_nil]; omega, hwatcher⟩
        | update parameters =>
            rw [Proxy.call, updateParameters_eq, List.getElem?_map] at hgiven
            obtain ⟨earlier, hearlier, heq⟩ := Option.map_eq_some_iff.mp hgiven
            obtain ⟨hcallback, rfl⟩ := Watcher.mk.inj heq
            refine Or.inl ⟨earlier.given, ?_, ?_⟩
            · rw [hearlier, ← hcallback]
            · rw [hwatcher, List.append_assoc, List.singleton_append]
              rfl
      · exact Or.inr ⟨call :: earlier, later, rfl, hplace, hwatcher⟩

theorem replay_given {fresh : Proxy F D Callback Client} (first rest : List (Call F D Callback)) :
    replay (first.foldl Proxy.call fresh).parameters
        (changeLists (first.foldl Proxy.call fresh) rest).flatten =
      ((first ++ rest).foldl Proxy.call fresh).parameters := by
  rw [replay_changeLists, List.foldl_append, parameters_calls _ rest]

theorem informed_calls {fresh : Proxy F D Callback Client}
    (hfresh : ∀ watcher ∈ fresh.watchCallbacks, watcher.given = [])
    {calls : List (Call F D Callback)} {k : ℕ} {watcher : Watcher F D Callback}
    (h : (calls.foldl Proxy.call fresh).watchCallbacks[k]? = some watcher) :
    ∃ first rest, Informed fresh calls k watcher first rest := by
  rcases watcher_calls h with ⟨given, hthere, hwatcher⟩ | ⟨earlier, rest, rfl, hplace, hwatcher⟩
  · have hnone : given = [] := hfresh _ (List.mem_of_getElem? hthere)
    subst hnone
    rw [List.nil_append] at hwatcher
    refine ⟨[], calls, rfl, Or.inl rfl, hthere, hwatcher, ?_⟩
    rw [hwatcher]
    exact replay_given [] calls
  · refine ⟨earlier ++ [.watch watcher.callback], rest, by simp, Or.inr ⟨earlier, rfl, hplace⟩, ?_,
      hwatcher, ?_⟩
    · rw [List.foldl_concat, Proxy.call, Proxy.watchProxyPropParams, ← hplace]
      exact List.getElem?_concat_length
    · rw [hwatcher, replay_given, List.append_assoc, List.singleton_append]

namespace MadeIn

variable {events before later : List (Event F D Callback Client)} {i : ℕ}
  {proxy : Proxy F D Callback Client} (hmade : MadeIn events i proxy before later)

include hmade

theorem parameters_eq : proxy.parameters = replay [] (received (callsOn i later)) := by
  have hcalls := parameters_calls (.fresh before proxy.id proxy.name proxy.client)
    (callsOn i later)
  rw [← hmade.proxy_eq, fields_fresh] at hcalls
  exact hcalls

theorem callbacks_eq : proxy.watchCallbacks.map Watcher.callback =
    callbacksFor before proxy.name ++ (callsOn i later).filterMap watchedIn := by
  have hcalls := callbacks_calls (.fresh before proxy.id proxy.name proxy.client)
    (callsOn i later)
  rw [← hmade.proxy_eq, fields_fresh, List.map_map] at hcalls
  exact hcalls.trans (congrArg (· ++ _) (List.map_id _))

theorem informed {k : ℕ} {watcher : Watcher F D Callback}
    (hwatcher : proxy.watchCallbacks[k]? = some watcher) :
    ∃ first rest, Informed (.fresh before proxy.id proxy.name proxy.client) (callsOn i later) k
      watcher first rest := by
  refine informed_calls ?_ (hmade.proxy_eq ▸ hwatcher)
  rw [fields_fresh]
  intro watcher hmem
  obtain ⟨callback, -, rfl⟩ := List.mem_map.mp hmem
  rfl

end MadeIn

/-- **What watchers know.**  A proxy has the watchers that were registered for its name
when its node came, and behind them those registered on it, each once.  Whatever else
happens, each has been given what leads from the parameters at its registration to those
that are stored. -/
theorem watchers_of_run (events : List (Event F D Callback Client)) {i : ℕ}
    {proxy : Proxy F D Callback Client} (h : (after events).proxies[i]? = some proxy) :
    ∃ before later, MadeIn events i proxy before later ∧
      proxy.watchCallbacks.map Watcher.callback =
        callbacksFor before proxy.name ++ (callsOn i later).filterMap watchedIn ∧
      ∀ k watcher, proxy.watchCallbacks[k]? = some watcher → ∃ first rest,
        Informed (.fresh before proxy.id proxy.name proxy.client) (callsOn i later) k watcher
          first rest := by
  obtain ⟨before, later, hmade⟩ := proxy_of_run events h
  exact ⟨before, later, hmade, hmade.callbacks_eq, fun _ _ hwatcher => hmade.informed hwatcher⟩

/-- A watcher for the name of a node, and one that comes after its first report. -/
def oneNode : List (Event Unit Unit ℕ Unit) :=
  [.watchByName (lit "pmx-midi-router") 1,
    .global 40 (lit "PipeWire:Interface:Node") (some (lit "pmx-midi-router")) none,
    .param 0 [(lit "layer", .int 0)], .watch 0 2,
    .param 0 [(lit "layer", .int 0), (lit "bank", .int 8)]]

/-- The second watcher is given the second report without what was known. -/
theorem watchers_of_run_one_node :
    ∃ proxy : Proxy Unit Unit ℕ Unit, (after oneNode).proxies[0]? = some proxy ∧
      proxy.watchCallbacks[1]? = some ⟨2, [[(lit "bank", .int 8)]]⟩ ∧
      ∃ (before later : List (Event Unit Unit ℕ Unit)) (first rest : List (Call Unit Unit ℕ)),
        Informed (.fresh before proxy.id proxy.name proxy.client) (callsOn 0 later) 1
          ⟨2, [[(lit "bank", .int 8)]]⟩ first rest := by
  refine ⟨_, rfl, rfl, ?_⟩
  obtain ⟨before, later, -, -, hinformed⟩ := watchers_of_run oneNode (i := 0) rfl
  obtain ⟨first, rest, h⟩ := hinformed 1 _ rfl
  exact ⟨before, later, first, rest, h⟩

end Pmx.ProxyWatcher
