import Pmx.Console
import Pmx.GrpcService
import Pmx.ProxyWatcher.Registry

/-!
# Commands of the console

Four commands read their tokens by hand: `send` writes the request, `watch`
registers a watcher, `pmx` writes the metadata and `describe` only prints.  What
they print is left out.

Three slips are left.  The digits of an id are looked at, their value is not, so
`std::stoi` raises an exception for an id that is no `int`.  The length of an OSC
path is not looked at, and the packet raises one when it is full.  And `pmx
disable` falls through to the error behind the branches, after it has written the
metadata.
-/

namespace Pmx.Console

open Cxx GrpcService Osc ProxyWatcher

variable {F D Callback Client : Type}

/-- What the commands can change. -/
structure Environment (F D Callback Client : Type) where
  request : RequestMessage F
  metadata : Metadata
  proxyWatcher : ProxyWatcher.State F D Callback Client

/-- What a command returns. -/
abbrev Outcome := Except Error Unit

/-- `watch_command`, with the callback that prints. -/
def watchCommand (printUpdates : Callback) (stream : List Str)
    (proxyWatcher : ProxyWatcher.State F D Callback Client) :
    Except Fault (Outcome × ProxyWatcher.State F D Callback Client) :=
  match stream with
  | [] => return (.ok (), proxyWatcher)
  | object :: _ =>
      if object.all isDigit then do
        let id ← stoi object
        match getProxy proxyWatcher (UInt32.ofInt id) with
        | some proxy => return (.ok (), watchProxy proxyWatcher proxy printUpdates)
        | none =>
            return (.error (.invalidArgument (lit "couldn't find proxy with id " ++ object)),
              proxyWatcher)
      -- an object that is no number is passed over
      else return (.ok (), proxyWatcher)

/-- `describe_command`. -/
def describeCommand (stream : List Str) : Except Fault Outcome :=
  match stream with
  | [] => return .error (.invalidArgument (lit "missing object id"))
  | object :: _ =>
      if object.all isDigit then do
        let _ ← stoi object
        return .ok ()
      else return .error (.invalidArgument (lit "id is not a valid number: " ++ object))

/-- `pmx_command`; there is no `return` behind the write of `disable`. -/
def pmxCommand (stream : List Str) (metadata : Metadata) : Outcome × Metadata :=
  match stream with
  | [] => (.error (.invalidArgument (lit "missing sub command")), metadata)
  | subCommand :: stream =>
      if subCommand = lit "enable" then
        (.ok (), setMetadataValue metadata (lit "enabled") (lit "true"))
      -- the branch of `disable` does not return, so the command ends behind the conditions
      else if subCommand = lit "disable" then
        (.error (.invalidArgument (lit "missing sub command")),
          setMetadataValue metadata (lit "enabled") (lit "false"))
      else if subCommand = lit "list" then
        match stream with
        | [] => (.error (.invalidArgument (lit "missing object")), metadata)
        | object :: _ =>
            if object = lit "node" then (.ok (), metadata)
            else
              (.error (.invalidArgument (lit "unknown or unimplemented object" ++ object)),
                metadata)
      else (.error (.invalidArgument (lit "unknown sub command " ++ subCommand)), metadata)

/-- The commands that read their tokens by hand. -/
inductive HandParsed
  | send
  | watch
  | describe
  | pmx
  deriving DecidableEq

/-- The tokens behind the command, on a line that comes as a C string. -/
def streamOf (line : Str) : List Str :=
  (tokens (cStr line)).tail

/-- A command on a line. -/
def runCommand (fromChars : Str → Option F) (printUpdates : Callback) (command : HandParsed)
    (line : Str) (env : Environment F D Callback Client) :
    Except Fault (Outcome × Environment F D Callback Client) :=
  match command with
  | .send => do
      match ← sendCommand fromChars (streamOf line) with
      | .ok request => return (.ok (), { env with request := request })
      | .error error => return (.error error, env)
  | .watch => do
      let result ← watchCommand printUpdates (streamOf line) env.proxyWatcher
      return (result.1, { env with proxyWatcher := result.2 })
  | .describe => do
      let outcome ← describeCommand (streamOf line)
      return (outcome, env)
  | .pmx =>
      let result := pmxCommand (streamOf line) env.metadata
      return (result.1, { env with metadata := result.2 })

/-! ## Sound commands -/

/-- The request, the value of every metadata key and the watchers are the same. -/
structure Unchanged (env env' : Environment F D Callback Client) : Prop where
  request : env'.request = env.request
  metadata : ∀ key, env'.metadata.lookup key = env.metadata.lookup key
  proxyWatcher : env'.proxyWatcher = env.proxyWatcher

/-- The command returns, and changes nothing if it returns an error. -/
def IsSound (env : Environment F D Callback Client)
    (result : Except Fault (Outcome × Environment F D Callback Client)) : Prop :=
  ∃ outcome env', result = .ok (outcome, env') ∧
    ∀ error, outcome = .error error → Unchanged env env'

/-- An id of digits is an `int`. -/
def IdFits (stream : List Str) : Prop :=
  ∀ object rest, stream = object :: rest → object.all isDigit = true →
    natOfDigits object ≤ 2147483647

/-- The packet of a message that can be made has room for its path. -/
def PathFits (fromChars : Str → Option F) (stream : List Str) : Prop :=
  ∀ path value rest, stream = lit "osc" :: path :: lit "f" :: value :: rest →
    (fromChars value).isSome → path.length ≤ 1015

/-- Nothing is disabled that is enabled. -/
def DisablesNothing (metadata : Metadata) (stream : List Str) : Prop :=
  ∀ rest, stream = lit "disable" :: rest →
    metadata.lookup (lit "enabled") = some (lit "false")

/-- When a command is sound. -/
def IsSafe (fromChars : Str → Option F) (env : Environment F D Callback Client)
    (command : HandParsed) (line : Str) : Prop :=
  match command with
  | .send => PathFits fromChars (streamOf line)
  | .watch => IdFits (streamOf line)
  | .describe => IdFits (streamOf line)
  | .pmx => DisablesNothing env.metadata (streamOf line)

theorem Unchanged.refl (env : Environment F D Callback Client) : Unchanged env env :=
  ⟨rfl, fun _ => rfl, rfl⟩

/-! ## Ids -/

/-- A token has at least one byte. -/
theorem ne_nil_of_mem_streamOf {line token : Str} (h : token ∈ streamOf line) : token ≠ [] := by
  have htoken := List.mem_of_mem_tail h
  simpa using (List.mem_filter.mp htoken).2

theorem idFits_cons (object : Str) (rest : List Str) :
    IdFits (object :: rest) ↔
      (object.all isDigit = true → natOfDigits object ≤ 2147483647) := by
  constructor
  · exact fun h => h object rest rfl
  · intro h object' rest' hstream
    cases hstream
    exact h

theorem stoi_returns_iff {object : Str} (hne : object ≠ [])
    (hdigits : object.all isDigit = true) :
    (∃ id, stoi object = .ok id) ↔ natOfDigits object ≤ 2147483647 := by
  have hall := List.all_eq_true.mp hdigits
  constructor
  · rintro ⟨id, hid⟩
    by_contra hlarge
    rw [stoi_of_large hne hall (not_le.mp hlarge)] at hid
    cases hid
  · exact fun hle => ⟨_, stoi_of_digits hne hall hle⟩

/-- A call whose rest returns in any case returns if it does itself. -/
theorem bind_returns_iff {α β : Type} {x : Except Fault α} {rest : α → Except Fault β}
    (hrest : ∀ a, ∃ b, rest a = .ok b) : (∃ b, (x >>= rest) = .ok b) ↔ ∃ a, x = .ok a := by
  constructor
  · rintro ⟨b, hb⟩
    obtain ⟨a, ha, -⟩ := bind_eq_ok.mp hb
    exact ⟨a, ha⟩
  · rintro ⟨a, ha⟩
    obtain ⟨b, hb⟩ := hrest a
    exact ⟨b, bind_eq_ok.mpr ⟨a, ha, hb⟩⟩

theorem watchCommand_returns_iff (printUpdates : Callback) (line : Str)
    (proxyWatcher : ProxyWatcher.State F D Callback Client) :
    (∃ result, watchCommand printUpdates (streamOf line) proxyWatcher = .ok result) ↔
      IdFits (streamOf line) := by
  cases hstream : streamOf line with
  | nil => exact iff_of_true ⟨_, rfl⟩ (fun _ _ h => by cases h)
  | cons object rest =>
      have hne : object ≠ [] := ne_nil_of_mem_streamOf (hstream ▸ List.mem_cons_self ..)
      rw [idFits_cons]
      by_cases hdigits : object.all isDigit = true
      · rw [watchCommand, if_pos hdigits, bind_returns_iff, stoi_returns_iff hne hdigits]
        · exact (imp_iff_right hdigits).symm
        · intro id
          cases getProxy proxyWatcher (UInt32.ofInt id) with
          | none => exact ⟨_, rfl⟩
          | some proxy => exact ⟨_, rfl⟩
      · rw [watchCommand, if_neg hdigits]
        exact iff_of_true ⟨_, rfl⟩ fun h => absurd h hdigits

/-- No watcher is registered where an error is returned. -/
theorem watchCommand_error {printUpdates : Callback} {stream : List Str}
    {proxyWatcher proxyWatcher' : ProxyWatcher.State F D Callback Client} {error : Error}
    (h : watchCommand printUpdates stream proxyWatcher = .ok (.error error, proxyWatcher')) :
    proxyWatcher' = proxyWatcher := by
  cases stream with
  | nil => cases h
  | cons object rest =>
      rw [watchCommand] at h
      by_cases hdigits : object.all isDigit = true
      · rw [if_pos hdigits] at h
        obtain ⟨id, _, hrest⟩ := bind_eq_ok.mp h
        cases hproxy : getProxy proxyWatcher (UInt32.ofInt id) with
        | none =>
            rw [hproxy] at hrest
            cases hrest
            rfl
        | some proxy =>
            rw [hproxy] at hrest
            cases hrest
      · rw [if_neg hdigits] at h
        cases h

theorem describeCommand_returns_iff (line : Str) :
    (∃ outcome, describeCommand (streamOf line) = .ok outcome) ↔ IdFits (streamOf line) := by
  cases hstream : streamOf line with
  | nil => exact iff_of_true ⟨_, rfl⟩ (fun _ _ h => by cases h)
  | cons object rest =>
      have hne : object ≠ [] := ne_nil_of_mem_streamOf (hstream ▸ List.mem_cons_self ..)
      rw [idFits_cons]
      by_cases hdigits : object.all isDigit = true
      · rw [describeCommand, if_pos hdigits, bind_returns_iff, stoi_returns_iff hne hdigits]
        · exact (imp_iff_right hdigits).symm
        · exact fun _ => ⟨_, rfl⟩
      · rw [describeCommand, if_neg hdigits]
        exact iff_of_true ⟨_, rfl⟩ fun h => absurd h hdigits

theorem isSound_watch_iff (fromChars : Str → Option F) (printUpdates : Callback) (line : Str)
    (env : Environment F D Callback Client) :
    IsSound env (runCommand fromChars printUpdates .watch line env) ↔ IdFits (streamOf line) := by
  rw [← watchCommand_returns_iff printUpdates line env.proxyWatcher]
  constructor
  · rintro ⟨outcome, env', hrun, -⟩
    obtain ⟨result, hwatch, -⟩ := bind_eq_ok.mp hrun
    exact ⟨result, hwatch⟩
  · rintro ⟨⟨outcome, proxyWatcher⟩, hwatch⟩
    refine ⟨outcome, { env with proxyWatcher := proxyWatcher },
      bind_eq_ok.mpr ⟨_, hwatch, rfl⟩, ?_⟩
    rintro error rfl
    exact ⟨rfl, fun _ => rfl, watchCommand_error hwatch⟩

theorem isSound_describe_iff (fromChars : Str → Option F) (printUpdates : Callback) (line : Str)
    (env : Environment F D Callback Client) :
    IsSound env (runCommand fromChars printUpdates .describe line env) ↔
      IdFits (streamOf line) := by
  rw [← describeCommand_returns_iff line]
  constructor
  · rintro ⟨outcome, env', hrun, -⟩
    obtain ⟨result, hdescribe, -⟩ := bind_eq_ok.mp hrun
    exact ⟨result, hdescribe⟩
  · rintro ⟨outcome, hdescribe⟩
    exact ⟨outcome, env, bind_eq_ok.mpr ⟨_, hdescribe, rfl⟩, fun _ _ => .refl env⟩

/-! ## Metadata -/

theorem lookup_setEnabled (metadata : Metadata) (value : String)
    (hvalue : cStr (lit value) = lit value) (key : Str) :
    (setMetadataValue metadata (lit "enabled") (lit value)).lookup key =
      if key = lit "enabled" then some (lit value) else metadata.lookup key := by
  have hkey : cStr (lit "enabled") = lit "enabled" := by decide
  rw [setMetadataValue, hkey, hvalue]
  by_cases henabled : key = lit "enabled"
  · rw [if_pos henabled, henabled, AList.lookup_insert]
  · rw [if_neg henabled, AList.lookup_insert_ne henabled]

/-- Only `disable` returns an error with other metadata. -/
theorem pmxCommand_metadata {stream : List Str} {metadata : Metadata} {error : Error}
    (herror : (pmxCommand stream metadata).1 = .error error)
    (hdisable : ∀ rest, stream ≠ lit "disable" :: rest) :
    (pmxCommand stream metadata).2 = metadata := by
  cases stream with
  | nil => rfl
  | cons subCommand rest =>
      have hother : subCommand ≠ lit "disable" := fun h => hdisable rest (h ▸ rfl)
      by_cases henable : subCommand = lit "enable"
      · simp only [pmxCommand, if_pos henable] at herror
        cases herror
      · by_cases hlist : subCommand = lit "list"
        · cases rest with
          | nil => simp only [pmxCommand, if_neg henable, if_neg hother, if_pos hlist]
          | cons object rest =>
              simp only [pmxCommand, if_neg henable, if_neg hother, if_pos hlist]
              split_ifs <;> rfl
        · simp only [pmxCommand, if_neg henable, if_neg hother, if_neg hlist]

theorem isSound_pmx_iff (fromChars : Str → Option F) (printUpdates : Callback) (line : Str)
    (env : Environment F D Callback Client) :
    IsSound env (runCommand fromChars printUpdates .pmx line env) ↔
      DisablesNothing env.metadata (streamOf line) := by
  have hset := lookup_setEnabled env.metadata "false" (by decide)
  have hrun : runCommand fromChars printUpdates .pmx line env =
      .ok ((pmxCommand (streamOf line) env.metadata).1,
        { env with metadata := (pmxCommand (streamOf line) env.metadata).2 }) := rfl
  rw [hrun]
  constructor
  · rintro ⟨outcome, env', hresult, hunchanged⟩ rest hstream
    cases hresult
    rw [hstream] at hunchanged
    have hmetadata := (hunchanged _ rfl).metadata (lit "enabled")
    rw [← hmetadata]
    exact (hset (lit "enabled")).trans (if_pos rfl)
  · intro hdisables
    refine ⟨_, _, rfl, fun error herror => ⟨rfl, fun key => ?_, rfl⟩⟩
    by_cases hdisable : ∃ rest, streamOf line = lit "disable" :: rest
    · obtain ⟨rest, hstream⟩ := hdisable
      show (pmxCommand (streamOf line) env.metadata).2.lookup key = _
      rw [hstream]
      refine (hset key).trans ?_
      split_ifs with hkey
      · rw [hkey, hdisables rest hstream]
      · rfl
    · have hmetadata := pmxCommand_metadata herror (not_exists.mp hdisable)
      exact congrArg (fun metadata => AList.lookup key metadata) hmetadata

/-! ## Packets -/

theorem size_le_capacity_iff (path : Str) (value : F) :
    ¬ capacity < (⟨path, value⟩ : Packet F).size ↔ path.length ≤ 1015 := by
  have hsize : (⟨path, value⟩ : Packet F).size = (path.length / 4 + 1) * 4 + 4 + 4 := by
    simp [Packet.size, floatMessage, OscMessage.size, stringSize, OscArgument.size]
  rw [hsize, capacity]
  omega

/-- `send` returns unless the packet overflows. -/
theorem sendCommand_returns_iff (fromChars : Str → Option F) (stream : List Str) :
    (∃ outcome, sendCommand fromChars stream = .ok outcome) ↔ PathFits fromChars stream := by
  constructor
  · rintro ⟨outcome, hsend⟩ path text rest rfl hvalue
    obtain ⟨value, hvalue⟩ := Option.isSome_iff_exists.mp hvalue
    by_contra hlong
    rw [← size_le_capacity_iff path value, not_not] at hlong
    simp [sendCommand, hvalue, hlong] at hsend
  · intro hfits
    cases stream with
    | nil => exact ⟨_, rfl⟩
    | cons subCommand stream =>
        by_cases hosc : subCommand = lit "osc"
        · subst hosc
          match stream with
          | [] => exact ⟨_, rfl⟩
          | [path] => exact ⟨_, rfl⟩
          | path :: descriptor :: stream =>
              by_cases hdescriptor : descriptor = lit "f"
              · subst hdescriptor
                cases stream with
                | nil => exact ⟨_, rfl⟩
                | cons text rest =>
                    cases hvalue : fromChars text with
                    | none => exact ⟨_, by simp [sendCommand, hvalue]; rfl⟩
                    | some value =>
                        have hlength := hfits path text rest rfl (by rw [hvalue]; rfl)
                        have hsize := (size_le_capacity_iff path value).mpr hlength
                        exact ⟨_, by simp [sendCommand, hvalue, hsize]; rfl⟩
              · exact ⟨_, by simp [sendCommand, hdescriptor]; rfl⟩
        · exact ⟨_, by simp [sendCommand, hosc]; rfl⟩

theorem isSound_send_iff (fromChars : Str → Option F) (printUpdates : Callback) (line : Str)
    (env : Environment F D Callback Client) :
    IsSound env (runCommand fromChars printUpdates .send line env) ↔
      PathFits fromChars (streamOf line) := by
  rw [← sendCommand_returns_iff]
  constructor
  · rintro ⟨outcome, env', hrun, -⟩
    obtain ⟨result, hsend, -⟩ := bind_eq_ok.mp hrun
    exact ⟨result, hsend⟩
  · rintro ⟨error | request, hsend⟩
    · exact ⟨_, env, bind_eq_ok.mpr ⟨_, hsend, rfl⟩, fun _ _ => .refl env⟩
    · exact ⟨_, _, bind_eq_ok.mpr ⟨_, hsend, rfl⟩, fun _ h => by cases h⟩

/-- **A command returns, and changes nothing if it returns an error, just if its id is an
`int`, its packet has room for its path, and it does not disable what is enabled.** -/
theorem isSound_iff_isSafe (fromChars : Str → Option F) (printUpdates : Callback)
    (command : HandParsed) (line : Str) (env : Environment F D Callback Client) :
    IsSound env (runCommand fromChars printUpdates command line env) ↔
      IsSafe fromChars env command line := by
  cases command with
  | send => exact isSound_send_iff fromChars printUpdates line env
  | watch => exact isSound_watch_iff fromChars printUpdates line env
  | describe => exact isSound_describe_iff fromChars printUpdates line env
  | pmx => exact isSound_pmx_iff fromChars printUpdates line env

/-- The console at its start, with one watcher that prints. -/
def someEnvironment : Environment ℕ Unit Unit Unit :=
  ⟨⟨.send, .osc, none, 0⟩, ∅, .initial⟩

/-- An id with ten digits, a command that fails behind its write, and a path that does
not fit. -/
theorem not_isSound_commands :
    ¬ IsSound someEnvironment
        (runCommand digitValue () .describe (lit "describe 2147483648") someEnvironment) ∧
      ¬ IsSound someEnvironment
        (runCommand digitValue () .watch (lit "watch 2147483648") someEnvironment) ∧
      ¬ IsSound someEnvironment
        (runCommand digitValue () .pmx (lit "pmx disable") someEnvironment) ∧
      ¬ IsSound someEnvironment (runCommand digitValue () .send
        (lit "send osc " ++ List.replicate 1016 97 ++ lit " f 1") someEnvironment) := by
  have hlarge : ¬ IdFits [lit "2147483648"] := fun h =>
    absurd (h _ _ rfl (by decide)) (by decide)
  refine ⟨fun h => ?_, fun h => ?_, fun h => ?_, fun h => ?_⟩
  · exact hlarge ((isSound_describe_iff ..).mp h)
  · exact hlarge ((isSound_watch_iff ..).mp h)
  · have hdisabled := (isSound_pmx_iff ..).mp h [] rfl
    cases hdisabled
  · have hlength := (isSound_send_iff ..).mp h (List.replicate 1016 97) (lit "1") [] ?_ rfl
    · rw [List.length_replicate] at hlength
      omega
    · decide +kernel

end Pmx.Console
