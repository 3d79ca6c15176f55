import Pmx.Library.Lua
import Pmx.ManageConnections.Session

/-!
# The hooks for the inputs of the input channels

`pmx_manage_connections.lua` links a source port to each input channel that has
the port's alias in the metadata.  Three hooks create such links: when an input
of the filter chain is added, when a source port is added, and when the value of
a channel changes.  The last one first destroys the links into the input, as far
as it sees them, and it sees a link only from its announcement on.

What each hook does to the live links of an input is one lemma: `live_connectInitialFcInputs`,
`live_connectInitialPorts`, and for a changed value `live_watch_self` and `live_watch_of_ne`.
-/

namespace Pmx.ManageConnections

open Cxx Lua

/-! ## Ports -/

/-- An input of the node `PMX Input Channels`, by its `port.id`, or a source port. -/
inductive Port
  | input (portId : UInt32)
  | output (portAlias : Str)
  deriving DecidableEq

/-- `port.direction`. -/
def Port.direction : Port → Direction
  | .input _ => .input
  | .output _ => .output

/-- The alias of the input with a number, which is written as a text. -/
def inputAlias (inputId : Str) : Str :=
  lit "PMX Input Channels:input_" ++ inputId

/-- The number of an input: its port id, counted from one. -/
def inputNumber (portId : UInt32) : ℕ :=
  portId.toNat + 1

/-- `port.alias`. -/
def Port.portAlias : Port → Str
  | .input portId => inputAlias (tostring (inputNumber portId))
  | .output portAlias => portAlias

/-- `MyObjectManager:lookup` of a port by its alias, with or without a constraint
on its direction. -/
abbrev lookup : List Port → Option Direction → Str → Option Port :=
  lookupPort Port.direction Port.portAlias

/-! ## The script -/

/-- The near end of a link is its input. -/
abbrev State := Session Port

/-- No port has come. -/
def initial : State :=
  Session.initial

/-- `Link(..)` and `link:activate(1)`. -/
def createLink (s : State) (output input : Port) : State :=
  { s with links := LinkTable.create s.links input output }

/-- The key of an input's source. -/
def channelPortName (inputId : ℤ) : Str :=
  lit "channel_port_" ++ tostring inputId

/-- The hook for an input of the filter chain. -/
def connectInitialFcInputs (s : State) (portId : UInt32) : State :=
  match s.metadata.lookup (channelPortName (inputNumber portId)) with
  | none => s
  | some portNameMeta =>
      match lookup s.ports (some .output) portNameMeta with
      | none => s
      | some sourcePort => createLink s sourcePort (.input portId)

/-- The input with the number behind a key.  The text of a float is not the one
of any input. -/
def targetPort (ports : List Port) : Number → Option Port
  | .integer portId => lookup ports (some .input) (inputAlias (tostring portId))
  | .float => none

/-- The loop of `connect_initial_ports` over the metadata. -/
def connectItems (s : State) (sourcePort : Port) : List ((_ : Str) × Str) → State
  | [] => s
  | item :: rest =>
      if item.2 = sourcePort.portAlias then
        match tonumber (sub item.1 14) with
        -- a `nil` cannot be concatenated: the error ends the hook
        | none => s
        | some portId =>
            match targetPort s.ports portId with
            | none => connectItems s sourcePort rest
            | some target => connectItems (createLink s sourcePort target) sourcePort rest
      else connectItems s sourcePort rest

/-- The hook for a source port. -/
def connectInitialPorts (s : State) (sourcePort : Port) : State :=
  connectItems s sourcePort s.metadata.entries

/-- `request_destroy` of the links into a port that the object manager sees. -/
def destroyLinks (s : State) (port : Port) : State :=
  { s with links := LinkTable.destroyAt s.links port }

/-- The hook for a new value of a channel. -/
def watchChannelPortMappingMetadata (s : State) (key : Str) (newValue : Option Str) : State :=
  match lookup s.ports none (inputAlias (sub key 14)) with
  | none => s
  | some port =>
      match newValue.bind (lookup s.ports (some .output)) with
      | none => destroyLinks s port
      | some sourcePort => createLink (destroyLinks s port) sourcePort port

/-! ## Events -/

/-- The hooks for a new port. -/
def portAdded (s : State) : Port → State
  | .input portId => connectInitialFcInputs { s with ports := s.ports ++ [.input portId] } portId
  | .output portAlias =>
      connectInitialPorts { s with ports := s.ports ++ [.output portAlias] } (.output portAlias)

/-- A key gets a new value, or is removed. -/
def setMetadata (s : State) (key : Str) : Option Str → State
  | some value => { s with metadata := s.metadata.insert key value }
  | none => { s with metadata := s.metadata.erase key }

/-- The metadata hold the new value when the hook runs. -/
def changeMetadata (s : State) (key : Str) (value : Option Str) : State :=
  watchChannelPortMappingMetadata (setMetadata s key value) key value

/-- A key is `channel_port_` and a suffix. -/
inductive Label
  | session (event : SessionEvent Port)
  | metadataChanged (suffix : Str) (value : Option Str)
  deriving DecidableEq

/-- An event of the session, or a change of the metadata. -/
def step (s : State) : Label → Option State
  | .session event => Session.act Port.portAlias portAdded s event
  | .metadataChanged suffix value =>
      some (changeMetadata s (lit "channel_port_" ++ suffix) value)

/-! ## What is wanted -/

/-- The sources that are linked to an input. -/
def linksInto (s : State) (portId : UInt32) : List Port :=
  LinkTable.linkedTo s.links (.input portId)

/-- The source with an alias for an input, when both ports exist. -/
def sourceOf (ports : List Port) (portId : UInt32) (portAlias : Option Str) : List Port :=
  match portAlias with
  | some portAlias =>
      if .output portAlias ∈ ports ∧ .input portId ∈ ports then [.output portAlias] else []
  | none => []

/-- The source that an input has in the metadata, when both ports exist. -/
def wanted (s : State) (portId : UInt32) : List Port :=
  sourceOf s.ports portId (s.metadata.lookup (channelPortName (inputNumber portId)))

/-- A text is the decimal numeral of a natural number, without zeros in front. -/
def IsNumeral (text : Str) : Prop :=
  decimal (natOfDigits text) = text

/-- A link into the input with a number. -/
def Into (link : LinkTable.Link Port Port) (inputId : Str) : Prop :=
  link.near.direction = .input ∧ link.near.portAlias = inputAlias inputId

instance (link : LinkTable.Link Port Port) (inputId : Str) : Decidable (Into link inputId) :=
  inferInstanceAs (Decidable (_ ∧ _))

/-- A change is for a key that ends in a number, and all links into its input
have been announced. -/
def announcedInTime (s : State) : Label → Prop
  | .metadataChanged suffix _ =>
      IsNumeral suffix ∧ ∀ link ∈ s.links, Into link suffix → link.announced = true
  | .session _ => True

instance (s : State) : DecidablePred (announcedInTime s)
  | .session _ => isTrue trivial
  | .metadataChanged suffix _ =>
      inferInstanceAs (Decidable (decimal (natOfDigits suffix) = suffix ∧ ∀ link ∈ s.links, _))

/-! ## Lookups -/

theorem lookup_output {ports : List Port} (hnodup : (ports.map Port.portAlias).Nodup)
    {portAlias : Str} {port : Port} :
    lookup ports (some .output) portAlias = some port ↔
      port = .output portAlias ∧ .output portAlias ∈ ports := by
  rw [lookupPort_eq_some_iff hnodup]
  constructor
  · rintro ⟨hmem, halias, hdirection⟩
    cases port with
    | input portId => simp [Port.direction] at hdirection
    | output found =>
        obtain rfl : found = portAlias := halias
        exact ⟨rfl, hmem⟩
  · rintro ⟨rfl, hmem⟩
    exact ⟨hmem, rfl, rfl⟩

theorem inputNumber_injective : Function.Injective inputNumber := by
  intro p q h
  exact UInt32.toNat_inj.mp (Nat.succ.inj h)

theorem inputAlias_injective : Function.Injective inputAlias := fun _ _ h =>
  List.append_cancel_left h

@[simp] theorem portAlias_input_eq_iff {portId : UInt32} {n : ℕ} :
    (Port.input portId).portAlias = inputAlias (decimal n) ↔ inputNumber portId = n := by
  rw [Port.portAlias, tostring_natCast, inputAlias_injective.eq_iff, decimal_injective.eq_iff]

theorem into_iff {link : LinkTable.Link Port Port} {n : ℕ} :
    Into link (decimal n) ↔ ∃ portId, link.near = .input portId ∧ inputNumber portId = n := by
  constructor
  · rintro ⟨hdirection, halias⟩
    cases hinput : link.near with
    | input portId =>
        rw [hinput] at halias
        exact ⟨portId, rfl, portAlias_input_eq_iff.mp halias⟩
    | output _ => simp [hinput, Port.direction] at hdirection
  · rintro ⟨portId, hinput, hnumber⟩
    rw [Into, hinput]
    exact ⟨rfl, portAlias_input_eq_iff.mpr hnumber⟩

theorem channelPortName_natCast (n : ℕ) :
    channelPortName n = lit "channel_port_" ++ decimal n := by
  rw [channelPortName, tostring_natCast]

@[simp] theorem channelPortName_inj {m n : ℕ} :
    channelPortName m = channelPortName n ↔ m = n := by
  rw [channelPortName_natCast, channelPortName_natCast, List.append_cancel_left_eq,
    decimal_injective.eq_iff]

theorem sub_key (suffix : Str) : sub (lit "channel_port_" ++ suffix) 14 = suffix :=
  sub_append (lit "channel_port_") suffix

/-- The loop over the metadata finds the input that a key is about. -/
theorem targetPort_iff {ports : List Port} (hnodup : (ports.map Port.portAlias).Nodup) {n : ℕ}
    {number : Number} (hnumber : tonumber (decimal n) = some number) {target : Port} :
    targetPort ports number = some target ↔
      ∃ portId, target = .input portId ∧ inputNumber portId = n ∧ .input portId ∈ ports := by
  rw [tonumber_decimal, Option.some.injEq] at hnumber
  subst hnumber
  by_cases hn : n ≤ 9223372036854775807
  · rw [if_pos hn, targetPort, tostring_natCast, lookupPort_eq_some_iff hnodup]
    constructor
    · rintro ⟨hmem, halias, hdirection⟩
      cases target with
      | input portId => exact ⟨portId, rfl, portAlias_input_eq_iff.mp halias, hmem⟩
      | output _ => simp [Port.direction] at hdirection
    · rintro ⟨portId, rfl, hportId, hmem⟩
      exact ⟨hmem, portAlias_input_eq_iff.mpr hportId, rfl⟩
  · -- the number of an input fits in 64 bits
    rw [if_neg hn, targetPort]
    constructor
    · intro h
      cases h
    · rintro ⟨portId, _, hportId, _⟩
      have := portId.toNat_lt
      unfold inputNumber at hportId
      omega

/-! ## Links that stay -/

/-- The sources of the links into an input whose destruction is not in flight. -/
abbrev live (s : State) (portId : UInt32) : List Port :=
  LinkTable.live s.links (.input portId)

theorem live_createLink (s : State) (output input : Port) (portId : UInt32) :
    live (createLink s output input) portId =
      live s portId ++ if input = .input portId then [output] else [] :=
  LinkTable.live_create ..

theorem connectItems_of_ne {s : State} {sourcePort : Port} {item : (_ : Str) × Str}
    (hvalue : item.2 ≠ sourcePort.portAlias) (rest : List ((_ : Str) × Str)) :
    connectItems s sourcePort (item :: rest) = connectItems s sourcePort rest :=
  if_neg hvalue

/-- A key with a number is never an error. -/
theorem connectItems_of_eq {s : State} {portAlias : Str} {n : ℕ} {number : Number}
    (hnumber : tonumber (decimal n) = some number) (rest : List ((_ : Str) × Str)) :
    connectItems s (.output portAlias) (⟨channelPortName n, portAlias⟩ :: rest) =
      connectItems ((targetPort s.ports number).elim s (createLink s (.output portAlias)))
        (.output portAlias) rest := by
  have hkey : tonumber (sub (channelPortName n) 14) = some number := by
    rw [channelPortName_natCast, sub_key, hnumber]
  refine (if_pos rfl).trans ?_
  simp only [hkey]
  cases targetPort s.ports number <;> rfl

/-- One item of the metadata with the source's alias. -/
theorem live_connectItem {s : State} (hnodup : (s.ports.map Port.portAlias).Nodup) {n : ℕ}
    {number : Number} (hnumber : tonumber (decimal n) = some number) (portAlias : Str)
    (portId : UInt32) :
    live ((targetPort s.ports number).elim s (createLink s (.output portAlias))) portId =
      live s portId ++
        if inputNumber portId = n ∧ .input portId ∈ s.ports then [.output portAlias] else [] := by
  cases htarget : targetPort s.ports number with
  | none =>
      rw [if_neg, List.append_nil]
      · rfl
      · rintro ⟨hportId, hmem⟩
        rw [(targetPort_iff hnodup hnumber).mpr ⟨portId, rfl, hportId, hmem⟩] at htarget
        cases htarget
  | some target =>
      obtain ⟨other, rfl, hother, hmem⟩ := (targetPort_iff hnodup hnumber).mp htarget
      refine (live_createLink ..).trans (congrArg _ (if_congr ?_ rfl rfl))
      constructor
      · intro heq
        obtain rfl := Port.input.inj heq
        exact ⟨hother, hmem⟩
      · intro h
        exact congrArg Port.input (inputNumber_injective (hother.trans h.1.symm))

/-- The source that the metadata want for an input is entered when the source is
added. -/
theorem live_connectItems {portAlias : Str} {portId : UInt32}
    {items : List ((_ : Str) × Str)} (hkeys : items.NodupKeys)
    (hnumerals : ∀ item ∈ items, ∃ n : ℕ, item.1 = channelPortName n) (s : State)
    (hnodup : (s.ports.map Port.portAlias).Nodup) :
    live (connectItems s (.output portAlias) items) portId =
      live s portId ++
        if ⟨channelPortName (inputNumber portId), portAlias⟩ ∈ items ∧ .input portId ∈ s.ports then
          [.output portAlias] else [] := by
  induction items generalizing s with
  | nil => simp [connectItems]
  | cons item rest ih =>
      obtain ⟨key, value⟩ := item
      obtain ⟨n, rfl⟩ : ∃ n : ℕ, key = channelPortName n := hnumerals _ (List.mem_cons_self ..)
      rw [List.nodupKeys_cons] at hkeys
      have hrest := ih hkeys.2 fun item hitem => hnumerals item (List.mem_cons_of_mem _ hitem)
      by_cases hvalue : value = portAlias
      · subst hvalue
        have hports : ∀ number,
            ((targetPort s.ports number).elim s (createLink s (.output value))).ports =
              s.ports := by
          intro number
          cases targetPort s.ports number <;> rfl
        rw [connectItems_of_eq (tonumber_decimal n), hrest _ (by rw [hports]; exact hnodup),
          live_connectItem hnodup (tonumber_decimal n), hports, List.append_assoc]
        congr 1
        by_cases hportId : inputNumber portId = n
        · -- the key is not met again
          have hgone : ⟨channelPortName (inputNumber portId), value⟩ ∉ rest := fun hmem =>
            hkeys.1 (hportId ▸ List.mem_keys_of_mem hmem)
          simp [hportId ▸ hgone, hportId]
        · have hother : channelPortName (inputNumber portId) ≠ channelPortName n :=
            mt channelPortName_inj.mp hportId
          simp [hportId, hother]
      · rw [connectItems_of_ne hvalue, hrest s hnodup]
        refine congrArg _ (if_congr (and_congr_left' ?_) rfl rfl)
        rw [List.mem_cons, or_iff_right]
        exact fun heq => hvalue (eq_of_heq (Sigma.mk.inj heq).2).symm

/-! ## Frames -/

@[simp] theorem connectItems_ports (s : State) (sourcePort : Port)
    (items : List ((_ : Str) × Str)) : (connectItems s sourcePort items).ports = s.ports := by
  fun_induction connectItems s sourcePort items <;> simp_all [createLink]

@[simp] theorem connectItems_metadata (s : State) (sourcePort : Port)
    (items : List ((_ : Str) × Str)) :
    (connectItems s sourcePort items).metadata = s.metadata := by
  fun_induction connectItems s sourcePort items <;> simp_all [createLink]

/-- The hooks for a port enter it, and leave the metadata as they are. -/
theorem frame_portAdded (s : State) (port : Port) :
    (portAdded s port).ports = s.ports ++ [port] ∧ (portAdded s port).metadata = s.metadata := by
  cases port with
  | input portId =>
      simp only [portAdded, connectInitialFcInputs]
      split
      · exact ⟨rfl, rfl⟩
      · split <;> exact ⟨rfl, rfl⟩
  | output portAlias => simp [portAdded, connectInitialPorts]

@[simp] theorem watch_ports (s : State) (key : Str) (newValue : Option Str) :
    (watchChannelPortMappingMetadata s key newValue).ports = s.ports := by
  unfold watchChannelPortMappingMetadata
  split
  · rfl
  · split <;> rfl

@[simp] theorem watch_metadata (s : State) (key : Str) (newValue : Option Str) :
    (watchChannelPortMappingMetadata s key newValue).metadata = s.metadata := by
  unfold watchChannelPortMappingMetadata
  split
  · rfl
  · split <;> rfl

@[simp] theorem setMetadata_ports (s : State) (key : Str) (value : Option Str) :
    (setMetadata s key value).ports = s.ports := by
  cases value <;> rfl

@[simp] theorem setMetadata_links (s : State) (key : Str) (value : Option Str) :
    (setMetadata s key value).links = s.links := by
  cases value <;> rfl

theorem setMetadata_lookup_self (s : State) (key : Str) (value : Option Str) :
    (setMetadata s key value).metadata.lookup key = value := by
  cases value with
  | none => exact AList.lookup_erase ..
  | some _ => exact AList.lookup_insert ..

theorem setMetadata_lookup_of_ne (s : State) {key other : Str} (hne : other ≠ key)
    (value : Option Str) :
    (setMetadata s key value).metadata.lookup other = s.metadata.lookup other := by
  cases value with
  | none => exact AList.lookup_erase_ne hne
  | some _ => exact AList.lookup_insert_ne hne

/-! ## One hook -/

/-- The source that the metadata have for an input, if it is there. -/
theorem toList_lookup_output {ports : List Port} (hnodup : (ports.map Port.portAlias).Nodup)
    (portAlias : Str) :
    (lookup ports (some .output) portAlias).toList =
      if .output portAlias ∈ ports then [.output portAlias] else [] := by
  split_ifs with hmem
  · rw [(lookup_output hnodup).mpr ⟨rfl, hmem⟩]
    rfl
  · cases hfind : lookup ports (some .output) portAlias with
    | none => rfl
    | some port => exact absurd ((lookup_output hnodup).mp hfind).2 hmem

/-- The hook for an input links the new input only. -/
theorem live_connectInitialFcInputs {s : State} (hnodup : (s.ports.map Port.portAlias).Nodup)
    {added : UInt32} (hmem : .input added ∈ s.ports) (portId : UInt32) :
    live (connectInitialFcInputs s added) portId =
      live s portId ++ if portId = added then wanted s added else [] := by
  have hwanted : wanted s added =
      ((s.metadata.lookup (channelPortName (inputNumber added))).bind
        (lookup s.ports (some .output))).toList := by
    unfold wanted sourceOf
    cases s.metadata.lookup (channelPortName (inputNumber added)) with
    | none => rfl
    | some portAlias =>
        rw [Option.bind_some, toList_lookup_output hnodup]
        exact if_congr (and_iff_left hmem) rfl rfl
  rw [hwanted]
  unfold connectInitialFcInputs
  cases s.metadata.lookup (channelPortName (inputNumber added)) with
  | none => simp
  | some portAlias =>
      rw [Option.bind_some]
      cases hfind : lookup s.ports (some .output) portAlias with
      | none => simp [hfind]
      | some sourcePort =>
          simp only [hfind, live_createLink]
          refine congrArg _ (if_congr ?_ rfl rfl)
          exact ⟨fun heq => (Port.input.inj heq).symm, fun heq => heq ▸ rfl⟩

/-- The hook for a source links the inputs that wait for it. -/
theorem live_connectInitialPorts {s : State}
    (hnumerals : ∀ item ∈ s.metadata.entries, ∃ n : ℕ, item.1 = channelPortName n)
    (hnodup : (s.ports.map Port.portAlias).Nodup) (portAlias : Str) (portId : UInt32) :
    live (connectInitialPorts s (.output portAlias)) portId =
      live s portId ++
        if s.metadata.lookup (channelPortName (inputNumber portId)) = some portAlias ∧
          .input portId ∈ s.ports then [.output portAlias] else [] := by
  rw [connectInitialPorts, live_connectItems s.metadata.nodupKeys hnumerals s hnodup]
  exact congrArg _ (if_congr (and_congr_left' AList.mem_lookup_iff.symm) rfl rfl)

/-- The hook for a value leaves the links into other inputs alone. -/
theorem live_watch_of_ne {s : State} (hnodup : (s.ports.map Port.portAlias).Nodup) {n : ℕ}
    {newValue : Option Str} {portId : UInt32}
    (hother : inputNumber portId ≠ n ∨ .input portId ∉ s.ports) :
    live (watchChannelPortMappingMetadata s (channelPortName n) newValue) portId =
      live s portId := by
  rw [channelPortName_natCast]
  unfold watchChannelPortMappingMetadata
  rw [sub_key]
  cases htarget : lookup s.ports none (inputAlias (decimal n)) with
  | none => rfl
  | some port =>
      obtain ⟨hmem, halias, _⟩ := (lookupPort_eq_some_iff hnodup).mp htarget
      have hport : port ≠ .input portId := by
        rintro rfl
        rcases hother with hnumber | hmissing
        · exact hnumber (portAlias_input_eq_iff.mp halias)
        · exact hmissing hmem
      cases hsource : newValue.bind (lookup s.ports (some .output)) with
      | none =>
          exact LinkTable.live_destroyAt_of_ne _ hport
      | some sourcePort =>
          refine (live_createLink ..).trans ?_
          rw [if_neg hport, List.append_nil]
          exact LinkTable.live_destroyAt_of_ne _ hport

/-- When it sees all links into its input, the hook replaces them. -/
theorem live_watch_self {s : State} (hnodup : (s.ports.map Port.portAlias).Nodup)
    {newValue : Option Str} {portId : UInt32} (hport : .input portId ∈ s.ports)
    (hannounced : LinkTable.AllAnnounced s.links (.input portId)) :
    live (watchChannelPortMappingMetadata s (channelPortName (inputNumber portId)) newValue)
      portId = (newValue.bind (lookup s.ports (some .output))).toList := by
  have htarget : lookup s.ports none (inputAlias (decimal (inputNumber portId))) =
      some (.input portId) :=
    (lookupPort_eq_some_iff hnodup).mpr ⟨hport, portAlias_input_eq_iff.mpr rfl, rfl⟩
  rw [channelPortName_natCast]
  unfold watchChannelPortMappingMetadata
  rw [sub_key, htarget]
  cases hsource : newValue.bind (lookup s.ports (some .output)) with
  | none =>
      exact LinkTable.live_destroyAt_self hannounced
  | some sourcePort =>
      refine (live_createLink ..).trans ?_
      rw [if_pos rfl]
      exact congrArg (· ++ [sourcePort]) (LinkTable.live_destroyAt_self hannounced)

end Pmx.ManageConnections
