import Pmx.MetadataManager

/-!
# The config file

`write_config` builds a YAML tree of two maps, one entry for every slot in each,
and prints it; `read_config` loads the file and looks each of the entries up.  A
channel without a port has a null entry, a string is a scalar whatever its text
is, and a number is written in decimal.

Printing and loading are `emit`, `load` and `parse` (`as<int>` on the text of a
scalar).  The results need of them that the tree is loaded back as it was
printed, and that a decimal number up to 255 is parsed as that number.
-/

namespace Pmx.MetadataManager

open Cxx

/-! ## Trees -/

/-- `YAML::Node`, as far as config files use it. -/
inductive Yaml
  | null
  | scalar (text : Str)
  | map (entries : List (Str × Yaml))

namespace Yaml

/-- `node[key]`: nothing where the node is undefined.  A scalar has no entries. -/
def get : Yaml → Str → Except Fault (Option Yaml)
  | .null, _ => .ok none
  | .scalar _, _ => .error .uncaught
  | .map entries, key => .ok (entries.lookup key)

/-- The node, if it is defined and not null. -/
def present : Option Yaml → Option Yaml
  | some .null => none
  | node => node

/-- `as<std::string>()`. -/
def asString : Yaml → Except Fault Str
  | .null => .ok (lit "null")
  | .scalar text => .ok text
  | .map _ => .error .uncaught

/-- `as<int>()`. -/
def asInt (parse : Str → Except Fault ℤ) : Yaml → Except Fault ℤ
  | .scalar text => parse text
  | _ => .error .uncaught

/-- `node[key] = value` on the entries of a map. -/
def setEntry (entries : List (Str × Yaml)) (key : Str) (value : Yaml) : List (Str × Yaml) :=
  if (entries.lookup key).isSome then
    entries.map fun entry => if entry.1 = key then (key, value) else entry
  else entries ++ [(key, value)]

/-- What is loaded for a map: without entries it is null, unless braces are written. -/
def ofEntries (braces : Bool) (entries : List (Str × Yaml)) : Yaml :=
  if entries.isEmpty && !braces then .null else .map entries

/-- A map without some of its entries. -/
def without (braces : Bool) (dropped : Str → Bool) : Yaml → Yaml
  | .map entries => ofEntries braces (entries.filter fun entry => !dropped entry.1)
  | node => node

@[simp] theorem get_ofEntries (braces : Bool) (entries : List (Str × Yaml)) (key : Str) :
    (ofEntries braces entries).get key = .ok (entries.lookup key) := by
  cases entries with
  | nil => cases braces <;> rfl
  | cons entry rest => rfl

theorem lookup_setEntry (entries : List (Str × Yaml)) (key other : Str) (value : Yaml) :
    (setEntry entries key value).lookup other =
      if other = key then some value else entries.lookup other := by
  unfold setEntry
  split_ifs with hpresent hother hother
  · -- the entry is replaced in its place
    subst hother
    induction entries with
    | nil => cases hpresent
    | cons entry rest ih =>
        obtain ⟨first, node⟩ := entry
        by_cases hfirst : first = other
        · simp [hfirst]
        · have hne : (other == first) = false := by simpa using fun h => hfirst h.symm
          simp only [List.lookup_cons, hne] at hpresent
          simp only [List.map_cons, if_neg hfirst, List.lookup_cons, hne, ih hpresent]
  · clear hpresent
    induction entries with
    | nil => rfl
    | cons entry rest ih =>
        obtain ⟨first, node⟩ := entry
        by_cases hfirst : first = key
        · have hne : (other == key) = false := by simpa using hother
          simp only [List.map_cons, hfirst, if_pos, List.lookup_cons, hne, ih]
        · simp only [List.map_cons, if_neg hfirst, List.lookup_cons, ih]
  · subst hother
    have hnone : entries.lookup other = none := Option.not_isSome_iff_eq_none.mp hpresent
    rw [List.lookup_append, hnone]
    simp
  · have hne : (other == key) = false := by simpa using hother
    rw [List.lookup_append, List.lookup_cons, hne]
    simp

theorem lookup_filter (dropped : Str → Bool) (entries : List (Str × Yaml)) (key : Str) :
    (entries.filter fun entry => !dropped entry.1).lookup key =
      if dropped key then none else entries.lookup key := by
  induction entries with
  | nil => simp
  | cons entry rest ih =>
      obtain ⟨first, node⟩ := entry
      by_cases hkey : key = first
      · subst hkey
        cases hdropped : dropped key with
        | true => simpa [hdropped] using ih
        | false => simp [hdropped]
      · have hne : (key == first) = false := by simpa using hkey
        cases hfirst : dropped first with
        | true => simpa [hfirst, List.lookup_cons, hne] using ih
        | false => simpa [hfirst, List.lookup_cons, hne] using ih

theorem get_without (braces : Bool) (dropped : Str → Bool) (entries : List (Str × Yaml))
    (key : Str) : ((Yaml.map entries).without braces dropped).get key =
      .ok (if dropped key then none else entries.lookup key) := by
  rw [without, get_ofEntries, lookup_filter]

theorem lookup_map_values (f : Str → Yaml → Yaml) (entries : List (Str × Yaml)) (key : Str) :
    (entries.map fun entry => (entry.1, f entry.1 entry.2)).lookup key =
      (entries.lookup key).map (f key) := by
  induction entries with
  | nil => rfl
  | cons entry rest ih =>
      obtain ⟨first, node⟩ := entry
      by_cases hkey : key = first
      · subst hkey
        simp
      · have hne : (key == first) = false := by simpa using hkey
        simp only [List.map_cons, List.lookup_cons, hne, ih]

end Yaml

/-! ## Writing -/

/-- The key of the section of the ports. -/
def inputChannelsKey : Str := lit "input_channels"

/-- The key of the section of the groups. -/
def inputChannelGroupsKey : Str := lit "input_channel_groups"

/-- The node that is written for the port in a slot. -/
def portNode (config : Config) (i : Fin 32) : Yaml :=
  match config.inputChannels.get i with
  | some port => .scalar port
  | none => .null

/-- The node that is written for the group in a slot. -/
def groupNode (config : Config) (i : Fin 32) : Yaml :=
  .scalar (decimal (config.inputChannelGroups.get i).toNat)

/-- The entries of both maps so far. -/
structure Written where
  inputChannels : List (Str × Yaml)
  inputChannelGroups : List (Str × Yaml)

/-- The body of the loop of `write_config`. -/
def writeSlot (config : Config) (written : Written) (i : Fin 32) : Written :=
  ⟨Yaml.setEntry written.inputChannels (portKey i) (portNode config i),
    Yaml.setEntry written.inputChannelGroups (groupKey i) (groupNode config i)⟩

/-- The entries behind the loop. -/
def written (config : Config) : Written :=
  (List.finRange 32).foldl (writeSlot config) ⟨[], []⟩

/-- `config_yaml` of `write_config`. -/
def configYaml (config : Config) : Yaml :=
  .map [(inputChannelsKey, .map (written config).inputChannels),
    (inputChannelGroupsKey, .map (written config).inputChannelGroups)]

/-- `write_config`: the new content of the file. -/
def writeConfig (emit : Yaml → Str) (config : Config) : Str :=
  emit (configYaml config)

/-! ## Reading -/

/-- The body of the loop over the ports. -/
def readPort (channels : Yaml) (i : Fin 32) : Except Fault (Option Str) := do
  let node ← channels.get (portKey i)
  match Yaml.present node with
  | some node => do
      let port ← node.asString
      return some port
  | none => return none

/-- The body of the loop over the groups. -/
def readGroup (parse : Str → Except Fault ℤ) (groups : Yaml) (i : Fin 32) :
    Except Fault UInt8 := do
  let node ← groups.get (groupKey i)
  match Yaml.present node with
  | some node => do
      let group ← node.asInt parse
      return UInt8.ofInt group
  | none => return 1

/-- A loop over the slots that sets what `read` gives for each. -/
def readSlots {β : Type} (set : Config → Fin 32 → β → Config) (read : Fin 32 → Except Fault β)
    (config : Config) : Except Fault Config :=
  (List.finRange 32).foldlM (fun config i => do
    let value ← read i
    return set config i value) config

/-- One of the two sections, if the tree has it. -/
def readSection {β : Type} (set : Config → Fin 32 → β → Config)
    (read : Yaml → Fin 32 → Except Fault β) (document : Yaml) (sectionKey : Str)
    (config : Config) : Except Fault Config := do
  match ← document.get sectionKey with
  | some entries => readSlots set (read entries) config
  | none => return config

/-- `read_config` on the loaded tree. -/
def readConfigYaml (parse : Str → Except Fault ℤ) (document : Yaml) : Except Fault Config := do
  let config ← readSection Config.setPort readPort document inputChannelsKey defaultConfig
  readSection Config.setGroup (readGroup parse) document inputChannelGroupsKey config

/-- `initial_config`. -/
def initialConfig : Str :=
  lit "\ninput_channels:\n" ++
    (List.finRange 32).flatMap (fun i => lit "  " ++ portKey i ++ lit ": null\n") ++
    lit "input_channel_groups:\n" ++
    (List.finRange 32).flatMap fun i => lit "  " ++ groupKey i ++ lit ": 1\n"

/-- `read_config`, with the content of the file behind it.  A missing file is
created. -/
def readConfig (parse : Str → Except Fault ℤ) (load : Str → Except Fault Yaml)
    (file : Option Str) : Except Fault (Config × Str) := do
  let text := file.getD initialConfig
  let document ← load text
  let config ← readConfigYaml parse document
  return (config, text)

/-! ## Slots of the written tree -/

/-- What the loop of `write_config` leaves under the keys of the slots. -/
theorem lookup_foldl_writeSlot (config : Config) {slots : List (Fin 32)} (written : Written)
    {i : Fin 32} (hi : i ∈ slots) :
    (slots.foldl (writeSlot config) written).inputChannels.lookup (portKey i) =
        some (portNode config i) ∧
      (slots.foldl (writeSlot config) written).inputChannelGroups.lookup (groupKey i) =
        some (groupNode config i) := by
  induction slots using List.reverseRecOn with
  | nil => cases hi
  | append_singleton slots j ih =>
      rw [List.foldl_append, List.foldl_cons, List.foldl_nil]
      simp only [writeSlot, Yaml.lookup_setEntry, portKey_injective.eq_iff,
        groupKey_injective.eq_iff]
      by_cases hij : i = j
      · subst hij
        simp
      · rw [if_neg hij, if_neg hij]
        refine ih ?_
        rcases List.mem_append.mp hi with hi | hi
        · exact hi
        · exact absurd (List.mem_singleton.mp hi) hij

/-! ## Loops over the slots -/

/-- A loop whose values can all be read sets all of them. -/
theorem readSlots_of_ok {β : Type} {set : Config → Fin 32 → β → Config}
    {read : Fin 32 → Except Fault β} {value : Fin 32 → β} (hread : ∀ i, read i = .ok (value i))
    (config : Config) :
    readSlots set read config =
      .ok ((List.finRange 32).foldl (fun config i => set config i (value i)) config) := by
  unfold readSlots
  generalize List.finRange 32 = slots
  induction slots generalizing config with
  | nil => rfl
  | cons i rest ih =>
      rw [List.foldlM_cons, hread]
      exact ih _

/-- A loop that sets all slots leaves in each what it has set there. -/
theorem get_foldl_set {β : Type} {set : Config → Fin 32 → β → Config} {get : Config → Fin 32 → β}
    (hget : ∀ config i j value,
      get (set config i value) j = if i = j then value else get config j)
    (value : Fin 32 → β) {slots : List (Fin 32)} (config : Config) {i : Fin 32} (hi : i ∈ slots) :
    get (slots.foldl (fun config i => set config i (value i)) config) i = value i := by
  induction slots using List.reverseRecOn with
  | nil => cases hi
  | append_singleton slots j ih =>
      rw [List.foldl_append, List.foldl_cons, List.foldl_nil, hget]
      split_ifs with hij
      · rw [hij]
      · refine ih ?_
        rcases List.mem_append.mp hi with hi | hi
        · exact hi
        · exact absurd (List.mem_singleton.mp hi).symm hij

/-- What setting a slot keeps, the loop keeps. -/
theorem foldl_set_frame {β γ : Type} {set : Config → Fin 32 → β → Config} {kept : Config → γ}
    (hkept : ∀ config i value, kept (set config i value) = kept config) (value : Fin 32 → β)
    (slots : List (Fin 32)) (config : Config) :
    kept (slots.foldl (fun config i => set config i (value i)) config) = kept config := by
  induction slots generalizing config with
  | nil => rfl
  | cons i rest ih => exact (ih _).trans (hkept _ _ _)

/-! ## Missing entries -/

/-- Which sections of a file are missing, and which entries of the others.  Where nothing
is left of a section, or of the whole file (`none`), braces may be written or not. -/
structure Missing where
  sections : Str → Bool
  entries : Str → Str → Bool
  braces : Option Str → Bool

namespace Missing

/-- The tree without what is missing. -/
def dropFrom (missing : Missing) : Yaml → Yaml
  | .map sections => .ofEntries (missing.braces none)
      ((sections.filter fun entry => !missing.sections entry.1).map fun entry =>
        (entry.1, entry.2.without (missing.braces (some entry.1)) (missing.entries entry.1)))
  | node => node

/-- An entry is missing by itself or with its section. -/
def lacks (missing : Missing) (sectionKey key : Str) : Bool :=
  missing.sections sectionKey || missing.entries sectionKey key

/-- The config with the default values for what is missing. -/
def withDefaults (missing : Missing) (config : Config) : Config :=
  ⟨Vector.ofFn fun i =>
      if missing.lacks inputChannelsKey (portKey i) then none else config.inputChannels.get i,
    Vector.ofFn fun i =>
      if missing.lacks inputChannelGroupsKey (groupKey i) then 1
      else config.inputChannelGroups.get i⟩

/-- Nothing is missing. -/
def nothing : Missing :=
  ⟨fun _ => false, fun _ _ => false, fun _ => true⟩

theorem nothing_dropFrom (config : Config) :
    nothing.dropFrom (configYaml config) = configYaml config := by
  simp [dropFrom, nothing, Yaml.without, Yaml.ofEntries, configYaml]

theorem nothing_withDefaults (config : Config) : nothing.withDefaults config = config := by
  refine Config.ext_slots (fun i => ?_) (fun i => ?_)
  · exact Vector.getElem_ofFn i.isLt
  · exact Vector.getElem_ofFn i.isLt

theorem get_dropFrom (missing : Missing) (sections : List (Str × Yaml)) (sectionKey : Str) :
    (missing.dropFrom (.map sections)).get sectionKey =
      .ok (if missing.sections sectionKey then none
        else (sections.lookup sectionKey).map
          (Yaml.without (missing.braces (some sectionKey)) (missing.entries sectionKey))) := by
  rw [dropFrom, Yaml.get_ofEntries, Yaml.lookup_map_values fun key node =>
      node.without (missing.braces (some key)) (missing.entries key),
    Yaml.lookup_filter]
  split_ifs <;> rfl

end Missing

/-! ## Round trip -/

theorem readPort_without (config : Config) (braces : Bool) (dropped : Str → Bool)
    (i : Fin 32) :
    readPort ((Yaml.map (written config).inputChannels).without braces dropped) i =
      .ok (if dropped (portKey i) then none else config.inputChannels.get i) := by
  have hentry := (lookup_foldl_writeSlot config ⟨[], []⟩ (List.mem_finRange i)).1
  rw [readPort, Yaml.get_without]
  split_ifs
  · rfl
  · rw [written, hentry, portNode]
    cases config.inputChannels.get i with
    | none => rfl
    | some port => rfl

theorem readGroup_without {parse : Str → Except Fault ℤ}
    (hparse : ∀ n ≤ 255, parse (decimal n) = .ok (n : ℤ)) (config : Config)
    (braces : Bool) (dropped : Str → Bool) (i : Fin 32) :
    readGroup parse ((Yaml.map (written config).inputChannelGroups).without braces dropped) i =
      .ok (if dropped (groupKey i) then 1 else config.inputChannelGroups.get i) := by
  have hentry := (lookup_foldl_writeSlot config ⟨[], []⟩ (List.mem_finRange i)).2
  rw [readGroup, Yaml.get_without]
  split_ifs
  · rfl
  · have hle : (config.inputChannelGroups.get i).toNat ≤ 255 :=
      Nat.le_of_lt_succ (UInt8.toNat_lt _)
    have hvalue : UInt8.ofInt (config.inputChannelGroups.get i).toNat =
        config.inputChannelGroups.get i := by
      apply UInt8.toNat_inj.mp
      rw [UInt8.ofInt, UInt8.toNat_ofNat']
      omega
    rw [written, hentry, groupNode]
    simp only [bind, Except.bind, pure, Except.pure, Yaml.present, Yaml.asInt, hparse _ hle,
      hvalue]

/-- A section that is there, or is not, sets its slots or leaves them. -/
theorem readSection_of_get {β γ : Type} {set : Config → Fin 32 → β → Config}
    {read : Yaml → Fin 32 → Except Fault β} (get : Config → Fin 32 → β) (kept : Config → γ)
    (hget : ∀ config i j value,
      get (set config i value) j = if i = j then value else get config j)
    (hkept : ∀ config i value, kept (set config i value) = kept config)
    {document node : Yaml} {sectionKey : Str} {absent : Bool}
    (hsection : document.get sectionKey = .ok (if absent then none else some node))
    {value : Fin 32 → β} (hread : ∀ i, read node i = .ok (value i)) (config : Config) :
    ∃ next, readSection set read document sectionKey config = .ok next ∧
      (∀ i, get next i = if absent then get config i else value i) ∧
      kept next = kept config := by
  unfold readSection
  rw [hsection]
  cases absent with
  | true => exact ⟨config, rfl, fun i => rfl, rfl⟩
  | false =>
      exact ⟨_, readSlots_of_ok hread config,
        fun i => get_foldl_set hget value config (List.mem_finRange i),
        foldl_set_frame hkept value _ config⟩

/-- What is read from a tree without some of its entries. -/
theorem readConfigYaml_dropFrom {parse : Str → Except Fault ℤ}
    (hparse : ∀ n ≤ 255, parse (decimal n) = .ok (n : ℤ)) (config : Config) (missing : Missing) :
    readConfigYaml parse (missing.dropFrom (configYaml config)) =
      .ok (missing.withDefaults config) := by
  have hchannels : (missing.dropFrom (configYaml config)).get inputChannelsKey =
      .ok (if missing.sections inputChannelsKey then none
        else some ((Yaml.map (written config).inputChannels).without
          (missing.braces (some inputChannelsKey)) (missing.entries inputChannelsKey))) :=
    missing.get_dropFrom _ _
  have hgroups : (missing.dropFrom (configYaml config)).get inputChannelGroupsKey =
      .ok (if missing.sections inputChannelGroupsKey then none
        else some ((Yaml.map (written config).inputChannelGroups).without
          (missing.braces (some inputChannelGroupsKey))
          (missing.entries inputChannelGroupsKey))) :=
    missing.get_dropFrom _ _
  obtain ⟨first, hfirst, hports, hfirstGroups⟩ :=
    readSection_of_get (fun config i => config.inputChannels.get i)
      Config.inputChannelGroups get_setPort (fun _ _ _ => rfl) hchannels
      (readPort_without config _ _) defaultConfig
  obtain ⟨second, hsecond, hsecondGroups, hsecondPorts⟩ :=
    readSection_of_get (fun config i => config.inputChannelGroups.get i)
      Config.inputChannels get_setGroup (fun _ _ _ => rfl) hgroups
      (readGroup_without hparse config _ _) first
  rw [readConfigYaml, hfirst]
  refine hsecond.trans (congrArg Except.ok ?_)
  refine Config.ext_slots (fun i => ?_) (fun i => ?_)
  · have hvalue : (missing.withDefaults config).inputChannels.get i =
        if missing.lacks inputChannelsKey (portKey i) then none
        else config.inputChannels.get i := Vector.getElem_ofFn i.isLt
    rw [hsecondPorts, hports, hvalue, Missing.lacks]
    cases missing.sections inputChannelsKey with
    | true => simp
    | false => simp
  · have hvalue : (missing.withDefaults config).inputChannelGroups.get i =
        if missing.lacks inputChannelGroupsKey (groupKey i) then 1
        else config.inputChannelGroups.get i := Vector.getElem_ofFn i.isLt
    rw [hsecondGroups, hfirstGroups, hvalue, Missing.lacks]
    cases missing.sections inputChannelGroupsKey with
    | true => simp
    | false => simp

theorem readConfigYaml_configYaml {parse : Str → Except Fault ℤ}
    (hparse : ∀ n ≤ 255, parse (decimal n) = .ok (n : ℤ)) (config : Config) :
    readConfigYaml parse (configYaml config) = .ok config := by
  have hread := readConfigYaml_dropFrom hparse config Missing.nothing
  rwa [Missing.nothing_withDefaults, Missing.nothing_dropFrom] at hread

/-- Without a file, the new one gives the default config. -/
theorem readConfig_of_no_file {load : Str → Except Fault Yaml} {parse : Str → Except Fault ℤ}
    (hparse : ∀ n ≤ 255, parse (decimal n) = .ok (n : ℤ))
    (hinitial : load initialConfig = .ok (configYaml defaultConfig)) :
    readConfig parse load none = .ok (defaultConfig, initialConfig) := by
  simp [readConfig, hinitial, readConfigYaml_configYaml hparse, bind, Except.bind, pure,
    Except.pure]

/-- **The config file is read back as it was written**, and a file in which
entries or sections are missing, also all entries of a section, gives their default
values and all other entries. -/
theorem readConfig_writeConfig {emit : Yaml → Str} {load : Str → Except Fault Yaml}
    {parse : Str → Except Fault ℤ} (hparse : ∀ n ≤ 255, parse (decimal n) = .ok (n : ℤ))
    (config : Config) (hwritten : load (emit (configYaml config)) = .ok (configYaml config))
    (missing : Missing) {text : Str}
    (htext : load text = .ok (missing.dropFrom (configYaml config))) :
    readConfig parse load (some (writeConfig emit config)) =
        .ok (config, writeConfig emit config) ∧
      readConfig parse load (some text) = .ok (missing.withDefaults config, text) := by
  constructor
  · simp [readConfig, writeConfig, hwritten, readConfigYaml_configYaml hparse, bind,
      Except.bind, pure, Except.pure]
  · simp [readConfig, htext, readConfigYaml_dropFrom hparse, bind, Except.bind, pure,
      Except.pure]

/-- How a scalar is printed: a text that would be read as null is quoted. -/
def scalarText : Yaml → Str
  | .scalar text => if text = lit "null" then lit "\"null\"" else text
  | _ => lit "~"

/-- The lines of a section. -/
def entryLines : Yaml → List Str
  | .map entries => entries.map fun entry => lit "  " ++ entry.1 ++ lit ": " ++ scalarText entry.2
  | _ => []

/-- The block style of a tree of two levels. -/
def blockText : Yaml → Str
  | .map sections => (lit "\n").intercalate
      (sections.flatMap fun entry => (entry.1 ++ lit ":") :: entryLines entry.2)
  | node => scalarText node

/-- A port called `null`, and a channel in group 12. -/
def someConfig : Config :=
  ⟨Vector.ofFn fun i => if i.val = 1 then some (lit "null") else none,
    Vector.ofFn fun i => if i.val = 2 then 12 else 1⟩

/-- Only the group of the third channel is left, and the heading of the ports. -/
def onlyThirdGroup : Missing :=
  ⟨fun _ => false, fun _ key => key ≠ lit "channel_group_3", fun _ => false⟩

def onlyThirdGroupText : Str :=
  lit "\ninput_channels:\ninput_channel_groups:\n  channel_group_3: 12"

/-- Loading the two files. -/
def loadSome (text : Str) : Except Fault Yaml :=
  if text = onlyThirdGroupText then .ok (onlyThirdGroup.dropFrom (configYaml someConfig))
  else if text = blockText (configYaml someConfig) then .ok (configYaml someConfig)
  else .error .uncaught

theorem exists_intercalate_cons (separator line : Str) (lines : List Str) :
    ∃ rest, separator.intercalate (line :: lines) = line ++ rest := by
  cases lines with
  | nil => exact ⟨[], by simp⟩
  | cons second lines => exact ⟨separator ++ separator.intercalate (second :: lines), by simp⟩

/-- The port `null` is read back, and the group survives without the ports. -/
theorem readConfig_writeConfig_someConfig :
    readConfig stoi loadSome (some (writeConfig blockText someConfig)) =
        .ok (someConfig, writeConfig blockText someConfig) ∧
      readConfig stoi loadSome (some onlyThirdGroupText) =
        .ok (onlyThirdGroup.withDefaults someConfig, onlyThirdGroupText) := by
  have hne : blockText (configYaml someConfig) ≠ onlyThirdGroupText := by
    intro h
    obtain ⟨rest, hrest⟩ : ∃ rest,
        blockText (configYaml someConfig) = inputChannelsKey ++ lit ":" ++ rest := by
      rw [configYaml, blockText, List.flatMap_cons, List.cons_append]
      exact exists_intercalate_cons _ _ _
    rw [hrest] at h
    have hbyte : 'i'.toUInt8 = '\n'.toUInt8 := congrArg (fun text => byteAt text 0) h
    exact absurd hbyte (by decide)
  refine readConfig_writeConfig (fun n hn => stoi_decimal (by omega)) someConfig ?_
    onlyThirdGroup ?_
  · rw [loadSome, if_neg hne, if_pos rfl]
  · rw [loadSome, if_pos rfl]

end Pmx.MetadataManager
