import Pmx.Library.Cxx

/-!
# The filter graphs

The names of the nodes in the four filter chains that `pmx_filter_builder.lua`
defines, and the node parameter of `pmx-filter-chain-ctrl` under which
`pmx_set_up_filter_chain.lua` sets the id of each chain.  The two group chains
are built from one definition.

A node is called `{device}-{label}`.  No device has a hyphen in its name, so
device and label can be read back from the name (`mem_nodes`).
-/

namespace Pmx.FilterGraph

open Cxx

/-- The name of the node of a device. -/
def node (device label : Str) : Str :=
  device ++ '-'.toUInt8 :: label

/-- The nodes of some devices under each of some labels, in the order of the file. -/
def nodes (devices labels : List Str) : List Str :=
  labels.flatMap fun label => devices.map fun device => node device label

/-- `input_channels_filter_graph_definition`. -/
def inputChannels : List Str :=
  nodes [lit "Saturator", lit "Compressor", lit "Equalizer"] ((List.range' 1 32).map decimal) ++
    nodes [lit "Copy"] ((List.range' 1 32).map decimal)

/-- `group_channel_filter_graph_definition`. -/
def groupChannels : List Str :=
  nodes [lit "Compressor", lit "Equalizer"]
      ((List.range' 1 4).map fun group => lit "G" ++ decimal group) ++
    nodes [lit "Mixer"] [lit "L", lit "R"]

/-- `layer_filter_graph_definition`. -/
def layerChannels : List Str :=
  nodes [lit "Compressor", lit "Equalizer"] [lit "A", lit "B"] ++
    nodes [lit "Mixer"] [lit "L", lit "R"]

/-- The chain behind each node parameter. -/
def chains : List (Str × List Str) :=
  [(lit "inputChannels", inputChannels), (lit "groupChannelsA", groupChannels),
    (lit "groupChannelsB", groupChannels), (lit "layerChannels", layerChannels)]

/-! ## Which nodes there are -/

theorem mem_nodes {devices labels : List Str} {device label : Str}
    (hdevices : ∀ d ∈ devices, '-'.toUInt8 ∉ d) (hdevice : '-'.toUInt8 ∉ device) :
    node device label ∈ nodes devices labels ↔ device ∈ devices ∧ label ∈ labels := by
  simp only [nodes, List.mem_flatMap, List.mem_map]
  constructor
  · rintro ⟨label', hlabel', device', hdevice', hnode⟩
    obtain ⟨rfl, rfl⟩ := (append_cons_inj (hdevices device' hdevice') hdevice).mp hnode
    exact ⟨hdevice', hlabel'⟩
  · rintro ⟨hmem, hlabel⟩
    exact ⟨label, hlabel, device, hmem, rfl⟩

/-- The devices that parameters belong to. -/
def devices : List Str :=
  [lit "Saturator", lit "Compressor", lit "Equalizer"]

theorem hyphen_not_mem {device : Str} (h : device ∈ devices) : '-'.toUInt8 ∉ device := by
  have hall : ∀ device ∈ devices, '-'.toUInt8 ∉ device := by decide
  exact hall device h

theorem mem_decimals (n count : ℕ) :
    decimal n ∈ (List.range' 1 count).map decimal ↔ 1 ≤ n ∧ n ≤ count := by
  rw [List.mem_map_of_injective decimal_injective, List.mem_range'_1]
  omega

theorem mem_inputChannels {device : Str} (hdevice : device ∈ devices) (n : ℕ) :
    node device (decimal n) ∈ inputChannels ↔ 1 ≤ n ∧ n ≤ 32 := by
  have hcopy : device ∉ [lit "Copy"] := by
    have hall : ∀ device ∈ devices, device ∉ [lit "Copy"] := by decide
    exact hall device hdevice
  rw [inputChannels, List.mem_append, mem_nodes (by decide) (hyphen_not_mem hdevice),
    mem_nodes (by decide) (hyphen_not_mem hdevice), mem_decimals]
  constructor
  · rintro (⟨_, hn⟩ | ⟨hmem, _⟩)
    · exact hn
    · exact absurd hmem hcopy
  · exact fun hn => Or.inl ⟨hdevice, hn⟩

/-- The group and layer chains have a compressor and an equalizer under each
label, but no saturator. -/
theorem mem_stripChannels {device : Str} (hdevice : device ∈ devices) (labels : List Str)
    (label : Str) :
    node device label ∈ nodes [lit "Compressor", lit "Equalizer"] labels ++
        nodes [lit "Mixer"] [lit "L", lit "R"] ↔
      device ≠ lit "Saturator" ∧ label ∈ labels := by
  have hmixer : device ∉ [lit "Mixer"] := by
    have hall : ∀ device ∈ devices, device ∉ [lit "Mixer"] := by decide
    exact hall device hdevice
  have hstrip : device ∈ [lit "Compressor", lit "Equalizer"] ↔ device ≠ lit "Saturator" := by
    have hall : ∀ device ∈ devices,
        device ∈ [lit "Compressor", lit "Equalizer"] ↔ device ≠ lit "Saturator" := by decide
    exact hall device hdevice
  rw [List.mem_append, mem_nodes (by decide) (hyphen_not_mem hdevice),
    mem_nodes (by decide) (hyphen_not_mem hdevice), hstrip]
  constructor
  · rintro (h | ⟨hmem, _⟩)
    · exact h
    · exact absurd hmem hmixer
  · exact Or.inl

theorem mem_groupChannels {device : Str} (hdevice : device ∈ devices) (n : ℕ) :
    node device (lit "G" ++ decimal n) ∈ groupChannels ↔
      device ≠ lit "Saturator" ∧ 1 ≤ n ∧ n ≤ 4 := by
  have hlabels : Function.Injective fun group => lit "G" ++ decimal group :=
    fun _ _ h => decimal_injective (List.append_cancel_left h)
  rw [groupChannels, mem_stripChannels hdevice,
    List.mem_map_of_injective (f := fun group => lit "G" ++ decimal group) hlabels,
    List.mem_range'_1]
  have hfour : n < 1 + 4 ↔ n ≤ 4 := by omega
  rw [hfour]

theorem mem_layerChannels {device : Str} (hdevice : device ∈ devices) {label : Str}
    (hlabel : label ∈ [lit "A", lit "B"]) :
    node device label ∈ layerChannels ↔ device ≠ lit "Saturator" := by
  rw [layerChannels, mem_stripChannels hdevice]
  exact and_iff_left hlabel

end Pmx.FilterGraph
