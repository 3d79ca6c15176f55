import Pmx.FilterGraph.Mixers

/-!
# What a control of a group or a layer changes

A path of a group or of a layer names a compressor or an equalizer of one strip in
a graph that mixes several.  Setting the control changes the plugin of that node,
and so the signal of the strip at the input of each mixer; the other inputs and
the mixers themselves stay (`control_changes_one_strip`).
-/

namespace Pmx.FilterChainCtrl

open Cxx Osc FilterGraph FilterGraph.Mixers

/-- The number of strips in the graph of a path. -/
def stripCount (path : OscPath) : ℕ :=
  if path.channelType = .layer then 2 else 4

/-- How the strips of the graph are called. -/
def stripLabel (path : OscPath) : ℕ → Str :=
  if path.channelType = .layer then layerLabel else groupLabel

/-- The strip that a path is for. -/
def stripNumber (path : OscPath) : ℕ :=
  if path.channelType = .layer then
    match path.layer with
    | .A => 1
    | .B => 2
  else path.channelId

/-- The plugins of two graphs are alike except for the node that the path names. -/
def DifferAt {S : Type} (path : OscPath)
    (plugin plugin' : MixNode → (MixPortName → S) → MixPortName → S) : Prop :=
  ∀ n : MixNode, nodeName path ≠ some (n.text (stripLabel path)) → plugin' n = plugin n

theorem stripLabel_inj {path : OscPath} {strip strip' : ℕ} (hlower : 1 ≤ strip)
    (hupper : strip ≤ stripCount path) (hlower' : 1 ≤ strip') (hupper' : strip' ≤ stripCount path)
    (h : stripLabel path strip = stripLabel path strip') : strip = strip' := by
  unfold stripLabel at h
  unfold stripCount at hupper hupper'
  split_ifs at h hupper hupper'
  · interval_cases strip <;> interval_cases strip' <;> first | rfl | exact absurd h (by decide)
  · exact decimal_injective (List.append_cancel_left h)

/-- The node of a path is a compressor or an equalizer of its strip. -/
theorem nodeName_strip {path : OscPath} (htype : path.channelType = .group ∨
    path.channelType = .layer) : nodeName path =
      some (node path.parameter.deviceName (stripLabel path (stripNumber path))) := by
  rcases htype with htype | htype
  · have hlayer : path.channelType ≠ .layer := by
      rw [htype]
      exact ChannelType.noConfusion
    rw [nodeName_group htype, stripLabel, stripNumber, if_neg hlayer, if_neg hlayer]
    rfl
  · rw [nodeName_layer htype, stripLabel, stripNumber, if_pos htype, if_pos htype]
    cases path.layer <;> rfl

theorem stripNumber_range {path : OscPath} (htype : path.channelType = .group ∨
    path.channelType = .layer) (hgraph : InGraph path) :
    1 ≤ stripNumber path ∧ stripNumber path ≤ stripCount path := by
  rcases htype with htype | htype
  · simp only [InGraph, htype] at hgraph
    simp [stripNumber, stripCount, htype, hgraph]
  · simp only [stripNumber, stripCount, htype, if_true]
    cases path.layer <;> decide

theorem deviceName_strip {path : OscPath} (hdevice : path.parameter.deviceName ∈ devices)
    (htype : path.channelType = .group ∨ path.channelType = .layer) (hgraph : InGraph path) :
    path.parameter.deviceName = lit "Compressor" ∨
      path.parameter.deviceName = lit "Equalizer" := by
  have hsaturator : path.parameter.deviceName ≠ lit "Saturator" := by
    rcases htype with htype | htype <;> simp only [InGraph, htype] at hgraph
    · exact hgraph.1
    · exact hgraph
  simp only [devices, List.mem_cons, List.not_mem_nil, or_false] at hdevice
  exact hdevice.resolve_left hsaturator

theorem node_inj {device device' label label' : Str} (hdevice : '-'.toUInt8 ∉ device)
    (hdevice' : '-'.toUInt8 ∉ device') :
    node device label = node device' label' ↔ device = device' ∧ label = label' :=
  append_cons_inj hdevice hdevice'

section Strip

variable {path : OscPath} (hdevice : path.parameter.deviceName ∈ devices)
  (htype : path.channelType = .group ∨ path.channelType = .layer) (hgraph : InGraph path)

include hdevice htype hgraph

/-- The node that a path names is one of its strip. -/
theorem exists_strip_node :
    ∃ n ∈ [MixNode.compressor (stripNumber path), .equalizer (stripNumber path)],
      nodeName path = some (n.text (stripLabel path)) := by
  rw [nodeName_strip htype]
  rcases deviceName_strip hdevice htype hgraph with h | h
  · exact ⟨_, List.mem_cons_self, by rw [h]; rfl⟩
  · exact ⟨_, List.mem_cons_of_mem _ (List.mem_singleton_self _), by rw [h]; rfl⟩

theorem not_names_mixer (side : Side) :
    nodeName path ≠ some ((MixNode.mixer side).text (stripLabel path)) := by
  rw [nodeName_strip htype, Ne, Option.some_inj, MixNode.text,
    node_inj (hyphen_not_mem hdevice) (by decide)]
  rintro ⟨hname, _⟩
  rcases deviceName_strip hdevice htype hgraph with h | h <;>
    exact absurd (h.symm.trans hname) (by decide)

theorem not_names_other_strip {strip : ℕ} (hlower : 1 ≤ strip) (hupper : strip ≤ stripCount path)
    (hother : strip ≠ stripNumber path) {n : MixNode}
    (hn : n ∈ [MixNode.compressor strip, .equalizer strip]) :
    nodeName path ≠ some (n.text (stripLabel path)) := by
  obtain ⟨hlower', hupper'⟩ := stripNumber_range htype hgraph
  have hlabel : stripLabel path (stripNumber path) ≠ stripLabel path strip := fun h =>
    hother (stripLabel_inj hlower' hupper' hlower hupper h).symm
  rw [nodeName_strip htype, Ne, Option.some_inj]
  simp only [List.mem_cons, List.not_mem_nil, or_false] at hn
  rcases hn with rfl | rfl
  · exact fun h => hlabel ((node_inj (hyphen_not_mem hdevice) (by decide)).mp h).2
  · exact fun h => hlabel ((node_inj (hyphen_not_mem hdevice) (by decide)).mp h).2

variable {S : Type} {plugin plugin' : MixNode → (MixPortName → S) → MixPortName → S}
  (hdiffer : DifferAt path plugin plugin')

include hdiffer

/-- The other strips sound as before. -/
theorem stripSignal_other {strip : ℕ} (hlower : 1 ≤ strip) (hupper : strip ≤ stripCount path)
    (hother : strip ≠ stripNumber path) (silence : S) (signal : Side → S) (side : Side) :
    stripSignal plugin' silence strip signal side =
      stripSignal plugin silence strip signal side := by
  have hcompressor : plugin' (.compressor strip) = plugin (.compressor strip) :=
    hdiffer _ (not_names_other_strip hdevice htype hgraph hlower hupper hother
      List.mem_cons_self)
  have hequalizer : plugin' (.equalizer strip) = plugin (.equalizer strip) :=
    hdiffer _ (not_names_other_strip hdevice htype hgraph hlower hupper hother
      (List.mem_cons_of_mem _ (List.mem_singleton_self _)))
  rw [stripSignal, stripSignal, hcompressor, hequalizer]

/-- Of the inputs of a mixer, only that of the strip of the path may change. -/
theorem mixed_differAt (silence : S) (signals : ℕ → Side → S) (side : Side) :
    mixed plugin' silence (stripCount path) signals side =
      plugin (.mixer side)
        (Function.update
          (mixerInputs silence (stripCount path) fun strip =>
            stripSignal plugin silence strip (signals strip) side)
          (.mixIn (stripNumber path))
          (stripSignal plugin' silence (stripNumber path) (signals (stripNumber path)) side))
        .mixOut := by
  have hmixer : plugin' (.mixer side) = plugin (.mixer side) :=
    hdiffer _ (not_names_mixer hdevice htype hgraph side)
  rw [mixed, hmixer]
  congr 1
  funext name
  by_cases hname : name = .mixIn (stripNumber path)
  · subst hname
    rw [Function.update_self, mixerInputs, if_pos (stripNumber_range htype hgraph)]
  · rw [Function.update_of_ne hname]
    cases name with
    | plugin name => rfl
    | mixOut => rfl
    | mixIn strip =>
        rw [mixerInputs, mixerInputs]
        split_ifs with hstrip
        · refine stripSignal_other hdevice htype hgraph hdiffer hstrip.1 hstrip.2 ?_ ..
          exact fun hsame => hname (congrArg MixPortName.mixIn hsame)
        · rfl

end Strip

/-- **Controls of a mix.**  An accepted path of a group or of a layer that names a node
of its graph names one of its strip, and whatever the plugin of that node does
instead, the mixers get the same signals from all other strips. -/
theorem control_changes_one_strip {s : Str} {path : OscPath}
    (hparse : parseOscPath s = .ok (.ok path))
    (htype : path.channelType = .group ∨ path.channelType = .layer) (hnode : NamesNode path) :
    (∃ n ∈ [MixNode.compressor (stripNumber path), .equalizer (stripNumber path)],
        nodeName path = some (n.text (stripLabel path))) ∧
      ∀ {S : Type} {plugin plugin' : MixNode → (MixPortName → S) → MixPortName → S},
        DifferAt path plugin plugin' → ∀ silence signals side,
          mixed plugin' silence (stripCount path) signals side =
            plugin (.mixer side)
              (Function.update
                (mixerInputs silence (stripCount path) fun strip =>
                  stripSignal plugin silence strip (signals strip) side)
                (.mixIn (stripNumber path))
                (stripSignal plugin' silence (stripNumber path) (signals (stripNumber path)) side))
              .mixOut := by
  obtain ⟨_, haccepts⟩ := parse_eq_ok_iff.mp hparse
  obtain ⟨hmem, hid⟩ := haccepts.parameter_mem
  have hdevice := device_mem hmem hid
  have hgraph := (namesNode_iff haccepts.channel_le hdevice).mp hnode
  refine ⟨exists_strip_node hdevice htype hgraph, fun hdiffer silence signals side => ?_⟩
  exact mixed_differAt hdevice htype hgraph hdiffer silence signals side

/-- Plugins that pass the signals of both sides on, and mixers that add two strips. -/
def passing : MixNode → (MixPortName → ℤ) → MixPortName → ℤ
  | .compressor _, inputs, .plugin .outL => inputs (.plugin .inL)
  | .compressor _, inputs, .plugin .outR => inputs (.plugin .inR)
  | .equalizer _, inputs, .plugin .audioOut1 => inputs (.plugin .audioIn1)
  | .equalizer _, inputs, .plugin .audioOut2 => inputs (.plugin .audioIn2)
  | .mixer _, inputs, .mixOut => inputs (.mixIn 1) + inputs (.mixIn 2)
  | _, _, _ => 0

/-- The same, with an equalizer of layer B that doubles its signals. -/
def doubling : MixNode → (MixPortName → ℤ) → MixPortName → ℤ :=
  Function.update passing (.equalizer 2) fun inputs name => 2 * passing (.equalizer 2) inputs name

/-- The equalizer of layer B: of the signals 10 of layer A and 20 of layer B at the left, the
latter is doubled. -/
theorem control_changes_one_strip_layer :
    let path : OscPath := ⟨1, .layer, .B, Parameters.equalizerLow⟩
    let signals : ℕ → Side → ℤ := fun strip _ => 10 * strip
    nodeName path = some (lit "Equalizer-B") ∧
      (∃ n ∈ [MixNode.compressor 2, .equalizer 2], nodeName path = some (n.text layerLabel)) ∧
      mixed doubling 0 2 signals .left =
        passing (.mixer .left)
          (Function.update
            (mixerInputs 0 2 fun strip => stripSignal passing 0 strip (signals strip) .left)
            (.mixIn 2) (stripSignal doubling 0 2 (signals 2) .left))
          .mixOut ∧
      mixed passing 0 2 signals .left = 30 ∧ mixed doubling 0 2 signals .left = 50 := by
  intro path signals
  have hparse : parseOscPath (lit "/L/B/1/EQU/low") = .ok (.ok path) := by rfl
  have hnode : NamesNode path :=
    (namesNode_iff (by decide) (by decide)).mpr
      (by decide : Parameters.equalizerLow.deviceName ≠ lit "Saturator")
  have hdiffer : DifferAt path passing doubling := by
    intro n hn
    refine Function.update_of_ne (fun hequalizer => hn ?_) ..
    rw [hequalizer]
    rfl
  have hchanges := control_changes_one_strip hparse (Or.inr rfl) hnode
  exact ⟨by rfl, hchanges.1, hchanges.2 hdiffer 0 signals .left, by decide, by decide⟩

end Pmx.FilterChainCtrl
