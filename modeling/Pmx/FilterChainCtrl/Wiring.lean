import Pmx.FilterChainCtrl.Names
import Pmx.FilterGraph.Links

/-!
# Which audio a control changes

The control of an input path names a node of strip `n`, where `n` counts the
channels of both layers.  The audio of input channel `c` enters the graph at the
copies `2c - 1` and `2c`.  Strip `n` processes channel `c` if the links lead from
the two ports of its equalizer back to these copies, and its two outputs depend
on nothing but their signals.

The links lead there for the strips of layer A.  A strip of layer B ends at its
saturator, which nothing feeds.
-/

namespace Pmx.FilterChainCtrl

open Cxx Osc FilterGraph SignalGraph

/-- The two sides of a strip. -/
inductive Side
  | left
  | right
  deriving DecidableEq, Repr

/-- The input of the saturator and of the compressor. -/
def Side.input : Side → PortName
  | .left => .inL
  | .right => .inR

/-- The output of the saturator and of the compressor. -/
def Side.output : Side → PortName
  | .left => .outL
  | .right => .outR

def Side.equalizerInput : Side → PortName
  | .left => .audioIn1
  | .right => .audioIn2

def Side.equalizerOutput : Side → PortName
  | .left => .audioOut1
  | .right => .audioOut2

/-- The copy at which a channel enters the graph. -/
def Side.copyNumber (side : Side) (channel : ℕ) : ℕ :=
  match side with
  | .left => 2 * channel - 1
  | .right => 2 * channel

/-! ## Following the links -/

/-- From the equalizer of strip `n` the links lead through the strip and the copy
of the channel to an input of the graph, and nowhere else. -/
def LeadsToChannel (n channel : ℕ) (side : Side) : Prop :=
  ∀ nodes origin,
    Trace inputChannelsGraph across (port .equalizer n side.equalizerInput) nodes origin ↔
      nodes = [⟨.equalizer, n⟩, ⟨.compressor, n⟩, ⟨.saturator, n⟩,
        ⟨.copy, side.copyNumber channel⟩] ∧
        origin = port .copy (side.copyNumber channel) .copyIn

theorem trace_of_feed {q source : StripPort} (hfeed : feed q = some source)
    {nodes : List StripNode} {origin : StripPort} :
    Trace inputChannelsGraph across q nodes origin ↔ ∃ rest, nodes = q.node :: rest ∧
      Trace inputChannelsGraph across ⟨source.node, across source.name⟩ rest origin := by
  apply trace_link
  · intro hinput
    exact not_mem_links_of_mem_inputs hinput source ((mem_links source q).mpr hfeed)
  · intro other
    rw [mem_links, hfeed, Option.some.injEq, eq_comm]

theorem trace_copy {k : ℕ} (hk : 1 ≤ k ∧ k ≤ 32) {nodes : List StripNode} {origin : StripPort} :
    Trace inputChannelsGraph across (port .copy k .copyIn) nodes origin ↔
      nodes = [⟨.copy, k⟩] ∧ origin = port .copy k .copyIn := by
  have hinput : port .copy k .copyIn ∈ inputChannelsGraph.inputs :=
    (mem_inputs _).mpr ⟨rfl, rfl, hk⟩
  exact trace_input hinput (not_mem_links_of_mem_inputs hinput)

/-- An equalizer leads through its compressor to its saturator. -/
theorem trace_equalizer {n : ℕ} (hn : 1 ≤ n ∧ n ≤ 32) (side : Side) {nodes : List StripNode}
    {origin : StripPort} :
    Trace inputChannelsGraph across (port .equalizer n side.equalizerInput) nodes origin ↔
      ∃ rest, nodes = ⟨.equalizer, n⟩ :: ⟨.compressor, n⟩ :: rest ∧
        Trace inputChannelsGraph across (port .saturator n side.input) rest origin := by
  have hequalizer : feed (port .equalizer n side.equalizerInput) =
      some (port .compressor n side.output) := by
    cases side <;> exact if_pos hn
  have hcompressor : feed (port .compressor n (across side.output)) =
      some (port .saturator n side.output) := by
    cases side <;> exact if_pos hn
  have hinput : across side.output = side.input := by
    cases side <;> rfl
  rw [trace_of_feed hequalizer]
  constructor
  · rintro ⟨_, rfl, hcompressorTrace⟩
    obtain ⟨rest, rfl, hsaturator⟩ := (trace_of_feed hcompressor).mp hcompressorTrace
    exact ⟨rest, rfl, hinput ▸ hsaturator⟩
  · rintro ⟨rest, rfl, hsaturator⟩
    exact ⟨_, rfl, (trace_of_feed hcompressor).mpr ⟨rest, rfl, hinput ▸ hsaturator⟩⟩

theorem leadsToChannel_layerA {n : ℕ} (hn : 1 ≤ n ∧ n ≤ 16) (side : Side) :
    LeadsToChannel n n side := by
  have hsaturator : feed (port .saturator n side.input) =
      some (port .copy (side.copyNumber n) .copyOut) := by
    cases side <;> exact if_pos hn
  have hcopy : 1 ≤ side.copyNumber n ∧ side.copyNumber n ≤ 32 := by
    cases side <;> simp only [Side.copyNumber] <;> omega
  intro nodes origin
  rw [trace_equalizer ⟨hn.1, by omega⟩]
  constructor
  · rintro ⟨_, rfl, htrace⟩
    obtain ⟨rest, rfl, hrest⟩ := (trace_of_feed hsaturator).mp htrace
    obtain ⟨rfl, rfl⟩ := (trace_copy hcopy).mp hrest
    exact ⟨rfl, rfl⟩
  · rintro ⟨rfl, rfl⟩
    exact ⟨_, rfl, (trace_of_feed hsaturator).mpr ⟨_, rfl, (trace_copy hcopy).mpr ⟨rfl, rfl⟩⟩⟩

/-- The saturators of layer B have nothing before them. -/
theorem not_leadsToChannel_layerB {n : ℕ} (hn : 17 ≤ n ∧ n ≤ 32) (channel : ℕ) (side : Side) :
    ¬ LeadsToChannel n channel side := by
  have hsaturator : feed (port .saturator n side.input) = none := by
    cases side <;> exact if_neg (by dsimp only [port]; omega)
  intro h
  obtain ⟨rest, _, htrace⟩ :=
    (trace_equalizer ⟨by omega, hn.2⟩ side).mp ((h _ _).mpr ⟨rfl, rfl⟩)
  refine not_trace ?_ ?_ rest _ htrace
  · rw [mem_inputs]
    exact fun hcopy => Device.noConfusion hcopy.1
  · intro source
    rw [mem_links, hsaturator]
    exact fun hnone => by cases hnone

/-! ## What the signals do -/

section Signals

variable {S : Type} (plugin : StripNode → (PortName → S) → PortName → S) (silence : S)

/-- The signals at a node with something connected to two of its inputs. -/
def stereo (inputs : Side → PortName) (signal : Side → S) : PortName → S := fun name =>
  if name = inputs .left then signal .left
  else if name = inputs .right then signal .right
  else silence

/-- The output of a copy. -/
def copied (k : ℕ) (signal : S) : S :=
  plugin ⟨.copy, k⟩ (fun name => if name = .copyIn then signal else silence) .copyOut

/-- What strip `n` makes of the two signals of a channel. -/
def stripOutput (n channel : ℕ) (signal : Side → S) (side : Side) : S :=
  let saturator := plugin ⟨.saturator, n⟩ (stereo silence Side.input fun side =>
    copied plugin silence (side.copyNumber channel) (signal side))
  let compressor := plugin ⟨.compressor, n⟩ (stereo silence Side.input fun side =>
    saturator side.output)
  plugin ⟨.equalizer, n⟩ (stereo silence Side.equalizerInput fun side => compressor side.output)
    side.equalizerOutput

variable {plugin silence} {external input output : StripPort → S}
  (h : Solves inputChannelsGraph plugin silence external input output)

include h

theorem input_eq_feed {q : StripPort} (hq : q.node.device ≠ .copy) :
    input q = ((feed q).map output).getD silence :=
  h.input_eq (fun hinput => hq ((mem_inputs q).mp hinput).1) fun source => mem_links source q

theorem output_copy {k : ℕ} (hk : 1 ≤ k ∧ k ≤ 32) :
    output (port .copy k .copyOut) =
      copied plugin silence k (external (port .copy k .copyIn)) := by
  rw [h.plugged, copied]
  congr 1
  funext name
  have hgraphInput : port .copy k .copyIn ∈ inputChannelsGraph.inputs :=
    (mem_inputs _).mpr ⟨rfl, rfl, hk⟩
  by_cases hname : name = .copyIn
  · subst hname
    exact h.external hgraphInput
  · rw [if_neg hname]
    refine h.silent (fun hinput => hname ((mem_inputs _).mp hinput).2.1) fun source hlink => ?_
    -- nothing feeds a copy
    rw [mem_links] at hlink
    cases hlink

/-- A device behind another one gets the outputs that feed its two inputs. -/
theorem output_stereo {device : Device} (hdevice : device ≠ .copy) (n : ℕ)
    {inputOf : Side → PortName} {source : Side → StripPort}
    (hfeed : ∀ name, ((feed (port device n name)).map output).getD silence =
      stereo silence inputOf (fun side => output (source side)) name) (name : PortName) :
    output (port device n name) =
      plugin ⟨device, n⟩ (stereo silence inputOf fun side => output (source side)) name := by
  rw [h.plugged]
  congr 1
  funext name
  rw [← hfeed name]
  exact input_eq_feed h hdevice

theorem output_saturator {n : ℕ} (hn : 1 ≤ n ∧ n ≤ 16) (side : Side) :
    output (port .saturator n side.output) = plugin ⟨.saturator, n⟩
      (stereo silence Side.input fun side => output (port .copy (side.copyNumber n) .copyOut))
      side.output := by
  refine output_stereo h Device.noConfusion n (fun name => ?_) side.output
  cases name <;> simp [feed, port, stereo, Side.input, Side.copyNumber, hn]

theorem output_compressor {n : ℕ} (hn : 1 ≤ n ∧ n ≤ 32) (side : Side) :
    output (port .compressor n side.output) = plugin ⟨.compressor, n⟩
      (stereo silence Side.input fun side => output (port .saturator n side.output))
      side.output := by
  refine output_stereo h Device.noConfusion n (fun name => ?_) side.output
  cases name <;> simp [feed, port, stereo, Side.input, Side.output, hn]

theorem output_equalizer {n : ℕ} (hn : 1 ≤ n ∧ n ≤ 32) (side : Side) :
    output (port .equalizer n side.equalizerOutput) = plugin ⟨.equalizer, n⟩
      (stereo silence Side.equalizerInput fun side => output (port .compressor n side.output))
      side.equalizerOutput := by
  refine output_stereo h Device.noConfusion n (fun name => ?_) side.equalizerOutput
  cases name <;> simp [feed, port, stereo, Side.equalizerInput, Side.output, hn]

/-- The output of a strip of layer A. -/
theorem output_eq_stripOutput {n : ℕ} (hn : 1 ≤ n ∧ n ≤ 16) (side : Side) :
    output (port .equalizer n side.equalizerOutput) = stripOutput plugin silence n n
      (fun side => external (port .copy (side.copyNumber n) .copyIn)) side := by
  have hcopy : ∀ side : Side, output (port .copy (side.copyNumber n) .copyOut) =
      copied plugin silence (side.copyNumber n)
        (external (port .copy (side.copyNumber n) .copyIn)) := by
    intro side
    apply output_copy h
    cases side <;> simp only [Side.copyNumber] <;> omega
  rw [output_equalizer h ⟨hn.1, by omega⟩]
  simp only [output_compressor h ⟨hn.1, by omega⟩, output_saturator h hn, hcopy]
  rfl

end Signals

/-! ## The strip of a path -/

/-- The outputs of strip `n` are a function of the two signals of the channel,
whatever the plugins do. -/
def HearsOnly (n channel : ℕ) : Prop :=
  ∀ (S : Type) (plugin : StripNode → (PortName → S) → PortName → S) (silence : S),
    ∃ f : (Side → S) → Side → S, ∀ external input output : StripPort → S,
      Solves inputChannelsGraph plugin silence external input output →
        ∀ side : Side, output (port .equalizer n side.equalizerOutput) =
          f (fun side => external (port .copy (side.copyNumber channel) .copyIn)) side

/-- The strip whose control the path names processes the channel of the path. -/
def ProcessesChannel (path : OscPath) : Prop :=
  ∃ n, nodeName path = some (node path.parameter.deviceName (decimal n)) ∧
    (∀ side, LeadsToChannel n path.channelId side) ∧ HearsOnly n path.channelId

theorem processesChannel_layerA {path : OscPath}
    (hchannel : 1 ≤ path.channelId ∧ path.channelId ≤ 16) (htype : path.channelType = .input)
    (hlayer : path.layer = .A) : ProcessesChannel path := by
  have hindex : channelIndex path = path.channelId := by
    simp only [channelIndex, hlayer]
  refine ⟨path.channelId, ?_, leadsToChannel_layerA hchannel, ?_⟩
  · rw [nodeName_input htype (by omega), hindex]
  · intro S plugin silence
    refine ⟨stripOutput plugin silence path.channelId path.channelId, ?_⟩
    intro external input output hsolves side
    exact output_eq_stripOutput hsolves hchannel side

theorem not_processesChannel_layerB {path : OscPath}
    (hchannel : 1 ≤ path.channelId ∧ path.channelId ≤ 16) (htype : path.channelType = .input)
    (hlayer : path.layer = .B) : ¬ ProcessesChannel path := by
  have hindex : channelIndex path = 16 + path.channelId := by
    simp only [channelIndex, hlayer]
  rintro ⟨n, hname, hleads, _⟩
  rw [nodeName_input htype (by omega), hindex, Option.some.injEq, node, node,
    List.append_cancel_left_eq, List.cons.injEq, decimal_injective.eq_iff] at hname
  exact not_leadsToChannel_layerB ⟨by omega, by omega⟩ path.channelId .left (hleads .left)

/-- **Wiring.**  The strip that an accepted input path addresses processes the
channel of the path exactly when the path names layer A. -/
theorem processesChannel_iff {s : Str} {path : OscPath} (hparse : parseOscPath s = .ok (.ok path))
    (htype : path.channelType = .input) (hchannel : 1 ≤ path.channelId ∧ path.channelId ≤ 16) :
    ProcessesChannel path ↔ byteAt s 3 = 'A'.toUInt8 := by
  obtain ⟨_, haccepts⟩ := parse_eq_ok_iff.mp hparse
  have hlayer := haccepts.layer
  unfold layerOf at hlayer
  split at hlayer
  · cases hlayer
  by_cases hA : byteAt s 3 = 'A'.toUInt8
  · rw [if_pos hA, Option.some.injEq] at hlayer
    exact iff_of_true (processesChannel_layerA hchannel htype hlayer.symm) hA
  · rw [if_neg hA, Option.some.injEq] at hlayer
    exact iff_of_false (not_processesChannel_layerB hchannel htype hlayer.symm) hA

theorem processesChannel_iff_sixteenth :
    ProcessesChannel ⟨16, .input, .A, Parameters.equalizerLow⟩ :=
  (processesChannel_iff (s := lit "/I/A/16/EQU/low") (by rfl) rfl (by decide)).mpr (by decide)

/-- The first channel of layer B. -/
theorem layerB_silent :
    ¬ ∀ s path, parseOscPath s = .ok (.ok path) → path.channelType = .input →
      1 ≤ path.channelId ∧ path.channelId ≤ 16 → ProcessesChannel path := by
  intro h
  have hparse : parseOscPath (lit "/I/B/1/EQU/low") =
      .ok (.ok ⟨1, .input, .B, Parameters.equalizerLow⟩) := by rfl
  exact not_processesChannel_layerB (by decide) rfl rfl (h _ _ hparse rfl (by decide))

end Pmx.FilterChainCtrl
