import Pmx.Library.Lua

/-!
# Loopers and groups in `pmx_manage_connections.lua`

The output ports of the input channel chain are numbered from 1, 32 for each
side; an odd port is the left and the next even one the right port of a strip.
Group `g` of a side has a looper of its own, whose outputs feed the group
(`looperOutPorts_feed`).

Two paths link an output port to the looper of its group: the hook
`connect_initial_group_inputs` when the port is added, and
`update_group_assignment` when the group of its channel changes.  Both compute
the alias of the looper's input port with the same formula
(`watchChannelGroupMappingMetadata_targets`), and with it the two ports of a strip ask
for different loopers (`strip_torn_apart`).
-/

namespace Pmx.ManageConnections

open Cxx Lua

/-- `target_port_id`. -/
def targetPortId (group inputId : ℤ) : ℤ :=
  (group - 1) * 2 + (1 - inputId % 2) + 1

/-- `target_port_alias`, where `offset` is what each side adds to the looper
number.  `math.floor` takes its argument from a division of floats, which is
exact for the 32-bit numbers that are written as groups. -/
def targetPortAlias (offset targetPortId : ℤ) : Str :=
  lit "sooperlooper:loop" ++ tostring (targetPortId / 2 + offset) ++
    '_'.toUInt8 :: lit "in_" ++ tostring (targetPortId % 2)

/-- The offset of side A and of side B. -/
def looperOffset (groupA : Bool) : ℤ :=
  if groupA then -1 else 3

/-- `meta_key`: the ports of both sides share the keys of the 32 channels. -/
def metaKey (inputId : ℤ) : Str :=
  lit "channel_group_" ++ tostring (if 32 < inputId then inputId - 32 else inputId)

/-- The alias that `connect_initial_group_inputs` looks up for a new port, given
the number that the metadata has under each key. -/
def connectInitialGroupInputs (find : Str → Option ℤ) (portId : ℕ) : Option Str :=
  let inputId : ℤ := portId + 1
  (find (metaKey inputId)).map fun targetGroup =>
    targetPortAlias (looperOffset (!decide (32 < inputId))) (targetPortId targetGroup inputId)

/-- The aliases of the source and of the target in `update_group_assignment`. -/
def updateGroupAssignment (sourceInputId groupId : ℤ) (groupA : Bool) : Str × Str :=
  (lit "PMX Input Channels:output_" ++ tostring sourceInputId,
    targetPortAlias (looperOffset groupA) (targetPortId groupId sourceInputId))

/-- The two calls of `watch_channel_group_mapping_metadata`. -/
def watchChannelGroupMappingMetadata (channel group : ℤ) : List (Str × Str) :=
  [updateGroupAssignment channel group true, updateGroupAssignment (32 + channel) group false]

/-- `looper_out_ports` of the two hooks that link loopers to group inputs. -/
def looperOutPorts (groupA : Bool) : List Str :=
  if groupA then
    [lit "sooperlooper:loop0_out_1", lit "sooperlooper:loop0_out_2",
      lit "sooperlooper:loop1_out_1", lit "sooperlooper:loop1_out_2",
      lit "sooperlooper:loop2_out_1", lit "sooperlooper:loop2_out_2",
      lit "sooperlooper:loop3_out_1", lit "sooperlooper:loop3_out_2"]
  else
    [lit "sooperlooper:loop4_out_1", lit "sooperlooper:loop4_out_2",
      lit "sooperlooper:loop5_out_1", lit "sooperlooper:loop5_out_2",
      lit "sooperlooper:loop6_out_1", lit "sooperlooper:loop6_out_2",
      lit "sooperlooper:loop7_out_1", lit "sooperlooper:loop7_out_2"]

/-! ## Which looper a port gets -/

/-- A port of a looper, with the looper counted from zero. -/
def looperPort (loop : ℤ) (direction : Str) (port : ℤ) : Str :=
  lit "sooperlooper:loop" ++ tostring loop ++ '_'.toUInt8 :: direction ++ tostring port

/-- The looper of a group, for the ports of each side. -/
def looperOfGroup (inputId group : ℤ) : ℤ :=
  if inputId ≤ 32 then group - 1 else group + 3

/-- The input that belongs to the port: the first one for the left, the second
one for the right port of a strip. -/
def groupInputAlias (inputId group : ℤ) : Str :=
  looperPort (looperOfGroup inputId group) (lit "in_") (if inputId % 2 = 1 then 1 else 2)

theorem looperPort_inj {loop loop' port port' : ℤ} {direction : Str} :
    looperPort loop direction port = looperPort loop' direction port' ↔
      loop = loop' ∧ port = port' := by
  have hunderscore : ∀ n, '_'.toUInt8 ∉ tostring n := not_mem_tostring (by decide) (by decide)
  simp only [looperPort, List.append_assoc, List.append_cancel_left_eq, List.cons_append]
  rw [append_cons_inj (hunderscore loop) (hunderscore loop'), List.append_cancel_left_eq,
    tostring_injective.eq_iff, tostring_injective.eq_iff]

/-- The outputs of the looper of a group are the ones that feed the group. -/
theorem looperOutPorts_feed (inputId : ℤ) {group : ℕ} (hgroup : group < 4) :
    (looperOutPorts (decide (inputId ≤ 32)))[2 * group]? =
        some (looperPort (looperOfGroup inputId (group + 1)) (lit "out_") 1) ∧
      (looperOutPorts (decide (inputId ≤ 32)))[2 * group + 1]? =
        some (looperPort (looperOfGroup inputId (group + 1)) (lit "out_") 2) := by
  unfold looperOfGroup
  by_cases hside : inputId ≤ 32
  · simp only [hside, decide_true, if_true]
    interval_cases group <;> decide
  · simp only [hside, decide_false, if_false]
    interval_cases group <;> decide

theorem targetPortAlias_odd {inputId : ℤ} (hodd : inputId % 2 = 1) (offset group : ℤ) :
    targetPortAlias offset (targetPortId group inputId) =
      looperPort (group - 1 + offset) (lit "in_") 1 := by
  have hloop : targetPortId group inputId / 2 = group - 1 := by
    unfold targetPortId
    omega
  have hport : targetPortId group inputId % 2 = 1 := by
    unfold targetPortId
    omega
  rw [targetPortAlias, hloop, hport]
  rfl

theorem targetPortAlias_even {inputId : ℤ} (heven : inputId % 2 = 0) (offset group : ℤ) :
    targetPortAlias offset (targetPortId group inputId) =
      looperPort (group + offset) (lit "in_") 0 := by
  have hloop : targetPortId group inputId / 2 = group := by
    unfold targetPortId
    omega
  have hport : targetPortId group inputId % 2 = 0 := by
    unfold targetPortId
    omega
  rw [targetPortAlias, hloop, hport]
  rfl

/-- The two paths agree. -/
theorem connectInitialGroupInputs_eq_update {find : Str → Option ℤ} {portId : ℕ} {group : ℤ}
    (hgroup : find (metaKey (portId + 1)) = some group) :
    connectInitialGroupInputs find portId =
      some (updateGroupAssignment (portId + 1) group (decide (portId + 1 ≤ 32))).2 := by
  have hside : (!decide ((32 : ℤ) < portId + 1)) = decide (portId + 1 ≤ 32) := by
    rw [← decide_not, decide_eq_decide]
    omega
  rw [connectInitialGroupInputs, hgroup, hside]
  rfl

/-- For a channel, both calls of the hook for its key look for the ports that
were looked for when its two output ports came. -/
theorem watchChannelGroupMappingMetadata_targets {find : Str → Option ℤ} {channel : ℕ}
    (hchannel : channel < 32) {group : ℤ} (hgroup : find (metaKey (channel + 1)) = some group) :
    (watchChannelGroupMappingMetadata (channel + 1) group).map (fun aliases => some aliases.2) =
      [connectInitialGroupInputs find channel, connectInitialGroupInputs find (32 + channel)] := by
  have hkey : metaKey ((32 + channel : ℕ) + 1) = metaKey (channel + 1) := by
    have hsideA : ¬ (32 : ℤ) < channel + 1 := by omega
    have hsideB : (32 : ℤ) < (32 + channel : ℕ) + 1 := by omega
    have hnumber : ((32 + channel : ℕ) : ℤ) + 1 - 32 = channel + 1 := by omega
    rw [metaKey, metaKey, if_pos hsideB, if_neg hsideA, hnumber]
  have hinputA : decide (channel + 1 ≤ 32) = true := decide_eq_true (by omega)
  have hinputB : decide (32 + channel + 1 ≤ 32) = false := decide_eq_false (by omega)
  have hnumberB : (32 : ℤ) + (channel + 1) = (32 + channel : ℕ) + 1 := by omega
  rw [connectInitialGroupInputs_eq_update hgroup,
    connectInitialGroupInputs_eq_update (hkey ▸ hgroup), hinputA, hinputB,
    watchChannelGroupMappingMetadata, hnumberB]
  rfl

/-- An odd port is one looper off, and an even one asks for the input number
zero. -/
theorem target_ne_groupInputAlias (inputId group : ℤ) :
    (updateGroupAssignment inputId group (decide (inputId ≤ 32))).2 ≠
      groupInputAlias inputId group := by
  show targetPortAlias _ (targetPortId group inputId) ≠ groupInputAlias inputId group
  intro h
  rcases Int.emod_two_eq_zero_or_one inputId with heven | hodd
  · rw [targetPortAlias_even heven, groupInputAlias, looperPort_inj, heven] at h
    simp at h
  · rw [targetPortAlias_odd hodd, groupInputAlias, looperPort_inj] at h
    have hloop := h.1
    unfold looperOffset looperOfGroup at hloop
    by_cases hside : inputId ≤ 32 <;> simp [hside] at hloop

/-- The left and the right port of a strip ask for different loopers. -/
theorem strip_torn_apart {left : ℤ} (hodd : left % 2 = 1) (group : ℤ) (groupA : Bool) :
    ∃ loop, (updateGroupAssignment left group groupA).2 = looperPort loop (lit "in_") 1 ∧
      (updateGroupAssignment (left + 1) group groupA).2 = looperPort (loop + 1) (lit "in_") 0 := by
  refine ⟨group - 1 + looperOffset groupA, targetPortAlias_odd hodd _ _, ?_⟩
  have hright : targetPortAlias (looperOffset groupA) (targetPortId group (left + 1)) =
      looperPort (group + looperOffset groupA) (lit "in_") 0 :=
    targetPortAlias_even (by omega) _ _
  have hnext : group + looperOffset groupA = group - 1 + looperOffset groupA + 1 := by omega
  rw [← hnext]
  exact hright

/-- **Groups.**  The two paths compute the same alias for every output port and
every group, and it is never the alias of the input that belongs to the port. -/
theorem groupAlias_never {portId : ℕ} {group : ℤ} {find : Str → Option ℤ}
    (hfind : find (metaKey (portId + 1)) = some group) :
    connectInitialGroupInputs find portId =
        some (updateGroupAssignment (portId + 1) group (decide (portId + 1 ≤ 32))).2 ∧
      connectInitialGroupInputs find portId ≠ some (groupInputAlias (portId + 1) group) := by
  have hagree := connectInitialGroupInputs_eq_update hfind
  refine ⟨hagree, ?_⟩
  rw [hagree]
  have hside : decide (portId + 1 ≤ 32) = decide ((portId : ℤ) + 1 ≤ 32) := by
    rw [decide_eq_decide]
    omega
  rw [hside]
  exact fun h => target_ne_groupInputAlias _ _ (Option.some.inj h)

theorem groupAlias_never_first :
    connectInitialGroupInputs (fun _ => some 1) 0 =
        some (updateGroupAssignment 1 1 true).2 ∧
      connectInitialGroupInputs (fun _ => some 1) 0 ≠ some (groupInputAlias 1 1) :=
  groupAlias_never (show (fun _ => some 1) (metaKey ((0 : ℕ) + 1)) = some 1 from rfl)

/-- The first port of group 1 is sent to the looper -1. -/
theorem first_port_alias :
    connectInitialGroupInputs (fun _ => some 1) 0 = some (lit "sooperlooper:loop-1_in_1") ∧
      ¬ ∀ (portId : ℕ) (group : ℤ) (find : Str → Option ℤ), portId < 64 → 1 ≤ group →
        find (metaKey (portId + 1)) = some group →
          connectInitialGroupInputs find portId = some (groupInputAlias (portId + 1) group) := by
  have hfirst : connectInitialGroupInputs (fun _ => some 1) 0 =
      some (lit "sooperlooper:loop-1_in_1") := by decide
  refine ⟨hfirst, fun h => ?_⟩
  have hclaimed := h 0 1 (fun _ => some 1) (by omega) (by omega) rfl
  rw [hfirst] at hclaimed
  revert hclaimed
  decide

end Pmx.ManageConnections
