import Mathlib.Data.List.Nodup
import Pmx.Library.Cxx

/-!
# Ports

An object manager looks a port up by its alias, with or without a constraint on its
direction, and returns the first one that it has.  Where no two ports have the same alias,
that is the only one (`lookupPort_eq_some_iff`).
-/

namespace Pmx

open Cxx

/-- `port.direction`. -/
inductive Direction
  | input
  | output
  deriving DecidableEq, Repr

variable {π : Type} {portDirection : π → Direction} {portAlias : π → Str}

/-- `MyObjectManager:lookup` of a port. -/
def lookupPort (portDirection : π → Direction) (portAlias : π → Str) (ports : List π)
    (direction : Option Direction) (name : Str) : Option π :=
  ports.find? fun port => portAlias port = name && direction.all (· = portDirection port)

theorem lookupPort_eq_some_iff {ports : List π} (hnodup : (ports.map portAlias).Nodup)
    {direction : Option Direction} {name : Str} {port : π} :
    lookupPort portDirection portAlias ports direction name = some port ↔
      port ∈ ports ∧ portAlias port = name ∧
        direction.all (· = portDirection port) = true := by
  constructor
  · intro h
    have hfound := List.find?_some h
    rw [Bool.and_eq_true, decide_eq_true_eq] at hfound
    exact ⟨List.mem_of_find?_eq_some h, hfound⟩
  · rintro ⟨hmem, halias, hdirection⟩
    cases hfind : lookupPort portDirection portAlias ports direction name with
    | none =>
        have hnone := List.find?_eq_none.mp hfind port hmem
        simp [halias, hdirection] at hnone
    | some found =>
        have hfound := List.find?_some hfind
        rw [Bool.and_eq_true, decide_eq_true_eq] at hfound
        rw [List.inj_on_of_nodup_map hnodup (List.mem_of_find?_eq_some hfind) hmem
          (hfound.1.trans halias.symm)]

/-- A port with a new alias leaves the aliases unique. -/
theorem nodup_append_alias {ports : List π} (hnodup : (ports.map portAlias).Nodup) {port : π}
    (hfresh : portAlias port ∉ ports.map portAlias) :
    ((ports ++ [port]).map portAlias).Nodup := by
  rw [List.map_append]
  exact hnodup.append (List.nodup_singleton _) (List.disjoint_singleton.mpr hfresh)

end Pmx
