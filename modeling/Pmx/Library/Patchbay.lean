import Mathlib.Data.List.Induction
import Mathlib.Data.List.Infix
import Mathlib.Data.List.Perm.Basic
import Mathlib.Data.List.ProdSigma

/-!
# Patch bays

A patch bay links source ports to target ports as they come.  It has a table for
each of the two, and a new port goes into its table, either behind the ports that
are there or in their place.  Then every source is linked to every target once
more.

Two ports are linked exactly when they were in the tables at one time
(`mem_links`); what is in the tables now therefore is linked, in whatever order
the ports came.  A script with two bays and one list of links keeps up with both
when each of its hooks does (`bays_runHooks`, `bays_foldl`).
-/

namespace Patchbay

variable {π : Type*}

/-- Which ports go into which table, and whether a table keeps the ports before
the last one.  No port goes into both tables. -/
structure Rule (π : Type*) where
  isSource : π → Bool
  isTarget : π → Bool
  keepsSources : Bool
  keepsTargets : Bool
  disjoint : ∀ port, isSource port = true → isTarget port = false

/-- The tables and the links, source first. -/
structure Bay (π : Type*) where
  sources : List π
  targets : List π
  links : List (π × π)

/-- No port has come. -/
def empty : Bay π :=
  ⟨[], [], []⟩

/-- The table with a new port, which replaces what is there unless all are kept. -/
def enter (keeps : Bool) (table : List π) (port : π) : List π :=
  if keeps then table ++ [port] else [port]

/-- Every source is linked to every target. -/
def Bay.relink (b : Bay π) : Bay π :=
  { b with links := b.links ++ b.sources.product b.targets }

/-- A new source is entered, and everything linked again. -/
def sourceAdded (rule : Rule π) (b : Bay π) (port : π) : Bay π :=
  Bay.relink { b with sources := enter rule.keepsSources b.sources port }

/-- A new target is entered, and everything linked again. -/
def targetAdded (rule : Rule π) (b : Bay π) (port : π) : Bay π :=
  Bay.relink { b with targets := enter rule.keepsTargets b.targets port }

/-- A port that is both is taken as a source. -/
def portAdded (rule : Rule π) (b : Bay π) (port : π) : Bay π :=
  if rule.isSource port then sourceAdded rule b port
  else if rule.isTarget port then targetAdded rule b port
  else b

/-- The bay after some ports have come. -/
def run (rule : Rule π) (ports : List π) : Bay π :=
  ports.foldl (portAdded rule) empty

/-- A port came when a condition on what had come before held. -/
def AtArrival (p : List π → π → Prop) (ports : List π) (port : π) : Prop :=
  ∃ earlier later, ports = earlier ++ port :: later ∧ p earlier port

/-- The port that came last of those that belong to a table. -/
def lastOf (belongs : π → Bool) (ports : List π) : Option π :=
  (ports.filter belongs).getLast?

/-- What is in a table after some ports have come. -/
def table (keeps : Bool) (belongs : π → Bool) (ports : List π) : List π :=
  if keeps then ports.filter belongs else (lastOf belongs ports).toList

/-- The table of sources after ports have come. -/
def Rule.sources (rule : Rule π) : List π → List π :=
  table rule.keepsSources rule.isSource

/-- The table of targets after ports have come. -/
def Rule.targets (rule : Rule π) : List π → List π :=
  table rule.keepsTargets rule.isTarget

/-! ## The tables -/

theorem table_append_singleton (keeps : Bool) (belongs : π → Bool) (ports : List π) (port : π) :
    table keeps belongs (ports ++ [port]) =
      if belongs port then enter keeps (table keeps belongs ports) port
      else table keeps belongs ports := by
  unfold table enter lastOf
  rw [List.filter_append]
  by_cases hport : belongs port = true
  · cases keeps <;> simp [hport]
  · simp [hport]

theorem mem_of_mem_table {keeps : Bool} {belongs : π → Bool} {ports : List π} {port : π}
    (h : port ∈ table keeps belongs ports) : port ∈ ports ∧ belongs port = true := by
  apply List.mem_filter.mp
  unfold table at h
  split_ifs at h
  · exact h
  · exact List.mem_of_getLast? (Option.mem_toList.mp h)

theorem atArrival_concat {p : List π → π → Prop} {ports : List π} {last port : π} :
    AtArrival p (ports ++ [last]) port ↔ AtArrival p ports port ∨ port = last ∧ p ports last := by
  constructor
  · rintro ⟨earlier, later, hports, hp⟩
    rcases List.eq_nil_or_concat later with rfl | ⟨later, other, rfl⟩
    · obtain ⟨rfl, hsame⟩ := List.append_inj' hports rfl
      obtain rfl := List.singleton_inj.mp hsame
      exact Or.inr ⟨rfl, hp⟩
    · rw [List.concat_eq_append, ← List.cons_append, ← List.append_assoc] at hports
      obtain ⟨rfl, _⟩ := List.append_inj' hports rfl
      exact Or.inl ⟨earlier, later, rfl, hp⟩
  · rintro (⟨earlier, later, rfl, hp⟩ | ⟨rfl, hp⟩)
    · exact ⟨earlier, later ++ [last], by simp, hp⟩
    · exact ⟨ports, [], rfl, hp⟩

theorem lastOf_eq_none {belongs : π → Bool} {ports : List π} :
    lastOf belongs ports = none ↔ ∀ port ∈ ports, belongs port = false := by
  simp [lastOf]

theorem of_lastOf {belongs : π → Bool} {ports : List π} {port : π}
    (h : lastOf belongs ports = some port) : port ∈ ports ∧ belongs port = true :=
  List.mem_filter.mp (List.mem_of_getLast? h)

theorem sources_last {rule : Rule π} (hlast : rule.keepsSources = false) (ports : List π) :
    rule.sources ports = (lastOf rule.isSource ports).toList := by
  rw [Rule.sources, hlast]
  rfl

theorem mem_sources_last {rule : Rule π} (hlast : rule.keepsSources = false) {ports : List π}
    {port : π} : port ∈ rule.sources ports ↔ lastOf rule.isSource ports = some port := by
  rw [sources_last hlast, Option.mem_toList]

theorem mem_targets_last {rule : Rule π} (hlast : rule.keepsTargets = false) {ports : List π}
    {port : π} : port ∈ rule.targets ports ↔ lastOf rule.isTarget ports = some port := by
  rw [Rule.targets, hlast]
  exact Option.mem_toList

theorem mem_table_keeps {belongs : π → Bool} {ports : List π} {port : π} :
    port ∈ table true belongs ports ↔ port ∈ ports ∧ belongs port = true := by
  rw [table, if_pos rfl, List.mem_filter]

theorem mem_targets_keeps {rule : Rule π} (hkeeps : rule.keepsTargets = true) {ports : List π}
    {port : π} : port ∈ rule.targets ports ↔ port ∈ ports ∧ rule.isTarget port = true := by
  rw [Rule.targets, hkeeps]
  exact mem_table_keeps

/-! ## One port -/

theorem run_append_singleton (rule : Rule π) (ports : List π) (port : π) :
    run rule (ports ++ [port]) = portAdded rule (run rule ports) port := by
  simp [run]

theorem portAdded_source {rule : Rule π} {port : π} (hsource : rule.isSource port = true)
    (b : Bay π) : portAdded rule b port = sourceAdded rule b port :=
  if_pos hsource

theorem portAdded_target {rule : Rule π} {port : π} (htarget : rule.isTarget port = true)
    (b : Bay π) : portAdded rule b port = targetAdded rule b port := by
  have hsource : ¬ rule.isSource port = true := by
    intro hsource
    rw [rule.disjoint port hsource] at htarget
    cases htarget
  rw [portAdded, if_neg hsource, if_pos htarget]

theorem portAdded_other {rule : Rule π} {port : π} (hsource : rule.isSource port = false)
    (htarget : rule.isTarget port = false) (b : Bay π) : portAdded rule b port = b := by
  simp [portAdded, hsource, htarget]

theorem sources_portAdded (rule : Rule π) (b : Bay π) (port : π) :
    (portAdded rule b port).sources =
      if rule.isSource port then enter rule.keepsSources b.sources port else b.sources := by
  unfold portAdded
  split_ifs <;> rfl

theorem targets_portAdded (rule : Rule π) (b : Bay π) (port : π) :
    (portAdded rule b port).targets =
      if rule.isTarget port then enter rule.keepsTargets b.targets port else b.targets := by
  unfold portAdded
  split_ifs with hsource htarget htarget
  · rw [rule.disjoint port hsource] at htarget
    cases htarget
  · rfl
  · rfl
  · rfl

/-- A port that goes into a table links all pairs of the new tables. -/
theorem links_portAdded {rule : Rule π} {port : π}
    (hport : rule.isSource port = true ∨ rule.isTarget port = true) (b : Bay π) :
    (portAdded rule b port).links = b.links ++
      (portAdded rule b port).sources.product (portAdded rule b port).targets := by
  unfold portAdded
  split_ifs with hsource htarget
  · rfl
  · rfl
  · exact absurd hport (by simp [hsource, htarget])

/-- The two tables one after the other. -/
theorem portAdded_eq (rule : Rule π) (b : Bay π) (port : π) :
    portAdded rule b port =
      if rule.isTarget port then
        targetAdded rule (if rule.isSource port then sourceAdded rule b port else b) port
      else if rule.isSource port then sourceAdded rule b port else b := by
  by_cases htarget : rule.isTarget port = true
  · have hsource : ¬ rule.isSource port = true := by
      intro hsource
      rw [rule.disjoint port hsource] at htarget
      cases htarget
    rw [portAdded_target htarget, if_pos htarget, if_neg hsource]
  · rw [if_neg htarget, portAdded, if_neg htarget]

/-! ## All ports -/

theorem sources_run (rule : Rule π) (ports : List π) :
    (run rule ports).sources = rule.sources ports := by
  induction ports using List.reverseRecOn with
  | nil => simp [run, empty, Rule.sources, table, lastOf]
  | append_singleton ports port ih =>
      rw [run_append_singleton, sources_portAdded, ih, Rule.sources, table_append_singleton]

theorem targets_run (rule : Rule π) (ports : List π) :
    (run rule ports).targets = rule.targets ports := by
  induction ports using List.reverseRecOn with
  | nil => simp [run, empty, Rule.targets, table, lastOf]
  | append_singleton ports port ih =>
      rw [run_append_singleton, targets_portAdded, ih, Rule.targets, table_append_singleton]

/-- Two ports are linked exactly when they were in the tables at one time. -/
theorem mem_links {rule : Rule π} {ports : List π} {source target : π} :
    (source, target) ∈ (run rule ports).links ↔
      ∃ arrived, arrived <+: ports ∧ source ∈ rule.sources arrived ∧
        target ∈ rule.targets arrived := by
  induction ports using List.reverseRecOn with
  | nil =>
      constructor
      · exact fun h => absurd h List.not_mem_nil
      · rintro ⟨arrived, harrived, hsource, _⟩
        rw [List.prefix_nil.mp harrived] at hsource
        exact absurd (mem_of_mem_table hsource).1 List.not_mem_nil
  | append_singleton ports port ih =>
      by_cases hport : rule.isSource port = true ∨ rule.isTarget port = true
      · rw [run_append_singleton, links_portAdded hport, List.mem_append, ih,
          List.pair_mem_product, ← run_append_singleton, sources_run, targets_run]
        constructor
        · rintro (⟨arrived, harrived, hmem⟩ | hmem)
          · exact ⟨arrived, harrived.trans (List.prefix_append _ _), hmem⟩
          · exact ⟨_, List.prefix_rfl, hmem⟩
        · rintro ⟨arrived, harrived, hmem⟩
          rcases List.prefix_concat_iff.mp harrived with rfl | harrived
          · exact Or.inr hmem
          · exact Or.inl ⟨arrived, harrived, hmem⟩
      · -- a port of neither table changes nothing
        obtain ⟨hsource, htarget⟩ := not_or.mp hport
        have hsame : rule.sources (ports ++ [port]) = rule.sources ports ∧
            rule.targets (ports ++ [port]) = rule.targets ports :=
          ⟨(table_append_singleton ..).trans (if_neg hsource),
            (table_append_singleton ..).trans (if_neg htarget)⟩
        rw [run_append_singleton, portAdded_other (Bool.eq_false_iff.mpr hsource)
          (Bool.eq_false_iff.mpr htarget), ih]
        constructor
        · rintro ⟨arrived, harrived, hmem⟩
          exact ⟨arrived, harrived.trans (List.prefix_append _ _), hmem⟩
        · rintro ⟨arrived, harrived, hmem⟩
          rcases List.prefix_concat_iff.mp harrived with rfl | harrived
          · exact ⟨ports, List.prefix_rfl, hsame.1 ▸ hmem.1, hsame.2 ▸ hmem.2⟩
          · exact ⟨arrived, harrived, hmem⟩

/-- With tables that keep their ports, every source that came is linked to every
target that came. -/
theorem mem_links_keeps {rule : Rule π} (hsources : rule.keepsSources = true)
    (htargets : rule.keepsTargets = true) {ports : List π} {source target : π} :
    (source, target) ∈ (run rule ports).links ↔
      (source ∈ ports ∧ rule.isSource source = true) ∧
        target ∈ ports ∧ rule.isTarget target = true := by
  rw [mem_links]
  constructor
  · rintro ⟨arrived, harrived, hsource, htarget⟩
    obtain ⟨hsourceMem, hsource⟩ := mem_of_mem_table hsource
    obtain ⟨htargetMem, htarget⟩ := mem_of_mem_table htarget
    exact ⟨⟨harrived.subset hsourceMem, hsource⟩, harrived.subset htargetMem, htarget⟩
  · rintro ⟨hsource, htarget⟩
    refine ⟨ports, List.prefix_rfl, ?_, ?_⟩
    · rw [Rule.sources, hsources]
      exact mem_table_keeps.mpr hsource
    · rw [Rule.targets, htargets]
      exact mem_table_keeps.mpr htarget

/-! ## Two bays with one list of links -/

/-- Four tables and a list of links are those of two bays, with the links in any
order. -/
structure Pair (sources targets sources' targets' : List π) (links : List (π × π))
    (first second : Bay π) : Prop where
  sources : sources = first.sources
  targets : targets = first.targets
  sources' : sources' = second.sources
  targets' : targets' = second.targets
  links : links.Perm (first.links ++ second.links)

namespace Pair

theorem empty : Pair [] [] [] [] [] (Patchbay.empty : Bay π) Patchbay.empty :=
  ⟨rfl, rfl, rfl, rfl, List.Perm.refl _⟩

variable {sources targets sources' targets' : List π} {links added : List (π × π)}
  {first second : Bay π} (h : Pair sources targets sources' targets' links first second)
  (rule : Rule π) (port : π)

include h

theorem mem_links {link : π × π} : link ∈ links ↔ link ∈ first.links ∨ link ∈ second.links :=
  h.links.mem_iff.trans List.mem_append

theorem relink_first (added : List (π × π)) :
    (links ++ added).Perm (first.links ++ added ++ second.links) := by
  refine (h.links.append_right added).trans ?_
  rw [List.append_assoc, List.append_assoc]
  exact List.perm_append_comm.append_left _

theorem relink_second {added' : List (π × π)} (hadded : added.Perm added') :
    (links ++ added).Perm (first.links ++ (second.links ++ added')) := by
  rw [← List.append_assoc]
  exact h.links.append hadded

theorem sourceAdded_first
    (hadded : added = (enter rule.keepsSources sources port).product targets) :
    Pair (enter rule.keepsSources sources port) targets sources' targets' (links ++ added)
      (sourceAdded rule first port) second := by
  have hlinks := h.relink_first added
  obtain ⟨rfl, rfl, rfl, rfl, _⟩ := h
  subst hadded
  exact ⟨rfl, rfl, rfl, rfl, hlinks⟩

theorem targetAdded_first
    (hadded : added = sources.product (enter rule.keepsTargets targets port)) :
    Pair sources (enter rule.keepsTargets targets port) sources' targets' (links ++ added)
      (targetAdded rule first port) second := by
  have hlinks := h.relink_first added
  obtain ⟨rfl, rfl, rfl, rfl, _⟩ := h
  subst hadded
  exact ⟨rfl, rfl, rfl, rfl, hlinks⟩

theorem sourceAdded_second
    (hadded : added.Perm ((enter rule.keepsSources sources' port).product targets')) :
    Pair sources targets (enter rule.keepsSources sources' port) targets' (links ++ added)
      first (sourceAdded rule second port) := by
  have hlinks := h.relink_second hadded
  obtain ⟨rfl, rfl, rfl, rfl, _⟩ := h
  exact ⟨rfl, rfl, rfl, rfl, hlinks⟩

theorem targetAdded_second
    (hadded : added.Perm (sources'.product (enter rule.keepsTargets targets' port))) :
    Pair sources targets sources' (enter rule.keepsTargets targets' port) (links ++ added)
      first (targetAdded rule second port) := by
  have hlinks := h.relink_second hadded
  obtain ⟨rfl, rfl, rfl, rfl, _⟩ := h
  exact ⟨rfl, rfl, rfl, rfl, hlinks⟩

end Pair

/-! ## Four hooks -/

section Hooks

/-- What keeps up with two bays at every port does so over a run. -/
theorem bays_foldl {σ : Type*} {rule rule' : Rule π} (bays : σ → Bay π → Bay π → Prop)
    {step : σ → π → σ} {start : σ} (hstart : bays start empty empty)
    (hstep : ∀ s first second port, bays s first second →
      bays (step s port) (portAdded rule first port) (portAdded rule' second port))
    (ports : List π) : bays (ports.foldl step start) (run rule ports) (run rule' ports) := by
  induction ports using List.reverseRecOn with
  | nil => exact hstart
  | append_singleton ports port ih =>
      rw [List.foldl_append, run_append_singleton, run_append_singleton]
      exact hstep _ _ _ port ih

variable {σ : Type*} (rule rule' : Rule π) (source source' target target' : σ → π → σ)

/-- A hook for each table of two bays; those with an interest in the port run one
after the other. -/
def runHooks (s : σ) (port : π) : σ :=
  let s := if rule.isSource port then source s port else s
  let s := if rule'.isSource port then source' s port else s
  let s := if rule.isTarget port then target s port else s
  if rule'.isTarget port then target' s port else s

variable {rule rule' source source' target target'} {bays : σ → Bay π → Bay π → Prop}

theorem bays_ite {s s' : σ} {first first' second second' : Bay π} (h : bays s first second)
    (h' : bays s' first' second') (runs : Bool) :
    bays (if runs then s' else s) (if runs then first' else first)
      (if runs then second' else second) := by
  cases runs
  · exact h
  · exact h'

/-- Hooks that keep up with their bays one at a time keep up with both bays. -/
theorem bays_runHooks {port : π}
    (hsource : ∀ s first second, bays s first second →
      bays (source s port) (sourceAdded rule first port) second)
    (hsource' : ∀ s first second, bays s first second →
      bays (source' s port) first (sourceAdded rule' second port))
    (htarget : ∀ s first second, bays s first second →
      bays (target s port) (targetAdded rule first port) second)
    (htarget' : ∀ s first second, bays s first second →
      bays (target' s port) first (targetAdded rule' second port))
    {s : σ} {first second : Bay π} (h : bays s first second) :
    bays (runHooks rule rule' source source' target target' s port) (portAdded rule first port)
      (portAdded rule' second port) := by
  rw [portAdded_eq rule, portAdded_eq rule']
  have hfirst := bays_ite h (hsource _ _ _ h) (rule.isSource port)
  rw [ite_self] at hfirst
  have hsecond := bays_ite hfirst (hsource' _ _ _ hfirst) (rule'.isSource port)
  rw [ite_self] at hsecond
  have hthird := bays_ite hsecond (htarget _ _ _ hsecond) (rule.isTarget port)
  rw [ite_self] at hthird
  have hfourth := bays_ite hthird (htarget' _ _ _ hthird) (rule'.isTarget port)
  rw [ite_self] at hfourth
  exact hfourth

end Hooks

/-- The order of the two loops over the tables. -/
theorem product_perm (sources targets : List π) :
    (targets.flatMap fun target => sources.map fun source => (source, target)).Perm
      (sources.product targets) := by
  induction targets with
  | nil => simp [List.product]
  | cons target rest ih =>
      rw [List.flatMap_cons]
      refine (ih.append_left _).trans ?_
      exact List.map_append_flatMap_perm sources (fun source => (source, target)) fun source =>
        rest.map (Prod.mk source)

end Patchbay
