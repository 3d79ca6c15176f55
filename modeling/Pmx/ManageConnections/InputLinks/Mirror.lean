import Pmx.ManageConnections.InputLinks

/-!
# Links into the input channels

A change that comes while a link into its input waits to be announced leaves that link in
place.  Without such a change the live links mirror the metadata (`Mirrored`), and when no
link is in flight they are all there is (`linksInto_eq_wanted`).
-/

namespace Pmx.ManageConnections

open Cxx Transition

/-! ## The invariant -/

/-- The links that stay mirror the metadata, in which every key has a number. -/
structure Mirrored (s : State) : Prop where
  aliases : (s.ports.map Port.portAlias).Nodup
  numerals : ∀ item ∈ s.metadata.entries, ∃ n : ℕ, item.1 = channelPortName n
  visible : LinkTable.Visible s.links
  links : ∀ portId, live s portId = wanted s portId

theorem visible_connectItems {s : State} (h : LinkTable.Visible s.links) (sourcePort : Port)
    (items : List ((_ : Str) × Str)) :
    LinkTable.Visible (connectItems s sourcePort items).links := by
  fun_induction connectItems s sourcePort items with
  | case1 => exact h
  | case2 => exact h
  | case3 s _ _ _ _ _ _ ih => exact ih h
  | case4 s _ _ _ _ _ _ _ ih => exact ih (LinkTable.visible_create h _ _)
  | case5 s _ _ _ ih => exact ih h

theorem visible_portAdded {s : State} (h : LinkTable.Visible s.links) (port : Port) :
    LinkTable.Visible (portAdded s port).links := by
  cases port with
  | output portAlias =>
      exact visible_connectItems (s := { s with ports := s.ports ++ [.output portAlias] }) h _ _
  | input portId =>
      simp only [portAdded, connectInitialFcInputs]
      split
      · exact h
      · split
        · exact h
        · exact LinkTable.visible_create h _ _

theorem visible_watch {s : State} (h : LinkTable.Visible s.links) (key : Str)
    (newValue : Option Str) :
    LinkTable.Visible (watchChannelPortMappingMetadata s key newValue).links := by
  unfold watchChannelPortMappingMetadata
  split
  · exact h
  · split
    · exact LinkTable.visible_destroyAt h _
    · exact LinkTable.visible_create (LinkTable.visible_destroyAt h _) _ _

theorem wanted_eq_nil {s : State} {portId : UInt32} (hport : .input portId ∉ s.ports) :
    wanted s portId = [] := by
  unfold wanted sourceOf
  split
  · exact if_neg fun h => hport h.2
  · rfl

/-- What is wanted for an input depends on its value and on two ports. -/
theorem wanted_congr {s s' : State} {portId : UInt32}
    (hmetadata : s'.metadata.lookup (channelPortName (inputNumber portId)) =
      s.metadata.lookup (channelPortName (inputNumber portId)))
    (hports : ∀ portAlias,
      s.metadata.lookup (channelPortName (inputNumber portId)) = some portAlias →
        (.output portAlias ∈ s'.ports ∧ .input portId ∈ s'.ports ↔
          .output portAlias ∈ s.ports ∧ .input portId ∈ s.ports)) :
    wanted s' portId = wanted s portId := by
  unfold wanted sourceOf
  rw [hmetadata]
  cases hvalue : s.metadata.lookup (channelPortName (inputNumber portId)) with
  | none => rfl
  | some portAlias => exact if_congr (hports portAlias hvalue) rfl rfl

/-- A new input has no links yet, and gets the one that is wanted. -/
theorem live_addInput {s : State} (h : Mirrored s) {added : UInt32}
    (hfresh : (Port.input added).portAlias ∉ s.ports.map Port.portAlias) (portId : UInt32) :
    live (portAdded s (.input added)) portId =
      wanted { s with ports := s.ports ++ [.input added] } portId := by
  refine (live_connectInitialFcInputs (nodup_append_alias h.aliases hfresh) (by simp) portId).trans
    ?_
  have hlive : live { s with ports := s.ports ++ [.input added] } portId = wanted s portId :=
    h.links portId
  rw [hlive]
  by_cases hportId : portId = added
  · subst hportId
    have hnew : .input portId ∉ s.ports := fun hmem => hfresh (List.mem_map_of_mem hmem)
    rw [if_pos rfl, wanted_eq_nil hnew, List.nil_append]
  · -- no other input is concerned
    rw [if_neg hportId, List.append_nil]
    symm
    refine wanted_congr rfl fun _ _ => ?_
    simp [hportId]

/-- A new source is linked to the inputs that have waited for it. -/
theorem live_addOutput {s : State} (h : Mirrored s) {portAlias : Str}
    (hfresh : (Port.output portAlias).portAlias ∉ s.ports.map Port.portAlias) (portId : UInt32) :
    live (portAdded s (.output portAlias)) portId =
      wanted { s with ports := s.ports ++ [.output portAlias] } portId := by
  refine (live_connectInitialPorts (s := { s with ports := s.ports ++ [.output portAlias] })
    h.numerals (nodup_append_alias h.aliases hfresh) portAlias portId).trans ?_
  have hlive : live { s with ports := s.ports ++ [.output portAlias] } portId = wanted s portId :=
    h.links portId
  have hnew : .output portAlias ∉ s.ports := fun hmem => hfresh (List.mem_map_of_mem hmem)
  rw [hlive]
  by_cases hvalue : s.metadata.lookup (channelPortName (inputNumber portId)) = some portAlias
  · simp [wanted, sourceOf, hvalue, hnew]
  · rw [if_neg fun hboth => hvalue hboth.1, List.append_nil]
    symm
    refine wanted_congr rfl fun other hother => ?_
    have hne : other ≠ portAlias := fun heq => hvalue (heq ▸ hother)
    simp [hne]

theorem mirrored_portAdded {s : State} (h : Mirrored s) {port : Port}
    (hfresh : port.portAlias ∉ s.ports.map Port.portAlias) : Mirrored (portAdded s port) := by
  obtain ⟨hports, hmetadata⟩ := frame_portAdded s port
  refine ⟨by rw [hports]; exact nodup_append_alias h.aliases hfresh,
    by rw [hmetadata]; exact h.numerals, visible_portAdded h.visible port, fun portId => ?_⟩
  have hwanted : wanted (portAdded s port) portId =
      wanted { s with ports := s.ports ++ [port] } portId :=
    wanted_congr (by rw [hmetadata]) fun _ _ => by rw [hports]
  rw [hwanted]
  cases port with
  | input added => exact live_addInput h hfresh portId
  | output portAlias => exact live_addOutput h hfresh portId

theorem numerals_setMetadata {s : State}
    (h : ∀ item ∈ s.metadata.entries, ∃ n : ℕ, item.1 = channelPortName n) (n : ℕ)
    (value : Option Str) :
    ∀ item ∈ (setMetadata s (channelPortName n) value).metadata.entries,
      ∃ m : ℕ, item.1 = channelPortName m := by
  have hold : ∀ key ∈ s.metadata, ∃ m : ℕ, key = channelPortName m := fun key hkey => by
    obtain ⟨text, hmem⟩ := List.exists_of_mem_keys hkey
    exact h _ hmem
  intro item hitem
  have hkey : item.1 ∈ (setMetadata s (channelPortName n) value).metadata :=
    List.mem_keys_of_mem hitem
  cases value with
  | none => exact hold _ (AList.mem_erase.mp hkey).2
  | some _ =>
      rcases (AList.mem_insert s.metadata).mp hkey with heq | hmem
      · exact ⟨n, heq⟩
      · exact hold _ hmem

theorem mirrored_metadataChanged {s : State} (h : Mirrored s) {n : ℕ} (value : Option Str)
    (hannounced : ∀ link ∈ s.links, Into link (decimal n) → link.announced = true) :
    Mirrored (changeMetadata s (channelPortName n) value) := by
  unfold changeMetadata
  refine ⟨by simpa using h.aliases, by simpa using numerals_setMetadata h.numerals n value,
    visible_watch (by simpa using h.visible) _ _, ?_⟩
  have hnodup : ((setMetadata s (channelPortName n) value).ports.map Port.portAlias).Nodup := by
    simpa using h.aliases
  intro portId
  by_cases hself : inputNumber portId = n ∧ .input portId ∈ s.ports
  · obtain ⟨rfl, hport⟩ := hself
    rw [live_watch_self hnodup (by simpa using hport)]
    · -- the hook has looked up what is wanted
      rw [wanted, watch_metadata, setMetadata_lookup_self, watch_ports, setMetadata_ports]
      cases value with
      | none => rfl
      | some portAlias =>
          rw [Option.bind_some, toList_lookup_output h.aliases]
          exact if_congr (and_iff_left hport).symm rfl rfl
    · intro link hmem hinput
      rw [setMetadata_links] at hmem
      exact hannounced link hmem (into_iff.mpr ⟨portId, hinput, rfl⟩)
  · rw [not_and_or] at hself
    rw [live_watch_of_ne hnodup (by simpa using hself)]
    have hlive : live (setMetadata s (channelPortName n) value) portId = live s portId := by
      rw [live, setMetadata_links]
    rw [hlive, h.links portId]
    symm
    rcases hself with hnumber | hmissing
    · refine wanted_congr ?_ (by simp)
      rw [watch_metadata]
      exact setMetadata_lookup_of_ne s (fun heq => hnumber (channelPortName_inj.mp heq)) value
    · rw [wanted_eq_nil hmissing]
      exact wanted_eq_nil (by simpa using hmissing)

theorem mirrored_act {s s' : State} {event : SessionEvent Port} (h : Mirrored s)
    (hact : Session.act Port.portAlias portAdded s event = some s') : Mirrored s' := by
  rcases Session.act_cases hact with ⟨port, -, hfresh, rfl⟩ | ⟨linkEvent, links, -, hlinks, rfl⟩
  · exact mirrored_portAdded h hfresh
  · exact ⟨h.aliases, h.numerals, LinkTable.visible_step h.visible hlinks, fun portId =>
      (LinkTable.live_step hlinks _).trans (h.links portId)⟩

theorem mirrored_changeMetadata {s : State} (h : Mirrored s) {suffix : Str} {value : Option Str}
    (hguard : announcedInTime s (.metadataChanged suffix value)) :
    Mirrored (changeMetadata s (lit "channel_port_" ++ suffix) value) := by
  have hnumeral : decimal (natOfDigits suffix) = suffix := hguard.1
  have hkey : lit "channel_port_" ++ suffix = channelPortName (natOfDigits suffix) := by
    rw [channelPortName_natCast, hnumeral]
  rw [hkey]
  refine mirrored_metadataChanged h value ?_
  rw [hnumeral]
  exact hguard.2

theorem mirrored_initial : Mirrored initial :=
  ⟨List.nodup_nil, fun _ hitem => absurd hitem List.not_mem_nil, LinkTable.visible_nil,
    fun _ => rfl⟩

theorem mirrored_of_run {labels : List Label} {s : State}
    (run : Run step announcedInTime initial labels s) : Mirrored s := by
  refine run.state_invariant mirrored_initial fun s label s' h hguard hstep => ?_
  cases label with
  | session event => exact mirrored_act h hstep
  | metadataChanged suffix value =>
      cases hstep
      exact mirrored_changeMetadata h hguard

/-- Without links in flight all links stay. -/
theorem linksInto_eq_live {s : State} (hsettled : s.Settled) (portId : UInt32) :
    linksInto s portId = live s portId :=
  LinkTable.linkedTo_eq_live hsettled _

/-! ## Links that are left over -/

theorem lookup_of_mem_wanted {s : State} {portId : UInt32} {port : Port}
    (h : port ∈ wanted s portId) : ∃ portAlias, port = .output portAlias ∧
      s.metadata.lookup (channelPortName (inputNumber portId)) = some portAlias := by
  unfold wanted sourceOf at h
  split at h
  · rename_i portAlias hlookup
    split at h
    · exact ⟨portAlias, List.mem_singleton.mp h, hlookup⟩
    · cases h
  · cases h

theorem mem_links_watch {s : State} {link : LinkTable.Link Port Port} (hmem : link ∈ s.links)
    (hunseen : link.announced = false) (key : Str) (newValue : Option Str) :
    link ∈ (watchChannelPortMappingMetadata s key newValue).links := by
  unfold watchChannelPortMappingMetadata
  split
  · exact hmem
  · split
    · exact LinkTable.mem_destroyAt_of_unseen hmem hunseen _
    · exact List.mem_append_left _ (LinkTable.mem_destroyAt_of_unseen hmem hunseen _)

/-- A change to another value leaves a link in place that it does not see. -/
theorem live_ne_wanted_of_unseen {s : State} (h : Mirrored s)
    {link : LinkTable.Link Port Port} {portId : UInt32}
    (hmem : link ∈ s.links) (hinput : link.near = .input portId)
    (hunseen : link.announced = false) {value : Option Str}
    (hchanged : value ≠ s.metadata.lookup (channelPortName (inputNumber portId))) :
    live (changeMetadata s (channelPortName (inputNumber portId)) value) portId ≠
      wanted (changeMetadata s (channelPortName (inputNumber portId)) value) portId := by
  have hstays : link.destroyRequested = false := by
    by_contra hrequested
    rw [h.visible link hmem (by simpa using hrequested)] at hunseen
    cases hunseen
  -- the link is the one that was wanted before
  have hbefore : link.far ∈ wanted s portId := by
    rw [← h.links]
    exact LinkTable.mem_live_iff.mpr ⟨link, hmem, hinput, hstays, rfl⟩
  obtain ⟨portAlias, houtput, hlookup⟩ := lookup_of_mem_wanted hbefore
  intro heq
  have hafter : link.far ∈
      live (changeMetadata s (channelPortName (inputNumber portId)) value) portId :=
    LinkTable.mem_live_iff.mpr
      ⟨link, mem_links_watch (by simpa using hmem) hunseen _ _, hinput, hstays, rfl⟩
  rw [heq] at hafter
  obtain ⟨newAlias, hnew, hvalue⟩ := lookup_of_mem_wanted hafter
  rw [changeMetadata, watch_metadata, setMetadata_lookup_self] at hvalue
  obtain rfl : portAlias = newAlias := Port.output.inj (houtput.symm.trans hnew)
  exact hchanged (hvalue.trans hlookup.symm)

/-- **Input links.**  In a run in which every change comes when the links into its
input have been announced, the links into an input are the one from the port
with the alias in the metadata, if both ports exist, whenever no link is in
flight.  A change to another value that comes before can leave an input with
other links, when all announcements and removals have come. -/
theorem linksInto_eq_wanted {labels : List Label} {s : State}
    (run : Run step announcedInTime initial labels s) :
    (s.Settled → ∀ portId, linksInto s portId = wanted s portId) ∧
      ∀ portId value,
        ¬ announcedInTime s (.metadataChanged (decimal (inputNumber portId)) value) →
        value ≠ s.metadata.lookup (channelPortName (inputNumber portId)) →
          ∃ more s', Reaches step initial
              (labels ++ .metadataChanged (decimal (inputNumber portId)) value :: more) s' ∧
            s'.Settled ∧ linksInto s' portId ≠ wanted s' portId := by
  refine ⟨fun hsettled portId =>
    (linksInto_eq_live hsettled portId).trans ((mirrored_of_run run).links portId), ?_⟩
  intro portId value hearly hchanged
  obtain ⟨link, hmem, hinput, hunseen⟩ : ∃ link ∈ s.links, link.near = .input portId ∧
      link.announced = false := by
    by_contra hnone
    push Not at hnone
    refine hearly ⟨by rw [IsNumeral, natOfDigits_decimal], fun link hmem hinto => ?_⟩
    obtain ⟨other, hother, hnumber⟩ := into_iff.mp hinto
    obtain rfl := inputNumber_injective hnumber
    simpa using hnone link hmem hother
  have hstays := live_ne_wanted_of_unseen (mirrored_of_run run) hmem hinput hunseen hchanged
  have hstep : step s (.metadataChanged (decimal (inputNumber portId)) value) =
      some (changeMetadata s (channelPortName (inputNumber portId)) value) := by
    rw [channelPortName_natCast]
    rfl
  generalize changeMetadata s (channelPortName (inputNumber portId)) value = changed at *
  obtain ⟨events, links, hevents, hsettled, hlive⟩ :=
    Session.exists_settled (fun _ _ => True) (fun _ _ => trivial) changed
  have run' := (run.mono fun _ _ _ => trivial).snoc trivial hstep
  have run'' := run'.embed (fun s => s) Label.session (fun _ _ h => h) (fun _ _ _ h => h) hevents
  rw [List.append_assoc] at run''
  refine ⟨_, _, run'', hsettled, fun heq => hstays ((hlive _).symm.trans ?_)⟩
  exact (LinkTable.linkedTo_eq_live hsettled _).symm.trans heq

/-- The second change of the first channel comes when its link has been announced. -/
theorem linksInto_eq_wanted_reassigned :
    ∃ s, wanted s 0 = [.output (lit "b:1")] ∧ linksInto s 0 = wanted s 0 := by
  have htrace : (exec (fun s a => if decide (announcedInTime s a) then step s a else none) initial
      [.session (.portAdded (.output (lit "a:1"))), .metadataChanged (lit "1") (some (lit "a:1")),
        .session (.portAdded (.input 0)), .session (.link (.announced 0)),
        .session (.portAdded (.output (lit "b:1"))),
        .metadataChanged (lit "1") (some (lit "b:1")), .session (.link (.removed 0)),
        .session (.link (.announced 0))]).map
      (fun s => decide (s.Settled ∧ wanted s 0 = [.output (lit "b:1")])) = some true := by
    decide +kernel
  obtain ⟨s, hs, hlast⟩ := Option.map_eq_some_iff.mp htrace
  obtain ⟨hsettled, hwanted⟩ := of_decide_eq_true hlast
  have run := run_of_checked (fun _ _ => of_decide_eq_true) hs
  exact ⟨s, hwanted, (linksInto_eq_wanted run).1 hsettled 0⟩

/-- Two changes in quick succession leave two links. -/
theorem quick_changes_linked_twice :
    ¬ ∀ labels s, Reaches step initial labels s → s.Settled → ∀ portId,
      linksInto s portId = wanted s portId := by
  intro h
  have htrace : (exec step initial
      [.session (.portAdded (.output (lit "a:1"))),
        .session (.portAdded (.output (lit "b:1"))), .session (.portAdded (.input 0)),
        .metadataChanged (lit "1") (some (lit "a:1")),
        .metadataChanged (lit "1") (some (lit "b:1")),
        .session (.link (.announced 0)), .session (.link (.announced 1))]).map
      (fun s => decide (s.Settled ∧ linksInto s 0 = [.output (lit "a:1"), .output (lit "b:1")] ∧
        wanted s 0 = [.output (lit "b:1")])) = some true := by
    decide +kernel
  obtain ⟨s, run, hlast⟩ := exists_of_exec htrace
  obtain ⟨hsettled, hlinks, hwanted⟩ := of_decide_eq_true hlast
  have hclaimed := h _ s run hsettled 0
  rw [hlinks, hwanted] at hclaimed
  cases hclaimed

end Pmx.ManageConnections
