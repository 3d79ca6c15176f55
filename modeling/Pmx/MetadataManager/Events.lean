import Pmx.MetadataManager

/-!
# Events with any key and any value

Other processes choose the keys and values of the store.  An event is well
formed when its key is that of a channel, and for a group when its value is a
number of a byte.  The writer ought to ignore every other event.

It does not: a key with a known prefix is read as a number, so that the writer
raises, leaves its arrays, or changes a channel that the key does not name.
`Tolerated` lists the events that do no harm, by what the config holds when they
come.
-/

namespace Pmx.MetadataManager

open Cxx

/-- A decimal number in 0..255. -/
def IsByte (value : Str) : Prop :=
  value ≠ [] ∧ (∀ c ∈ value, isDigit c = true) ∧ natOfDigits value ≤ 255

instance : DecidablePred IsByte :=
  fun _ => inferInstanceAs (Decidable (_ ∧ _ ∧ _))

/-- The key is that of a channel, and a group is written as a byte. -/
def WellFormed : MetadataEvent → Prop
  | .update _ key _ value => ∃ i, key = portKey i ∨ (key = groupKey i ∧ IsByte value)
  | .deletion _ key => ∃ i, key = portKey i ∨ key = groupKey i

/-- From some config on, no event raises or leaves an array, and none that is
not well formed changes anything. -/
def Harmless (config : Config) : List MetadataEvent → Prop
  | [] => True
  | event :: rest => ∃ next changed, applyEvent config event = .ok (next, changed) ∧
      (¬ WellFormed event → next = config) ∧ Harmless next rest

/-- The suffix is a number of a channel, and spelled as in the key of the
channel unless the channel already has what is written to it. -/
def PortTolerated (config : Config) (port : Option Str) (suffix : Str) : Prop :=
  ∃ i : Fin 32, stoi suffix = .ok (i.val + 1 : ℤ) ∧
    (suffix = decimal (i.val + 1) ∨ config.inputChannels.get i = port)

/-- Both numbers are read, and the suffix is one of a channel; both are spelled as they should
be, unless the channel already has the group that is written. -/
def GroupTolerated (config : Config) (value suffix : Str) : Prop :=
  ∃ (i : Fin 32) (number : ℤ), stoi suffix = .ok (i.val + 1 : ℤ) ∧ stoi value = .ok number ∧
    ((suffix = decimal (i.val + 1) ∧ IsByte value) ∨
      config.inputChannelGroups.get i = UInt8.ofInt number)

/-- An event that does no harm to a config. -/
def EventTolerated (config : Config) : MetadataEvent → Prop
  | .update _ key _ value =>
      (∀ suffix, key = channelPortPrefix ++ suffix → PortTolerated config (some value) suffix) ∧
        ∀ suffix, key = channelGroupPrefix ++ suffix → GroupTolerated config value suffix
  | .deletion _ key =>
      ∀ suffix, key = channelPortPrefix ++ suffix → PortTolerated config none suffix

/-- Every event is one that does no harm to the config it comes to. -/
def Tolerated (config : Config) : List MetadataEvent → Prop
  | [] => True
  | event :: rest => EventTolerated config event ∧
      ∀ next changed, applyEvent config event = .ok (next, changed) → Tolerated next rest

/-! ## Keys -/

theorem slot_of_stoi {suffix : Str} {i : Fin 32} :
    (stoi suffix >>= slot) = .ok i ↔ stoi suffix = .ok (i.val + 1 : ℤ) := by
  cases hstoi : stoi suffix with
  | error fault => simp [bind, Except.bind]
  | ok channelId =>
      show slot channelId = .ok i ↔ _
      rw [slot_eq_ok, Except.ok.injEq]

/-- A suffix that is read as the number of a channel is that of its key only if
it is spelled that way. -/
theorem exists_key_iff {keyPrefix suffix : Str} {i : Fin 32}
    (hstoi : stoi suffix = .ok (i.val + 1 : ℤ)) :
    (∃ j : Fin 32, keyPrefix ++ suffix = keyPrefix ++ decimal (j.val + 1)) ↔
      suffix = decimal (i.val + 1) := by
  constructor
  · rintro ⟨j, hkey⟩
    have hsuffix : suffix = decimal (j.val + 1) := List.append_cancel_left hkey
    have hsame : (j.val + 1 : ℤ) = i.val + 1 := by
      have hj := stoi_slot j
      rw [← hsuffix, hstoi, Except.ok.injEq] at hj
      exact hj.symm
    have hval : j.val = i.val := by omega
    rw [hsuffix, hval]
  · rintro rfl
    exact ⟨i, rfl⟩

/-- No event with a port key is well formed by its group key. -/
theorem portKey_iff (suffix : Str) (P : Prop) :
    (∃ i, channelPortPrefix ++ suffix = portKey i ∨
        (channelPortPrefix ++ suffix = groupKey i ∧ P)) ↔
      ∃ i, channelPortPrefix ++ suffix = portKey i := by
  refine exists_congr fun i => ?_
  constructor
  · rintro (h | ⟨h, _⟩)
    · exact h
    · exact absurd h (port_ne_group _ _)
  · exact Or.inl

theorem groupKey_iff (suffix : Str) (P : Prop) :
    (∃ i, channelGroupPrefix ++ suffix = portKey i ∨
        (channelGroupPrefix ++ suffix = groupKey i ∧ P)) ↔
      (∃ i, channelGroupPrefix ++ suffix = groupKey i) ∧ P := by
  rw [← exists_and_right]
  refine exists_congr fun i => ?_
  constructor
  · rintro (h | h)
    · exact absurd h.symm (port_ne_group _ _)
    · exact h
  · exact Or.inr

/-! ## One event -/

/-- An event that does not raise, and is harmless if it is not well formed. -/
def HarmlessEvent (wellFormed : Prop) (config : Config) (result : Except Fault (Config × Bool)) :
    Prop :=
  ∃ next changed, result = .ok (next, changed) ∧ (¬ wellFormed → next = config)

theorem harmless_port_iff (config : Config) (port : Option Str) (suffix : Str)
    (changed : Fin 32 → Bool) :
    HarmlessEvent (∃ i, channelPortPrefix ++ suffix = portKey i) config
        ((stoi suffix >>= slot).map fun i => (config.setPort i port, changed i)) ↔
      PortTolerated config port suffix := by
  constructor
  · rintro ⟨next, flag, hresult, hkept⟩
    cases hslot : stoi suffix >>= slot with
    | error fault => simp [hslot, Except.map] at hresult
    | ok i =>
        simp only [hslot, Except.map, Except.ok.injEq, Prod.mk.injEq] at hresult
        have hstoi := slot_of_stoi.mp hslot
        refine ⟨i, hstoi, ?_⟩
        -- a key spelled otherwise is not that of a channel, so the slot must stay
        rw [or_iff_not_imp_left, ← setPort_eq_self_iff, hresult.1]
        intro hspelled
        exact hkept fun hkey => hspelled ((exists_key_iff hstoi).mp hkey)
  · rintro ⟨i, hstoi, hsafe⟩
    rw [slot_of_stoi.mpr hstoi]
    refine ⟨_, _, rfl, ?_⟩
    intro hkey
    rcases hsafe with hspelled | hport
    · exact absurd ((exists_key_iff hstoi).mpr hspelled) hkey
    · exact setPort_eq_self_iff.mpr hport

theorem harmless_group_iff (config : Config) (subject : ℕ) (type value suffix : Str) :
    HarmlessEvent ((∃ i, channelGroupPrefix ++ suffix = groupKey i) ∧ IsByte value) config
        (applyEvent config (.update subject (channelGroupPrefix ++ suffix) type value)) ↔
      GroupTolerated config value suffix := by
  rw [applyEvent_update_group]
  cases hstoi : stoi suffix with
  -- no number in the key, or none in the value: an exception
  | error fault => simp [HarmlessEvent, GroupTolerated, hstoi, bind, Except.bind]
  | ok channelId =>
      cases hvalue : stoi value with
      | error fault => simp [HarmlessEvent, GroupTolerated, hvalue, bind, Except.bind]
      | ok number =>
          cases hslot : slot channelId with
          | error fault =>
              -- the number is read, but it is not one of a slot
              have hnone : ∀ i : Fin 32, channelId ≠ i.val + 1 := by
                intro i hi
                rw [slot_eq_ok.mpr hi] at hslot
                cases hslot
              simp [HarmlessEvent, GroupTolerated, hstoi, hslot, bind, Except.bind, hnone]
          | ok i =>
              have hnumber : stoi suffix = .ok (i.val + 1 : ℤ) := by
                rw [hstoi, slot_eq_ok.mp hslot]
              constructor
              · rintro ⟨next, flag, hresult, hkept⟩
                simp only [bind, Except.bind, pure, Except.pure, hslot, Except.ok.injEq,
                  Prod.mk.injEq] at hresult
                refine ⟨i, number, hnumber, hvalue, ?_⟩
                rw [or_iff_not_imp_left, ← setGroup_eq_self_iff, hresult.1]
                rintro hspelled
                refine hkept fun ⟨hkey, hbyte⟩ => hspelled ⟨?_, hbyte⟩
                exact (exists_key_iff hnumber).mp hkey
              · rintro ⟨j, number', hj, hvalue', hsafe⟩
                have hij : i = j := by
                  rw [hnumber, Except.ok.injEq] at hj
                  exact Fin.ext (by omega)
                rw [hvalue, Except.ok.injEq] at hvalue'
                subst hij hvalue'
                refine ⟨config.setGroup i (UInt8.ofInt number), true, ?_, ?_⟩
                · simp only [bind, Except.bind, pure, Except.pure, hslot]
                · intro hill
                  rcases hsafe with ⟨hspelled, hbyte⟩ | hgroup
                  · exact absurd ⟨(exists_key_iff hnumber).mpr hspelled, hbyte⟩ hill
                  · exact setGroup_eq_self_iff.mpr hgroup

theorem harmless_update_iff (config : Config) (subject : ℕ) (key type value : Str) :
    HarmlessEvent (WellFormed (.update subject key type value)) config
        (applyEvent config (.update subject key type value)) ↔
      EventTolerated config (.update subject key type value) := by
  by_cases hport : startsWith key channelPortPrefix = true
  · obtain ⟨suffix, rfl⟩ := startsWith_iff.mp hport
    rw [applyEvent_update_port, WellFormed, portKey_iff, harmless_port_iff]
    constructor
    · intro htolerated
      refine ⟨fun rest hrest => ?_, fun rest hrest => absurd hrest (port_ne_group _ _)⟩
      rwa [← List.append_cancel_left hrest]
    · intro htolerated
      exact htolerated.1 suffix rfl
  · by_cases hgroup : startsWith key channelGroupPrefix = true
    · obtain ⟨suffix, rfl⟩ := startsWith_iff.mp hgroup
      rw [WellFormed, groupKey_iff, harmless_group_iff]
      constructor
      · intro htolerated
        refine ⟨fun rest hrest => absurd hrest.symm (port_ne_group _ _), fun rest hrest => ?_⟩
        rwa [← List.append_cancel_left hrest]
      · intro htolerated
        exact htolerated.2 suffix rfl
    · -- an event with neither prefix is ignored
      have hignored : applyEvent config (.update subject key type value) = .ok (config, false) := by
        rw [applyEvent, if_neg hport, if_neg hgroup]
        rfl
      rw [hignored]
      refine iff_of_true ⟨config, false, rfl, fun _ => rfl⟩ ⟨?_, ?_⟩
      · intro suffix hkey
        exact absurd (startsWith_iff.mpr ⟨suffix, hkey⟩) hport
      · intro suffix hkey
        exact absurd (startsWith_iff.mpr ⟨suffix, hkey⟩) hgroup

theorem harmless_deletion_iff (config : Config) (subject : ℕ) (key : Str) :
    HarmlessEvent (WellFormed (.deletion subject key)) config
        (applyEvent config (.deletion subject key)) ↔
      EventTolerated config (.deletion subject key) := by
  by_cases hport : startsWith key channelPortPrefix = true
  · obtain ⟨suffix, rfl⟩ := startsWith_iff.mp hport
    have hkeys := portKey_iff suffix True
    simp only [and_true] at hkeys
    rw [applyEvent_delete_port, WellFormed, hkeys, harmless_port_iff]
    constructor
    · intro htolerated rest hrest
      rwa [← List.append_cancel_left hrest]
    · intro htolerated
      exact htolerated suffix rfl
  · have hignored : applyEvent config (.deletion subject key) = .ok (config, false) := by
      rw [applyEvent, if_neg hport]
      rfl
    rw [hignored]
    refine iff_of_true ⟨config, false, rfl, fun _ => rfl⟩ ?_
    intro suffix hkey
    exact absurd (startsWith_iff.mpr ⟨suffix, hkey⟩) hport

/-- **One event** does no harm exactly if it is tolerated. -/
theorem harmless_event_iff (config : Config) (event : MetadataEvent) :
    HarmlessEvent (WellFormed event) config (applyEvent config event) ↔
      EventTolerated config event := by
  cases event with
  | update subject key type value => exact harmless_update_iff config subject key type value
  | deletion subject key => exact harmless_deletion_iff config subject key

theorem harmless_iff (config : Config) (events : List MetadataEvent) :
    Harmless config events ↔ Tolerated config events := by
  induction events generalizing config with
  | nil => exact Iff.rfl
  | cons event rest ih =>
      rw [Harmless, Tolerated, ← harmless_event_iff]
      constructor
      · rintro ⟨next, changed, hresult, hkept, hrest⟩
        refine ⟨⟨next, changed, hresult, hkept⟩, ?_⟩
        intro next' changed' hresult'
        rw [hresult, Except.ok.injEq, Prod.mk.injEq] at hresult'
        rw [← hresult'.1]
        exact (ih next).mp hrest
      · rintro ⟨⟨next, changed, hresult, hkept⟩, hrest⟩
        exact ⟨next, changed, hresult, hkept, (ih next).mpr (hrest next changed hresult)⟩

/-- Harmless events go through as one batch. -/
theorem applyBatch_of_harmless {config : Config} {events : List MetadataEvent}
    (hharmless : Harmless config events) : ∃ result, applyBatch config events = .ok result := by
  induction events generalizing config with
  | nil => exact ⟨(config, false), rfl⟩
  | cons event rest ih =>
      obtain ⟨next, changed, hevent, _, hrest⟩ := hharmless
      obtain ⟨result, hresult⟩ := ih hrest
      refine ⟨(result.1, changed || result.2), ?_⟩
      rw [applyBatch_cons, hevent]
      show (applyBatch next rest >>= fun r => pure (r.1, changed || r.2)) = _
      rw [hresult]
      rfl

/-- **Any sequence of events** goes through without harm exactly if all of them
are tolerated by the config they come to. -/
theorem batch_harmless_iff (config : Config) (events : List MetadataEvent) :
    ((∃ result, applyBatch config events = .ok result) ∧ Harmless config events) ↔
      Tolerated config events := by
  rw [← harmless_iff]
  constructor
  · exact And.right
  · intro hharmless
    exact ⟨applyBatch_of_harmless hharmless, hharmless⟩

/-- What a client sets up as the port of a channel 33. -/
def channelBeyondEvent : MetadataEvent :=
  .update 0 (lit "channel_port_33") (lit "Spa:String:JSON") (lit "capture_1")

/-- The writer leaves the array. -/
theorem channel_beyond_out_of_bounds :
    ¬ ((∃ result, applyBatch defaultConfig [channelBeyondEvent] = .ok result) ∧
      Harmless defaultConfig [channelBeyondEvent]) := by
  rintro ⟨_, next, changed, hresult, _⟩
  have hfault : applyEvent defaultConfig channelBeyondEvent = .error .indexOutOfBounds := by rfl
  rw [hfault] at hresult
  cases hresult

end Pmx.MetadataManager
