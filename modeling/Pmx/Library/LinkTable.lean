import Mathlib.Algebra.Ring.Nat
import Pmx.Library.Transition

/-!
# Links that come and go

A link is there as soon as somebody has asked for it, but can be seen only from its
announcement on.  To destroy it is a request too, after which it stays until it is
removed.  Only a link that can be seen is asked to go.

A link is looked up by one of its ends, the near one.

The links that have not been asked to go are the *live* ones.  Announcements and
removals leave them alone (`live_step`), and when none is due the live links are all
that there is (`linkedTo_eq_live`); this can always be reached (`exists_settled`).
-/

namespace LinkTable

open Transition

variable {ι κ : Type*}

/-- `announced` says whether the link can be seen, and `destroyRequested` whether it has
been asked to go. -/
structure Link (ι κ : Type*) where
  near : ι
  far : κ
  announced : Bool
  destroyRequested : Bool
  deriving DecidableEq

def create (links : List (Link ι κ)) (near : ι) (far : κ) : List (Link ι κ) :=
  links ++ [⟨near, far, false, false⟩]

/-- Asks the links at an end to go, as far as they can be seen. -/
def destroyAt [DecidableEq ι] (links : List (Link ι κ)) (near : ι) : List (Link ι κ) :=
  links.map fun link =>
    if link.announced ∧ link.near = near then { link with destroyRequested := true } else link

/-- Links are meant by their positions. -/
inductive Event
  | announced (index : ℕ)
  | removed (index : ℕ)
  deriving DecidableEq

def step (links : List (Link ι κ)) : Event → Option (List (Link ι κ))
  | .announced index =>
      (links[index]?).map fun link => links.set index { link with announced := true }
  | .removed index =>
      (links[index]?).bind fun link =>
        if link.destroyRequested then some (links.eraseIdx index) else none

/-- Neither an announcement nor a removal is due. -/
def Settled (links : List (Link ι κ)) : Prop :=
  ∀ link ∈ links, link.announced = true ∧ link.destroyRequested = false

instance (links : List (Link ι κ)) : Decidable (Settled links) :=
  inferInstanceAs (Decidable (∀ link ∈ links, _))

section Ends

variable [DecidableEq ι]

/-- The other ends of the links at an end. -/
def linkedTo (links : List (Link ι κ)) (near : ι) : List κ :=
  (links.filter fun link => link.near = near).map Link.far

/-- Those whose link has not been asked to go. -/
def live (links : List (Link ι κ)) (near : ι) : List κ :=
  (links.filter fun link => link.near = near ∧ link.destroyRequested = false).map Link.far

/-- All links at an end can be seen. -/
def AllAnnounced (links : List (Link ι κ)) (near : ι) : Prop :=
  ∀ link ∈ links, link.near = near → link.announced = true

instance (links : List (Link ι κ)) (near : ι) : Decidable (AllAnnounced links near) :=
  inferInstanceAs (Decidable (∀ link ∈ links, _))

theorem mem_live_iff {links : List (Link ι κ)} {near : ι} {far : κ} :
    far ∈ live links near ↔
      ∃ link ∈ links, link.near = near ∧ link.destroyRequested = false ∧ link.far = far := by
  simp [live, and_assoc]

/-! ## Live links -/

theorem live_create (links : List (Link ι κ)) (near other : ι) (far : κ) :
    live (create links near far) other =
      live links other ++ if near = other then [far] else [] := by
  rw [live, create, List.filter_append, List.map_append]
  by_cases h : near = other <;> simp [h, live]

theorem live_destroyAt_self {links : List (Link ι κ)} {near : ι}
    (h : AllAnnounced links near) : live (destroyAt links near) near = [] := by
  rw [live, List.map_eq_nil_iff, List.filter_eq_nil_iff]
  intro link hmem
  obtain ⟨old, hold, rfl⟩ := List.mem_map.mp hmem
  by_cases hnear : old.near = near
  · simp [h old hold hnear, hnear]
  · simp [hnear]

theorem live_destroyAt_of_ne (links : List (Link ι κ)) {near other : ι}
    (hne : near ≠ other) : live (destroyAt links near) other = live links other := by
  unfold live destroyAt
  induction links with
  | nil => rfl
  | cons link rest ih =>
      rw [List.map_cons, List.filter_cons, List.filter_cons]
      by_cases hlink : link.announced ∧ link.near = near
      · -- a link at another end is kept out by both filters
        have hother : link.near ≠ other := hlink.2 ▸ hne
        simpa [hlink, hne, hother] using ih
      · rw [if_neg hlink]
        split
        · rw [List.map_cons, List.map_cons, ih]
        · exact ih

theorem allAnnounced_destroyAt {links : List (Link ι κ)} {near : ι}
    (h : AllAnnounced links near) (other : ι) : AllAnnounced (destroyAt links other) near := by
  intro link hmem hnear
  obtain ⟨old, hold, rfl⟩ := List.mem_map.mp hmem
  split_ifs at hnear ⊢ <;> exact h old hold hnear

omit [DecidableEq ι] in
theorem allAnnounced_create {links : List (Link ι κ)} {near other : ι}
    (h : AllAnnounced links near) (hne : other ≠ near) (far : κ) :
    AllAnnounced (create links other far) near := by
  intro link hmem hnear
  rcases List.mem_append.mp hmem with hold | hnew
  · exact h link hold hnear
  · rw [List.mem_singleton.mp hnew] at hnear
    exact absurd hnear hne

omit [DecidableEq ι] in
theorem exists_split {links : List (Link ι κ)} {index : ℕ} {link : Link ι κ}
    (hlink : links[index]? = some link) :
    ∃ before after, links = before ++ link :: after ∧ before.length = index := by
  obtain ⟨hlt, rfl⟩ := List.getElem?_eq_some_iff.mp hlink
  refine ⟨links.take index, links.drop (index + 1), ?_, List.length_take_of_le (Nat.le_of_lt hlt)⟩
  rw [← List.drop_eq_getElem_cons hlt, List.take_append_drop]

/-- Announcements and removals leave the live links alone. -/
theorem live_step {links links' : List (Link ι κ)} {event : Event}
    (h : step links event = some links') (near : ι) : live links' near = live links near := by
  cases event with
  | announced index =>
      obtain ⟨link, hlink, rfl⟩ := Option.map_eq_some_iff.mp h
      obtain ⟨before, after, rfl, rfl⟩ := exists_split hlink
      simp only [live, List.set_append_right _ _ (Nat.le_refl _), Nat.sub_self, List.set_cons_zero,
        List.filter_append, List.map_append, List.filter_cons]
      split <;> rfl
  | removed index =>
      obtain ⟨link, hlink, hremoved⟩ := Option.bind_eq_some_iff.mp h
      obtain ⟨before, after, rfl, rfl⟩ := exists_split hlink
      split_ifs at hremoved with hrequested
      cases hremoved
      simp [live, List.eraseIdx_append_of_length_le, hrequested]

/-- With nothing due all links are live. -/
theorem linkedTo_eq_live {links : List (Link ι κ)} (h : Settled links) (near : ι) :
    linkedTo links near = live links near := by
  unfold linkedTo live
  refine congrArg _ (List.filter_congr fun link hlink => ?_)
  simp [(h link hlink).2]

end Ends

/-! ## Links that can be seen -/

/-- Only links that can be seen have been asked to go. -/
def Visible (links : List (Link ι κ)) : Prop :=
  ∀ link ∈ links, link.destroyRequested = true → link.announced = true

theorem visible_nil : Visible ([] : List (Link ι κ)) :=
  fun _ hlink => absurd hlink List.not_mem_nil

theorem visible_create {links : List (Link ι κ)} (h : Visible links) (near : ι) (far : κ) :
    Visible (create links near far) := by
  intro link hmem hrequested
  rcases List.mem_append.mp hmem with hold | hnew
  · exact h link hold hrequested
  · obtain rfl := List.mem_singleton.mp hnew
    cases hrequested

theorem visible_destroyAt [DecidableEq ι] {links : List (Link ι κ)} (h : Visible links)
    (near : ι) : Visible (destroyAt links near) := by
  intro link hmem hrequested
  obtain ⟨old, hold, rfl⟩ := List.mem_map.mp hmem
  by_cases hseen : old.announced ∧ old.near = near
  · rw [if_pos hseen]
    exact hseen.1
  · rw [if_neg hseen] at hrequested ⊢
    exact h old hold hrequested

theorem visible_step {links links' : List (Link ι κ)} (h : Visible links) {event : Event}
    (hstep : step links event = some links') : Visible links' := by
  intro other hmem hrequested
  cases event with
  | announced index =>
      obtain ⟨link, hlink, rfl⟩ := Option.map_eq_some_iff.mp hstep
      rcases List.mem_or_eq_of_mem_set hmem with hold | rfl
      · exact h other hold hrequested
      · rfl
  | removed index =>
      obtain ⟨link, hlink, hremoved⟩ := Option.bind_eq_some_iff.mp hstep
      split_ifs at hremoved
      cases hremoved
      exact h other (List.mem_of_mem_eraseIdx hmem) hrequested

/-- A link that cannot be seen stays when others are asked to go. -/
theorem mem_destroyAt_of_unseen [DecidableEq ι] {links : List (Link ι κ)} {link : Link ι κ}
    (hmem : link ∈ links) (hunseen : link.announced = false) (near : ι) :
    link ∈ destroyAt links near :=
  List.mem_map.mpr ⟨link, hmem, if_neg (by simp [hunseen])⟩

/-! ## Settling -/

/-- The announcements and removals that are ahead, at most. -/
def stepsAhead (links : List (Link ι κ)) : ℕ :=
  (links.map fun link => if link.announced then 1 else 2).sum

theorem exists_step_of_not_settled {links : List (Link ι κ)} (h : ¬ Settled links) :
    ∃ event links', step links event = some links' ∧ stepsAhead links' < stepsAhead links := by
  unfold Settled at h
  push Not at h
  obtain ⟨link, hmem, hdue⟩ := h
  obtain ⟨index, hlink⟩ := List.mem_iff_getElem?.mp hmem
  obtain ⟨before, after, hsplit, rfl⟩ := exists_split hlink
  by_cases hannounced : link.announced = true
  · have hrequested : link.destroyRequested = true := by simpa using hdue hannounced
    refine ⟨.removed before.length, links.eraseIdx before.length, ?_, ?_⟩
    · rw [step, hlink, Option.bind_some, if_pos hrequested]
    · simp [stepsAhead, hsplit, List.eraseIdx_append_of_length_le, hannounced]
  · refine ⟨.announced before.length,
      links.set before.length { link with announced := true }, ?_, ?_⟩
    · rw [step, hlink]
      rfl
    · simp [stepsAhead, hsplit, hannounced]

/-- All announcements and removals that are due can come. -/
theorem exists_settled (links : List (Link ι κ)) :
    ∃ events links', exec step links events = some links' ∧ Settled links' := by
  induction hahead : stepsAhead links using Nat.strongRecOn generalizing links with
  | _ _ ih =>
      by_cases hsettled : Settled links
      · exact ⟨[], links, rfl, hsettled⟩
      · obtain ⟨event, middle, hstep, hless⟩ := exists_step_of_not_settled hsettled
        obtain ⟨events, links', hexec, hlast⟩ := ih _ (hahead ▸ hless) middle rfl
        refine ⟨event :: events, links', ?_, hlast⟩
        rw [exec, hstep]
        exact hexec

end LinkTable
