import Mathlib.Logic.ExistsUnique

/-! Sessions in the abstract: users that are online or not, and connections that hold users.
Every user online should be held by exactly one connection. What a release and a take of a
connection do to that, stated as exact conditions on the moment before. -/
namespace RoomRtc.Sessions
set_option autoImplicit false

variable {κ ν : Type} {online online' : ν → Prop} {holds holds' : κ → ν → Prop}

/-- Every user online is held by exactly one connection. -/
def Attended (online : ν → Prop) (holds : κ → ν → Prop) : Prop := ∀ u, online u → ∃! c, holds c u

theorem Attended.restrict (h : Attended online holds) (ho : ∀ u, online' u → online u)
    (hh : ∀ c u, holds' c u ↔ holds c u) : Attended online' holds' := by
  have heq : holds' = holds := by
    funext c u
    exact propext (hh c u)
  subst heq
  exact fun u hu => h u (ho u hu)

theorem Attended.release_iff (h : Attended online holds) (c : κ) (ho : ∀ u, online' u → online u)
    (hc : ∀ u, ¬holds' c u) (hd : ∀ d, d ≠ c → ∀ u, holds' d u ↔ holds d u) :
    Attended online' holds' ↔ ∀ u, holds c u → ¬online' u := by
  constructor
  · intro h' u hcu hu
    obtain ⟨d, hdu, _⟩ := h' u hu
    have hdc : d ≠ c := fun he => hc u (he ▸ hdu)
    exact hdc ((h u (ho u hu)).unique ((hd d hdc u).mp hdu) hcu)
  · intro hfree u hu
    obtain ⟨d, hdu, huniq⟩ := h u (ho u hu)
    have hdc : d ≠ c := fun he => hfree u (he ▸ hdu) hu
    refine ⟨d, (hd d hdc u).mpr hdu, ?_⟩
    intro d' hd'
    have hd'c : d' ≠ c := fun he => hc u (he ▸ hd')
    exact huniq d' ((hd d' hd'c u).mp hd')

theorem Attended.take_iff (h : Attended online holds) (c : κ) {u : ν} (hu : ¬online u)
    (ho : ∀ v, online' v ↔ v = u ∨ online v) (hc : ∀ v, holds' c v ↔ v = u)
    (hd : ∀ d, d ≠ c → ∀ v, holds' d v ↔ holds d v) :
    Attended online' holds' ↔ (∀ v, holds c v → ¬online v) ∧ ∀ d, d ≠ c → ¬holds d u := by
  constructor
  · intro h'
    refine ⟨?_, ?_⟩
    · -- whoever the connection held before has no other holder now
      intro v hcv hv
      have hvu : v ≠ u := fun he => hu (he ▸ hv)
      obtain ⟨d, hdv, _⟩ := h' v ((ho v).mpr (.inr hv))
      have hdc : d ≠ c := fun he => hvu ((hc v).mp (he ▸ hdv))
      exact hdc ((h v hv).unique ((hd d hdc v).mp hdv) hcv)
    · intro d hdc hdu
      have hboth := h' u ((ho u).mpr (.inl rfl))
      exact hdc (hboth.unique ((hd d hdc u).mpr hdu) ((hc u).mpr rfl))
  · rintro ⟨hfree, halone⟩ v hv
    by_cases hvu : v = u
    · subst hvu
      refine ⟨c, (hc v).mpr rfl, ?_⟩
      intro d hdv
      apply Classical.byContradiction
      intro hdc
      exact halone d hdc ((hd d hdc v).mp hdv)
    · have hv' : online v := ((ho v).mp hv).resolve_left hvu
      obtain ⟨d, hdv, huniq⟩ := h v hv'
      have hdc : d ≠ c := fun he => hfree v (he ▸ hdv) hv'
      refine ⟨d, (hd d hdc v).mpr hdv, ?_⟩
      intro d' hd'
      have hd'c : d' ≠ c := fun he => hvu ((hc v).mp (he ▸ hd'))
      exact huniq d' ((hd d' hd'c v).mp hd')

/-- What can happen to the sessions in one go, with the condition under which everybody
online stays attended. -/
inductive Move (online online' : ν → Prop) (holds holds' : κ → ν → Prop) : Prop → Prop
  | keep : (∀ u, online' u → online u) → (∀ c u, holds' c u ↔ holds c u) →
    Move online online' holds holds' True
  | release (c : κ) : (∀ u, online' u → online u) → (∀ u, ¬holds' c u) →
      (∀ d, d ≠ c → ∀ u, holds' d u ↔ holds d u) →
      Move online online' holds holds' (∀ u, holds c u → ¬online' u)
  | take (c : κ) (u : ν) : ¬online u → (∀ v, online' v ↔ v = u ∨ online v) →
    (∀ v, holds' c v ↔ v = u) →
      (∀ d, d ≠ c → ∀ v, holds' d v ↔ holds d v) →
      Move online online' holds holds' ((∀ v, holds c v → ¬online v) ∧ ∀ d, d ≠ c → ¬holds d u)

theorem Move.attended_iff {cond : Prop} (m : Move online online' holds holds' cond)
    (h : Attended online holds) : Attended online' holds' ↔ cond := by
  cases m with
  | keep ho hh => exact iff_of_true (h.restrict ho hh) trivial
  | release c ho hc hd => exact h.release_iff c ho hc hd
  | take c u hu ho hc hd => exact h.take_iff c hu ho hc hd

/-- A connection comes to hold only users who were not online. -/
theorem Move.acquired {cond : Prop} (m : Move online online' holds holds' cond) {c : κ} {u : ν}
    (h : holds' c u) : holds c u ∨ ¬online u := by
  cases m with
  | keep _ hh => exact .inl ((hh c u).mp h)
  | release c₀ _ hc hd =>
    by_cases he : c = c₀
    · subst he
      exact absurd h (hc u)
    · exact .inl ((hd c he u).mp h)
  | take c₀ u₀ hu _ hc hd =>
    by_cases he : c = c₀
    · subst he
      rw [(hc u).mp h]
      exact .inr hu
    · exact .inl ((hd c he u).mp h)

/-- A user who is online before and after, both times attended, keeps the connection. -/
theorem Move.keeps_holder {cond : Prop} (m : Move online online' holds holds' cond)
    (h : Attended online holds) (h' : Attended online' holds') {c : κ} {u : ν} (hu : online u)
    (hu' : online' u) (hc : holds c u) : holds' c u := by
  obtain ⟨d, hd, _⟩ := h' u hu'
  have hdc : d = c := (h u hu).unique ((m.acquired hd).resolve_right (not_not_intro hu)) hc
  exact hdc ▸ hd

end RoomRtc.Sessions
