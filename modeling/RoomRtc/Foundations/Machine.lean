import Mathlib.Data.List.Basic
import Mathlib.Data.List.Induction

/-! Deterministic machines that may stop. A step takes an input and gives the next state
and an output, or nothing when the machine stops for good (a panic). Runs, runs whose
every step meets a condition, and the induction rule from steps to runs. -/
namespace RoomRtc
set_option autoImplicit false

structure Machine (σ ι ο : Type) where
  step : σ → ι → Option (σ × ο)

namespace Machine
variable {σ ι ο : Type} (M : Machine σ ι ο)

/-- The state after all inputs, with the outputs in order. -/
def run : σ → List ι → Option (σ × List ο)
  | s, [] => some (s, [])
  | s, i :: is =>
    match M.step s i with
    | none => none
    | some (s', o) => (run s' is).map fun r => (r.1, o :: r.2)

/-- Every input meets `G` in the state in which it is taken. -/
def Guarded (G : σ → ι → Prop) : σ → List ι → Prop
  | _, [] => True
  | s, i :: is => G s i ∧ ∀ s' o, M.step s i = some (s', o) → Guarded G s' is

/-- The same for a condition that also sees the outputs given so far. -/
def GuardedBy (G : List ο → σ → ι → Prop) : List ο → σ → List ι → Prop
  | _, _, [] => True
  | os, s, i :: is => G os s i ∧ ∀ s' o, M.step s i = some (s', o) → GuardedBy G (os ++ [o]) s' is

/-- Every step the machine takes meets `R`. -/
def Throughout (R : σ → ι → σ → Prop) : σ → List ι → Prop
  | _, [] => True
  | s, i :: is => ∀ s' o, M.step s i = some (s', o) → R s i s' ∧ Throughout R s' is

/-- A guard that can be decided at every step can be decided along a list of inputs. -/
instance decidableGuarded (G : σ → ι → Prop) [∀ s i, Decidable (G s i)] : ∀ s is, Decidable (M.Guarded G s is)
  | _, [] => inferInstanceAs (Decidable True)
  | s, i :: is =>
    match hs : M.step s i with
    | none => decidable_of_iff (G s i) ⟨fun h => ⟨h, fun _ _ h' => nomatch hs.symm.trans h'⟩, And.left⟩
    | some (s', o) =>
      have := decidableGuarded G s' is
      decidable_of_iff (G s i ∧ M.Guarded G s' is)
        ⟨fun h => ⟨h.1, fun _ _ h' => by cases hs.symm.trans h'; exact h.2⟩, fun h => ⟨h.1, h.2 s' o hs⟩⟩

@[simp] theorem run_nil (s : σ) : M.run s [] = some (s, []) := rfl

theorem run_cons_some {s t : σ} {i : ι} {is : List ι} {os : List ο}
    (h : M.run s (i :: is) = some (t, os)) :
    ∃ s' o os', M.step s i = some (s', o) ∧ M.run s' is = some (t, os') ∧ os = o :: os' := by
  simp only [run] at h
  split at h
  · cases h
  · next s' o hs =>
    obtain ⟨⟨t', os'⟩, hr, he⟩ := Option.map_eq_some_iff.mp h
    cases he
    exact ⟨s', o, os', hs, hr, rfl⟩

theorem run_cons {s s' t : σ} {i : ι} {o : ο} {is : List ι} {os : List ο}
    (hs : M.step s i = some (s', o)) (hr : M.run s' is = some (t, os)) :
    M.run s (i :: is) = some (t, o :: os) := by
  simp [run, hs, hr]

theorem run_append {s t u : σ} {is js : List ι} {os ps : List ο}
    (h1 : M.run s is = some (t, os)) (h2 : M.run t js = some (u, ps)) :
    M.run s (is ++ js) = some (u, os ++ ps) := by
  induction is generalizing s os with
  | nil =>
    simp only [run_nil, Option.some.injEq, Prod.mk.injEq] at h1
    obtain ⟨rfl, rfl⟩ := h1
    exact h2
  | cons i is ih =>
    obtain ⟨s', o, os', hs, hr, rfl⟩ := M.run_cons_some h1
    exact M.run_cons hs (ih hr)

theorem run_append_some {s u : σ} {is js : List ι} {qs : List ο}
    (h : M.run s (is ++ js) = some (u, qs)) :
    ∃ t os ps, M.run s is = some (t, os) ∧ M.run t js = some (u, ps) ∧ qs = os ++ ps := by
  induction is generalizing s qs with
  | nil => exact ⟨s, [], qs, rfl, h, rfl⟩
  | cons i is ih =>
    obtain ⟨s', o, os', hs, hr, rfl⟩ := M.run_cons_some h
    obtain ⟨t, os, ps, h1, h2, rfl⟩ := ih hr
    exact ⟨t, o :: os, ps, M.run_cons hs h1, h2, rfl⟩

theorem guarded_append {G : σ → ι → Prop} {s t : σ} {is js : List ι} {os : List ο}
    (h : M.Guarded G s (is ++ js)) (hr : M.run s is = some (t, os)) : M.Guarded G t js := by
  induction is generalizing s os with
  | nil =>
    cases hr
    exact h
  | cons i is ih =>
    obtain ⟨s', o, os', hs, hr', _⟩ := M.run_cons_some hr
    exact ih (h.2 s' o hs) hr'

theorem guarded_append_intro {G : σ → ι → Prop} {s : σ} {is js : List ι} (h : M.Guarded G s is)
    (h' : ∀ t os, M.run s is = some (t, os) → M.Guarded G t js) : M.Guarded G s (is ++ js) := by
  induction is generalizing s with
  | nil => exact h' s [] rfl
  | cons i is ih =>
    exact ⟨h.1, fun s' o hs => ih (h.2 s' o hs) fun t os hr => h' t (o :: os) (M.run_cons hs hr)⟩

theorem guarded_left {G : σ → ι → Prop} {s : σ} {is js : List ι} (h : M.Guarded G s (is ++ js)) :
    M.Guarded G s is := by
  induction is generalizing s with
  | nil => trivial
  | cons i is ih => exact ⟨h.1, fun s' o hs => ih (h.2 s' o hs)⟩

theorem guarded_of_forall {G : σ → ι → Prop} {s : σ} {is : List ι} (h : ∀ i ∈ is, ∀ t, G t i) :
    M.Guarded G s is := by
  induction is generalizing s with
  | nil => trivial
  | cons i is ih =>
    exact ⟨h i (List.mem_cons_self ..) s, fun s' o _ => ih fun j hj => h j (List.mem_cons_of_mem i hj)⟩

theorem guarded_and {G H : σ → ι → Prop} {s : σ} {is : List ι} (hG : M.Guarded G s is) (hH : M.Guarded H s is) :
    M.Guarded (fun s i => G s i ∧ H s i) s is := by
  induction is generalizing s with
  | nil => trivial
  | cons i is ih => exact ⟨⟨hG.1, hH.1⟩, fun s' o hs => ih (hG.2 s' o hs) (hH.2 s' o hs)⟩

/-- What every step the machine takes asks of the state before it holds along a run. -/
theorem guarded_of_run {G : σ → ι → Prop} (hG : ∀ s i s' o, M.step s i = some (s', o) → G s i) {s t : σ}
    {is : List ι} {os : List ο} (hr : M.run s is = some (t, os)) : M.Guarded G s is := by
  induction is generalizing s os with
  | nil => trivial
  | cons i is ih =>
    obtain ⟨s', o, os', hs, hr', _⟩ := M.run_cons_some hr
    refine ⟨hG s i s' o hs, fun s'' o' hs' => ?_⟩
    cases hs.symm.trans hs'
    exact ih hr'

theorem guarded_concat {G : σ → ι → Prop} {s t : σ} {is : List ι} {i : ι} {os : List ο}
    (hr : M.run s is = some (t, os)) : M.Guarded G s (is ++ [i]) ↔ M.Guarded G s is ∧ G t i := by
  constructor
  · exact fun h => ⟨M.guarded_left h, (M.guarded_append h hr).1⟩
  · rintro ⟨h, hi⟩
    refine M.guarded_append_intro h fun t' os' hr' => ?_
    rw [hr] at hr'
    cases hr'
    exact ⟨hi, fun _ _ _ => trivial⟩

theorem guardedBy_of_guarded {G : σ → ι → Prop} {s : σ} {is : List ι} (h : M.Guarded G s is)
    (os : List ο) : M.GuardedBy (fun _ => G) os s is := by
  induction is generalizing s os with
  | nil => trivial
  | cons i is ih => exact ⟨h.1, fun s' o hs => ih (h.2 s' o hs) (os ++ [o])⟩

theorem guardedBy_and {G : List ο → σ → ι → Prop} {H : ι → Prop} {s : σ} {is : List ι} {os : List ο}
    (h : M.GuardedBy G os s is) (hH : ∀ i ∈ is, H i) : M.GuardedBy (fun os s i => G os s i ∧ H i) os s is := by
  induction is generalizing s os with
  | nil => trivial
  | cons i is ih =>
    refine ⟨⟨h.1, hH i (List.mem_cons_self ..)⟩, fun s' o hs => ?_⟩
    exact ih (h.2 s' o hs) fun j hj => hH j (List.mem_cons_of_mem i hj)

/-- **From steps to runs.** `P` speaks about the inputs taken and outputs given so far and
the state reached; what every step under `G` preserves, every run under `G` preserves. -/
theorem run_induction_by {G : List ο → σ → ι → Prop} (P : List ι → List ο → σ → Prop)
    (hstep : ∀ is os s i s' o, P is os s → G os s i → M.step s i = some (s', o) →
      P (is ++ [i]) (os ++ [o]) s')
    {s t : σ} {is : List ι} {os : List ο} (h0 : P [] [] s) (hg : M.GuardedBy G [] s is)
    (hr : M.run s is = some (t, os)) : P is os t := by
  have key : ∀ (js : List ι) (is₀ : List ι) (os₀ : List ο) (s : σ) (os : List ο),
      P is₀ os₀ s → M.GuardedBy G os₀ s js → M.run s js = some (t, os) →
        P (is₀ ++ js) (os₀ ++ os) t := by
    intro js
    induction js with
    | nil =>
      intro is₀ os₀ s os hP _ hr
      simp only [run_nil, Option.some.injEq, Prod.mk.injEq] at hr
      obtain ⟨rfl, rfl⟩ := hr
      simpa using hP
    | cons j js ih =>
      intro is₀ os₀ s os hP hg hr
      obtain ⟨s', o, os', hs, hr', rfl⟩ := M.run_cons_some hr
      have h := ih (is₀ ++ [j]) (os₀ ++ [o]) s' os' (hstep _ _ _ _ _ _ hP hg.1 hs) (hg.2 s' o hs) hr'
      simpa using h
  simpa using key is [] [] s os h0 hg hr

theorem run_induction {G : σ → ι → Prop} (P : List ι → List ο → σ → Prop)
    (hstep : ∀ is os s i s' o, P is os s → G s i → M.step s i = some (s', o) →
      P (is ++ [i]) (os ++ [o]) s')
    {s t : σ} {is : List ι} {os : List ο} (h0 : P [] [] s) (hg : M.Guarded G s is)
    (hr : M.run s is = some (t, os)) : P is os t :=
  M.run_induction_by P hstep h0 (M.guardedBy_of_guarded hg []) hr

/-- The state part of `run_induction`. -/
theorem run_invariant {G : σ → ι → Prop} (P : σ → Prop)
    (hstep : ∀ s i s' o, P s → G s i → M.step s i = some (s', o) → P s')
    {s t : σ} {is : List ι} {os : List ο} (h0 : P s) (hg : M.Guarded G s is)
    (hr : M.run s is = some (t, os)) : P t :=
  M.run_induction (fun _ _ s => P s) (fun _ _ s i s' o => hstep s i s' o) h0 hg hr

/-- **From steps to runs, for two machines.** When every step of the first is answered by a step
of the second with the same output, so is every run. -/
theorem run_simulation {τ : Type} (N : Machine τ ι ο) (R : σ → τ → Prop)
    (hstep : ∀ s i s' o t, R s t → M.step s i = some (s', o) → ∃ t', N.step t i = some (t', o) ∧ R s' t')
    {s u : σ} {t : τ} {is : List ι} {os : List ο} (h0 : R s t) (hr : M.run s is = some (u, os)) :
    ∃ v, N.run t is = some (v, os) ∧ R u v := by
  induction is generalizing s t os with
  | nil =>
    cases hr
    exact ⟨t, rfl, h0⟩
  | cons i is ih =>
    obtain ⟨s', o, os', hs, hr', rfl⟩ := M.run_cons_some hr
    obtain ⟨t', ht, hR⟩ := hstep s i s' o t h0 hs
    obtain ⟨v, hv, hRv⟩ := ih hR hr'
    exact ⟨v, N.run_cons ht hv, hRv⟩

/-- **Progress.** A measure that no step raises and that every step over an input of the kind `p`
lowers has gone down by as many such inputs as there are, or is gone. -/
theorem run_measure {G : σ → ι → Prop} (J : σ → Prop) (μ : σ → ℕ) (p : ι → Bool)
    (hstep : ∀ s i s' o, J s → G s i → M.step s i = some (s', o) →
      J s' ∧ μ s' ≤ μ s - if p i then 1 else 0)
    {s t : σ} {is : List ι} {os : List ο} (h0 : J s) (hg : M.Guarded G s is)
    (hr : M.run s is = some (t, os)) : J t ∧ μ t ≤ μ s - is.countP p := by
  induction is generalizing s os with
  | nil =>
    cases hr
    exact ⟨h0, Nat.le_refl _⟩
  | cons i is ih =>
    obtain ⟨s', o, os', hs, hr', rfl⟩ := M.run_cons_some hr
    obtain ⟨hJ, hle⟩ := hstep s i s' o h0 hg.1 hs
    obtain ⟨hJt, hlet⟩ := ih hJ (hg.2 s' o hs) hr'
    refine ⟨hJt, ?_⟩
    rw [List.countP_cons]
    omega

/-- A machine that never stops has a run over all inputs. -/
theorem exists_run (hstep : ∀ s i, ∃ s' o, M.step s i = some (s', o)) (s : σ) (is : List ι) :
    ∃ t os, M.run s is = some (t, os) := by
  induction is generalizing s with
  | nil => exact ⟨s, [], rfl⟩
  | cons i is ih =>
    obtain ⟨s', o, hs⟩ := hstep s i
    obtain ⟨t, os, hr⟩ := ih s'
    exact ⟨t, o :: os, M.run_cons hs hr⟩

/-- A condition on the state before each step that is exact under the invariant `J`: the run
keeps `R` throughout just when every step meets `G`. -/
theorem throughout_iff_guarded {R : σ → ι → σ → Prop} {G : σ → ι → Prop} (J : σ → Prop)
    (hiff : ∀ s i s' o, J s → M.step s i = some (s', o) → (R s i s' ↔ G s i))
    (hJ : ∀ s i s' o, J s → G s i → M.step s i = some (s', o) → J s')
    (hstop : ∀ s i, J s → M.step s i = none → G s i) {s : σ} (hs : J s) (is : List ι) :
    M.Throughout R s is ↔ M.Guarded G s is := by
  induction is generalizing s with
  | nil => exact Iff.rfl
  | cons i is ih =>
    constructor
    · intro h
      cases hstep : M.step s i with
      | none => exact ⟨hstop s i hs hstep, fun s' o h' => by rw [hstep] at h'; cases h'⟩
      | some r =>
        obtain ⟨t, o⟩ := r
        have hG : G s i := (hiff s i t o hs hstep).mp (h t o hstep).1
        exact ⟨hG, fun s' o' h' => (ih (hJ s i s' o' hs hG h')).mp (h s' o' h').2⟩
    · intro h s' o hstep
      exact ⟨(hiff s i s' o hs hstep).mpr h.1, (ih (hJ s i s' o hs h.1 hstep)).mpr (h.2 s' o hstep)⟩

theorem throughout_concat {R : σ → ι → σ → Prop} {s t : σ} {is : List ι} {i : ι} {os : List ο}
    (h : M.Throughout R s is) (hr : M.run s is = some (t, os)) (hi : ∀ t' o, M.step t i = some (t', o) → R t i t') :
    M.Throughout R s (is ++ [i]) := by
  induction is generalizing s os with
  | nil =>
    cases hr
    exact fun t' o hstep => ⟨hi t' o hstep, trivial⟩
  | cons j is ih =>
    obtain ⟨s', o, os', hs, hr', _⟩ := M.run_cons_some hr
    intro s'' o' hs'
    cases hs.symm.trans hs'
    exact ⟨(h s' o hs).1, ih (h s' o hs).2 hr'⟩

/-- **Since when.** What does not hold at first and holds after a run began with some step of
the run, and has held ever since. -/
theorem exists_since (J A : σ → Prop) (hJ : ∀ s i s' o, J s → M.step s i = some (s', o) → J s') {s₀ t : σ}
    {is : List ι} {os : List ο} (hJ₀ : J s₀) (h₀ : ¬A s₀) (hr : M.run s₀ is = some (t, os)) (ht : A t) :
    ∃ before i after s s' o os₁ os₂, is = before ++ i :: after ∧
    M.run s₀ before = some (s, os₁) ∧ J s ∧ ¬A s ∧
      M.step s i = some (s', o) ∧ A s' ∧ M.Throughout (fun _ _ r => A r) s' after ∧
      M.run s' after = some (t, os₂) := by
  induction is using List.reverseRecOn generalizing t os with
  | nil =>
    cases hr
    exact absurd ht h₀
  | append_singleton is i ih =>
    obtain ⟨s, os₁, os₂, hbefore, hlast, _⟩ := M.run_append_some hr
    obtain ⟨s', o, _, hstep, hnil, _⟩ := M.run_cons_some hlast
    cases hnil
    have hs : J s := M.run_invariant (G := fun _ _ => True) J (fun s i s' o h _ => hJ s i s' o h) hJ₀
      (M.guarded_of_forall fun _ _ _ => trivial) hbefore
    by_cases hA : A s
    · obtain ⟨before, j, after, r, r', o', ps₁, ps₂, rfl, hrun, hJr, hr, hj, hr', hsince,
        hafter⟩ := ih hbefore hA
      refine ⟨before, j, after ++ [i], r, r', o', ps₁, ps₂ ++ [o], by simp, hrun, hJr, hr, hj, hr', ?_, ?_⟩
      · apply M.throughout_concat hsince hafter
        intro t' o'' hstep'
        cases hstep.symm.trans hstep'
        exact ht
      · exact M.run_append hafter (M.run_cons hstep rfl)
    · exact ⟨is, i, [], s, t, o, os₁, [], rfl, hbefore, hs, hA, hstep, ht, trivial, rfl⟩

end Machine
end RoomRtc
