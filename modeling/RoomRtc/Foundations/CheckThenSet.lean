import Mathlib.Algebra.GroupWithZero.Nat
import Mathlib.Data.Fintype.Basic
import Mathlib.Data.Finset.Card
import RoomRtc.Foundations.Machine

/-! Threads that share a flag and leave in the same way: check that the flag is still up, take it
down, report. The check and the store are two steps, so two threads may both find the flag up, and
a thread that takes it down without having checked keeps all others from reporting. Exactly one
report is made just when neither happens. -/
namespace RoomRtc.CheckThenSet
set_option autoImplicit false

/-! ## Threads and turns -/

/-- How far a thread has come. A thread that is `lowering` takes the flag down as its next step
without having checked it. -/
inductive Phase where
  | working
  | lowering
  | checking
  | storing
  | sending
  | done (reported : Bool)
deriving DecidableEq, Repr

/-- The thread has found the flag up at its last check. -/
def Phase.passed : Phase → Bool
  | storing | sending | done true => true
  | _ => false

/-- The thread has not come to its last check yet. -/
def Phase.early : Phase → Bool
  | working | lowering | checking => true
  | _ => false

@[ext] structure Board (τ : Type) where
  flag : Bool
  phase : τ → Phase

section Boards
variable {τ : Type} [DecidableEq τ] {t u : τ} {b b' : Board τ}

/-- What one step of the thread `t` does. -/
inductive Turn (t : τ) (b : Board τ) : Board τ → Prop
  | work (p : Phase) (h : b.phase t = .working) (hp : p.early = true) :
    Turn t b ⟨b.flag, Function.update b.phase t p⟩
  | lower (p : Phase) (h : b.phase t = .lowering) (hp : p.early = true) :
    Turn t b ⟨false, Function.update b.phase t p⟩
  | pass (h : b.phase t = .checking) (hf : b.flag = true) : Turn t b ⟨b.flag, Function.update b.phase t .storing⟩
  | leave (h : b.phase t = .checking) (hf : b.flag = false) :
    Turn t b ⟨b.flag, Function.update b.phase t (.done false)⟩
  | store (h : b.phase t = .storing) : Turn t b ⟨false, Function.update b.phase t .sending⟩
  | send (h : b.phase t = .sending) : Turn t b ⟨b.flag, Function.update b.phase t (.done true)⟩
  | idle (r : Bool) (h : b.phase t = .done r) : Turn t b b

/-- The step of `t` is no second pass, and does not take the flag down before a first. -/
def Orderly (b : Board τ) (t : τ) : Prop :=
  (b.phase t = .checking → b.flag = true → ∀ u, (b.phase u).passed = false) ∧
    (b.phase t = .lowering → ∃ u, (b.phase u).passed = true)

theorem Turn.others (h : Turn t b b') (hne : u ≠ t) : b'.phase u = b.phase u := by
  cases h with
  | idle => rfl
  | _ => exact Function.update_of_ne hne _ _

/-- Passing the check is the only way to have passed it. -/
theorem Turn.passed_iff (h : Turn t b b') (u : τ) :
    (b'.phase u).passed = true ↔ (b.phase u).passed = true ∨
    (u = t ∧ b.phase t = .checking ∧ b.flag = true) := by
  by_cases hne : u = t
  · subst hne
    cases h with
    | work p hphase hp => cases p <;> simp_all [Phase.passed, Phase.early]
    | lower p hphase hp => cases p <;> simp_all [Phase.passed, Phase.early]
    | pass hphase hf => simp [Phase.passed, hphase, hf]
    | leave hphase hf => simp [Phase.passed, hphase, hf]
    | store hphase => simp [Phase.passed, hphase]
    | send hphase => simp [Phase.passed, hphase]
    | idle r hphase => simp [hphase]
  · rw [h.others hne]
    simp [hne]

theorem Turn.flag_false (h : Turn t b b') (hf : b.flag = false) : b'.flag = false := by
  cases h with
  | lower | store => rfl
  | _ => exact hf

/-- It is taken down by a thread that has passed its check, or without a check. -/
theorem Turn.flag_lowered (h : Turn t b b') (hf : b.flag = true) (hf' : b'.flag = false) :
    b.phase t = .lowering ∨ (b.phase t).passed = true := by
  cases h with
  | lower p hphase => exact .inl hphase
  | store hphase => exact .inr (by rw [hphase]; rfl)
  | idle => exact absurd (hf.symm.trans hf') (by decide)
  | _ => exact absurd (hf.symm.trans hf') (by decide)

theorem Turn.lowered (h : Turn t b b') (hlow : b.phase t = .lowering) : b'.flag = false := by
  cases h with
  | lower => rfl
  | work p hphase | pass hphase | leave hphase | store hphase | send hphase | idle r hphase =>
    exact absurd (hlow.symm.trans hphase) nofun

theorem Turn.reported_iff (h : Turn t b b') (u : τ) :
    b'.phase u = .done true ↔ b.phase u = .done true ∨ (u = t ∧ b.phase t = .sending) := by
  by_cases hne : u = t
  · subst hne
    cases h with
    | work p hphase hp => cases p <;> simp_all [Phase.early]
    | lower p hphase hp => cases p <;> simp_all [Phase.early]
    | pass hphase hf => simp [hphase]
    | leave hphase hf => simp [hphase]
    | store hphase => simp [hphase]
    | send hphase => simp [hphase]
    | idle r hphase => simp [hphase]
  · rw [h.others hne]
    simp [hne]

/-- How many threads have reported. -/
def Board.reports [Fintype τ] (b : Board τ) : ℕ := (Finset.univ.filter fun u => b.phase u = .done true).card

theorem Turn.reports [Fintype τ] (h : Turn t b b') :
    b'.reports = b.reports + if b.phase t = .sending then 1 else 0 := by
  by_cases hsend : b.phase t = .sending
  · have hset : (Finset.univ.filter fun u => b'.phase u = .done true) =
        insert t (Finset.univ.filter fun u => b.phase u = .done true) := by
      ext u
      simp [h.reported_iff u, hsend, or_comm]
    rw [Board.reports, hset, Finset.card_insert_of_notMem (by simp [hsend]), if_pos hsend]
    rfl
  · have hset : (Finset.univ.filter fun u => b'.phase u = .done true) =
        Finset.univ.filter fun u => b.phase u = .done true := by
      ext u
      simp [h.reported_iff u, hsend]
    rw [Board.reports, hset, if_neg hsend]
    rfl

omit [DecidableEq τ] in
/-- Once all are done, those who have passed are those who have reported. -/
theorem passed_iff_reported (hdone : ∃ r, b.phase u = .done r) :
    (b.phase u).passed = true ↔ b.phase u = .done true := by
  obtain ⟨r, hr⟩ := hdone
  rw [hr]
  cases r <;> simp [Phase.passed]

theorem Phase.passed_of_early {p : Phase} (h : p.early = true) : p.passed = false := by
  cases p <;> simp_all [Phase.early, Phase.passed]

end Boards

/-! ## Runs -/

section Runs
variable {σ ι ο τ : Type} [DecidableEq τ] {M : Machine σ ι ο} (view : σ → Board τ) (who : ι → τ)

/-- Every step of the machine is a turn of the thread it belongs to. -/
def Follows (M : Machine σ ι ο) : Prop :=
  ∀ s i s' o, M.step s i = some (s', o) → Turn (who i) (view s) (view s')

variable {view who} (hM : Follows view who M) {s t : σ} {is : List ι} {os : List ο}
include hM

theorem run_passed (hr : M.run s is = some (t, os)) {u : τ} (hu : ((view s).phase u).passed = true) :
    ((view t).phase u).passed = true :=
  M.run_invariant (G := fun _ _ => True) (fun s => ((view s).phase u).passed = true)
    (fun s i s' o h _ hstep => ((hM s i s' o hstep).passed_iff u).mpr (.inl h)) hu
    (M.guarded_of_forall fun _ _ _ => trivial) hr

/-- With the flag down and nobody past the check, nobody will pass it. -/
theorem run_silent (hr : M.run s is = some (t, os)) (hf : (view s).flag = false)
    (hnone : ∀ u, ((view s).phase u).passed = false) : ∀ u, ((view t).phase u).passed = false := by
  have hboth := M.run_invariant (G := fun _ _ => True)
    (fun s => (view s).flag = false ∧ ∀ u, ((view s).phase u).passed = false) ?_ ⟨hf, hnone⟩
    (M.guarded_of_forall fun _ _ _ => trivial) hr
  · exact hboth.2
  · rintro s i s' o ⟨hf, hnone⟩ _ hstep
    have hturn := hM s i s' o hstep
    refine ⟨hturn.flag_false hf, ?_⟩
    intro u
    rw [Bool.eq_false_iff, ne_eq, hturn.passed_iff u, hnone u, hf]
    simp

/-- Orderly steps: at most one thread passes, and the flag is down only after one has. -/
theorem run_orderly (hr : M.run s is = some (t, os)) (hg : M.Guarded (fun s i => Orderly (view s) (who i)) s is)
    (hf : (view s).flag = true) (hnone : ∀ u, ((view s).phase u).passed = false) :
    (∀ u v, ((view t).phase u).passed = true → ((view t).phase v).passed = true → u = v) ∧
      ((view t).flag = false → ∃ u, ((view t).phase u).passed = true) := by
  refine M.run_invariant (fun s =>
    (∀ u v, ((view s).phase u).passed = true → ((view s).phase v).passed = true → u = v) ∧
      ((view s).flag = false → ∃ u, ((view s).phase u).passed = true)) ?_ ⟨?_, ?_⟩ hg hr
  · rintro s i s' o ⟨hone, hdown⟩ horder hstep
    have hturn := hM s i s' o hstep
    constructor
    · intro u v hu hv
      rw [hturn.passed_iff] at hu hv
      -- a pass finds nobody that has passed
      have hfirst : ∀ w x : τ, ((view s).phase w).passed = true →
          ¬(x = who i ∧ (view s).phase (who i) = .checking ∧ (view s).flag = true) := by
        rintro w x hw ⟨_, hcheck, hflag⟩
        rw [horder.1 hcheck hflag w] at hw
        cases hw
      obtain hu | hu := hu
      · exact hone u v hu (hv.resolve_right (hfirst u v hu))
      · have hv' := hv.resolve_left fun hv => hfirst v u hv hu
        rw [hu.1, hv'.1]
    · intro hflag'
      cases hflag : (view s).flag with
      | false =>
        obtain ⟨u, hu⟩ := hdown hflag
        exact ⟨u, (hturn.passed_iff u).mpr (.inl hu)⟩
      | true =>
        obtain hlow | hpassed := hturn.flag_lowered hflag hflag'
        · obtain ⟨u, hu⟩ := horder.2 hlow
          exact ⟨u, (hturn.passed_iff u).mpr (.inl hu)⟩
        · exact ⟨who i, (hturn.passed_iff _).mpr (.inl hpassed)⟩
  · intro u v hu
    rw [hnone u] at hu
    cases hu
  · intro hflag
    rw [hf] at hflag
    cases hflag

/-- When exactly one thread has passed at the end, every step was orderly. -/
theorem orderly_of_unique (hr : M.run s is = some (t, os)) {u : τ} (hu : ((view t).phase u).passed = true)
    (hone : ∀ v, ((view t).phase v).passed = true → v = u) :
    M.Guarded (fun s i => Orderly (view s) (who i)) s is := by
  induction is generalizing s os with
  | nil => trivial
  | cons i is ih =>
    obtain ⟨s', o, os', hstep, hrest, rfl⟩ := M.run_cons_some hr
    have hturn := hM s i s' o hstep
    refine ⟨⟨?_, ?_⟩, ?_⟩
    · intro hcheck hflag v
      -- the thread that passes now and one that had passed before would both have passed
      rw [Bool.eq_false_iff]
      intro hv
      have hvu := hone v (run_passed hM hr hv)
      have hnow : ((view s').phase (who i)).passed = true := (hturn.passed_iff _).mpr (.inr ⟨rfl, hcheck, hflag⟩)
      have hwu := hone (who i) (run_passed hM hrest hnow)
      rw [hvu, ← hwu, hcheck] at hv
      cases hv
    · intro hlow
      by_contra hnone
      push Not at hnone
      have hnone' : ∀ v, ((view s).phase v).passed = false := fun v => Bool.eq_false_iff.mpr (hnone v)
      have hquiet := run_silent hM hrest (hturn.lowered hlow) (by
        intro v
        rw [Bool.eq_false_iff, ne_eq, hturn.passed_iff v, hnone' v, hlow]
        simp)
      rw [hquiet u] at hu
      cases hu
    · intro s'' o'' hstep'
      cases hstep.symm.trans hstep'
      exact ih hrest

theorem run_reports [Fintype τ] {emits : ο → ℕ}
    (hemits : ∀ s i s' o, M.step s i = some (s', o) → emits o = if (view s).phase (who i) = .sending then 1 else 0)
    (hr : M.run s is = some (t, os)) (hs : (view s).reports = 0) : (os.map emits).sum = (view t).reports := by
  refine M.run_induction (G := fun _ _ => True) (fun _ os s => (os.map emits).sum = (view s).reports) ?_ hs.symm
    (M.guarded_of_forall fun _ _ _ => trivial) hr
  intro is os s i s' o hsum _ hstep
  rw [List.map_append, List.sum_append, hsum, (hM s i s' o hstep).reports, ← hemits s i s' o hstep]
  simp

/-- **One report.** In a run that begins with the flag up and ends with all threads done and the
flag down, exactly one report was made if and only if every step was orderly. -/
theorem reported_once_iff [Fintype τ] {emits : ο → ℕ}
    (hemits : ∀ s i s' o, M.step s i = some (s', o) → emits o = if (view s).phase (who i) = .sending then 1 else 0)
    (hr : M.run s is = some (t, os)) (hf : (view s).flag = true) (hearly : ∀ u, ((view s).phase u).early = true)
    (hdone : ∀ u, ∃ r, (view t).phase u = .done r) (hdown : (view t).flag = false) :
    (os.map emits).sum = 1 ↔ M.Guarded (fun s i => Orderly (view s) (who i)) s is := by
  have hnone : ∀ u, ((view s).phase u).passed = false := fun u => Phase.passed_of_early (hearly u)
  have hzero : (view s).reports = 0 := by
    rw [Board.reports, Finset.card_eq_zero, Finset.filter_eq_empty_iff]
    intro u _ hu
    have hu' := hearly u
    rw [hu] at hu'
    cases hu'
  rw [run_reports hM hemits hr hzero, Board.reports, Finset.card_eq_one]
  constructor
  · rintro ⟨u, hu⟩
    have hmem : ∀ v, (view t).phase v = .done true ↔ v = u := by
      intro v
      have hv := Finset.ext_iff.mp hu v
      simpa using hv
    apply orderly_of_unique hM hr ((passed_iff_reported (hdone u)).mpr ((hmem u).mpr rfl))
    intro v hv
    exact (hmem v).mp ((passed_iff_reported (hdone v)).mp hv)
  · intro hg
    obtain ⟨hone, hsome⟩ := run_orderly hM hr hg hf hnone
    obtain ⟨u, hu⟩ := hsome hdown
    refine ⟨u, ?_⟩
    ext v
    simp only [Finset.mem_filter, Finset.mem_univ, true_and, Finset.mem_singleton]
    constructor
    · intro hv
      exact hone v u ((passed_iff_reported (hdone v)).mpr hv) hu
    · rintro rfl
      exact (passed_iff_reported (hdone v)).mp hu

end Runs
end RoomRtc.CheckThenSet
