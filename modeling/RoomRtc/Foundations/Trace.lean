import Mathlib.Data.List.DropRight
import RoomRtc.Foundations.Machine

/-! The history of a run: the steps that were taken, each with the state before it, and what a
history says about the last time something happened and about what came after it. -/
namespace RoomRtc
set_option autoImplicit false

/-- Every element of the list meets `P` with what is before it. -/
def AtEvery {α : Type} (P : List α → α → Prop) (l : List α) : Prop :=
  ∀ past x rest, l = past ++ x :: rest → P past x

theorem AtEvery.get {α : Type} {P : List α → α → Prop} {l : List α} (h : AtEvery P l) {n : ℕ} {x : α}
    (hx : l[n]? = some x) : P (l.take n) x := by
  obtain ⟨hn, rfl⟩ := List.getElem?_eq_some_iff.mp hx
  apply h (l.take n) l[n] (l.drop (n + 1))
  rw [← List.drop_eq_getElem_cons hn, List.take_append_drop]

theorem atEvery_iff_get {α : Type} {P : List α → α → Prop} {l : List α} :
    AtEvery P l ↔ ∀ n : Fin l.length, P (l.take n) (l.get n) := by
  constructor
  · intro h n
    exact h.get (List.getElem?_eq_getElem n.isLt)
  · rintro h past x rest rfl
    have hx := h ⟨past.length, by simp⟩
    simp only [List.get_eq_getElem, List.getElem_append_right (le_refl _), Nat.sub_self, List.getElem_cons_zero,
      List.take_left'] at hx
    exact hx

instance decidableAtEvery {α : Type} (P : List α → α → Prop) [∀ past x, Decidable (P past x)] (l : List α) :
    Decidable (AtEvery P l) :=
  decidable_of_iff _ atEvery_iff_get.symm

/-- What holds at every element of a list holds at every element of what came first. -/
theorem AtEvery.left {α : Type} {P : List α → α → Prop} {l l' : List α}
    (h : AtEvery P (l ++ l')) : AtEvery P l := by
  rintro past x rest rfl
  exact h past x (rest ++ l') (by simp)

/-! ## The steps of a run -/

structure Taken (σ ι ο : Type) where
  state : σ
  input : ι
  output : ο

namespace Machine
variable {σ ι ο : Type} (M : Machine σ ι ο)

/-- The steps the machine takes until it stops or the inputs are used up. -/
def trace : σ → List ι → List (Taken σ ι ο)
  | _, [] => []
  | s, i :: is =>
    match M.step s i with
    | none => []
    | some (s', o) => ⟨s, i, o⟩ :: trace s' is

theorem trace_input {s : σ} {is : List ι} {n : ℕ} {x : Taken σ ι ο} (h : (M.trace s is)[n]? = some x) :
    is[n]? = some x.input := by
  induction is generalizing s n with
  | nil => cases h
  | cons i is ih =>
    rw [trace] at h
    split at h
    · cases h
    · next s' o hs =>
      cases n with
      | zero =>
        cases h
        rfl
      | succ n => exact ih h

/-- **From steps to histories.** What holds at first and is kept by every step holds, at every step
of a run, of the history before the step and the state in which it is taken. -/
theorem trace_induction (P : List (Taken σ ι ο) → σ → Prop)
    (hstep : ∀ past s i s' o, P past s → M.step s i = some (s', o) → P (past ++ [⟨s, i, o⟩]) s')
    {s : σ} (h0 : P [] s) {is : List ι} {past rest : List (Taken σ ι ο)} {x : Taken σ ι ο}
    (h : M.trace s is = past ++ x :: rest) :
    P past x.state ∧ ∃ s', M.step x.state x.input = some (s', x.output) := by
  have key : ∀ (is : List ι) (past₀ : List (Taken σ ι ο)) (s : σ)
    (past : List (Taken σ ι ο)), P past₀ s →
      M.trace s is = past ++ x :: rest →
      P (past₀ ++ past) x.state ∧ ∃ s', M.step x.state x.input = some (s', x.output) := by
    intro is
    induction is with
    | nil =>
      intro past₀ s past _ h
      cases past <;> cases h
    | cons i is ih =>
      intro past₀ s past hP h
      rw [trace] at h
      split at h
      · cases past <;> cases h
      · next s' o hs =>
        cases past with
        | nil =>
          obtain ⟨rfl, _⟩ := List.cons.inj h
          rw [List.append_nil]
          exact ⟨hP, s', hs⟩
        | cons y past =>
          obtain ⟨rfl, hrest⟩ := List.cons.inj h
          have hnext := ih (past₀ ++ [⟨s, i, o⟩]) s' past (hstep _ _ _ _ _ hP hs) hrest
          rw [List.append_assoc] at hnext
          exact hnext
  exact key is [] s past h0 h

/-- Two properties of a step that agree under an invariant agree along every run. -/
theorem atEvery_trace_iff {P Q : List (Taken σ ι ο) → Taken σ ι ο → Prop}
    (J : List (Taken σ ι ο) → σ → Prop)
    (hstep : ∀ past s i s' o, J past s → M.step s i = some (s', o) → J (past ++ [⟨s, i, o⟩]) s')
    (hiff : ∀ past x s', J past x.state → M.step x.state x.input = some (s', x.output) → (P past x ↔ Q past x))
    {s : σ} (h0 : J [] s) (is : List ι) : AtEvery P (M.trace s is) ↔ AtEvery Q (M.trace s is) := by
  refine forall₃_congr fun past x rest => forall_congr' fun h => ?_
  obtain ⟨hJ, s', hs⟩ := M.trace_induction J hstep h0 h
  exact hiff past x s' hJ hs

/-- **A register.** A place that each step writes, keeps or empties holds `a` at the end of a run just when
some step wrote `a` and all steps after it kept it. -/
theorem register_iff {α : Type} {reg : σ → Option α} {Writes : σ → ι → α → Prop}
    {Keeps : σ → ι → Prop}
    (hstep : ∀ s i s' o a, M.step s i = some (s', o) →
      (reg s' = some a ↔ Writes s i a ∨ (reg s = some a ∧ Keeps s i)))
    {s t : σ} {is : List ι} {os : List ο} (h0 : reg s = none) (hr : M.run s is = some (t, os)) (a : α) :
    reg t = some a ↔ ∃ before i after u u' o ps, is = before ++ i :: after ∧ M.run s before = some (u, ps) ∧
      M.step u i = some (u', o) ∧ Writes u i a ∧ M.Guarded Keeps u' after := by
  induction is using List.reverseRecOn generalizing t os with
  | nil =>
    cases hr
    simp [h0]
  | append_singleton is j ih =>
    obtain ⟨v, ps, qs, hv, hlast, _⟩ := M.run_append_some hr
    obtain ⟨t', o', _, hj, hnil, _⟩ := M.run_cons_some hlast
    cases hnil
    rw [hstep v j t o' a hj, ih hv]
    constructor
    · rintro (hwrites | ⟨⟨before, i, after, u, u', o, ps', rfl, hu, hi, hwrites, hkept⟩, hkeeps⟩)
      · exact ⟨is, j, [], v, t, o', ps, rfl, hv, hj, hwrites, trivial⟩
      · refine ⟨before, i, after ++ [j], u, u', o, ps', by simp, hu, hi, hwrites, ?_⟩
        refine M.guarded_append_intro hkept fun w ws hw => ⟨?_, fun _ _ _ => trivial⟩
        have hsame := M.run_append hu (M.run_cons hi hw)
        rw [hv] at hsame
        cases hsame
        exact hkeeps
    · rintro ⟨before, i, after, u, u', o, ps', heq, hu, hi, hwrites, hkept⟩
      cases after using List.reverseRecOn with
      | nil =>
        obtain ⟨rfl, hlast⟩ := List.append_inj' heq rfl
        obtain ⟨rfl, _⟩ := List.cons.inj hlast
        rw [hv] at hu
        cases hu
        exact .inl hwrites
      | append_singleton after k =>
        rw [← List.cons_append, ← List.append_assoc] at heq
        obtain ⟨rfl, hlast⟩ := List.append_inj' heq rfl
        obtain ⟨rfl, _⟩ := List.cons.inj hlast
        obtain ⟨u₁, _, ws, hu₁, hrest, _⟩ := M.run_append_some hv
        obtain ⟨u₂, _, _, hi₂, hafter, _⟩ := M.run_cons_some hrest
        rw [hu] at hu₁
        cases hu₁
        rw [hi] at hi₂
        cases hi₂
        exact .inr ⟨⟨before, i, after, u, u', o, ps', rfl, hu, hi, hwrites, M.guarded_left hkept⟩,
          (M.guarded_append hkept hafter).1⟩

end Machine

/-! ## The last time, and since then -/

section since
variable {α : Type} (p : α → Bool)

def lastOf (l : List α) : Option α := l.reverse.find? p

/-- What came after the last element with `p`. -/
def since (l : List α) : List α := l.rtakeWhile fun x => !p x

variable {p} {l : List α} {x : α}

theorem lastOf_concat_self (h : p x = true) : lastOf p (l ++ [x]) = some x := by
  rw [lastOf, List.reverse_concat, List.find?_cons_of_pos h]

theorem lastOf_concat_other (h : p x = false) : lastOf p (l ++ [x]) = lastOf p l := by
  rw [lastOf, List.reverse_concat, List.find?_cons_of_neg (by simp [h])]
  rfl

theorem since_concat_self (h : p x = true) : since p (l ++ [x]) = [] :=
  List.rtakeWhile_concat_neg _ _ _ (by simp [h])

theorem since_concat_other (h : p x = false) : since p (l ++ [x]) = since p l ++ [x] :=
  List.rtakeWhile_concat_pos _ _ _ (by simp [h])

/-- **One answer for each question.** Where no answer comes before the first question, nor after
another answer to the last one, there are at most as many answers as questions. -/
theorem countP_le_of_answers {a q : α → Bool} (hdisjoint : ∀ x, a x = true → q x = false)
    (h : AtEvery (fun past x => a x = true → (lastOf q past).isSome ∧ ∀ y ∈ since q past, a y = false) l) :
    l.countP a ≤ l.countP q := by
  -- an unanswered last question keeps the two apart
  suffices hkey : l.countP a ≤ l.countP q ∧
      ((lastOf q l).isSome → (∀ y ∈ since q l, a y = false) → l.countP a < l.countP q) from hkey.1
  induction l using List.reverseRecOn with
  | nil => exact ⟨le_refl 0, nofun⟩
  | append_singleton l x ih =>
    obtain ⟨hle, hlt⟩ := ih fun past y rest hl => h past y (rest ++ [x]) (by rw [hl, List.append_assoc]; rfl)
    rw [List.countP_append, List.countP_append, List.countP_singleton, List.countP_singleton]
    cases hq : q x with
    | true =>
      have ha : a x = false := by
        cases hax : a x with
        | false => rfl
        | true => cases hq.symm.trans (hdisjoint x hax)
      rw [ha]
      exact ⟨Nat.le_succ_of_le hle, fun _ _ => Nat.lt_succ_of_le hle⟩
    | false =>
      rw [lastOf_concat_other hq, since_concat_other hq]
      cases ha : a x with
      | true =>
        obtain ⟨hsome, hnone⟩ := h l x [] rfl ha
        refine ⟨Nat.succ_le_of_lt (hlt hsome hnone), fun _ hall => ?_⟩
        cases ha.symm.trans (hall x (List.mem_append_right _ (List.mem_singleton_self x)))
      | false => exact ⟨hle, fun hsome hall => hlt hsome fun y hy => hall y (List.mem_append_left _ hy)⟩

end since
end RoomRtc
