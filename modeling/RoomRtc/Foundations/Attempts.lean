import Mathlib.Logic.Basic

/-! Code that changes a state and may fail half way: what it has done up to there stays done. `EStateM`
is such code; these are the rules of its pre- and postconditions, with one postcondition for either
way it may end. -/
namespace RoomRtc.Attempts
set_option autoImplicit false

variable {ε σ α β : Type} {x : EStateM ε σ α} {s : σ} {Q Q' : α → σ → Prop} {E E' : ε → σ → Prop}

/-- From `s` on the code succeeds with `Q`, or fails with `E`. -/
def Ends (x : EStateM ε σ α) (s : σ) (Q : α → σ → Prop) (E : ε → σ → Prop) : Prop :=
  match x s with
  | .ok a s' => Q a s'
  | .error e s' => E e s'

/-! ## Rules -/

@[simp] theorem ends_pure (a : α) : Ends (pure a : EStateM ε σ α) s Q E ↔ Q a s := Iff.rfl

@[simp] theorem ends_throw (e : ε) : Ends (throw e : EStateM ε σ α) s Q E ↔ E e s := Iff.rfl

@[simp] theorem ends_get {Q : σ → σ → Prop} : Ends (get : EStateM ε σ σ) s Q E ↔ Q s s := Iff.rfl

@[simp] theorem ends_modify {Q : PUnit → σ → Prop} (f : σ → σ) :
    Ends (modify f : EStateM ε σ PUnit) s Q E ↔ Q ⟨⟩ (f s) := Iff.rfl

/-- Where `b` does not hold the code fails. -/
def ensure (b : Bool) (e : ε) : EStateM ε σ Unit := if b then pure () else throw e

@[simp] theorem ends_ensure (b : Bool) (e : ε) {Q : Unit → σ → Prop} :
    Ends (ensure b e : EStateM ε σ Unit) s Q E ↔ (b = true → Q () s) ∧ (b = false → E e s) := by
  cases b with
  | true => exact ⟨fun h => ⟨fun _ => h, Bool.noConfusion⟩, fun h => h.1 rfl⟩
  | false => exact ⟨fun h => ⟨Bool.noConfusion, fun _ => h⟩, fun h => h.2 rfl⟩

/-- What the first part leaves is what the second one starts from; the whole fails where a part does. -/
@[simp] theorem ends_bind {f : α → EStateM ε σ β} {Q : β → σ → Prop} :
    Ends (x >>= f) s Q E ↔ Ends x s (fun a s' => Ends (f a) s' Q E) E := by
  change (match EStateM.bind x f s with | .ok a s' => Q a s' | .error e s' => E e s') ↔ _
  unfold EStateM.bind Ends
  cases x s <;> rfl

theorem Ends.mono (h : Ends x s Q E) (hQ : ∀ a s', Q a s' → Q' a s') (hE : ∀ e s', E e s' → E' e s') :
    Ends x s Q' E' := by
  unfold Ends at h ⊢
  cases hx : x s with
  | ok a s' =>
    rw [hx] at h
    exact hQ a s' h
  | error e s' =>
    rw [hx] at h
    exact hE e s' h

theorem Ends.of_ok {a : α} {s' : σ} (h : Ends x s Q E) (hx : x s = .ok a s') : Q a s' := by
  unfold Ends at h
  rwa [hx] at h

theorem Ends.of_error {e : ε} {s' : σ} (h : Ends x s Q E) (hx : x s = .error e s') : E e s' := by
  unfold Ends at h
  rwa [hx] at h

/-! ## What code leaves alone -/

/-- Whichever way the code ends, the states before and after are related by `R`. -/
def Keeps (R : σ → σ → Prop) (x : EStateM ε σ α) : Prop :=
    ∀ s, Ends x s (fun _ s' => R s s') fun _ s' => R s s'

variable {R : σ → σ → Prop}

theorem keeps_pure (hrefl : ∀ s, R s s) (a : α) : Keeps R (pure a : EStateM ε σ α) := fun s => hrefl s

theorem keeps_throw (hrefl : ∀ s, R s s) (e : ε) : Keeps R (throw e : EStateM ε σ α) := fun s => hrefl s

theorem keeps_ensure (hrefl : ∀ s, R s s) (b : Bool) (e : ε) : Keeps R (ensure b e : EStateM ε σ Unit) := fun s =>
  (ends_ensure b e).mpr ⟨fun _ => hrefl s, fun _ => hrefl s⟩

theorem keeps_bind (htrans : ∀ s t u, R s t → R t u → R s u) {f : α → EStateM ε σ β} (hx : Keeps R x)
    (hf : ∀ a, Keeps R (f a)) : Keeps R (x >>= f) := by
  intro s
  rw [ends_bind]
  refine (hx s).mono (fun a s' h => ?_) fun _ _ h => h
  exact (hf a s').mono (fun _ _ h' => htrans _ _ _ h h') fun _ _ h' => htrans _ _ _ h h'

end RoomRtc.Attempts
