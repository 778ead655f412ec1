import Mathlib.Data.Nat.ModEq
import Mathlib.Tactic.Linarith

/-! Positions on a ring of `N` slots: the slot of a number is its remainder modulo `N`, and
within a window of fewer than `N` numbers a slot determines its number. -/
namespace RoomRtc.Ring
set_option autoImplicit false

theorem succ_mod (a N : ℕ) : (a % N + 1) % N = (a + 1) % N := Nat.mod_add_mod a N 1

theorem eq_of_mod_eq {N a b : ℕ} (h : a % N = b % N) (hab : a < b + N) (hba : b < a + N) : a = b := by
  cases Nat.le_total a b with
  | inl hle =>
    have hd : N ∣ b - a := (Nat.modEq_iff_dvd' hle).mp h
    have hz : b - a = 0 := Nat.eq_zero_of_dvd_of_lt hd (by omega)
    omega
  | inr hle =>
    have hd : N ∣ a - b := (Nat.modEq_iff_dvd' hle).mp h.symm
    have hz : a - b = 0 := Nat.eq_zero_of_dvd_of_lt hd (by omega)
    omega

theorem mod_ne_of_lt {N a b : ℕ} (hab : a < b) (hba : b < a + N) : a % N ≠ b % N := by
  intro h
  have := eq_of_mod_eq h (by omega) hba
  omega

/-- For `r ≤ w < r + N` the slot of `w` comes before the slot of `r` exactly when the window
crosses a multiple of `N`. -/
theorem mod_window {N r w : ℕ} (hN : 0 < N) (h1 : r ≤ w) (h2 : w < r + N) :
    (r % N ≤ w % N ∧ w % N = r % N + (w - r)) ∨
      (w % N < r % N ∧ w % N + N = r % N + (w - r)) := by
  have hr := Nat.mod_lt r hN
  have hw : w % N = (r % N + (w - r)) % N := by
    rw [Nat.mod_add_mod, Nat.add_sub_cancel' h1]
  by_cases hc : r % N + (w - r) < N
  · rw [Nat.mod_eq_of_lt hc] at hw
    exact Or.inl ⟨by omega, hw⟩
  · have hge : N ≤ r % N + (w - r) := by omega
    have hlt : r % N + (w - r) - N < N := by omega
    rw [Nat.mod_eq_sub_mod hge, Nat.mod_eq_of_lt hlt] at hw
    exact Or.inr ⟨by omega, by omega⟩

/-- Every slot is reached from every number within one round. -/
theorem exists_add_mod {N i : ℕ} (hi : i < N) (c : ℕ) : ∃ k < N, (c + k) % N = i := by
  have hN : 0 < N := by omega
  have hc := Nat.mod_lt c hN
  refine ⟨(i + N - c % N) % N, Nat.mod_lt _ hN, ?_⟩
  rw [Nat.add_mod_mod, ← Nat.mod_add_mod, Nat.add_sub_cancel' (by omega), Nat.add_mod_right, Nat.mod_eq_of_lt hi]

/-- The slots from that of `r` on to that of `w`, going round, are those of the numbers
`r .. w`. -/
theorem mem_arc_iff {N r w pos : ℕ} (hpos : pos < N) (h1 : r ≤ w) (h2 : w < r + N) :
    (if r % N ≤ w % N then r % N ≤ pos ∧ pos ≤ w % N else r % N ≤ pos ∨ pos ≤ w % N) ↔
      ∃ x, r ≤ x ∧ x ≤ w ∧ x % N = pos := by
  have hN : 0 < N := by omega
  have hw := mod_window hN h1 h2
  have hx : ∀ x, r ≤ x → x ≤ w → (r % N ≤ x % N ∧ x % N = r % N + (x - r)) ∨
      (x % N < r % N ∧ x % N + N = r % N + (x - r)) :=
    fun x h3 h4 => mod_window hN h3 (by omega)
  have hmod : ∀ d, (r + d) % N = (r % N + d) % N := fun d => (Nat.mod_add_mod r N d).symm
  constructor
  · intro h
    -- Count from `r` to the slot, over the end of the ring when the slot lies before it.
    by_cases hp : r % N ≤ pos
    · refine ⟨r + (pos - r % N), by omega, ?_, ?_⟩
      · split at h <;> omega
      · rw [hmod, Nat.add_sub_cancel' hp, Nat.mod_eq_of_lt hpos]
    · have hr := Nat.mod_lt r hN
      refine ⟨r + (pos + N - r % N), by omega, ?_, ?_⟩
      · split at h <;> omega
      · rw [hmod, Nat.add_sub_cancel' (by omega), Nat.add_mod_right, Nat.mod_eq_of_lt hpos]
  · rintro ⟨x, h3, h4, rfl⟩
    have := hx x h3 h4
    have := Nat.mod_lt w hN
    split <;> omega

end RoomRtc.Ring
