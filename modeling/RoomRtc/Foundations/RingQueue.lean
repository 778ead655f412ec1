import RoomRtc.Foundations.Ring
import Mathlib.Data.List.DropRight

/-! A queue laid out on a ring of slots: the elements stand in order from a first slot on, going
round at the end. Writing to the slot behind the last element adds one there, moving the first
slot on takes one off, and with every slot taken a write replaces the oldest element. -/
namespace RoomRtc.RingQueue
set_option autoImplicit false
variable {α : Type}

/-- The elements of `q` stand in the slots from `start` on. -/
def Laid (slots : List α) (start : ℕ) (q : List α) : Prop :=
  ∀ i < q.length, slots[(start + i) % slots.length]? = q[i]?

theorem laid_nil (slots : List α) (start : ℕ) : Laid slots start [] :=
  fun _ h => absurd h (Nat.not_lt_zero _)

/-- A write behind the last element adds one element. -/
theorem Laid.set_append {slots q : List α} {start : ℕ} (h : Laid slots start q) (hq : q.length < slots.length)
    (x : α) : Laid (slots.set ((start + q.length) % slots.length) x) start (q ++ [x]) := by
  intro i hi
  rw [List.length_append, List.length_singleton] at hi
  rw [List.length_set]
  by_cases hlast : i = q.length
  · subst hlast
    have hslot : (start + q.length) % slots.length < slots.length := Nat.mod_lt _ (by omega)
    rw [List.getElem?_set_self hslot, List.getElem?_concat_length]
  · have hlt : i < q.length := by omega
    have hne := Ring.mod_ne_of_lt (N := slots.length) (a := start + i) (b := start + q.length) (by omega) (by omega)
    rw [List.getElem?_set_ne (Ne.symm hne), List.getElem?_append_left hlt]
    exact h i hlt

theorem Laid.head {slots q : List α} {start : ℕ} {x : α} (h : Laid slots start (x :: q)) :
    slots[start % slots.length]? = some x := h 0 (Nat.succ_pos _)

theorem Laid.tail {slots q : List α} {start : ℕ} {x : α} (h : Laid slots start (x :: q)) :
    Laid slots ((start + 1) % slots.length) q := by
  intro i hi
  have hshift : ((start + 1) % slots.length + i) % slots.length = (start + (i + 1)) % slots.length := by
    rw [Nat.mod_add_mod]
    congr 1
    omega
  rw [hshift]
  exact h (i + 1) (Nat.succ_lt_succ hi)

/-- With every slot taken, a write behind the last element replaces the first one. -/
theorem Laid.set_replace {slots q : List α} {start : ℕ} {y : α} (h : Laid slots start (y :: q))
    (hq : q.length + 1 = slots.length) (x : α) :
    Laid (slots.set ((start + (q.length + 1)) % slots.length) x) ((start + 1) % slots.length) (q ++ [x]) := by
  have hslot : ((start + 1) % slots.length + q.length) % slots.length = (start + (q.length + 1)) % slots.length := by
    rw [Nat.mod_add_mod]
    congr 1
    omega
  rw [← hslot]
  exact h.tail.set_append (by omega) x

/-! ## Keeping the last elements -/

theorem rtake_of_length_le {c : ℕ} {q : List α} (h : q.length ≤ c) : q.rtake c = q := by
  rw [List.rtake, Nat.sub_eq_zero_of_le h, List.drop_zero]

theorem rtake_rtake_append (c : ℕ) (q r : List α) : (q.rtake c ++ r).rtake c = (q ++ r).rtake c := by
  simp only [List.rtake_eq_reverse_take_reverse, List.reverse_append, List.reverse_reverse, List.take_append,
    List.take_take, List.length_reverse]
  rw [Nat.min_eq_left (Nat.sub_le _ _)]

end RoomRtc.RingQueue
