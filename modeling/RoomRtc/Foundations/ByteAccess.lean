import RoomRtc.Foundations.BigEndian
import RoomRtc.Foundations.Text

/-! Byte buffers read by index and by range. A read past the end is a fault, so that a reader of
buffers that never faults is one that checks before it reads; a loop that is not over after its
turns is a fault too. -/
namespace RoomRtc.Access
open BigEndian
set_option autoImplicit false

inductive Fault where
  | outOfRange
  | endlessLoop
deriving DecidableEq, Repr

/-- `data[i]` -/
def byteAt (data : Bytes) (i : ℕ) : Except Fault UInt8 :=
  match data[i]? with
  | some byte => .ok byte
  | none => .error .outOfRange

/-- `data[i..j]` -/
def slice (data : Bytes) (i j : ℕ) : Except Fault Bytes :=
  if i ≤ j ∧ j ≤ data.length then .ok ((data.drop i).take (j - i)) else .error .outOfRange

/-- `u16::from_be_bytes([data[i], data[i + 1]])` -/
def u16At (data : Bytes) (i : ℕ) : Except Fault ℕ := do
  let high ← byteAt data i
  let low ← byteAt data (i + 1)
  return beNat [high, low]

/-! ## Reads within the buffer -/

theorem byteAt_ok {data : Bytes} {i : ℕ} (h : i < data.length) : byteAt data i = .ok data[i] := by
  rw [byteAt, List.getElem?_eq_getElem h]

theorem slice_ok {data : Bytes} {i j : ℕ} (hij : i ≤ j) (hj : j ≤ data.length) :
    slice data i j = .ok ((data.drop i).take (j - i)) := if_pos ⟨hij, hj⟩

theorem u16At_ok {data : Bytes} {i : ℕ} (h : i + 1 < data.length) : ∃ n, u16At data i = .ok n := by
  rw [u16At, byteAt_ok (Nat.lt_of_succ_lt h), byteAt_ok h]
  exact ⟨_, rfl⟩

/-! ## Reads behind a known beginning -/

theorem byteAt_append (front rest : Bytes) (i : ℕ) : byteAt (front ++ rest) (front.length + i) = byteAt rest i := by
  rw [byteAt, byteAt, List.getElem?_append_right (Nat.le_add_right ..), Nat.add_sub_cancel_left]

theorem slice_append (front rest : Bytes) (i j : ℕ) :
    slice (front ++ rest) (front.length + i) (front.length + j) = slice rest i j := by
  simp only [slice, Nat.add_le_add_iff_left, List.length_append, List.drop_append, Nat.add_sub_add_left,
    Nat.add_sub_cancel_left]
  rw [List.drop_of_length_le (Nat.le_add_right ..), List.nil_append]

theorem slice_left (piece rest : Bytes) : slice (piece ++ rest) 0 piece.length = .ok piece := by
  rw [slice_ok (Nat.zero_le _) (by simp), List.drop_zero, Nat.sub_zero, List.take_left]

theorem byteAt_field (front : Bytes) (byte : UInt8) (rest : Bytes) {i : ℕ} (hi : front.length = i) :
    byteAt (front ++ byte :: rest) i = .ok byte := by
  subst hi
  exact byteAt_append front (byte :: rest) 0

/-- A field is read back where it was written. -/
theorem slice_field (front piece rest : Bytes) {i j : ℕ} (hi : front.length = i) (hj : i + piece.length = j) :
    slice (front ++ (piece ++ rest)) i j = .ok piece := by
  subst hi hj
  exact (slice_append front (piece ++ rest) 0 piece.length).trans (slice_left piece rest)

theorem u16At_beBytes (front : Bytes) {n : ℕ} (hn : n < 65536) (rest : Bytes) :
    u16At (front ++ (beBytes 2 n ++ rest)) front.length = .ok n := by
  have hvalue : beNat (beBytes 2 n) = n := beNat_beBytes_of_lt hn
  have hhigh := byteAt_append front (beBytes 2 n ++ rest) 0
  have hlow := byteAt_append front (beBytes 2 n ++ rest) 1
  rw [Nat.add_zero] at hhigh
  rw [u16At, hhigh, hlow]
  exact congrArg Except.ok hvalue

end RoomRtc.Access
