import Mathlib.Data.Nat.Bitwise
import Mathlib.Data.Finset.Image
import Mathlib.Data.UInt
import Mathlib.Tactic.Ring
import Mathlib.Tactic.Linarith

/-! Big-endian byte strings read as numbers, their bytewise exclusive or, and the
counter blocks of a counter-mode cipher: `n` consecutive numbers from a start value
modulo a block space of size `M`. -/
namespace RoomRtc.BigEndian
set_option autoImplicit false

/-! ## Bytes and numbers -/

def beNat (bytes : List UInt8) : ℕ :=
  bytes.foldl (fun acc b => acc * 256 + b.toNat) 0

/-- The `n` low bytes of `x`, most significant first. -/
def beBytes : ℕ → ℕ → List UInt8
  | 0, _ => []
  | n + 1, x => beBytes n (x / 256) ++ [UInt8.ofNat (x % 256)]

def xorBytes (a b : List UInt8) : List UInt8 := List.zipWith (· ^^^ ·) a b

@[simp] theorem beNat_nil : beNat [] = 0 := rfl

theorem beNat_concat (a : List UInt8) (b : UInt8) : beNat (a ++ [b]) = beNat a * 256 + b.toNat := by
  simp [beNat]

theorem beNat_append (a b : List UInt8) : beNat (a ++ b) = beNat a * 256 ^ b.length + beNat b := by
  induction b using List.reverseRecOn with
  | nil => simp
  | append_singleton b x ih =>
    rw [← List.append_assoc, beNat_concat, beNat_concat, ih, List.length_append, List.length_singleton]
    ring

theorem beNat_lt (a : List UInt8) : beNat a < 256 ^ a.length := by
  induction a using List.reverseRecOn with
  | nil => simp
  | append_singleton a x ih =>
    have hx := x.toNat_lt
    rw [beNat_concat, List.length_append, List.length_singleton, pow_succ]
    omega

@[simp] theorem beNat_replicate_zero (n : ℕ) : beNat (List.replicate n 0) = 0 := by
  induction n with
  | zero => rfl
  | succ n ih => rw [List.replicate_succ', beNat_concat, ih]; rfl

@[simp] theorem beBytes_length (n x : ℕ) : (beBytes n x).length = n := by
  induction n generalizing x with
  | zero => rfl
  | succ n ih => simp [beBytes, ih]

theorem beNat_beBytes (n x : ℕ) : beNat (beBytes n x) = x % 256 ^ n := by
  induction n generalizing x with
  | zero => simp [beBytes, Nat.mod_one]
  | succ n ih =>
    have hb : (UInt8.ofNat (x % 256)).toNat = x % 256 := by
      simp [UInt8.toNat_ofNat']
    rw [beBytes, beNat_concat, ih, hb, pow_succ, Nat.mul_comm (256 ^ n) 256, Nat.mod_mul]
    ring

theorem beNat_beBytes_of_lt {n x : ℕ} (h : x < 256 ^ n) : beNat (beBytes n x) = x := by
  rw [beNat_beBytes, Nat.mod_eq_of_lt h]

theorem beBytes_beNat {n : ℕ} {a : List UInt8} (h : a.length = n) : beBytes n (beNat a) = a := by
  subst h
  induction a using List.reverseRecOn with
  | nil => rfl
  | append_singleton a x ih =>
    have hx := x.toNat_lt
    have hdiv : (beNat a * 256 + x.toNat) / 256 = beNat a := by omega
    have hmod : (beNat a * 256 + x.toNat) % 256 = x.toNat := by omega
    rw [List.length_append, List.length_singleton, beNat_concat, beBytes, hdiv, hmod, ih, UInt8.ofNat_toNat]

/-! ## Exclusive or -/

theorem xorBytes_cancel {a b : List UInt8} (h : a.length ≤ b.length) : xorBytes (xorBytes a b) b = a := by
  induction a generalizing b with
  | nil => rfl
  | cons x a ih =>
    cases b with
    | nil => simp at h
    | cons y b =>
      have hrest : xorBytes (xorBytes a b) b = a := ih (by simpa using h)
      simp only [xorBytes, List.zipWith_cons_cons] at hrest ⊢
      rw [hrest, UInt8.xor_assoc, UInt8.xor_self, UInt8.xor_zero]

theorem xor_split (w a b c d : ℕ) (hb : b < 2 ^ w) (hd : d < 2 ^ w) :
    (a * 2 ^ w + b) ^^^ (c * 2 ^ w + d) = (a ^^^ c) * 2 ^ w + (b ^^^ d) := by
  apply Nat.eq_of_testBit_eq
  intro j
  rw [Nat.mul_comm a, Nat.mul_comm c, Nat.mul_comm (a ^^^ c), Nat.testBit_xor,
    Nat.testBit_two_pow_mul_add a hb, Nat.testBit_two_pow_mul_add c hd,
    Nat.testBit_two_pow_mul_add (a ^^^ c) (Nat.xor_lt_two_pow hb hd), Nat.testBit_xor, Nat.testBit_xor]
  split <;> rfl

theorem beNat_xorBytes (a b : List UInt8) (h : a.length = b.length) :
    beNat (xorBytes a b) = beNat a ^^^ beNat b := by
  induction a using List.reverseRecOn generalizing b with
  | nil =>
    have hb : b = [] := List.eq_nil_of_length_eq_zero h.symm
    subst hb
    rfl
  | append_singleton a x ih =>
    have hne : b ≠ [] := by
      intro hb
      subst hb
      simp at h
    obtain ⟨b, y, rfl⟩ : ∃ b' y, b = b' ++ [y] :=
      ⟨b.dropLast, b.getLast hne, (List.dropLast_append_getLast hne).symm⟩
    have hl : a.length = b.length := by simpa using h
    have hz : xorBytes (a ++ [x]) (b ++ [y]) = xorBytes a b ++ [x ^^^ y] := by
      simp [xorBytes, List.zipWith_append hl]
    rw [hz, beNat_concat, beNat_concat, beNat_concat, ih b hl, UInt8.toNat_xor]
    exact (xor_split 8 _ _ _ _ x.toNat_lt y.toNat_lt).symm

/-! ## Counter blocks -/

/-- The `n` counter blocks from `iv` on, modulo a block space of size `M`. -/
def counterBlocks (M iv n : ℕ) : Finset ℕ := (Finset.range n).image fun j => (iv + j) % M

theorem mem_counterBlocks {M iv n b : ℕ} :
    b ∈ counterBlocks M iv n ↔ ∃ j < n, (iv + j) % M = b := by
  simp [counterBlocks]

/-- Two streams that start at `x < y`, the second of which does not come round to the
first, share no block exactly when the first one stops before `y`. -/
theorem counterBlocks_disjoint_iff {M x y m n : ℕ} (hxy : x < y) (hy : y < M)
    (hround : y + n ≤ x + M) :
    Disjoint (counterBlocks M x m) (counterBlocks M y n) ↔ n = 0 ∨ m ≤ y - x := by
  constructor
  · intro hd
    by_contra hc
    have hn : 0 < n := by omega
    have hm : y - x < m := by omega
    have h1 : y ∈ counterBlocks M x m :=
      mem_counterBlocks.mpr ⟨y - x, hm, by rw [Nat.add_sub_cancel' hxy.le, Nat.mod_eq_of_lt hy]⟩
    have h2 : y ∈ counterBlocks M y n :=
      mem_counterBlocks.mpr ⟨0, hn, by rw [Nat.add_zero, Nat.mod_eq_of_lt hy]⟩
    exact Finset.disjoint_left.mp hd h1 h2
  · intro hc
    rw [Finset.disjoint_left]
    intro b h1 h2
    obtain ⟨i, hi, rfl⟩ := mem_counterBlocks.mp h1
    obtain ⟨j, hj, he⟩ := mem_counterBlocks.mp h2
    have hx : (x + i) % M = x + i := Nat.mod_eq_of_lt (by omega)
    rw [hx] at he
    -- The second stream wraps at most once, and then stays below `x`.
    by_cases hw : y + j < M
    · rw [Nat.mod_eq_of_lt hw] at he
      omega
    · rw [Nat.mod_eq_sub_mod (by omega), Nat.mod_eq_of_lt (by omega)] at he
      omega

end RoomRtc.BigEndian
