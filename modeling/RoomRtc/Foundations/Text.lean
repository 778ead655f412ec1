import Mathlib.Data.List.DropRight

/-! Text as the programs here handle it: a string is the list of its characters, a byte
buffer is a list of bytes, and UTF-8 goes between the two. Trimming, splitting at a
separator, splitting once, reading numbers, and reading a file line by line. -/
namespace RoomRtc
set_option autoImplicit false

abbrev Str := List Char

abbrev Bytes := List UInt8

namespace Text

/-! ## Whitespace and trimming -/

/-- Unicode's `White_Space` property. -/
def isWhitespace (c : Char) : Bool :=
  let n := c.toNat
  (9 ≤ n && n ≤ 13) || n == 32 || n == 0x85 || n == 0xA0 || n == 0x1680 ||
    (0x2000 ≤ n && n ≤ 0x200A) || n == 0x2028 || n == 0x2029 || n == 0x202F || n == 0x205F || n == 0x3000

def trim (s : Str) : Str := (s.dropWhile isWhitespace).rdropWhile isWhitespace

/-- The string does not end in whitespace. -/
def EndsPlain (s : Str) : Prop := ∀ c, s.getLast? = some c → isWhitespace c = false

instance (s : Str) : Decidable (EndsPlain s) :=
  decidable_of_iff (s.getLast?.all fun c => !isWhitespace c) (by
    unfold EndsPlain
    cases s.getLast? <;> simp)

theorem exists_trim (s : Str) : ∃ l r, s = l ++ trim s ++ r ∧
    (∀ c ∈ l, isWhitespace c = true) ∧ ∀ c ∈ r, isWhitespace c = true := by
  refine ⟨s.takeWhile isWhitespace, (s.dropWhile isWhitespace).rtakeWhile isWhitespace, ?_, ?_, ?_⟩
  · rw [trim, List.append_assoc, List.rdropWhile_append_rtakeWhile, List.takeWhile_append_dropWhile]
  · intro c hc
    exact List.mem_takeWhile_imp hc
  · intro c hc
    exact List.mem_rtakeWhile_imp hc

theorem mem_trim_iff {s : Str} {c : Char} (hc : isWhitespace c = false) : c ∈ trim s ↔ c ∈ s := by
  obtain ⟨l, r, hs, hl, hr⟩ := exists_trim s
  constructor
  · intro h
    rw [hs]
    simp [h]
  · intro h
    rw [hs] at h
    simp only [List.mem_append] at h
    rcases h with (h | h) | h
    · simp [hl c h] at hc
    · exact h
    · simp [hr c h] at hc

theorem mem_of_mem_trim {s : Str} {c : Char} (h : c ∈ trim s) : c ∈ s := by
  obtain ⟨l, r, hs, _, _⟩ := exists_trim s
  rw [hs]
  simp [h]

theorem endsPlain_trim (s : Str) : EndsPlain (trim s) := by
  intro c hc
  have hne : trim s ≠ [] := by
    intro h
    simp [h] at hc
  have hlast : (trim s).getLast hne = c := by
    rw [List.getLast?_eq_some_getLast hne] at hc
    exact Option.some.inj hc
  have h := List.rdropWhile_last_not isWhitespace (s.dropWhile isWhitespace) hne
  rw [← hlast]
  exact eq_false_of_ne_true h

/-- Trimming removes exactly the whitespace behind a string that starts and ends plainly. -/
theorem trim_append_of_plain {c : Char} {s ws : Str} (hc : isWhitespace c = false)
    (hs : EndsPlain (c :: s)) (hws : ∀ d ∈ ws, isWhitespace d = true) : trim (c :: s ++ ws) = c :: s := by
  have hdrop : ∀ r : Str, (c :: r).dropWhile isWhitespace = c :: r := by
    intro r
    simp [hc]
  rw [trim, List.cons_append, hdrop, ← List.cons_append]
  induction ws using List.reverseRecOn with
  | nil =>
    rw [List.append_nil, List.rdropWhile_eq_self_iff]
    intro hne
    have := hs _ (List.getLast?_eq_some_getLast hne)
    simp [this]
  | append_singleton ws d ih =>
    rw [← List.append_assoc, List.rdropWhile_concat_pos _ _ _ (hws d (by simp))]
    exact ih fun e he => hws e (by simp [he])

theorem endsPlain_append {s t : Str} (ht : t ≠ []) : EndsPlain (s ++ t) ↔ EndsPlain t := by
  unfold EndsPlain
  rw [List.getLast?_append_of_ne_nil s ht]

/-! ## Splitting -/

theorem mem_splitOn {α : Type} [BEq α] [LawfulBEq α] {sep : α} {s piece : List α}
    (h : piece ∈ s.splitOn sep) : sep ∉ piece ∧ ∀ c ∈ piece, c ∈ s := by
  induction s generalizing piece with
  | nil =>
    rw [List.splitOn_nil, List.mem_singleton] at h
    subst h
    simp
  | cons x s ih =>
    rw [List.splitOn_cons_eq_if_modifyHead] at h
    by_cases hx : (x == sep) = true
    · rw [if_pos hx] at h
      cases List.mem_cons.mp h with
      | inl h =>
        subst h
        simp
      | inr h => exact ⟨(ih h).1, fun c hc => List.mem_cons_of_mem x ((ih h).2 c hc)⟩
    · rw [if_neg hx] at h
      obtain ⟨first, rest, hsplit⟩ := List.exists_cons_of_ne_nil (List.splitOn_ne_nil sep s)
      rw [hsplit, List.modifyHead_cons] at h
      cases List.mem_cons.mp h with
      | inl h =>
        have hf := ih (hsplit ▸ List.mem_cons_self .. : first ∈ s.splitOn sep)
        subst h
        refine ⟨?_, ?_⟩
        · intro hm
          cases List.mem_cons.mp hm with
          | inl he => exact hx (by simp [he])
          | inr hm => exact hf.1 hm
        · intro c hc
          cases List.mem_cons.mp hc with
          | inl he => simp [he]
          | inr hc => exact List.mem_cons_of_mem x (hf.2 c hc)
      | inr h =>
        have hr := ih (hsplit ▸ List.mem_cons_of_mem first h : piece ∈ s.splitOn sep)
        exact ⟨hr.1, fun c hc => List.mem_cons_of_mem x (hr.2 c hc)⟩

theorem splitOn_append_of_not_mem {α : Type} [BEq α] [LawfulBEq α] {sep : α} {a : List α} (b : List α)
    (h : sep ∉ a) : (a ++ b).splitOn sep = (b.splitOn sep).modifyHead (a ++ ·) := by
  induction a with
  | nil =>
    rw [List.nil_append]
    cases b.splitOn sep <;> rfl
  | cons x a ih =>
    rw [List.mem_cons, not_or] at h
    have hx : ¬(x == sep) = true := fun he => h.1 (eq_of_beq he).symm
    rw [List.cons_append, List.splitOn_cons_eq_if_modifyHead, if_neg hx, ih h.2, List.modifyHead_modifyHead]
    rfl

/-- `str::split_once`. -/
def splitOnce (sep : Char) : Str → Option (Str × Str)
  | [] => none
  | c :: s => if c = sep then some ([], s) else (splitOnce sep s).map fun r => (c :: r.1, r.2)

theorem splitOnce_append {sep : Char} {a : Str} (b : Str) (h : sep ∉ a) :
    splitOnce sep (a ++ sep :: b) = some (a, b) := by
  induction a with
  | nil => simp [splitOnce]
  | cons c a ih =>
    rw [List.mem_cons, not_or] at h
    rw [List.cons_append, splitOnce, if_neg (Ne.symm h.1), ih h.2]
    rfl

theorem splitOnce_eq_some {sep : Char} {s a b : Str} (h : splitOnce sep s = some (a, b)) :
    s = a ++ sep :: b := by
  induction s generalizing a with
  | nil => simp [splitOnce] at h
  | cons c s ih =>
    rw [splitOnce] at h
    by_cases hc : c = sep
    · rw [if_pos hc] at h
      cases h
      rw [hc]
      rfl
    · rw [if_neg hc] at h
      obtain ⟨⟨a', b'⟩, hs, he⟩ := Option.map_eq_some_iff.mp h
      cases he
      rw [ih hs]
      rfl

/-- `str::split_whitespace`. -/
def splitWhitespace (s : Str) : List Str := (s.splitOnP isWhitespace).filter (· ≠ [])

/-! ## Numbers -/

/-- `char::to_digit`. -/
def toDigit (radix : ℕ) (c : Char) : Option ℕ :=
  let value :=
    if '0' ≤ c ∧ c ≤ '9' then some (c.toNat - '0'.toNat)
    else if 'a' ≤ c ∧ c ≤ 'z' then some (c.toNat - 'a'.toNat + 10)
    else if 'A' ≤ c ∧ c ≤ 'Z' then some (c.toNat - 'A'.toNat + 10)
    else none
  value.filter (· < radix)

/-- `from_str_radix` of an unsigned type with `bound` values: a plus sign may come first, and
there is at least one digit. -/
def parseUnsigned (radix bound : ℕ) (s : Str) : Option ℕ :=
  let digits := match s with
    | '+' :: digits => digits
    | _ => s
  if digits = [] then none
  else (digits.foldlM (fun n c => (toDigit radix c).map (n * radix + ·)) 0).filter (· < bound)

/-! ## UTF-8 -/

def encode (s : Str) : Bytes := s.flatMap String.utf8EncodeChar

/-- `str::from_utf8`. -/
def decode (bytes : Bytes) : Option Str := bytes.toByteArray.utf8Decode?.map Array.toList

@[simp] theorem decode_encode (s : Str) : decode (encode s) = some s := by
  have h : (encode s).toByteArray = s.utf8Encode := rfl
  rw [decode, h, List.utf8Decode?_utf8Encode]
  simp

theorem encode_of_decode {bytes : Bytes} {s : Str} (h : decode bytes = some s) : encode s = bytes := by
  obtain ⟨chars, hchars, rfl⟩ := Option.map_eq_some_iff.mp h
  have hsome : bytes.toByteArray.utf8Decode?.isSome := by rw [hchars]; rfl
  have hget : bytes.toByteArray.utf8Decode?.get hsome = chars := Option.get_of_eq_some hsome hchars
  have henc : chars.toList.utf8Encode = bytes.toByteArray := by
    rw [← hget]
    exact ByteArray.utf8Encode_get_utf8Decode?
  have hdata := congrArg (fun b : ByteArray => b.data.toList) henc
  simpa [encode, List.utf8Encode] using hdata

@[simp] theorem encode_append (s t : Str) : encode (s ++ t) = encode s ++ encode t :=
  List.flatMap_append

theorem encode_cons (c : Char) (s : Str) : encode (c :: s) = String.utf8EncodeChar c ++ encode s := rfl

/-- The byte of the newline occurs in the encoding of no other character. -/
theorem eq_newline_of_mem {c : Char} (h : (10 : UInt8) ∈ String.utf8EncodeChar c) : c = '\n' := by
  have hc : c.val.toNat = 10 := by
    simp only [String.utf8EncodeChar] at h
    split at h
    all_goals try split at h
    all_goals try split at h
    all_goals simp only [List.mem_cons, List.not_mem_nil, or_false, ← UInt8.toNat_inj,
      UInt8.toNat_ofNat', UInt8.reduceToNat, Nat.reducePow] at h
    all_goals omega
  apply Char.ext
  apply UInt32.toNat_inj.mp
  exact hc

theorem splitOn_encode (s : Str) : (encode s).splitOn 10 = (s.splitOn '\n').map encode := by
  induction s with
  | nil => rfl
  | cons c s ih =>
    by_cases hc : c = '\n'
    · subst hc
      have h1 : encode ('\n' :: s) = [] ++ 10 :: encode s := rfl
      have h2 : '\n' :: s = [] ++ '\n' :: s := rfl
      rw [h1, h2, List.splitOn_append_cons_self, List.splitOn_append_cons_self, ih, List.map_append]
      rfl
    · have hmem : (10 : UInt8) ∉ String.utf8EncodeChar c := fun h => hc (eq_newline_of_mem h)
      rw [encode_cons, splitOn_append_of_not_mem _ hmem, ih, List.splitOn_cons_eq_if_modifyHead,
        if_neg (by simpa using hc)]
      cases s.splitOn '\n' <;> rfl

/-! ## Lines of a file -/

def stripCr (s : Str) : Str := if s.getLast? = some '\r' then s.dropLast else s

/-- `BufRead::lines`. A line ends at a newline, which is dropped together with a carriage
return right before it; what follows the last newline is a line unless it is empty. A line
that is not UTF-8 is an error of its own and reading goes on behind it. -/
def lines (file : Bytes) : List (Option Str) :=
  let pieces := file.splitOn 10
  pieces.dropLast.map (fun line => (decode line).map stripCr) ++
    (pieces.getLast?.toList.filter (· ≠ [])).map decode

theorem newline_not_mem_lines {file : Bytes} {line : Str} (h : some line ∈ lines file) : '\n' ∉ line := by
  have hpiece : ∀ piece ∈ file.splitOn 10, ∀ s, decode piece = some s → '\n' ∉ s := by
    intro piece hp s hs hmem
    apply (mem_splitOn hp).1
    rw [← encode_of_decode hs]
    exact List.mem_flatMap.mpr ⟨'\n', hmem, by decide⟩
  simp only [lines, List.mem_append, List.mem_map, List.mem_filter, Option.mem_toList] at h
  cases h with
  | inl h =>
    obtain ⟨piece, hp, hl⟩ := h
    obtain ⟨s, hs, rfl⟩ := Option.map_eq_some_iff.mp hl
    have hn := hpiece piece (List.dropLast_subset _ hp) s hs
    unfold stripCr
    split
    · exact fun hm => hn (List.dropLast_subset _ hm)
    · exact hn
  | inr h =>
    obtain ⟨piece, ⟨hp, _⟩, hl⟩ := h
    exact hpiece piece (List.mem_of_getLast? hp) line hl

@[simp] theorem lines_nil : lines [] = [] := rfl

theorem lines_append_cons (a b : Bytes) : lines (a ++ 10 :: b) =
    (a.splitOn 10).map (fun line => (decode line).map stripCr) ++ lines b := by
  have hb : b.splitOn 10 ≠ [] := List.splitOn_ne_nil 10 b
  simp only [lines]
  rw [List.splitOn_append_cons_self, List.dropLast_append_of_ne_nil hb,
    List.getLast?_append_of_ne_nil _ hb, List.map_append, List.append_assoc]

theorem lines_concat (a : Bytes) : lines (a ++ [10]) =
    (a.splitOn 10).map fun line => (decode line).map stripCr := by
  rw [lines_append_cons, lines_nil, List.append_nil]

theorem lines_encode_concat (s : Str) : lines (encode (s ++ ['\n'])) =
    (s.splitOn '\n').map fun line => some (stripCr line) := by
  have h : encode (s ++ ['\n']) = encode s ++ [10] := encode_append s ['\n']
  rw [h, lines_concat, splitOn_encode, List.map_map]
  apply List.map_congr_left
  intro line _
  show (decode (encode line)).map stripCr = some (stripCr line)
  rw [decode_encode, Option.map_some]

/-- A file that is empty or ends in a newline: what is appended starts a line of its own. -/
def Terminated (file : Bytes) : Prop := file = [] ∨ ∃ body, file = body ++ [10]

theorem lines_append {file : Bytes} (h : Terminated file) (more : Bytes) :
    lines (file ++ more) = lines file ++ lines more := by
  cases h with
  | inl h => simp [h]
  | inr h =>
    obtain ⟨body, rfl⟩ := h
    rw [lines_concat, List.append_assoc, List.singleton_append, lines_append_cons]

theorem terminated_append (file : Bytes) (s : Str) : Terminated (file ++ encode (s ++ ['\n'])) := by
  refine .inr ⟨file ++ encode s, ?_⟩
  rw [encode_append, List.append_assoc]
  rfl

end Text
end RoomRtc
