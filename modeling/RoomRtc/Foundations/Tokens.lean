import RoomRtc.Foundations.Text

/-! Words between separators: what a splitter gives back of the words that were written, and what
a reader gives back of the number that was written. -/
namespace RoomRtc.Text
set_option autoImplicit false

/-! ## Words without whitespace -/

def Plain (s : Str) : Prop := ∀ c ∈ s, isWhitespace c = false

instance (s : Str) : Decidable (Plain s) :=
  decidable_of_iff (s.all fun c => !isWhitespace c) (by simp [Plain])

/-- A word that a splitter at whitespace finds. -/
structure IsToken (s : Str) : Prop where
  nonempty : s ≠ []
  plain : Plain s

instance (s : Str) : Decidable (IsToken s) :=
  decidable_of_iff (!s.isEmpty && s.all fun c => !isWhitespace c) (by
    simp only [Bool.and_eq_true, Bool.not_eq_true', List.isEmpty_eq_false_iff, List.all_eq_true]
    exact ⟨fun h => ⟨h.1, h.2⟩, fun h => ⟨h.nonempty, h.plain⟩⟩)

theorem plain_append {s t : Str} : Plain (s ++ t) ↔ Plain s ∧ Plain t := List.forall_mem_append

theorem plain_cons {c : Char} {s : Str} : Plain (c :: s) ↔ isWhitespace c = false ∧ Plain s := List.forall_mem_cons

theorem Plain.not_mem {s : Str} (h : Plain s) {c : Char} (hc : isWhitespace c = true) : c ∉ s := by
  intro hmem
  rw [h c hmem] at hc
  cases hc

theorem space_whitespace : isWhitespace ' ' = true := rfl

theorem lineFeed_whitespace : isWhitespace '\n' = true := rfl

theorem Plain.lineFeed_not_mem {s : Str} (h : Plain s) : '\n' ∉ s := h.not_mem lineFeed_whitespace

theorem Plain.endsPlain {s : Str} (h : Plain s) : EndsPlain s := fun c hc => h c (List.mem_of_getLast? hc)

theorem IsToken.append {s t : Str} (hs : IsToken s) (ht : Plain t) : IsToken (s ++ t) :=
  ⟨by simp [hs.nonempty], plain_append.mpr ⟨hs.plain, ht⟩⟩

/-- What is cut off at the end stands behind the last character that stays. -/
theorem rdropWhile_behind {α : Type} {p : α → Bool} {c : α} (hc : p c = false) (a x : List α) :
    (a ++ c :: x).rdropWhile p = a ++ c :: x.rdropWhile p := by
  induction x using List.reverseRecOn with
  | nil => rw [List.rdropWhile_nil, List.rdropWhile_concat_neg _ _ _ (by simp [hc])]
  | append_singleton x d ih =>
    rw [← List.cons_append, ← List.append_assoc]
    by_cases hd : p d = true
    · rw [List.rdropWhile_concat_pos _ _ _ hd, List.rdropWhile_concat_pos _ _ _ hd, ih]
    · rw [List.rdropWhile_concat_neg _ _ _ hd, List.rdropWhile_concat_neg _ _ _ hd, List.append_assoc,
        List.cons_append]

/-- From a token on nothing is trimmed but what is behind it. -/
theorem trim_token_append {a : Str} (ha : IsToken a) (x : Str) : trim (a ++ x) = a ++ x.rdropWhile isWhitespace := by
  have hdrop : (a ++ x).dropWhile isWhitespace = a ++ x := by
    obtain ⟨c, a, rfl⟩ := List.exists_cons_of_ne_nil ha.nonempty
    simp [ha.plain c (List.mem_cons_self ..)]
  obtain ⟨a', d, ha'⟩ := (List.eq_nil_or_concat a).resolve_left ha.nonempty
  have hd : isWhitespace d = false := ha.plain d (by simp [ha'])
  rw [trim, hdrop, ha', List.concat_eq_append, List.append_assoc, List.singleton_append, rdropWhile_behind hd,
    List.append_assoc, List.singleton_append]

theorem rdropWhile_of_endsPlain {x : Str} (h : EndsPlain x) : x.rdropWhile isWhitespace = x := by
  rw [List.rdropWhile_eq_self_iff]
  intro hne
  simp [h _ (List.getLast?_eq_some_getLast hne)]

theorem trim_token_endsPlain {a x : Str} (ha : IsToken a) (hx : EndsPlain x) : trim (a ++ x) = a ++ x := by
  rw [trim_token_append ha, rdropWhile_of_endsPlain hx]

theorem trim_plain {s : Str} (h : Plain s) : trim s = s := by
  cases s with
  | nil => rfl
  | cons c s =>
    have := trim_token_endsPlain (x := []) ⟨List.cons_ne_nil c s, h⟩ (fun _ hc => by cases hc)
    rwa [List.append_nil] at this

theorem trim_cons_whitespace {c : Char} (hc : isWhitespace c = true) (s : Str) : trim (c :: s) = trim s := by
  rw [trim, List.dropWhile_cons_of_pos hc]
  rfl

/-! ## Splitting at whitespace -/

theorem splitWhitespace_token {a : Str} (ha : IsToken a) : splitWhitespace a = [a] := by
  rw [splitWhitespace, List.splitOnP_eq_singleton ha.plain]
  simp [ha.nonempty]

theorem splitWhitespace_append {a : Str} (ha : IsToken a) {c : Char} (hc : isWhitespace c = true) (b : Str) :
    splitWhitespace (a ++ c :: b) = a :: splitWhitespace b := by
  rw [splitWhitespace, List.splitOnP_append_cons_of_forall_mem ha.plain c hc,
    List.filter_cons_of_pos (by simp [ha.nonempty])]
  rfl

theorem splitWhitespace_spaced {a : Str} {words : List Str} (ha : IsToken a) (h : ∀ b ∈ words, IsToken b) :
    splitWhitespace (a ++ words.flatMap fun b => ' ' :: b) = a :: words := by
  induction words generalizing a with
  | nil => rw [List.flatMap_nil, List.append_nil, splitWhitespace_token ha]
  | cons b words ih =>
    rw [List.forall_mem_cons] at h
    rw [List.flatMap_cons, List.cons_append, splitWhitespace_append ha space_whitespace, ih h.1 h.2]

/-! ## Splitting at a character -/

theorem splitOn_single {α : Type} [BEq α] [LawfulBEq α] {sep : α} {a : List α} (h : sep ∉ a) :
    a.splitOn sep = [a] := by
  have := splitOn_append_of_not_mem [] h
  rwa [List.append_nil, List.splitOn_nil, List.modifyHead_cons, List.append_nil] at this

theorem splitOn_first {α : Type} [BEq α] [LawfulBEq α] {sep : α} {a : List α} (h : sep ∉ a) (b : List α) :
    (a ++ sep :: b).splitOn sep = a :: b.splitOn sep := by
  rw [List.splitOn_append_cons_self, splitOn_single h]
  rfl

theorem splitOn_led {α : Type} [BEq α] [LawfulBEq α] {sep : α} {first : List α} {lines : List (List α)}
    (hfirst : sep ∉ first) (h : ∀ line ∈ lines, sep ∉ line) :
    (first ++ lines.flatMap fun line => sep :: line).splitOn sep = first :: lines := by
  induction lines generalizing first with
  | nil => rw [List.flatMap_nil, List.append_nil, splitOn_single hfirst]
  | cons line lines ih =>
    rw [List.forall_mem_cons] at h
    rw [List.flatMap_cons, List.cons_append, splitOn_first hfirst, ih h.1 h.2]

/-! ## Fields behind a keyword -/

/-- A keyword with its fields, each behind a separator. -/
def fieldsText (sep : Char) (keyword : Str) (fields : List Str) : Str := keyword ++ fields.flatMap fun f => sep :: f

/-- The fields, the last one without the whitespace at its end. -/
def trimLast : List Str → List Str
  | [] => []
  | [f] => [f.rdropWhile isWhitespace]
  | f :: g :: fields => f :: trimLast (g :: fields)

theorem rdropWhile_fields {sep : Char} (hsep : isWhitespace sep = false) (fields : List Str) :
    (fields.flatMap fun f => sep :: f).rdropWhile isWhitespace = (trimLast fields).flatMap fun f => sep :: f := by
  induction fields using trimLast.induct with
  | case1 => rfl
  | case2 f => simpa [trimLast] using rdropWhile_behind hsep [] f
  | case3 f g fields ih =>
    have hcut : ∀ x, ((sep :: f) ++ sep :: x).rdropWhile isWhitespace = (sep :: f) ++
      (sep :: x).rdropWhile isWhitespace := by
      intro x
      have hx := rdropWhile_behind hsep [] x
      rw [rdropWhile_behind hsep, ← List.nil_append (sep :: x), hx, List.nil_append]
    have hright : (trimLast (f :: g :: fields)).flatMap (fun f => sep :: f) =
        (sep :: f) ++ (trimLast (g :: fields)).flatMap fun f => sep :: f := List.flatMap_cons
    rw [hright, ← ih, List.flatMap_cons]
    exact hcut _

theorem not_mem_trimLast {sep : Char} {fields : List Str} (h : ∀ f ∈ fields, sep ∉ f) :
    ∀ f ∈ trimLast fields, sep ∉ f := by
  induction fields using trimLast.induct with
  | case1 => exact h
  | case2 f =>
    rw [List.forall_mem_singleton] at h
    rw [trimLast, List.forall_mem_singleton]
    exact fun hmem => h ((List.rdropWhile_prefix isWhitespace f).subset hmem)
  | case3 f g fields ih =>
    rw [List.forall_mem_cons] at h
    rw [trimLast, List.forall_mem_cons]
    exact ⟨h.1, ih h.2⟩

theorem splitOn_trim_fields {sep : Char} {keyword : Str} {fields : List Str} (hsep : isWhitespace sep = false)
    (hkeyword : IsToken keyword ∧ sep ∉ keyword) (hfields : ∀ f ∈ fields, sep ∉ f) :
    (trim (fieldsText sep keyword fields ++ ['\n'])).splitOn sep = keyword :: trimLast fields := by
  rw [fieldsText, List.append_assoc, trim_token_append hkeyword.1, List.rdropWhile_concat_pos _ _ _ lineFeed_whitespace,
    rdropWhile_fields hsep, splitOn_led hkeyword.2 (not_mem_trimLast hfields)]

/-! ## Numbers -/

theorem toDigit_digitChar : ∀ d < 10, toDigit 10 (Nat.digitChar d) = some d := by decide

theorem toDigit_toUpper : ∀ d < 16, toDigit 16 (Nat.digitChar d).toUpper = some d := by decide

theorem isDigit_toDigits {n : ℕ} {c : Char} (h : c ∈ Nat.toDigits 10 n) : c.isDigit = true :=
  Nat.isDigit_of_mem_toDigits (by omega) (by omega) h

theorem foldlM_toDigits (n : ℕ) :
    (Nat.toDigits 10 n).foldlM (fun acc c => (toDigit 10 c).map (acc * 10 + ·)) 0 = some n := by
  induction n using Nat.strongRecOn with
  | ind n ih =>
    by_cases h : n < 10
    · rw [Nat.toDigits_of_lt_base h]
      simp [toDigit_digitChar n h]
    · rw [Nat.toDigits_of_base_le (by omega) (by omega), List.foldlM_append, ih (n / 10) (by omega)]
      simp [toDigit_digitChar (n % 10) (Nat.mod_lt n (by omega))]
      omega

theorem digit_plain {c : Char} (h : c.isDigit = true) : isWhitespace c = false := by
  have h' : 48 ≤ c.toNat ∧ c.toNat ≤ 57 := by
    simpa [Char.isDigit, UInt32.le_iff_toNat_le] using h
  unfold isWhitespace
  simp only [Bool.or_eq_false_iff, Bool.and_eq_false_iff, decide_eq_false_iff_not, beq_eq_false_iff_ne]
  omega

theorem isToken_toDigits (n : ℕ) : IsToken (Nat.toDigits 10 n) :=
  ⟨Nat.toDigits_ne_nil, fun _ hc => digit_plain (isDigit_toDigits hc)⟩

/-- A number in decimal is read back, if it is in range. -/
theorem parseUnsigned_toDigits {bound n : ℕ} (h : n < bound) :
    parseUnsigned 10 bound (Nat.toDigits 10 n) = some n := by
  have hne : Nat.toDigits 10 n ≠ [] := Nat.toDigits_ne_nil
  have hplus : ∀ rest, Nat.toDigits 10 n ≠ '+' :: rest := by
    intro rest hrest
    have hdigit : '+'.isDigit = true := isDigit_toDigits (n := n) (by simp [hrest])
    cases hdigit
  unfold parseUnsigned
  split
  · next digits hdigits => exact absurd hdigits (hplus digits)
  · rw [if_neg hne, foldlM_toDigits]
    simp [h]

end RoomRtc.Text
