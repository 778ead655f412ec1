import Mathlib.Algebra.Order.BigOperators.Group.List
import Mathlib.Algebra.Order.Ring.Nat
import Mathlib.Data.List.Forall2
import Mathlib.Data.List.Flatten
import RoomRtc.Foundations.Text

/-! Line messages on a byte stream that keeps no message boundaries. A message is a keyword with
separated fields behind it, is written with a newline at its end, and is read from whatever bytes
one read of the stream brings, surrounding whitespace aside. When the reads give back the
messages: the separators that the reader wants are just those that were written, and counted from
the end of the stream they fix where every read begins. -/
namespace RoomRtc.Framing
open Text
set_option autoImplicit false

/-! ## Cutting at separators and at whitespace -/

theorem count_append_sep (sep : Char) (a b : Str) : (a ++ sep :: b).count sep = a.count sep + b.count sep + 1 := by
  rw [List.count_append, List.count_cons_self, Nat.add_assoc]

theorem count_whitespace {sep : Char} {w : Str} (hsep : isWhitespace sep = false)
    (hw : ∀ c ∈ w, isWhitespace c = true) : w.count sep = 0 := by
  rw [List.count_eq_zero]
  intro hmem
  rw [hw sep hmem] at hsep
  cases hsep

/-- Two ways to cut a text at a separator agree when as many separators follow. -/
theorem append_cons_inj {sep : Char} {a b x y : Str} (h : a ++ sep :: x = b ++ sep :: y)
    (hcount : x.count sep = y.count sep) : a = b ∧ x = y := by
  induction a generalizing b with
  | nil =>
    cases b with
    | nil => exact ⟨rfl, (List.cons.inj h).2⟩
    | cons c b =>
      have hx : x = b ++ sep :: y := (List.cons.inj h).2
      rw [hx, count_append_sep] at hcount
      omega
  | cons d a ih =>
    cases b with
    | nil =>
      have hy : a ++ sep :: x = y := (List.cons.inj h).2
      rw [← hy, count_append_sep] at hcount
      omega
    | cons c b =>
      obtain ⟨hdc, htail⟩ := List.cons.inj h
      obtain ⟨hab, hxy⟩ := ih htail
      exact ⟨by rw [hdc, hab], hxy⟩

theorem rdropWhile_append {α : Type} {p : α → Bool} {w : List α} (l : List α) (hw : ∀ c ∈ w, p c = true) :
    (l ++ w).rdropWhile p = l.rdropWhile p := by
  induction w using List.reverseRecOn with
  | nil => rw [List.append_nil]
  | append_singleton w d ih =>
    rw [← List.append_assoc, List.rdropWhile_concat_pos _ _ _ (hw d (by simp))]
    exact ih fun c hc => hw c (by simp [hc])

/-- A word without whitespace and separators. -/
def IsWord (sep : Char) (word : Str) : Prop :=
  word ≠ [] ∧ (∀ c ∈ word, isWhitespace c = false) ∧ sep ∉ word

theorem isWord_of_all {sep : Char} {word : Str}
    (h : (!word.isEmpty && word.all fun c => !isWhitespace c && c != sep) = true) : IsWord sep word := by
  simp only [Bool.and_eq_true, List.all_eq_true, Bool.not_eq_true', bne_iff_ne, List.isEmpty_eq_false_iff] at h
  exact ⟨h.1, fun c hc => (h.2 c hc).1, fun hmem => (h.2 sep hmem).2 rfl⟩

/-- Whitespace behind a word that has none is no part of it. -/
theorem append_word_inj {sep : Char} {u v word w w' : Str} (hword : IsWord sep word)
    (hw : ∀ c ∈ w, isWhitespace c = true) (hw' : ∀ c ∈ w', isWhitespace c = true)
    (h : u ++ word ++ w = v ++ word ++ w') : u = v ∧ w = w' := by
  have hkeep : ∀ x : Str, (x ++ word).rdropWhile isWhitespace = x ++ word := by
    intro x
    rw [List.rdropWhile_eq_self_iff]
    intro hx
    have hlast : (x ++ word).getLast hx ∈ word := by
      rw [List.getLast_append_of_ne_nil hx hword.1]
      exact List.getLast_mem hword.1
    simp [hword.2.1 _ hlast]
  have hdrop := congrArg (List.rdropWhile isWhitespace) h
  rw [rdropWhile_append _ hw, rdropWhile_append _ hw', hkeep, hkeep] at hdrop
  have huv : u = v := List.append_cancel_right hdrop
  subst huv
  exact ⟨rfl, List.append_cancel_left h⟩

theorem trim_append_whitespace {w : Str} (s : Str) (hw : ∀ c ∈ w, isWhitespace c = true) :
    trim (s ++ w) = trim s := by
  unfold trim
  rw [List.dropWhile_append]
  split
  · next hs =>
    have hs' : s.dropWhile isWhitespace = [] := by simpa using hs
    have hw' : w.dropWhile isWhitespace = [] := List.dropWhile_eq_nil_iff.mpr hw
    rw [hs', hw']
  · exact rdropWhile_append _ hw

theorem trim_trim (s : Str) : trim (trim s) = trim s := by
  have hdrop : (trim s).dropWhile isWhitespace = trim s := by
    rw [List.dropWhile_eq_self_iff]
    intro hpos
    have hne : s.dropWhile isWhitespace ≠ [] := by
      intro hnil
      simp [trim, hnil] at hpos
    have hhead : (trim s).head (List.ne_nil_of_length_pos hpos) = (s.dropWhile isWhitespace).head hne :=
      (List.rdropWhile_prefix isWhitespace (s.dropWhile isWhitespace)).head _
    rw [← List.head_eq_getElem (List.ne_nil_of_length_pos hpos), hhead]
    simp [List.head_dropWhile_not isWhitespace hne]
  conv_lhs => rw [trim, hdrop]
  exact List.rdropWhile_idempotent isWhitespace (s.dropWhile isWhitespace)

theorem count_trim {sep : Char} (hsep : isWhitespace sep = false) (s : Str) : (trim s).count sep = s.count sep := by
  obtain ⟨l, r, hs, hl, hr⟩ := exists_trim s
  rw [congrArg (List.count sep) hs, List.count_append, List.count_append, count_whitespace hsep hl,
    count_whitespace hsep hr]
  omega

/-! ## Readers -/

/-- The keyword alone, or the keyword with fields behind a separator. -/
def Opens (sep : Char) (keyword s : Str) : Prop := s = keyword ∨ ∃ fields, s = keyword ++ sep :: fields

/-- Splitting at the separator finds what the text opens with and counts the separators. -/
theorem opens_of_splitOn {sep : Char} {s kind : Str} {fields : List Str} (h : s.splitOn sep = kind :: fields) :
    Opens sep kind s ∧ s.count sep = fields.length := by
  induction s generalizing kind fields with
  | nil =>
    rw [List.splitOn_nil] at h
    cases h
    exact ⟨.inl rfl, rfl⟩
  | cons x s ih =>
    obtain ⟨kind', fields', hsplit⟩ := List.exists_cons_of_ne_nil (List.splitOn_ne_nil sep s)
    obtain ⟨hopens, hcount⟩ := ih hsplit
    rw [List.splitOn_cons_eq_if_modifyHead] at h
    by_cases hx : (x == sep) = true
    · rw [if_pos hx] at h
      cases h
      have hx' : x = sep := eq_of_beq hx
      subst hx'
      refine ⟨.inr ⟨s, rfl⟩, ?_⟩
      rw [List.count_cons_self, hcount, hsplit, List.length_cons]
    · rw [if_neg hx, hsplit, List.modifyHead_cons] at h
      cases h
      refine ⟨?_, ?_⟩
      · obtain rfl | ⟨y, rfl⟩ := hopens
        · exact .inl rfl
        · exact .inr ⟨y, rfl⟩
      · rw [List.count_cons_of_ne (by simpa using hx), hcount]

/-- What is read by its parts, the first for the keyword and one more for each field, opens with
the keyword and has a separator for each field. -/
theorem opens_of_parts {μ : Type} {sep : Char} {keyword : μ → Str} {arity : μ → ℕ}
    {readParts : Str → List Str → Option μ}
    (hparts : ∀ {kind fields m}, readParts kind fields = some m → kind = keyword m ∧ fields.length = arity m)
    {s kind : Str} {fields : List Str} {m : μ} (hsplit : s.splitOn sep = kind :: fields)
    (h : readParts kind fields = some m) : Opens sep (keyword m) s ∧ s.count sep = arity m := by
  obtain ⟨hkind, hlen⟩ := hparts h
  obtain ⟨hopens, hcount⟩ := opens_of_splitOn hsplit
  rw [← hkind, ← hlen]
  exact ⟨hopens, hcount⟩

/-- What reads a message from a trimmed text, with what it insists on: the keyword of the message
in front and as many separators as the message has fields. -/
structure Reader (μ : Type) where
  sep : Char
  keyword : μ → Str
  arity : μ → ℕ
  read : Str → Option μ
  sep_plain : isWhitespace sep = false
  keyword_word : ∀ m, IsWord sep (keyword m)
  read_some : ∀ s m, read s = some m → Opens sep (keyword m) s ∧ s.count sep = arity m

namespace Reader
variable {μ : Type} (R : Reader μ)

/-- `text` is written for `m`: its keyword, and no fewer separators than it has fields. -/
def Writes (m : μ) (text : Str) : Prop := Opens R.sep (R.keyword m) text ∧ R.arity m ≤ text.count R.sep

/-- What one read of the stream is taken for. -/
def readBytes (bytes : Bytes) : Option μ := (decode bytes).bind fun text => R.read (trim text)

/-- Everything written, a newline behind each text. -/
def stream (sent : List (μ × Str)) : Str := (sent.map fun e => e.2 ++ ['\n']).flatten

theorem stream_concat (sent : List (μ × Str)) (e : μ × Str) :
    stream (sent ++ [e]) = stream sent ++ (e.2 ++ ['\n']) := by
  simp [stream]

variable {R}

theorem newline_whitespace : ∀ c ∈ ['\n'], isWhitespace c = true := by
  intro c hc
  rw [List.mem_singleton.mp hc]
  rfl

/-- The last message of a text: if its read ends where only whitespace is left, it begins where
the message begins, or in the whitespace before. -/
theorem last_aligned {m : μ} {u v text t w : Str} (hw : ∀ c ∈ w, isWhitespace c = true)
    (htext : Opens R.sep (R.keyword m) text) (ht : Opens R.sep (R.keyword m) (trim t))
    (hcount : (trim t).count R.sep = text.count R.sep) (h : u ++ (text ++ ['\n']) = v ++ t ++ w) :
    trim t = trim text ∧ ∃ l, (∀ c ∈ l, isWhitespace c = true) ∧ u = v ++ l := by
  obtain ⟨l, r, hsplit, hl, hr⟩ := exists_trim t
  have hrw : ∀ c ∈ r ++ w, isWhitespace c = true := by
    intro c hc
    rw [List.mem_append] at hc
    exact hc.elim (hr c) (hw c)
  have hword := R.keyword_word m
  have hcut : u ++ (text ++ ['\n']) = (v ++ l) ++ trim t ++ (r ++ w) := by
    rw [h]
    nth_rewrite 1 [hsplit]
    simp [List.append_assoc]
  -- what stands between the beginning of the read and the end of the text is the message
  have hcore : u = v ++ l ∧ text ++ ['\n'] = trim t ++ (r ++ w) := by
    cases htext with
    | inl htext =>
      cases ht with
      | inl ht =>
        rw [htext, ht, ← List.append_assoc] at hcut
        obtain ⟨hu, hrest⟩ := append_word_inj hword newline_whitespace hrw hcut
        exact ⟨hu, by rw [htext, ht, hrest]⟩
      | inr ht =>
        obtain ⟨y, ht⟩ := ht
        rw [htext, ht, count_append_sep] at hcount
        omega
    | inr htext =>
      obtain ⟨x, htext⟩ := htext
      cases ht with
      | inl ht =>
        rw [htext, ht, count_append_sep] at hcount
        omega
      | inr ht =>
        obtain ⟨y, ht⟩ := ht
        have hxy : (x ++ ['\n']).count R.sep = (y ++ (r ++ w)).count R.sep := by
          rw [htext, ht, count_append_sep, count_append_sep] at hcount
          rw [List.count_append, List.count_append, count_whitespace R.sep_plain newline_whitespace,
            count_whitespace R.sep_plain hrw]
          omega
        have hcut' : (u ++ R.keyword m) ++ R.sep :: (x ++ ['\n']) =
            (v ++ l ++ R.keyword m) ++ R.sep :: (y ++ (r ++ w)) := by
          rw [htext, ht] at hcut
          simpa [List.append_assoc] using hcut
        obtain ⟨hu, hrest⟩ := append_cons_inj hcut' hxy
        refine ⟨List.append_cancel_right hu, ?_⟩
        rw [htext, ht, List.append_assoc, List.cons_append, hrest, List.append_assoc, List.cons_append]
  refine ⟨?_, l, hl, hcore.1⟩
  have htrim := congrArg trim hcore.2
  rw [trim_append_whitespace _ newline_whitespace, trim_append_whitespace _ hrw, trim_trim] at htrim
  exact htrim.symm

theorem map_count_eq_arity {sent : List (μ × Str)} {ts : List Str}
    (hread : ts.map (fun t => R.read (trim t)) = sent.map fun e => some e.1) :
    ts.map (List.count R.sep) = sent.map fun e => R.arity e.1 := by
  induction ts generalizing sent with
  | nil =>
    cases sent with
    | nil => rfl
    | cons e sent => cases hread
  | cons t ts ih =>
    cases sent with
    | nil => cases hread
    | cons e sent =>
      obtain ⟨hhead, htail⟩ := List.cons.inj hread
      rw [List.map_cons, List.map_cons, ih htail, ← count_trim R.sep_plain, (R.read_some _ _ hhead).2]

/-- Texts that are read as the messages sent: every message has exactly its own separators. -/
theorem count_eq_arity {sent : List (μ × Str)} {ts : List Str} (hsent : ∀ e ∈ sent, R.Writes e.1 e.2)
    (hflat : ts.flatten = stream sent) (hread : ts.map (fun t => R.read (trim t)) = sent.map fun e => some e.1) :
    ∀ e ∈ sent, e.2.count R.sep = R.arity e.1 := by
  have hts := map_count_eq_arity hread
  have hsum : (sent.map fun e => R.arity e.1).sum = (sent.map fun e => e.2.count R.sep).sum := by
    have hnl : ['\n'].count R.sep = 0 := count_whitespace R.sep_plain newline_whitespace
    rw [← hts, ← List.count_flatten, hflat, stream, List.count_flatten, List.map_map]
    congr 1
    apply List.map_congr_left
    intro e _
    simp [hnl]
  clear hflat hread hts
  -- term by term at least as many, and as many in all
  induction sent with
  | nil => simp
  | cons e sent ih =>
    rw [List.forall_mem_cons] at hsent
    have hle : (sent.map fun e => R.arity e.1).sum ≤ (sent.map fun e => e.2.count R.sep).sum :=
      List.sum_le_sum fun e he => (hsent.2 e he).2
    have hhead := hsent.1.2
    rw [List.map_cons, List.map_cons, List.sum_cons, List.sum_cons] at hsum
    exact List.forall_mem_cons.mpr ⟨by omega, ih hsent.2 (by omega)⟩

/-- **Alignment.** Texts that together are the stream and one by one are read as the messages
sent are, whitespace aside, the texts written. -/
theorem aligned {sent : List (μ × Str)} {ts : List Str} (hsent : ∀ e ∈ sent, R.Writes e.1 e.2)
    (hflat : ts.flatten = stream sent) (hread : ts.map (fun t => R.read (trim t)) = sent.map fun e => some e.1) :
    List.Forall₂ (fun e t => trim t = trim e.2) sent ts := by
  have hcount := count_eq_arity hsent hflat hread
  -- from the end of the stream to its beginning; `w` is what the next read has taken already
  have key : ∀ (sent : List (μ × Str)) (ts : List Str) (w : Str), (∀ c ∈ w, isWhitespace c = true) →
      (∀ e ∈ sent, R.Writes e.1 e.2) → (∀ e ∈ sent, e.2.count R.sep = R.arity e.1) →
      stream sent = ts.flatten ++ w → ts.map (fun t => R.read (trim t)) = (sent.map fun e => some e.1) →
      List.Forall₂ (fun e t => trim t = trim e.2) sent ts := by
    intro sent
    induction sent using List.reverseRecOn with
    | nil =>
      intro ts w _ _ _ _ hread
      have hnil : ts = [] := List.map_eq_nil_iff.mp hread
      rw [hnil]
      exact List.Forall₂.nil
    | append_singleton sent e ih =>
      intro ts w hw hsent hcount hflat hread
      rw [List.map_append, List.map_eq_append_iff] at hread
      obtain ⟨ts, last, rfl, hts, hlast⟩ := hread
      obtain ⟨t, rfl, ht⟩ := List.map_eq_singleton_iff.mp hlast
      obtain ⟨hopens, harity⟩ := R.read_some _ _ ht
      have he : e ∈ sent ++ [e] := by simp
      have hflat' : stream sent ++ (e.2 ++ ['\n']) = ts.flatten ++ t ++ w := by
        rw [← stream_concat, hflat]
        simp
      obtain ⟨htrim, l, hl, hrest⟩ := last_aligned hw (hsent e he).1 hopens (by rw [harity, hcount e he]) hflat'
      have hbefore := ih ts l hl (fun e' he' => hsent e' (List.mem_append_left _ he'))
        (fun e' he' => hcount e' (List.mem_append_left _ he')) hrest hts
      exact List.rel_append hbefore (List.Forall₂.cons htrim List.Forall₂.nil)
  exact key sent ts [] (by simp) hsent hcount (by rw [hflat, List.append_nil]) hread

/-! ## Reads of bytes -/

variable (R)

/-- The bytes are the text, whitespace around it aside. -/
def Holds (text : Str) (bytes : Bytes) : Prop := ∃ t, decode bytes = some t ∧ trim t = trim text

/-- One read for every message, with its text and nothing else. -/
def Whole (sent : List (μ × Str)) (reads : List Bytes) : Prop :=
  List.Forall₂ (fun e bytes => Holds e.2 bytes) sent reads

theorem encode_flatten (ts : List Str) : encode ts.flatten = (ts.map encode).flatten := by
  induction ts with
  | nil => rfl
  | cons t ts ih => rw [List.flatten_cons, encode_append, ih, List.map_cons, List.flatten_cons]

theorem encode_injective {s t : Str} (h : encode s = encode t) : s = t := by
  have := congrArg decode h
  rw [decode_encode, decode_encode] at this
  exact Option.some.inj this

theorem exists_texts {reads : List Bytes} {messages : List μ} (h : reads.map R.readBytes = messages.map some) :
    ∃ ts : List Str, reads = ts.map encode ∧ ts.map (fun t => R.read (trim t)) = messages.map some := by
  induction reads generalizing messages with
  | nil => exact ⟨[], rfl, h⟩
  | cons bytes reads ih =>
    cases messages with
    | nil => cases h
    | cons m messages =>
      obtain ⟨hhead, htail⟩ := List.cons.inj h
      obtain ⟨t, ht, hread⟩ := Option.bind_eq_some_iff.mp hhead
      obtain ⟨ts, rfl, hts⟩ := ih htail
      refine ⟨t :: ts, ?_, ?_⟩
      · rw [List.map_cons, encode_of_decode ht]
      · rw [List.map_cons, hread, hts, List.map_cons]

theorem readBytes_newline (text : Str) : R.readBytes (encode text ++ [10]) = R.read (trim text) := by
  have h : encode text ++ [10] = encode (text ++ ['\n']) := (encode_append text ['\n']).symm
  rw [readBytes, h, decode_encode, Option.bind_some, trim_append_whitespace text newline_whitespace]

/-- **When the reads give the messages back.** The bytes of all messages, cut in whatever way,
are taken for just these messages if and only if every read holds one of them whole, and each is
read back from its own text. -/
theorem readBytes_iff (sent : List (μ × Str)) (reads : List Bytes) (hsent : ∀ e ∈ sent, R.Writes e.1 e.2)
    (hflat : reads.flatten = (sent.map fun e => encode e.2 ++ [10]).flatten) :
    reads.map R.readBytes = (sent.map fun e => some e.1) ↔
      Whole sent reads ∧ ∀ e ∈ sent, R.readBytes (encode e.2 ++ [10]) = some e.1 := by
  have hnewline : (∀ e ∈ sent, R.readBytes (encode e.2 ++ [10]) = some e.1) ↔
      ∀ e ∈ sent, R.read (trim e.2) = some e.1 := by
    simp only [readBytes_newline]
  rw [hnewline]
  clear hnewline
  constructor
  · intro h
    have h' : reads.map R.readBytes = (sent.map Prod.fst).map some := by rw [h, List.map_map]; rfl
    obtain ⟨ts, rfl, hts⟩ := R.exists_texts h'
    rw [List.map_map] at hts
    have hstream : ts.flatten = stream sent := by
      apply encode_injective
      rw [encode_flatten, hflat, stream, encode_flatten, List.map_map]
      congr 1
      apply List.map_congr_left
      intro e _
      exact (encode_append e.2 ['\n']).symm
    have haligned := aligned hsent hstream hts
    refine ⟨?_, ?_⟩
    · unfold Whole
      rw [List.forall₂_map_right_iff]
      exact haligned.imp fun e t ht => ⟨t, decode_encode t, ht⟩
    · -- the text read is the text written
      clear hflat hstream h h' hsent
      induction haligned with
      | nil => simp
      | cons hhead _ ih =>
        obtain ⟨hread, htail⟩ := List.cons.inj hts
        dsimp only [Function.comp_apply] at hread
        rw [hhead] at hread
        exact List.forall_mem_cons.mpr ⟨hread, ih htail⟩
  · intro h
    obtain ⟨hwhole, hback⟩ := h
    clear hflat hsent
    unfold Whole at hwhole
    induction hwhole with
    | nil => rfl
    | cons hhead _ ih =>
      obtain ⟨t, ht, htrim⟩ := hhead
      rw [List.forall_mem_cons] at hback
      rw [List.map_cons, List.map_cons, ih hback.2, readBytes, ht, Option.bind_some, htrim, hback.1]

end Reader
end RoomRtc.Framing
