import RoomRtc.Session.RoundTrip

/-! The text of an answer. A section that shares no codec with the offer is answered without a
payload type, and its first line is then too short to be read. -/
namespace RoomRtc.Session
open Text
set_option autoImplicit false

/-! ## Sections that the text does not carry -/

/-- What the reader asks of a section beyond its strings. -/
def MediaDescription.Carried (md : MediaDescription) : Prop :=
  md.fmts.Nonempty ∧ ∀ attr ∈ md.attributes, attr.HasBytes

theorem wellFormed_of_carried {md : MediaDescription} (htokens : md.Tokens)
    (hfits : ∀ attr ∈ md.attributes, attr.Fits md.fmts) (h : md.Carried) : md.WellFormed where
  mediaType := htokens.mediaType
  protocol := htokens.protocol
  fmts := h.1
  attributes := fun attr hattr =>
    Attribute.wellFormed_iff.mpr ⟨hfits attr hattr, htokens.attributes attr hattr, h.2 attr hattr⟩

/-- Without a payload type the first line of a section has three words. -/
theorem handleLine_bare {md : MediaDescription} (h : md.Tokens) (mds : List MediaDescription) :
    handleLine mds ("m=".toList ++ md.value []) = .error .invalidMediaDescriptionFormatError := by
  have hends : EndsPlain (md.value []) := by
    have hcut : md.value [] = (md.mediaType ++ ' ' :: (decimal md.port.toNat ++ [' '])) ++ md.protocol := by
      simp [MediaDescription.value]
    rw [hcut, endsPlain_append h.protocol.nonempty]
    exact h.protocol.plain.endsPlain
  rw [handleLine_media hends, handleMediaDescriptionLine, MediaDescription.fromStr, splitWhitespace_section h]
  rfl

theorem handleLine_unhashed {f : Fingerprint} (halgorithm : IsToken f.algorithm) (hbytes : f.bytes = [])
    (mds : List MediaDescription) :
    handleLine mds (' ' :: (Attribute.fingerprint f).display) = .error .missingFingerprintValueError := by
  have hhex : f.hexValue = [] := by
    rw [Fingerprint.hexValue, hbytes]
    rfl
  have htrim : trim (' ' :: (Attribute.fingerprint f).display) =
      'a' :: '=' :: ("fingerprint".toList ++ ':' :: f.algorithm) := by
    have hends : EndsPlain ("fingerprint".toList ++ ':' :: f.algorithm) := by
      rw [show "fingerprint".toList ++ ':' :: f.algorithm = ("fingerprint".toList ++ [':']) ++ f.algorithm by simp,
        endsPlain_append halgorithm.nonempty]
      exact halgorithm.plain.endsPlain
    have hdisplay : (Attribute.fingerprint f).display =
        ("a=".toList ++ ("fingerprint".toList ++ ':' :: f.algorithm)) ++ [' '] := by
      show "a=fingerprint:".toList ++ f.algorithm ++ ' ' :: f.hexValue = _
      rw [hhex]
      simp
    have hkey : IsToken "a=".toList := by decide
    rw [trim_cons_whitespace space_whitespace, hdisplay, List.append_assoc, trim_token_append hkey,
      List.rdropWhile_concat_pos _ _ _ space_whitespace, rdropWhile_of_endsPlain hends]
    rfl
  have hcolon : ':' ∉ "fingerprint".toList := (isToken_key (.fingerprint f)).2
  rw [handleLine_keyed (by decide) htrim, if_neg (by decide), if_pos rfl, handleAttributeLine, Attribute.fromStr,
    splitOnce_append _ hcolon]
  dsimp only
  rw [if_neg (by decide), if_neg (by decide), if_pos rfl, parseFingerprintAttrValues, splitWhitespace_token halgorithm]
  rfl

theorem foldlM_attributes_error {attrs : List Attribute} {md : MediaDescription}
    (h : ∀ attr ∈ attrs, attr.Tokens ∧ attr.Fits md.fmts) (hbad : ∃ attr ∈ attrs, ¬ attr.HasBytes)
    (mds : List MediaDescription) :
    ∃ e, (attrs.map fun attr => ' ' :: attr.display).foldlM handleLine (mds ++ [md]) = .error e := by
  induction attrs generalizing md with
  | nil => simp at hbad
  | cons attr attrs ih =>
    rw [List.forall_mem_cons] at h
    rw [List.map_cons, List.foldlM_cons]
    by_cases hattr : attr.HasBytes
    · -- a sound attribute is added and the reader goes on
      have hrest : ∃ attr ∈ attrs, ¬ attr.HasBytes := by
        obtain ⟨bad, hmem, hbad⟩ := hbad
        obtain rfl | hmem := List.mem_cons.mp hmem
        · exact absurd hattr hbad
        · exact ⟨bad, hmem, hbad⟩
      rw [handleLine_attribute (Attribute.wellFormed_iff.mpr ⟨h.1.2, h.1.1, hattr⟩)]
      exact @ih { md with attributes := md.attributes ++ [attr] } h.2 hrest
    · cases attr with
      | fingerprint f =>
        rw [handleLine_unhashed h.1.1 (not_not.mp hattr)]
        exact ⟨_, rfl⟩
      | _ => exact absurd trivial hattr

theorem foldlM_section_error {md : MediaDescription} (htokens : md.Tokens)
    (hfits : ∀ attr ∈ md.attributes, attr.Fits md.fmts) {order : List UInt8} (horder : order.toFinset = md.fmts)
    (h : ¬ md.Carried) (mds : List MediaDescription) :
    ∃ e, (md.lines order).foldlM handleLine mds = .error e := by
  rw [MediaDescription.lines, List.foldlM_cons]
  by_cases hfmts : md.fmts.Nonempty
  · have hbad : ∃ attr ∈ md.attributes, ¬ attr.HasBytes := by
      have hsome : ¬ ∀ attr ∈ md.attributes, attr.HasBytes := fun hall => h ⟨hfmts, hall⟩
      push Not at hsome
      exact hsome
    rw [handleLine_section htokens hfmts horder]
    exact @foldlM_attributes_error md.attributes { md with attributes := [] }
      (fun attr hattr => ⟨htokens.attributes attr hattr, hfits attr hattr⟩) hbad mds
  · have horder' : order = [] := by
      rw [Finset.not_nonempty_iff_eq_empty.mp hfmts] at horder
      exact List.toFinset_eq_empty_iff order |>.mp horder
    rw [horder', handleLine_bare htokens]
    exact ⟨_, rfl⟩

/-- Only sections that are carried are read to the end. -/
theorem carried_of_read {mds : List MediaDescription} {orders : Orders} {i : ℕ}
    (h : ∀ md ∈ mds, md.Tokens ∧ ∀ attr ∈ md.attributes, attr.Fits md.fmts)
    (horders : Ordered orders i mds) {acc result : List MediaDescription}
    (hread : (sectionLines orders i mds).foldlM handleLine acc = .ok result) : ∀ md ∈ mds, md.Carried := by
  induction mds generalizing i acc with
  | nil => simp
  | cons md mds ih =>
    rw [List.forall_mem_cons] at h
    obtain ⟨hfirst, hrest⟩ := ordered_cons horders
    rw [sectionLines, List.foldlM_append] at hread
    have hcarried : md.Carried := by
      by_contra hnot
      obtain ⟨e, he⟩ := foldlM_section_error h.1.1 h.1.2 hfirst hnot acc
      rw [he] at hread
      cases hread
    rw [foldlM_section (wellFormed_of_carried h.1.1 h.1.2 hcarried) hfirst] at hread
    rw [List.forall_mem_cons]
    exact ⟨hcarried, ih h.2 hrest hread⟩

/-- When a description is read back with its sections: every one of them must be carried. -/
theorem SessionDescriptionProtocol.read_back_iff {sdp : SessionDescriptionProtocol} (hname : '\n' ∉ sdp.sessionName)
    (htiming : '\n' ∉ sdp.timing) (hdata : '\n' ∉ sdp.connectionData)
    (h : ∀ md ∈ sdp.mediaDescriptions, md.Tokens ∧ ∀ attr ∈ md.attributes,
      attr.Fits md.fmts) {orders : Orders}
    (horders : sdp.Iterates orders) :
    (∃ read, fromStr (sdp.display orders) = .ok read ∧ read.mediaDescriptions = sdp.mediaDescriptions) ↔
      ∀ md ∈ sdp.mediaDescriptions, md.Carried := by
  constructor
  · rintro ⟨read, hok, _⟩
    rw [fromStr_display hname htiming hdata
      (newline_not_mem_sections (fun md hmd => (h md hmd).1) orders 0)] at hok
    cases hfold : (sectionLines orders 0 sdp.mediaDescriptions).foldlM handleLine [] with
    | error e =>
      rw [hfold] at hok
      cases hok
    | ok result => exact carried_of_read h (ordered_of_iterates horders) hfold
  · intro hall
    refine ⟨_, sections_read_back ⟨hname, htiming, hdata, ?_⟩ horders, rfl⟩
    intro md hmem
    exact wellFormed_of_carried (h md hmem).1 (h md hmem).2 (hall md hmem)

/-! ## What is carried of an answer -/

namespace SessionDescriptionProtocol

/-- The two sections have an `rtpmap` of one encoding name. -/
def CommonCodec (localMd offerMd : MediaDescription) : Prop :=
  ∃ encodingName, (∃ fmt rate params, Attribute.rtpMap fmt encodingName rate params ∈ localMd.attributes) ∧
    ∃ fmt rate params, Attribute.rtpMap fmt encodingName rate params ∈ offerMd.attributes

theorem shared_ne_zero_iff {offerAttributes : List Attribute} {encodingName : Str} :
    shared offerAttributes encodingName ≠ 0 ↔
      ∃ fmt rate params, Attribute.rtpMap fmt encodingName rate params ∈ offerAttributes := by
  rw [shared, ← Nat.pos_iff_ne_zero, List.countP_pos_iff]
  constructor
  · rintro ⟨attr, hmem, hattr⟩
    cases attr with
    | rtpMap fmt name rate params =>
      have hname : encodingName = name := by simpa using hattr
      subst hname
      exact ⟨fmt, rate, params, hmem⟩
    | _ => cases hattr
  · rintro ⟨fmt, rate, params, hmem⟩
    exact ⟨_, hmem, by simp⟩

theorem answerMd_fmts_iff {localMd offerMd : MediaDescription} :
    (answerMd localMd offerMd).fmts.Nonempty ↔ CommonCodec localMd offerMd := by
  constructor
  · rintro ⟨fmt, hfmt⟩
    obtain ⟨attr, hmem, htaken⟩ := List.mem_filterMap.mp (List.mem_toFinset.mp hfmt)
    cases attr with
    | rtpMap fmt' name rate params =>
      have hne : shared offerMd.attributes name ≠ 0 := by
        intro hzero
        rw [takenFmt, if_pos hzero] at htaken
        cases htaken
      exact ⟨name, ⟨fmt', rate, params, hmem⟩, shared_ne_zero_iff.mp hne⟩
    | _ => cases htaken
  · rintro ⟨name, ⟨fmt, rate, params, hmem⟩, hoffer⟩
    refine ⟨fmt, List.mem_toFinset.mpr (List.mem_filterMap.mpr ⟨_, hmem, ?_⟩)⟩
    rw [takenFmt, if_neg (shared_ne_zero_iff.mpr hoffer)]

theorem answerMd_tokens {localMd : MediaDescription} (h : localMd.Tokens) (offerMd : MediaDescription) :
    (answerMd localMd offerMd).Tokens where
  mediaType := h.mediaType
  protocol := h.protocol
  attributes := by
    intro attr hattr
    obtain ⟨original, hmem, hcopy⟩ := List.mem_flatMap.mp hattr
    rw [(mem_copies hcopy).1]
    exact h.attributes original hmem

theorem answerMd_carried_iff {localMd offerMd : MediaDescription} :
    (answerMd localMd offerMd).Carried ↔
      CommonCodec localMd offerMd ∧ ∀ f, Attribute.fingerprint f ∈ localMd.attributes → f.bytes ≠ [] := by
  apply and_congr answerMd_fmts_iff
  constructor
  · intro h f hf
    exact h (.fingerprint f) (List.mem_flatMap.mpr ⟨_, hf, List.mem_singleton_self _⟩)
  · intro h attr hattr
    obtain ⟨original, hmem, hcopy⟩ := List.mem_flatMap.mp hattr
    rw [(mem_copies hcopy).1]
    cases original with
    | fingerprint f => exact h f hmem
    | _ => trivial

/-- **When an answer can be read.** The text of an answer is read back with its sections exactly
when every section that the offer has too shares a codec with it, and no fingerprint in it is
empty. -/
theorem answer_read_back_iff {sdp offerSdp answer : SessionDescriptionProtocol} (hname : '\n' ∉ sdp.sessionName)
    (htiming : '\n' ∉ sdp.timing) (htokens : ∀ md ∈ sdp.mediaDescriptions, md.Tokens)
    (h : sdp.createAnswer offerSdp = .ok answer) {orders : Orders} (horders : answer.Iterates orders) :
    (∃ read, fromStr (answer.display orders) = .ok read ∧ read.mediaDescriptions = answer.mediaDescriptions) ↔
      ∀ localMd ∈ sdp.mediaDescriptions, ∀ offerMd, findOffer offerSdp localMd = some offerMd →
        CommonCodec localMd offerMd ∧ ∀ f, Attribute.fingerprint f ∈ localMd.attributes → f.bytes ≠ [] := by
  have hanswer := createAnswer_eq sdp offerSdp
  rw [h] at hanswer
  have hmds := congrArg mediaDescriptions (Except.ok.inj hanswer)
  have hanswered : ∀ {P : MediaDescription → Prop}, (∀ md ∈ answer.mediaDescriptions, P md) ↔
      ∀ localMd ∈ sdp.mediaDescriptions, ∀ offerMd, findOffer offerSdp localMd = some offerMd →
        P (answerMd localMd offerMd) := by
    intro P
    rw [hmds]
    simp only [List.mem_filterMap, Option.map_eq_some_iff, forall_exists_index, and_imp]
    constructor
    · intro hP localMd hmem offerMd hfind
      exact hP _ localMd hmem offerMd hfind rfl
    · rintro hP md localMd hmem offerMd hfind rfl
      exact hP localMd hmem offerMd hfind
  have hread : ∀ md ∈ answer.mediaDescriptions, md.Tokens ∧ ∀ attr ∈ md.attributes, attr.Fits md.fmts := by
    rw [hanswered]
    intro localMd hmem offerMd _
    exact ⟨answerMd_tokens (htokens localMd hmem) offerMd, answerMd_fits localMd offerMd⟩
  have hstrings : '\n' ∉ answer.sessionName ∧ '\n' ∉ answer.timing ∧ '\n' ∉ answer.connectionData := by
    rw [Except.ok.inj hanswer]
    exact ⟨hname, htiming, (by decide : '\n' ∉ "IN IP4 0.0.0.0".toList)⟩
  have hcarried := @hanswered MediaDescription.Carried
  simp only [answerMd_carried_iff] at hcarried
  rw [← hcarried]
  exact read_back_iff hstrings.1 hstrings.2.1 hstrings.2.2 hread horders

/-! ### A peer that speaks another codec -/

/-- One microphone section with one codec. -/
def oneCodec (port : UInt16) (fmt : UInt8) (encodingName : Str) (clockRate : UInt32) (params : Str) :
    SessionDescriptionProtocol where
  version := 0
  originId := 0
  sessionName := "-".toList
  timing := "0".toList
  mediaDescriptions := [⟨"microphone".toList, port, "RTP/AVP".toList, {fmt},
    [.rtpMap fmt encodingName clockRate params]⟩]
  connectionData := "IN IP4 0.0.0.0".toList

def opusSdp : SessionDescriptionProtocol := oneCodec 5004 96 "opus".toList 48000 "2".toList

def vp8Sdp : SessionDescriptionProtocol := oneCodec 6000 97 "vp8".toList 90000 "1".toList

theorem oneCodec_tokens {port : UInt16} {fmt : UInt8} {encodingName : Str} {clockRate : UInt32} {params : Str}
    (hname : IsToken encodingName ∧ '/' ∉ encodingName) (hparams : Plain params ∧ '/' ∉ params) :
    ∀ md ∈ (oneCodec port fmt encodingName clockRate params).mediaDescriptions,
      md.Tokens ∧ md.fmts.Nonempty ∧ ∀ attr ∈ md.attributes, attr.Fits md.fmts := by
  have htype : IsToken "microphone".toList ∧ IsToken "RTP/AVP".toList := ⟨by decide, by decide⟩
  intro md hmd
  rw [List.mem_singleton.mp hmd]
  refine ⟨⟨htype.1, htype.2, ?_⟩, ⟨fmt, by simp⟩, ?_⟩
  · intro attr hattr
    rw [List.mem_singleton.mp hattr]
    refine ⟨hname, ?_⟩
    rintro _ ⟨⟩
    exact hparams
  · intro attr hattr
    rw [List.mem_singleton.mp hattr]
    exact Finset.mem_singleton_self fmt

theorem opus_tokens : ∀ md ∈ opusSdp.mediaDescriptions,
    md.Tokens ∧ md.fmts.Nonempty ∧ ∀ attr ∈ md.attributes, attr.Fits md.fmts :=
  oneCodec_tokens ⟨by decide, by decide⟩ ⟨by decide, by decide⟩

theorem vp8_tokens : ∀ md ∈ vp8Sdp.mediaDescriptions,
    md.Tokens ∧ md.fmts.Nonempty ∧ ∀ attr ∈ md.attributes, attr.Fits md.fmts :=
  oneCodec_tokens ⟨by decide, by decide⟩ ⟨by decide, by decide⟩

/-- The answer to an offer of the same codec is read back. -/
theorem same_codec_read_back : ∃ answer, opusSdp.createAnswer opusSdp = .ok answer ∧
    ∃ read, fromStr (answer.display fun _ => [96]) = .ok read ∧
    read.mediaDescriptions = answer.mediaDescriptions := by
  refine ⟨_, createAnswer_eq opusSdp opusSdp, ?_⟩
  refine (answer_read_back_iff (by decide) (by decide) (fun md hmd => (opus_tokens md hmd).1)
    (createAnswer_eq opusSdp opusSdp) ?_).mpr ?_
  · exact iterates_single rfl (List.nodup_singleton 96) (by decide)
  · intro localMd hlocal offerMd hfind
    rw [List.mem_singleton.mp hlocal] at hfind ⊢
    obtain rfl := Option.some.inj hfind
    refine ⟨⟨"opus".toList, ⟨96, 48000, some "2".toList, ?_⟩, ⟨96, 48000, some "2".toList, ?_⟩⟩, ?_⟩
    · exact List.mem_singleton_self _
    · exact List.mem_singleton_self _
    · intro f hf
      cases List.mem_singleton.mp hf

/-- The answer to an offer of another codec keeps the section without a payload type, and its text
is refused. -/
theorem other_codec_unreadable :
    ¬ ∀ sdp offerSdp answer : SessionDescriptionProtocol, ∀ orders : Orders,
      IsToken sdp.sessionName → IsToken sdp.timing →
      (∀ md ∈ sdp.mediaDescriptions, md.Tokens ∧ md.fmts.Nonempty ∧ ∀ attr ∈ md.attributes,
        attr.Fits md.fmts) →
      IsToken offerSdp.sessionName → IsToken offerSdp.timing →
      (∀ md ∈ offerSdp.mediaDescriptions, md.Tokens ∧ md.fmts.Nonempty ∧ ∀ attr ∈ md.attributes,
        attr.Fits md.fmts) →
      sdp.createAnswer offerSdp = .ok answer → answer.Iterates orders →
      ∃ read, fromStr (answer.display orders) = .ok read ∧ read.mediaDescriptions = answer.mediaDescriptions := by
  intro hall
  have hdash : IsToken "-".toList ∧ IsToken "0".toList :=
    ⟨by decide, by decide⟩
  obtain ⟨read, hread, _⟩ := hall opusSdp vp8Sdp _
    (fun _ => []) hdash.1 hdash.2 opus_tokens hdash.1 hdash.2 vp8_tokens
    (createAnswer_eq opusSdp vp8Sdp) (iterates_single rfl List.nodup_nil (by decide))
  have hrefused : fromStr (display (fun _ => []) { opusSdp with
      mediaDescriptions := [⟨"microphone".toList, 0, "RTP/AVP".toList, ∅, []⟩] }) =
      .error .invalidMediaDescriptionFormatError := by decide +kernel
  exact absurd (hread.symm.trans hrefused) (by simp)

end SessionDescriptionProtocol
end RoomRtc.Session
