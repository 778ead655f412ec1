import RoomRtc.Session.Answer

/-! The answer as the intersection of two sets of codecs. The payload types of an answer are always
those of the codecs in common. Its attributes are the local ones without the other codecs only if
the offer names every codec once, and its port tells whether there is a codec in common only if the
local section has no attributes but codecs. -/
namespace RoomRtc.Session
set_option autoImplicit false

namespace SessionDescriptionProtocol

/-! ## The intersection -/

def isRtpMap : Attribute → Bool
  | .rtpMap .. => true
  | _ => false

/-- An `rtpmap` with the encoding name is among the attributes. -/
def names (offerAttributes : List Attribute) (encodingName : Str) : Bool :=
  offerAttributes.any fun
    | .rtpMap _ offerEncodingName _ _ => encodingName = offerEncodingName
    | _ => false

/-- No `rtpmap`, or one that the offer has as well. -/
def inCommon (offerAttributes : List Attribute) : Attribute → Bool
  | .rtpMap _ encodingName _ _ => names offerAttributes encodingName
  | _ => true

def commonFmt (offerAttributes : List Attribute) : Attribute → Option UInt8
  | .rtpMap fmt encodingName _ _ => if names offerAttributes encodingName then some fmt else none
  | _ => none

/-- The payload types of the codecs in common. -/
def commonFmts (localMd offerMd : MediaDescription) : Finset UInt8 :=
  (localMd.attributes.filterMap (commonFmt offerMd.attributes)).toFinset

/-- The local section with the codecs it has in common with the offer, each once, and port 0 if
there is none. -/
def intersection (localMd offerMd : MediaDescription) : MediaDescription where
  mediaType := localMd.mediaType
  port := if commonFmts localMd offerMd = ∅ then 0 else localMd.port
  protocol := localMd.protocol
  fmts := commonFmts localMd offerMd
  attributes := localMd.attributes.filter (inCommon offerMd.attributes)

theorem names_iff_shared {offerAttributes : List Attribute} {encodingName : Str} :
    names offerAttributes encodingName = true ↔ shared offerAttributes encodingName ≠ 0 := by
  unfold names shared
  rw [List.any_eq_true, Ne, List.countP_eq_zero]
  push Not
  exact Iff.rfl

theorem takenFmt_eq (offerAttributes : List Attribute) : takenFmt offerAttributes = commonFmt offerAttributes := by
  funext attr
  cases attr with
  | rtpMap fmt encodingName rate params =>
    rw [takenFmt.eq_def, commonFmt.eq_def]
    dsimp only
    by_cases h : shared offerAttributes encodingName = 0
    · rw [if_pos h, if_neg fun hn => names_iff_shared.mp hn h]
    · rw [if_neg h, if_pos (names_iff_shared.mpr h)]
  | _ => rfl

/-! ## Attributes -/

/-- The codec of the attribute, if it is one, is in the list once at most. -/
def NamedOnce (offerAttributes : List Attribute) (attr : Attribute) : Prop :=
  ∀ fmt encodingName rate params, attr = .rtpMap fmt encodingName rate params →
    shared offerAttributes encodingName ≤ 1

/-- Never fewer copies than the intersection has, and as many only of what is named once. -/
theorem copies_length (offerAttributes : List Attribute) (attr : Attribute) :
    ([attr].filter (inCommon offerAttributes)).length ≤ (copies offerAttributes attr).length ∧
      (copies offerAttributes attr = [attr].filter (inCommon offerAttributes) ↔ NamedOnce offerAttributes attr) := by
  cases attr with
  | rtpMap fmt encodingName rate params =>
    have honce : NamedOnce offerAttributes (.rtpMap fmt encodingName rate params) ↔
        shared offerAttributes encodingName ≤ 1 := by
      constructor
      · intro h
        exact h fmt encodingName rate params rfl
      · intro h _ _ _ _ he
        cases he
        exact h
    have hcommon : inCommon offerAttributes (.rtpMap fmt encodingName rate params) =
        names offerAttributes encodingName := rfl
    rw [honce, copies, List.filter_singleton, hcommon]
    cases hn : names offerAttributes encodingName with
    | true =>
      have hs := names_iff_shared.mp hn
      rw [cond_true]
      refine ⟨by simp only [List.length_replicate, List.length_singleton]; omega, fun h => ?_, fun h => ?_⟩
      · have hlen := congrArg List.length h
        rw [List.length_replicate, List.length_singleton] at hlen
        omega
      · rw [show shared offerAttributes encodingName = 1 by omega]
        rfl
    | false =>
      have hs : shared offerAttributes encodingName = 0 := by
        by_contra hne
        rw [names_iff_shared.mpr hne] at hn
        cases hn
      simp [hs]
  | _ =>
    refine ⟨le_rfl, fun _ => ?_, fun _ => rfl⟩
    intro _ _ _ _ he
    cases he

/-- The attributes that are taken over are those of the intersection if and only if every codec
is named once. -/
theorem copies_eq_filter_iff (offerAttributes attrs : List Attribute) :
    attrs.flatMap (copies offerAttributes) = attrs.filter (inCommon offerAttributes) ↔
      ∀ attr ∈ attrs, NamedOnce offerAttributes attr := by
  have hle : ∀ l : List Attribute,
      (l.filter (inCommon offerAttributes)).length ≤ (l.flatMap (copies offerAttributes)).length := by
    intro l
    induction l with
    | nil => exact le_rfl
    | cons attr l ih =>
      have hone := (copies_length offerAttributes attr).1
      rw [← List.singleton_append, List.filter_append, List.flatMap_append, List.flatMap_singleton,
        List.length_append, List.length_append]
      omega
  induction attrs with
  | nil => simp
  | cons attr attrs ih =>
    have hone := copies_length offerAttributes attr
    have hrest := hle attrs
    rw [List.forall_mem_cons, ← hone.2, ← List.singleton_append, List.filter_append, List.flatMap_append,
      List.flatMap_singleton]
    constructor
    · intro h
      -- A longer head could only be made up for by a shorter rest.
      have hlen := congrArg List.length h
      rw [List.length_append, List.length_append] at hlen
      obtain ⟨hhead, htail⟩ := List.append_inj h (by omega)
      exact ⟨hhead, ih.mp htail⟩
    · rintro ⟨hhead, htail⟩
      rw [hhead, ih.mpr htail]

/-! ## Ports -/

theorem copies_eq_nil_iff (localMd offerMd : MediaDescription) :
    localMd.attributes.flatMap (copies offerMd.attributes) = [] ↔
      commonFmts localMd offerMd = ∅ ∧ ∀ attr ∈ localMd.attributes, isRtpMap attr = true := by
  unfold commonFmts
  rw [List.flatMap_eq_nil_iff, List.toFinset_eq_empty_iff, List.filterMap_eq_nil_iff, ← forall₂_and]
  refine forall₂_congr fun attr _ => ?_
  cases attr with
  | rtpMap fmt encodingName rate params =>
    rw [← takenFmt_eq, copies, takenFmt.eq_def]
    simp [isRtpMap]
  | _ => simp [copies, isRtpMap]

/-- What the offer must be like for the answer to be the intersection: it names every local codec
once at most, and a local section with other attributes and a port has a codec in common with it. -/
structure Answerable (localMd offerMd : MediaDescription) : Prop where
  once : ∀ attr ∈ localMd.attributes, NamedOnce offerMd.attributes attr
  common : localMd.port = 0 ∨ (commonFmts localMd offerMd).Nonempty ∨
    ∀ attr ∈ localMd.attributes, isRtpMap attr = true

theorem answerMd_eq_iff (localMd offerMd : MediaDescription) :
    answerMd localMd offerMd = intersection localMd offerMd ↔ Answerable localMd offerMd := by
  have hport : ((if localMd.attributes.flatMap (copies offerMd.attributes) = [] then 0 else localMd.port) =
      if commonFmts localMd offerMd = ∅ then 0 else localMd.port) ↔
      localMd.port = 0 ∨ (commonFmts localMd offerMd).Nonempty ∨
        ∀ attr ∈ localMd.attributes, isRtpMap attr = true := by
    have hnil := copies_eq_nil_iff localMd offerMd
    by_cases hc : commonFmts localMd offerMd = ∅
    · by_cases hr : ∀ attr ∈ localMd.attributes, isRtpMap attr = true
      · rw [if_pos (hnil.mpr ⟨hc, hr⟩), if_pos hc]
        exact ⟨fun _ => Or.inr (Or.inr hr), fun _ => rfl⟩
      · rw [if_neg fun h => hr (hnil.mp h).2, if_pos hc]
        simp [hc, hr]
    · rw [if_neg fun h => hc (hnil.mp h).1, if_neg hc]
      simp [Finset.nonempty_iff_ne_empty.mpr hc]
  have hfmts : (localMd.attributes.filterMap (takenFmt offerMd.attributes)).toFinset =
      commonFmts localMd offerMd := by
    rw [takenFmt_eq, commonFmts]
  unfold answerMd intersection
  dsimp only
  rw [MediaDescription.mk.injEq, hfmts, copies_eq_filter_iff, hport]
  exact ⟨fun ⟨_, hp, _, _, ha⟩ => ⟨ha, hp⟩, fun ⟨ha, hp⟩ => ⟨rfl, hp, rfl, rfl, ha⟩⟩

/-! ## Answers -/

/-- Two lists of answers to the same sections agree if and only if they agree at every section. -/
theorem filterMap_eq_iff {α β γ : Type} (find : α → Option β) (f g : α → β → γ) (l : List α) :
    (l.filterMap fun x => (find x).map (f x)) = (l.filterMap fun x => (find x).map (g x)) ↔
      ∀ x ∈ l, ∀ y, find x = some y → f x y = g x y := by
  induction l with
  | nil => simp
  | cons x l ih =>
    rw [List.forall_mem_cons, ← ih]
    cases hx : find x with
    | none => simp [hx]
    | some y => simp [hx]

/-- **The answer is the intersection of the codecs** exactly when every local section that the offer
has can be answered so. -/
theorem answer_is_intersection_iff (sdp offerSdp : SessionDescriptionProtocol) :
    (∃ answer, sdp.createAnswer offerSdp = .ok answer ∧
      answer.mediaDescriptions =
        sdp.mediaDescriptions.filterMap fun localMd => (findOffer offerSdp localMd).map (intersection localMd)) ↔
      ∀ localMd ∈ sdp.mediaDescriptions, ∀ offerMd, findOffer offerSdp localMd = some offerMd →
        Answerable localMd offerMd := by
  have hsections : (∃ answer, sdp.createAnswer offerSdp = .ok answer ∧
      answer.mediaDescriptions =
        sdp.mediaDescriptions.filterMap fun localMd => (findOffer offerSdp localMd).map (intersection localMd)) ↔
      (sdp.mediaDescriptions.filterMap fun localMd => (findOffer offerSdp localMd).map (answerMd localMd)) =
        sdp.mediaDescriptions.filterMap fun localMd => (findOffer offerSdp localMd).map (intersection localMd) := by
    rw [createAnswer_eq]
    constructor
    · rintro ⟨answer, ha, hmds⟩
      cases ha
      exact hmds
    · exact fun h => ⟨_, rfl, h⟩
  rw [hsections, filterMap_eq_iff]
  exact forall₂_congr fun localMd _ => forall₂_congr fun offerMd _ => answerMd_eq_iff localMd offerMd

/-- An offer that lists one codec under two payload types is answered with the local `rtpmap` twice. -/
theorem codec_answered_twice :
    let localMd : MediaDescription := ⟨"audio".toList, 5004, "RTP/AVP".toList, {96},
      [.rtpMap 96 "opus".toList 48000 none]⟩
    let offerMd : MediaDescription := ⟨"audio".toList, 6000, "RTP/AVP".toList, {96, 97},
      [.rtpMap 96 "opus".toList 48000 none, .rtpMap 97 "opus".toList 16000 none]⟩
    ¬∃ answer, (new [localMd] .default).createAnswer (new [offerMd] .default) = .ok answer ∧
      answer.mediaDescriptions = [localMd].filterMap fun l =>
        (findOffer (new [offerMd] .default) l).map (intersection l) := by
  intro localMd offerMd
  rintro ⟨answer, ha, hmds⟩
  rw [createAnswer_eq] at ha
  cases ha
  have hcount := congrArg (List.map fun md : MediaDescription => md.attributes.length) hmds
  revert hcount
  decide

end SessionDescriptionProtocol
end RoomRtc.Session
