import Mathlib.Data.Finset.Dedup
import RoomRtc.Session.Roles

/-! The answer of `create_answer` in closed form. A local `rtpmap` is taken over once for every
`rtpmap` of the offer with its encoding name and every other attribute once, and the payload types
are those of the `rtpmap`s taken over, so that no attribute is ever refused. -/
namespace RoomRtc.Session
set_option autoImplicit false

/-! ## Adding attributes -/

/-- What `add_attribute` asks for. -/
def Attribute.Fits (fmts : Finset UInt8) : Attribute → Prop
  | .rtpMap fmt _ _ _ => fmt ∈ fmts
  | _ => True

theorem addAttribute_fits {md : MediaDescription} {attr : Attribute} (h : attr.Fits md.fmts) :
    md.addAttribute attr = .ok { md with attributes := md.attributes ++ [attr] } := by
  cases attr with
  | rtpMap fmt name rate params =>
    have hmem : fmt ∈ md.fmts := h
    simp [MediaDescription.addAttribute, hmem]
  | _ => rfl

theorem foldlM_addAttribute_fits {attrs : List Attribute} {md : MediaDescription}
    (h : ∀ attr ∈ attrs, attr.Fits md.fmts) :
    attrs.foldlM MediaDescription.addAttribute md = .ok { md with attributes := md.attributes ++ attrs } := by
  induction attrs generalizing md with
  | nil =>
    rw [List.append_nil]
    rfl
  | cons attr attrs ih =>
    rw [List.forall_mem_cons] at h
    have hrest := @ih { md with attributes := md.attributes ++ [attr] } h.2
    rw [List.append_assoc, List.singleton_append] at hrest
    rw [List.foldlM_cons, addAttribute_fits h.1]
    exact hrest

/-! ## The data of an answer -/

namespace SessionDescriptionProtocol

/-- How many `rtpmap`s among the attributes have the encoding name. -/
def shared (offerAttributes : List Attribute) (encodingName : Str) : ℕ :=
  offerAttributes.countP fun
    | .rtpMap _ offerEncodingName _ _ => encodingName = offerEncodingName
    | _ => false

/-- What becomes of a local attribute. -/
def copies (offerAttributes : List Attribute) (attr : Attribute) : List Attribute :=
  match attr with
  | .rtpMap _ encodingName _ _ => List.replicate (shared offerAttributes encodingName) attr
  | _ => [attr]

/-- The payload type of an `rtpmap` that is taken over. -/
def takenFmt (offerAttributes : List Attribute) : Attribute → Option UInt8
  | .rtpMap fmt encodingName _ _ => if shared offerAttributes encodingName = 0 then none else some fmt
  | _ => none

theorem takeRtpMap_eq (offerAttributes : List Attribute) (fmt : UInt8) (name : Str) (attr : Attribute)
    (acc : Finset UInt8 × List Attribute) :
    takeRtpMap offerAttributes fmt name attr acc =
      (if shared offerAttributes name = 0 then acc.1 else insert fmt acc.1,
        acc.2 ++ List.replicate (shared offerAttributes name) attr) := by
  unfold takeRtpMap
  induction offerAttributes generalizing acc with
  | nil => simp [shared]
  | cons offerAttr offerAttributes ih =>
    rw [List.foldl_cons, ih]
    cases offerAttr with
    | rtpMap _ other _ _ =>
      by_cases h : name = other
      · subst h
        simp [shared, List.replicate_succ]
      · simp [shared, h]
    | _ => simp [shared]

theorem takeAttribute_eq (offerAttributes : List Attribute) (acc : Finset UInt8 × List Attribute) (attr : Attribute) :
    takeAttribute offerAttributes acc attr =
      (acc.1 ∪ (takenFmt offerAttributes attr).toList.toFinset, acc.2 ++ copies offerAttributes attr) := by
  cases attr with
  | rtpMap fmt name rate params =>
    rw [takeAttribute, takeRtpMap_eq, copies, takenFmt.eq_def]
    dsimp only
    split
    · simp
    · simp
  | _ => simp [takeAttribute, copies, takenFmt]

/-- The payload types and the attributes of the answer, read off the local attributes. -/
theorem compatibleAttributesData_eq (localMd offerMd : MediaDescription) :
    compatibleAttributesData localMd offerMd =
      ((localMd.attributes.filterMap (takenFmt offerMd.attributes)).toFinset,
        localMd.attributes.flatMap (copies offerMd.attributes)) := by
  have hfold : ∀ (attrs : List Attribute) (acc : Finset UInt8 × List Attribute),
      attrs.foldl (takeAttribute offerMd.attributes) acc =
        (acc.1 ∪ (attrs.filterMap (takenFmt offerMd.attributes)).toFinset,
          acc.2 ++ attrs.flatMap (copies offerMd.attributes)) := by
    intro attrs
    induction attrs with
    | nil => simp
    | cons attr attrs ih =>
      intro acc
      rw [List.foldl_cons, ih, takeAttribute_eq, List.flatMap_cons, List.append_assoc, Finset.union_assoc]
      cases h : takenFmt offerMd.attributes attr with
      | none => rw [List.filterMap_cons_none h]; simp
      | some fmt => rw [List.filterMap_cons_some h, List.toFinset_cons]; rfl
  have h := hfold localMd.attributes (∅, [])
  rwa [Finset.empty_union, List.nil_append] at h

/-- The section that answers a local section. -/
def answerMd (localMd offerMd : MediaDescription) : MediaDescription :=
  let attributes := localMd.attributes.flatMap (copies offerMd.attributes)
  { mediaType := localMd.mediaType
    port := if attributes = [] then 0 else localMd.port
    protocol := localMd.protocol
    fmts := (localMd.attributes.filterMap (takenFmt offerMd.attributes)).toFinset
    attributes }

/-- A copy is a copy of a local attribute, and of an `rtpmap` only with its payload type. -/
theorem mem_copies {offerAttributes : List Attribute} {attr attr' : Attribute}
    (h : attr' ∈ copies offerAttributes attr) :
    attr' = attr ∧ ∀ fmt name rate params, attr = .rtpMap fmt name rate params →
      takenFmt offerAttributes attr = some fmt := by
  cases attr with
  | rtpMap fmt name rate params =>
    obtain ⟨hne, heq⟩ := List.mem_replicate.mp h
    refine ⟨heq, ?_⟩
    rintro fmt' name' rate' params' hattr
    cases hattr
    rw [takenFmt, if_neg hne]
  | _ => exact ⟨List.mem_singleton.mp h, fun _ _ _ _ hattr => by cases hattr⟩

theorem answerMd_fits (localMd offerMd : MediaDescription) :
    ∀ attr ∈ (answerMd localMd offerMd).attributes, attr.Fits (answerMd localMd offerMd).fmts := by
  intro attr hattr
  obtain ⟨original, hmem, hcopy⟩ := List.mem_flatMap.mp hattr
  obtain ⟨rfl, htaken⟩ := mem_copies hcopy
  cases attr with
  | rtpMap fmt name rate params =>
    have hfmt := htaken fmt name rate params rfl
    exact List.mem_toFinset.mpr (List.mem_filterMap.mpr ⟨_, hmem, hfmt⟩)
  | _ => trivial

/-- Every local section with its like in the offer is answered, in the order of the local
sections, and nothing can go wrong. -/
theorem createAnswerMds_eq (offerSdp : SessionDescriptionProtocol) (localMds : List MediaDescription) :
    createAnswerMds offerSdp localMds =
      .ok (localMds.filterMap fun localMd => (findOffer offerSdp localMd).map (answerMd localMd)) := by
  induction localMds with
  | nil => rfl
  | cons localMd localMds ih =>
    rw [createAnswerMds]
    cases hfind : findOffer offerSdp localMd with
    | none =>
      rw [List.filterMap_cons_none (by rw [hfind]; rfl)]
      exact ih
    | some offerMd =>
      have hone : createAnswerMd localMd (compatibleAttributesData localMd offerMd).1
          (compatibleAttributesData localMd offerMd).2 = .ok (answerMd localMd offerMd) := by
        rw [compatibleAttributesData_eq]
        exact foldlM_addAttribute_fits (answerMd_fits localMd offerMd)
      rw [List.filterMap_cons_some (by rw [hfind]; rfl)]
      dsimp only
      rw [hone, ih]
      rfl

theorem createAnswer_eq (sdp offerSdp : SessionDescriptionProtocol) :
    sdp.createAnswer offerSdp = .ok
      { sdp with
        mediaDescriptions :=
          sdp.mediaDescriptions.filterMap fun localMd => (findOffer offerSdp localMd).map (answerMd localMd)
        connectionData := "IN IP4 0.0.0.0".toList } := by
  rw [createAnswer, createAnswerMds_eq]
  rfl

end SessionDescriptionProtocol
end RoomRtc.Session
