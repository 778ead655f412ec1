import RoomRtc.Session.AnswerText
import RoomRtc.Session.Candidates

/-! What a new session is made of, section by section, and when its text and that of its answer to
another new session can be read: with the same media configuration on both sides nothing in offer
and answer can go wrong. -/
namespace RoomRtc.Session
open SessionDescriptionProtocol Text
set_option autoImplicit false

/-! ## The sections -/

/-- `fingerprint_from_digest` of `dtls/key_manager.rs`. -/
def fingerprintFromDigest (digest : Bytes) : Str := [':'].intercalate (digest.map hexByte)

/-- The hash algorithm of every certificate. -/
def sha256 : Str := "sha-256".toList

/-- A section with one `rtpmap`, as every new session has them, once its role is settled: the setup
attribute stands before the candidates first and behind them later. -/
structure OneCodec (md : MediaDescription) (kind protocol : Str) (port : UInt16)
    (codec : UInt8 × Str × UInt32 × Option Str)
    (fingerprint : Fingerprint) (candidates : List Candidate) : Prop where
  mediaType : md.mediaType = kind
  protocol : md.protocol = protocol
  port : md.port = port
  fmts : md.fmts = {codec.1}
  attributes : ∃ before after, md.attributes =
    .rtpMap codec.1 codec.2.1 codec.2.2.1 codec.2.2.2 :: .fingerprint fingerprint ::
    (before ++ candidates.map .candidate ++ after) ∧ ∀ attr ∈ before ++ after, CallSession.isSetup attr = true

def videoCodec (config : MediaConfig) : UInt8 × Str × UInt32 × Option Str :=
  (config.videoPayloadType, config.videoCodecName, config.clockRate, none)

def audioCodec (config : MediaConfig) : UInt8 × Str × UInt32 × Option Str :=
  (config.audioPayloadType, config.audioCodecName, config.audioSampleRate,
    some (Nat.toDigits 10 config.audioChannels.toNat))

variable {md md' : MediaDescription} {kind protocol : Str} {port : UInt16}
  {codec : UInt8 × Str × UInt32 × Option Str}
  {fingerprint : Fingerprint} {candidates : List Candidate}

theorem addMd_candidates {more : List Candidate}
    (h : more.foldlM (fun md candidate => addMd md (.candidate candidate)) md = .ok md') :
    md' = { md with attributes := md.attributes ++ more.map .candidate } := by
  induction more generalizing md with
  | nil =>
    cases h
    simp
  | cons candidate more ih =>
    rw [List.foldlM_cons] at h
    obtain ⟨next, hadd, hrest⟩ := ok_of_bind h
    rw [ih hrest, addAttribute_ok (ok_of_mapError hadd)]
    simp

theorem applyCommonAttributes_eq {role : DtlsSetupRole}
    (h : applyCommonAttributes md fingerprint role candidates = .ok md') :
    md' = { md with
      attributes := md.attributes ++ .fingerprint fingerprint :: .setup role :: candidates.map .candidate } := by
  obtain ⟨md₁, hone, h⟩ := ok_of_bind h
  obtain ⟨md₂, htwo, h⟩ := ok_of_bind h
  rw [addMd_candidates h, addAttribute_ok (ok_of_mapError htwo), addAttribute_ok (ok_of_mapError hone)]
  simp

def candidateOf : Attribute → Option Candidate
  | .candidate candidate => some candidate
  | _ => none

theorem getCandidates_eq (md : MediaDescription) : md.getCandidates = md.attributes.filterMap candidateOf := by
  rw [MediaDescription.getCandidates]
  congr 1

/-- Setup attributes and candidates have no `rtpmap` among them. -/
theorem rtpMap_not_mem {before after : List Attribute}
    (h : ∀ attr ∈ before ++ after, CallSession.isSetup attr = true)
    {fmt : UInt8} {name : Str} {rate : UInt32} {params : Option Str} :
    .rtpMap fmt name rate params ∉ before ++ candidates.map .candidate ++ after := by
  intro hattr
  rw [List.append_assoc, List.mem_append, List.mem_append, List.mem_map] at hattr
  obtain hb | ⟨c, _, hc⟩ | ha := hattr
  · cases h _ (List.mem_append_left _ hb)
  · cases hc
  · cases h _ (List.mem_append_right _ ha)

namespace OneCodec

variable (h : OneCodec md kind protocol port codec fingerprint candidates)
include h

theorem getCandidates : md.getCandidates = candidates := by
  obtain ⟨before, after, hattrs, hsetup⟩ := h.attributes
  have hnone : ∀ attrs : List Attribute, (∀ attr ∈ attrs, CallSession.isSetup attr = true) →
      attrs.filterMap candidateOf = [] := by
    intro attrs hall
    rw [List.filterMap_eq_nil_iff]
    intro attr hattr
    have := hall attr hattr
    cases attr <;> first | rfl | cases this
  have hsome : (candidates.map Attribute.candidate).filterMap candidateOf = candidates := by
    rw [List.filterMap_map]
    exact List.filterMap_some
  rw [List.forall_mem_append] at hsetup
  rw [getCandidates_eq, hattrs, List.filterMap_cons_none rfl, List.filterMap_cons_none rfl, List.filterMap_append,
    List.filterMap_append, hnone before hsetup.1, hnone after hsetup.2, hsome, List.nil_append, List.append_nil]

theorem getFingerprint : md.getFingerprint = some fingerprint := by
  obtain ⟨before, after, hattrs, _⟩ := h.attributes
  rw [MediaDescription.getFingerprint, hattrs]
  rfl

/-- Its role may be settled anew. -/
theorem withSetup (role : DtlsSetupRole) :
    OneCodec (CallSession.withSetup role md) kind protocol port codec fingerprint candidates := by
  obtain ⟨before, after, hattrs, hsetup⟩ := h.attributes
  refine ⟨h.mediaType, h.protocol, h.port, h.fmts, [], [.setup role], ?_, by simp [CallSession.isSetup]⟩
  rw [List.forall_mem_append] at hsetup
  have hdrop : ∀ attrs : List Attribute, (∀ attr ∈ attrs, CallSession.isSetup attr = true) →
      attrs.filter (fun attr => !CallSession.isSetup attr) = [] := by
    intro attrs hall
    rw [List.filter_eq_nil_iff]
    intro attr hattr
    simp [hall attr hattr]
  have hkeep : (candidates.map Attribute.candidate).filter (fun attr => !CallSession.isSetup attr) =
      candidates.map .candidate := by
    rw [List.filter_eq_self]
    intro attr hattr
    obtain ⟨c, _, rfl⟩ := List.mem_map.mp hattr
    rfl
  rw [CallSession.withSetup, hattrs, List.filter_cons_of_pos rfl, List.filter_cons_of_pos rfl, List.filter_append,
    List.filter_append, hdrop before hsetup.1, hdrop after hsetup.2, hkeep]
  simp

/-- One section of each side with the same codec name: the answer is the local section as it is. -/
theorem answerMd_eq {offerMd : MediaDescription} {kind' protocol' : Str} {port' : UInt16} {fmt' : UInt8}
    {rate' : UInt32} {params' : Option Str} {fingerprint' : Fingerprint} {candidates' : List Candidate}
    (h' : OneCodec offerMd kind' protocol' port' (fmt', codec.2.1, rate', params') fingerprint' candidates') :
    answerMd md offerMd = md := by
  obtain ⟨before, after, hattrs, hsetup⟩ := h.attributes
  obtain ⟨before', after', hattrs', hsetup'⟩ := h'.attributes
  have hshared : shared offerMd.attributes codec.2.1 = 1 := by
    rw [shared, hattrs', List.countP_cons, List.countP_cons, List.countP_eq_zero.mpr]
    · simp
    · intro attr hattr
      cases attr with
      | rtpMap fmt name rate params => exact absurd hattr (rtpMap_not_mem hsetup')
      | _ => simp
  have hcopies : ∀ attr ∈ md.attributes, copies offerMd.attributes attr = [attr] := by
    intro attr hattr
    cases attr with
    | rtpMap fmt name rate params =>
      rw [hattrs, List.mem_cons, List.mem_cons] at hattr
      obtain heq | heq | hrest := hattr
      · cases heq
        rw [copies, hshared]
        rfl
      · cases heq
      · exact absurd hrest (rtpMap_not_mem hsetup)
    | _ => rfl
  have hattributes : md.attributes.flatMap (copies offerMd.attributes) = md.attributes := by
    have : ∀ attrs : List Attribute, (∀ attr ∈ attrs, copies offerMd.attributes attr = [attr]) →
        attrs.flatMap (copies offerMd.attributes) = attrs := by
      intro attrs hall
      induction attrs with
      | nil => rfl
      | cons attr attrs ih =>
        rw [List.forall_mem_cons] at hall
        rw [List.flatMap_cons, hall.1, ih hall.2]
        rfl
    exact this md.attributes hcopies
  have hfmts : (md.attributes.filterMap (takenFmt offerMd.attributes)).toFinset = md.fmts := by
    have htaken : md.attributes.filterMap (takenFmt offerMd.attributes) = [codec.1] := by
      rw [hattrs, List.filterMap_cons_some (b := codec.1) (by rw [takenFmt, hshared]; rfl),
        List.filterMap_cons_none rfl, List.filterMap_eq_nil_iff.mpr]
      intro attr hattr
      cases attr with
      | rtpMap fmt name rate params => exact absurd hattr (rtpMap_not_mem hsetup)
      | _ => rfl
    rw [htaken, h.fmts]
    rfl
  have hne : md.attributes ≠ [] := by
    rw [hattrs]
    exact List.cons_ne_nil _ _
  rw [answerMd, hattributes, hfmts, if_neg hne]

/-- Its lines can be read when its strings are tokens. -/
theorem wellFormed (hkind : IsToken kind) (hprotocol : IsToken protocol)
    (hname : IsToken codec.2.1 ∧ '/' ∉ codec.2.1)
    (hparams : ∀ params ∈ codec.2.2.2, Plain params ∧ '/' ∉ params) (halgorithm : IsToken fingerprint.algorithm)
    (hbytes : fingerprint.bytes ≠ [])
    (hcandidates : ∀ c ∈ candidates, IsToken c.foundation ∧ IsToken c.transport ∧ IsToken c.address) :
    md.WellFormed where
  mediaType := h.mediaType ▸ hkind
  protocol := h.protocol ▸ hprotocol
  fmts := ⟨codec.1, by rw [h.fmts]; exact Finset.mem_singleton_self _⟩
  attributes := by
    obtain ⟨before, after, hattrs, hsetup⟩ := h.attributes
    intro attr hattr
    rw [hattrs, List.mem_cons, List.mem_cons, List.append_assoc, List.mem_append, List.mem_append,
      List.mem_map] at hattr
    obtain rfl | rfl | hb | ⟨c, hc, rfl⟩ | ha := hattr
    · exact ⟨by rw [h.fmts]; exact Finset.mem_singleton_self _, hname, hparams⟩
    · exact ⟨halgorithm, hbytes⟩
    · have := hsetup attr (List.mem_append_left _ hb)
      cases attr <;> trivial
    · exact hcandidates c hc
    · have := hsetup attr (List.mem_append_right _ ha)
      cases attr <;> trivial

end OneCodec

/-! ## The session -/

/-- The sections of a session with this configuration. -/
def Sections (config : MediaConfig) (port : UInt16) (fingerprint : Fingerprint) (candidates : List Candidate)
    (mds : List MediaDescription) : Prop :=
  ∃ video audio, mds = [video, audio] ∧
    OneCodec video config.videoMediaType config.mediaProtocol port (videoCodec config) fingerprint candidates ∧
    OneCodec audio config.audioMediaType config.mediaProtocol port (audioCodec config) fingerprint candidates

theorem Sections.withSetup {config : MediaConfig} {mds : List MediaDescription}
    (h : Sections config port fingerprint candidates mds) (role : DtlsSetupRole) :
    Sections config port fingerprint candidates (mds.map (CallSession.withSetup role)) := by
  obtain ⟨video, audio, rfl, hv, ha⟩ := h
  exact ⟨_, _, rfl, hv.withSetup role, ha.withSetup role⟩

theorem Sections.forall {config : MediaConfig} {mds : List MediaDescription}
    (h : Sections config port fingerprint candidates mds) :
    mds ≠ [] ∧ ∀ md ∈ mds, md.getCandidates = candidates ∧ md.getFingerprint = some fingerprint := by
  obtain ⟨video, audio, rfl, hv, ha⟩ := h
  refine ⟨List.cons_ne_nil _ _, fun md hmd => ?_⟩
  simp only [List.mem_cons, List.not_mem_nil, or_false] at hmd
  obtain rfl | rfl := hmd
  · exact ⟨hv.getCandidates, hv.getFingerprint⟩
  · exact ⟨ha.getCandidates, ha.getFingerprint⟩

/-- Two sides with the same media configuration: all sections are answered, each as it is. -/
theorem Sections.answer {config : MediaConfig} {mds offerMds : List MediaDescription} {port' : UInt16}
    {fingerprint' : Fingerprint} {candidates' : List Candidate} {offerSdp : SessionDescriptionProtocol}
    (hkinds : config.videoMediaType ≠ config.audioMediaType) (h : Sections config port fingerprint candidates mds)
    (h' : Sections config port' fingerprint' candidates' offerMds) (hoffer : offerSdp.mediaDescriptions = offerMds) :
    (mds.filterMap fun localMd => (findOffer offerSdp localMd).map (answerMd localMd)) = mds := by
  obtain ⟨video, audio, rfl, hv, ha⟩ := h
  obtain ⟨video', audio', rfl, hv', ha'⟩ := h'
  have hfindVideo : findOffer offerSdp video = some video' := by
    rw [findOffer, hoffer, List.find?_cons_of_pos]
    simp [hv.mediaType, hv'.mediaType, hv.protocol, hv'.protocol]
  have hfindAudio : findOffer offerSdp audio = some audio' := by
    rw [findOffer, hoffer, List.find?_cons_of_neg, List.find?_cons_of_pos]
    · simp [ha.mediaType, ha'.mediaType, ha.protocol, ha'.protocol]
    · simp [ha.mediaType, hv'.mediaType, hkinds]
  rw [List.filterMap_cons_some (by rw [hfindVideo]; rfl), List.filterMap_cons_some (by rw [hfindAudio]; rfl),
    hv.answerMd_eq hv', ha.answerMd_eq ha']
  rfl

/-- The strings of the configuration can stand in a session description. -/
structure Config.Writable (config : Config) : Prop where
  videoMediaType : IsToken config.media.videoMediaType
  audioMediaType : IsToken config.media.audioMediaType
  kinds : config.media.videoMediaType ≠ config.media.audioMediaType
  mediaProtocol : IsToken config.media.mediaProtocol
  videoCodecName : IsToken config.media.videoCodecName ∧ '/' ∉ config.media.videoCodecName
  audioCodecName : IsToken config.media.audioCodecName ∧ '/' ∉ config.media.audioCodecName
  sessionName : '\n' ∉ config.sdp.sessionName
  timing : '\n' ∉ config.sdp.timing
  foundation : IsToken config.ice.foundation
  transport : IsToken config.ice.transport

theorem Sections.wellFormed {config : Config} (hconfig : config.Writable) {mds : List MediaDescription}
    (h : Sections config.media port fingerprint candidates mds) (halgorithm : IsToken fingerprint.algorithm)
    (hbytes : fingerprint.bytes ≠ [])
    (hcandidates : ∀ c ∈ candidates, IsToken c.foundation ∧ IsToken c.transport ∧ IsToken c.address) :
    ∀ md ∈ mds, md.WellFormed := by
  obtain ⟨video, audio, rfl, hv, ha⟩ := h
  intro md hmd
  simp only [List.mem_cons, List.not_mem_nil, or_false] at hmd
  obtain rfl | rfl := hmd
  · exact hv.wellFormed hconfig.videoMediaType hconfig.mediaProtocol hconfig.videoCodecName
      (fun params hp => by cases hp) halgorithm hbytes hcandidates
  · refine ha.wellFormed hconfig.audioMediaType hconfig.mediaProtocol hconfig.audioCodecName ?_ halgorithm hbytes
      hcandidates
    rintro params ⟨⟩
    refine ⟨(isToken_toDigits _).plain, fun hmem => ?_⟩
    cases isDigit_toDigits hmem

namespace CallSession

/-- A session as `new` leaves it: its own data, and nothing of another side. -/
structure Made (net : IceAgent.Interfaces) (fingerprint : Fingerprint) (config : Config) (s : CallSession) : Prop where
  agent : s.iceAgent = IceAgent.new.gatherCandidates net config.ice
  sections : ∃ port, net.port = some port ∧
    Sections config.media port fingerprint s.iceAgent.localCandidates s.sdp.mediaDescriptions
  sessionName : s.sdp.sessionName = config.sdp.sessionName
  timing : s.sdp.timing = config.sdp.timing
  connectionData : ∀ c, s.iceAgent.getLocalCandidate = some c →
    s.sdp.connectionData = "IN IP4 ".toList ++ c.address

theorem made_new {net : IceAgent.Interfaces} {hash : Str} {config : Config} {s : CallSession}
    (hf : Fingerprint.fromHashString sha256 hash = .ok fingerprint)
    (h : new net (some hash) config = .ok s) : s.Made net fingerprint config := by
  obtain ⟨port, hport, h⟩ := ok_of_bind h
  obtain ⟨video, hvideo, h⟩ := ok_of_bind h
  obtain ⟨audio, haudio, h⟩ := ok_of_bind h
  obtain ⟨hash', hhash, h⟩ := ok_of_bind h
  obtain ⟨fingerprint', hfingerprint, h⟩ := ok_of_bind h
  obtain ⟨video', hvideo', h⟩ := ok_of_bind h
  obtain ⟨audio', haudio', h⟩ := ok_of_bind h
  have hport' : net.port = some port := by
    cases hnet : net.port with
    | none =>
      rw [hnet] at hport
      cases hport
    | some p =>
      rw [hnet] at hport
      cases hport
      rfl
  obtain rfl : fingerprint' = fingerprint := by
    cases hhash
    have hsame := ok_of_mapError hfingerprint
    rw [show "sha-256".toList = sha256 from rfl, hf] at hsame
    cases hsame
    rfl
  have hv := addAttribute_ok (ok_of_mapError (ok_of_mapError hvideo))
  have ha := addAttribute_ok (ok_of_mapError (ok_of_mapError haudio))
  have hv' := applyCommonAttributes_eq hvideo'
  have ha' := applyCommonAttributes_eq haudio'
  have hagent : s.iceAgent = IceAgent.new.gatherCandidates net config.ice := by
    cases h
    rfl
  have hsections : Sections config.media port fingerprint' s.iceAgent.localCandidates [video', audio'] := by
    refine ⟨video', audio', rfl, ?_, ?_⟩
    · rw [hv', hv, hagent]
      exact ⟨rfl, rfl, rfl, rfl, [.setup .actPass], [],
        by simp [videoCodec, MediaDescription.new], by simp [isSetup]⟩
    · rw [ha', ha, hagent]
      exact ⟨rfl, rfl, rfl, rfl, [.setup .actPass], [],
        by simp [audioCodec, MediaDescription.new], by simp [isSetup]⟩
  cases h
  dsimp only at hsections ⊢
  split
  · next c hc =>
    refine ⟨rfl, ⟨port, hport', hsections⟩, rfl, rfl, fun c' hc' => ?_⟩
    rw [hc] at hc'
    cases hc'
    simp [SessionDescriptionProtocol.setConnectionData]
  · next hnone =>
    refine ⟨rfl, ⟨port, hport', hsections⟩, rfl, rfl, fun c hc => ?_⟩
    rw [hnone] at hc
    cases hc

end CallSession
end RoomRtc.Session
