import RoomRtc.Session.CallSession
import RoomRtc.Srtp.Context

/-! The DTLS roles of a call. Every section of a session carries exactly one setup role, the
session's own, through every history; from this, what role an answer announces and that offer
and answer settle on opposite roles. -/
namespace RoomRtc.Session
open SessionDescriptionProtocol
set_option autoImplicit false

theorem ok_of_bind {ε α β : Type} {x : Except ε α} {f : α → Except ε β} {b : β} (h : x >>= f = .ok b) :
    ∃ a, x = .ok a ∧ f a = .ok b := by
  cases x with
  | error e => cases h
  | ok a => exact ⟨a, rfl, h⟩

theorem ok_of_mapError {ε ε' α : Type} {x : Except ε α} {f : ε → ε'} {a : α} (h : x.mapError f = .ok a) :
    x = .ok a := by
  cases x with
  | error e => cases h
  | ok a =>
    cases h
    rfl

/-! ## Setup roles of a section -/

def setupOf : Attribute → Option DtlsSetupRole
  | .setup role => some role
  | _ => none

/-- All setup roles a section carries. -/
def MediaDescription.setupRoles (md : MediaDescription) : List DtlsSetupRole := md.attributes.filterMap setupOf

theorem getSetupRole_eq (md : MediaDescription) : md.getSetupRole = md.setupRoles.head? := by
  unfold MediaDescription.getSetupRole MediaDescription.setupRoles
  rw [List.head?_filterMap]
  congr 1

theorem addAttribute_ok {md md' : MediaDescription} {attr : Attribute} (h : md.addAttribute attr = .ok md') :
    md' = { md with attributes := md.attributes ++ [attr] } := by
  unfold MediaDescription.addAttribute at h
  dsimp only at h
  split at h
  all_goals
    split at h
    · cases h
      rfl
    · cases h

theorem addAttribute_setup (md : MediaDescription) (role : DtlsSetupRole) :
    md.addAttribute (.setup role) = .ok { md with attributes := md.attributes ++ [.setup role] } := rfl

/-- What a section is made of after a row of attributes was added to it. -/
theorem foldlM_addAttribute {attrs : List Attribute} {md md' : MediaDescription}
    (h : attrs.foldlM MediaDescription.addAttribute md = .ok md') :
    md' = { md with attributes := md.attributes ++ attrs } := by
  induction attrs generalizing md with
  | nil =>
    cases h
    simp
  | cons attr attrs ih =>
    rw [List.foldlM_cons] at h
    obtain ⟨next, hadd, hrest⟩ := ok_of_bind h
    rw [ih hrest, addAttribute_ok hadd]
    simp

/-! ## The roles of an answer -/

/-- An `rtpmap` is taken over any number of times and carries no role. -/
theorem takeRtpMap_setups (offerAttrs : List Attribute) (fmt : UInt8) (name : Str) {attr : Attribute}
    (hattr : setupOf attr = none) (acc : Finset UInt8 × List Attribute) :
    (takeRtpMap offerAttrs fmt name attr acc).2.filterMap setupOf = acc.2.filterMap setupOf := by
  unfold takeRtpMap
  induction offerAttrs generalizing acc with
  | nil => rfl
  | cons offerAttr offerAttrs ih =>
    rw [List.foldl_cons, ih]
    cases offerAttr with
    | rtpMap _ other _ _ =>
      dsimp only
      split
      · rw [List.filterMap_append, List.filterMap_cons_none hattr, List.filterMap_nil, List.append_nil]
      · rfl
    | _ => rfl

theorem takeAttribute_setups (offerAttrs : List Attribute) (acc : Finset UInt8 × List Attribute) (attr : Attribute) :
    (takeAttribute offerAttrs acc attr).2.filterMap setupOf =
      acc.2.filterMap setupOf ++ [attr].filterMap setupOf := by
  cases attr with
  | rtpMap fmt name rate params =>
    rw [takeAttribute, takeRtpMap_setups offerAttrs fmt name rfl]
    simp [setupOf]
  | _ => exact List.filterMap_append

theorem compatible_setups (localMd offerMd : MediaDescription) :
    (compatibleAttributesData localMd offerMd).2.filterMap setupOf = localMd.setupRoles := by
  have hfold : ∀ (attrs : List Attribute) (acc : Finset UInt8 × List Attribute),
      (attrs.foldl (takeAttribute offerMd.attributes) acc).2.filterMap setupOf =
        acc.2.filterMap setupOf ++ attrs.filterMap setupOf := by
    intro attrs
    induction attrs with
    | nil => simp
    | cons attr attrs ih =>
      intro acc
      rw [List.foldl_cons, ih, takeAttribute_setups, List.append_assoc, ← List.filterMap_append,
        List.singleton_append]
  exact hfold localMd.attributes (∅, [])

theorem createAnswerMds_cons {offerSdp : SessionDescriptionProtocol} {localMd : MediaDescription}
    {localMds mds : List MediaDescription} (h : createAnswerMds offerSdp (localMd :: localMds) = .ok mds) :
    (findOffer offerSdp localMd = none ∧ createAnswerMds offerSdp localMds = .ok mds) ∨
    ∃ offerMd answerMd rest, findOffer offerSdp localMd = some offerMd ∧
      createAnswerMd localMd (compatibleAttributesData localMd offerMd).1
        (compatibleAttributesData localMd offerMd).2 = .ok answerMd ∧
      createAnswerMds offerSdp localMds = .ok rest ∧ mds = answerMd :: rest := by
  rw [createAnswerMds] at h
  cases hfind : findOffer offerSdp localMd with
  | none =>
    rw [hfind] at h
    exact .inl ⟨rfl, h⟩
  | some offerMd =>
    rw [hfind] at h
    obtain ⟨answerMd, hanswer, h⟩ := ok_of_bind h
    obtain ⟨rest, hrest, h⟩ := ok_of_bind h
    cases h
    exact .inr ⟨offerMd, answerMd, rest, rfl, hanswer, hrest, rfl⟩

/-- A section of the answer carries the roles of the local section it stands for. -/
theorem createAnswerMds_setups {offerSdp : SessionDescriptionProtocol} {localMds mds : List MediaDescription}
    (h : createAnswerMds offerSdp localMds = .ok mds) :
    ∀ md ∈ mds, ∃ localMd ∈ localMds, md.setupRoles = localMd.setupRoles := by
  induction localMds generalizing mds with
  | nil =>
    cases h
    simp
  | cons localMd localMds ih =>
    intro md hmd
    obtain ⟨_, hrest⟩ | ⟨offerMd, answerMd, rest, _, hanswer, hrest, rfl⟩ := createAnswerMds_cons h
    · obtain ⟨l, hl, heq⟩ := ih hrest md hmd
      exact ⟨l, List.mem_cons_of_mem localMd hl, heq⟩
    · cases List.mem_cons.mp hmd with
      | inl hmd =>
        refine ⟨localMd, List.mem_cons_self .., ?_⟩
        rw [hmd, foldlM_addAttribute hanswer, ← compatible_setups localMd offerMd]
        rfl
      | inr hmd =>
        obtain ⟨l, hl, heq⟩ := ih hrest md hmd
        exact ⟨l, List.mem_cons_of_mem localMd hl, heq⟩

/-- The answer has no section just when no local section finds its like in the offer. -/
theorem createAnswerMds_eq_nil {offerSdp : SessionDescriptionProtocol} {localMds mds : List MediaDescription}
    (h : createAnswerMds offerSdp localMds = .ok mds) :
    mds = [] ↔ ∀ localMd ∈ localMds, findOffer offerSdp localMd = none := by
  induction localMds generalizing mds with
  | nil =>
    cases h
    simp
  | cons localMd localMds ih =>
    rw [List.forall_mem_cons]
    obtain ⟨hfind, hrest⟩ | ⟨offerMd, answerMd, rest, hfind, _, _, rfl⟩ := createAnswerMds_cons h
    · rw [ih hrest]
      simp [hfind]
    · simp [hfind]

theorem createAnswer_sections {sdp offerSdp answer : SessionDescriptionProtocol}
    (h : sdp.createAnswer offerSdp = .ok answer) :
    createAnswerMds offerSdp sdp.mediaDescriptions = .ok answer.mediaDescriptions := by
  obtain ⟨mds, hmds, h⟩ := ok_of_bind h
  cases h
  exact hmds

/-! ## The role of a session -/

namespace CallSession

/-- Every section carries exactly one setup role, the session's own, which is never `HoldConn`. -/
structure RoleShown (s : CallSession) : Prop where
  sections : s.sdp.mediaDescriptions ≠ []
  setups : ∀ md ∈ s.sdp.mediaDescriptions, md.setupRoles = [s.localSetupRole]
  settled : s.localSetupRole ≠ .holdConn

/-- A section after `set_local_setup_role` has been over it. -/
def withSetup (role : DtlsSetupRole) (md : MediaDescription) : MediaDescription :=
  { md with attributes := (md.attributes.filter fun attr => !isSetup attr) ++ [.setup role] }

theorem setupRoles_withSetup (role : DtlsSetupRole) (md : MediaDescription) :
    (withSetup role md).setupRoles = [role] := by
  have hnone : (md.attributes.filter fun attr => !isSetup attr).filterMap setupOf = [] := by
    rw [List.filterMap_eq_nil_iff]
    intro attr hattr
    have hkept := (List.mem_filter.mp hattr).2
    cases attr with
    | setup role => simp [isSetup] at hkept
    | _ => rfl
  unfold MediaDescription.setupRoles withSetup
  rw [List.filterMap_append, hnone]
  rfl

theorem updateSetup_eq (role : DtlsSetupRole) (mds : List MediaDescription) :
    updateSetup role mds = (mds.map (withSetup role), .ok ()) := by
  induction mds with
  | nil => rfl
  | cons md mds ih =>
    rw [updateSetup]
    dsimp only
    rw [addAttribute_setup, ih]
    rfl

/-- Setting the role never fails, and afterwards the session has it and shows it. -/
theorem setLocalSetupRole_spec {s : CallSession} (h : s.RoleShown) {role : DtlsSetupRole} (hrole : role ≠ .holdConn) :
    (s.setLocalSetupRole role).2 = .ok () ∧ (s.setLocalSetupRole role).1.RoleShown ∧
      (s.setLocalSetupRole role).1.localSetupRole = role ∧
      (s.setLocalSetupRole role).1.sdp.mediaDescriptions.map (fun md => (md.mediaType, md.protocol)) =
        s.sdp.mediaDescriptions.map fun md => (md.mediaType, md.protocol) := by
  unfold setLocalSetupRole
  by_cases heq : s.localSetupRole = role
  · rw [if_pos heq]
    exact ⟨rfl, h, heq, rfl⟩
  · rw [if_neg heq, updateSetup_eq]
    refine ⟨rfl, ⟨?_, ?_, hrole⟩, rfl, ?_⟩
    · simpa using h.sections
    · intro md hmd
      obtain ⟨old, _, rfl⟩ := List.mem_map.mp hmd
      exact setupRoles_withSetup role old
    · rw [List.map_map]
      rfl

theorem complementary_ne_holdConn (role : DtlsSetupRole) (remoteType : RemoteSdpType) :
    determineComplementaryRole role remoteType ≠ .holdConn := by
  cases role <;> cases remoteType <;> simp [determineComplementaryRole]

theorem determineLocalRole_ne_holdConn (s : CallSession) (offer : SessionDescriptionProtocol) :
    s.determineLocalRole offer .offer ≠ .holdConn := by
  unfold determineLocalRole
  split
  · exact complementary_ne_holdConn _ _
  · simp

theorem RoleShown.congr {s t : CallSession} (h : s.RoleShown) (hsdp : t.sdp = s.sdp)
    (hrole : t.localSetupRole = s.localSetupRole) : t.RoleShown := by
  refine ⟨?_, ?_, ?_⟩
  · rw [hsdp]
    exact h.sections
  · rw [hsdp, hrole]
    exact h.setups
  · rw [hrole]
    exact h.settled

theorem addRemoteCandidates_frame (s : CallSession) (candidates : List Candidate) :
    (s.addRemoteCandidates candidates).1.sdp = s.sdp ∧
      (s.addRemoteCandidates candidates).1.localSetupRole = s.localSetupRole := by
  induction candidates generalizing s with
  | nil => exact ⟨rfl, rfl⟩
  | cons candidate candidates ih =>
    rw [addRemoteCandidates]
    split
    · exact ⟨rfl, rfl⟩
    · next agent _ => exact ih { s with iceAgent := agent }

theorem noteFingerprint_frame (s : CallSession) (md : MediaDescription) :
    (s.noteFingerprint md).sdp = s.sdp ∧ (s.noteFingerprint md).localSetupRole = s.localSetupRole := by
  unfold noteFingerprint
  split <;> exact ⟨rfl, rfl⟩

/-- The last role a row of sections carries. -/
def lastRole (mds : List MediaDescription) : Option DtlsSetupRole :=
  (mds.filterMap MediaDescription.getSetupRole).getLast?

/-- Taking in remote sections: the role is shown whatever happens, and when all went well it is
the one the last remote role asks for. -/
structure TakenIn (s : CallSession) (role : Option DtlsSetupRole) (remoteType : RemoteSdpType)
    (r : CallSession × Except CallSessionError Unit) : Prop where
  shown : r.1.RoleShown
  role_eq : r.2 = .ok () → r.1.localSetupRole =
    (role.map fun role => determineComplementaryRole role remoteType).getD s.localSetupRole

theorem noteSetupRole_spec {s : CallSession} (h : s.RoleShown) (md : MediaDescription)
    (remoteType : RemoteSdpType) : TakenIn s md.getSetupRole remoteType (s.noteSetupRole md remoteType) := by
  unfold noteSetupRole
  cases md.getSetupRole with
  | none => exact ⟨h, fun _ => rfl⟩
  | some remoteRole =>
    have h' : RoleShown { s with remoteSetupRole := some remoteRole } := h.congr rfl rfl
    obtain ⟨_, hshown, hrole, _⟩ := setLocalSetupRole_spec h' (complementary_ne_holdConn remoteRole remoteType)
    exact ⟨hshown, fun _ => hrole⟩

theorem processRemoteMd_spec {s : CallSession} (h : s.RoleShown) (md : MediaDescription)
    (remoteType : RemoteSdpType) : TakenIn s md.getSetupRole remoteType (s.processRemoteMd md remoteType) := by
  have hframe := addRemoteCandidates_frame s md.getCandidates
  unfold processRemoteMd
  cases hadd : s.addRemoteCandidates md.getCandidates with
  | mk s₁ result =>
    rw [hadd] at hframe
    have hs₁ : s₁.RoleShown := h.congr hframe.1 hframe.2
    cases result with
    | error e => exact ⟨hs₁, fun he => by cases he⟩
    | ok u =>
      have hfinger := noteFingerprint_frame s₁ md
      have hnote := noteSetupRole_spec (hs₁.congr hfinger.1 hfinger.2) md remoteType
      refine ⟨hnote.shown, fun hok => ?_⟩
      have hrole := hnote.role_eq hok
      rw [hfinger.2, hframe.2] at hrole
      exact hrole

theorem lastRole_cons (md : MediaDescription) (mds : List MediaDescription) :
    lastRole (md :: mds) = (lastRole mds).or md.getSetupRole := by
  unfold lastRole
  cases hrole : md.getSetupRole with
  | none =>
    rw [List.filterMap_cons_none hrole]
    simp
  | some role =>
    rw [List.filterMap_cons_some hrole, List.getLast?_cons]
    cases (mds.filterMap MediaDescription.getSetupRole).getLast? <;> rfl

theorem processRemoteMds_spec {s : CallSession} (h : s.RoleShown) (remoteType : RemoteSdpType)
    (mds : List MediaDescription) : TakenIn s (lastRole mds) remoteType (s.processRemoteMds remoteType mds) := by
  induction mds generalizing s with
  | nil => exact ⟨h, fun _ => rfl⟩
  | cons md mds ih =>
    have hmd := processRemoteMd_spec h md remoteType
    rw [processRemoteMds]
    cases hone : s.processRemoteMd md remoteType with
    | mk s₁ result =>
      rw [hone] at hmd
      cases result with
      | error e => exact ⟨hmd.shown, fun he => by cases he⟩
      | ok u =>
        have hrest := ih hmd.shown
        refine ⟨hrest.shown, fun hok => ?_⟩
        rw [hrest.role_eq hok, hmd.role_eq rfl, lastRole_cons]
        cases lastRole mds <;> rfl

theorem processAnswer_spec {s : CallSession} (h : s.RoleShown) (answer : SessionDescriptionProtocol) :
    TakenIn s (lastRole answer.mediaDescriptions) .answer (s.processAnswer answer) :=
  processRemoteMds_spec h .answer answer.mediaDescriptions

/-- What `process_offer` returns when it returns an answer: the answer was made under the role the
first section of the offer asks for, and the role kept is the one the last role asks for. -/
theorem processOffer_ok {s s' : CallSession} {offer answer : SessionDescriptionProtocol} (h : s.RoleShown)
    (hok : s.processOffer offer = (s', .ok answer)) :
    ∃ s₁ : CallSession, s₁.RoleShown ∧ s₁.localSetupRole = s.determineLocalRole offer .offer ∧
      s₁.sdp.mediaDescriptions.map (fun md => (md.mediaType, md.protocol)) =
        s.sdp.mediaDescriptions.map (fun md => (md.mediaType, md.protocol)) ∧
      createAnswerMds offer s₁.sdp.mediaDescriptions = .ok answer.mediaDescriptions ∧
      s'.localSetupRole = ((lastRole offer.mediaDescriptions).map
        fun role => determineComplementaryRole role .offer).getD s₁.localSetupRole := by
  obtain ⟨hset, hshown, hrole, hkinds⟩ := setLocalSetupRole_spec h (determineLocalRole_ne_holdConn s offer)
  unfold processOffer at hok
  cases hone : s.setLocalSetupRole (s.determineLocalRole offer .offer) with
  | mk s₁ result =>
    rw [hone] at hset hshown hrole hkinds hok
    cases hset
    dsimp only at hok
    cases hanswer : s₁.sdp.createAnswer offer with
    | error e =>
      rw [hanswer] at hok
      cases hok
    | ok answerSdp =>
      rw [hanswer] at hok
      dsimp only at hok
      have htaken := processRemoteMds_spec hshown .offer offer.mediaDescriptions
      cases htwo : s₁.processRemoteSdp offer .offer with
      | mk s₂ result =>
        have htwo' : s₁.processRemoteMds .offer offer.mediaDescriptions = (s₂, result) := htwo
        rw [htwo'] at htaken
        rw [htwo] at hok
        cases result with
        | error e => cases hok
        | ok u =>
          cases hok
          exact ⟨s₁, hshown, hrole, hkinds, createAnswer_sections hanswer, htaken.role_eq rfl⟩

/-! ## Histories -/

theorem addMd_setups {md md' : MediaDescription} {attr : Attribute} (h : addMd md attr = .ok md') :
    md'.setupRoles = md.setupRoles ++ (setupOf attr).toList := by
  rw [addAttribute_ok (ok_of_mapError h)]
  unfold MediaDescription.setupRoles
  rw [List.filterMap_append]
  cases hattr : setupOf attr with
  | none => rw [List.filterMap_cons_none hattr]; rfl
  | some role => rw [List.filterMap_cons_some hattr]; rfl

theorem candidates_setups {candidates : List Candidate} {md md' : MediaDescription}
    (h : candidates.foldlM (fun md candidate => addMd md (.candidate candidate)) md = .ok md') :
    md'.setupRoles = md.setupRoles := by
  induction candidates generalizing md with
  | nil =>
    cases h
    rfl
  | cons candidate candidates ih =>
    rw [List.foldlM_cons] at h
    obtain ⟨next, hadd, hrest⟩ := ok_of_bind h
    rw [ih hrest, addMd_setups hadd]
    exact List.append_nil _

theorem applyCommonAttributes_setups {md md' : MediaDescription} {fingerprint : Fingerprint} {role : DtlsSetupRole}
    {candidates : List Candidate} (h : applyCommonAttributes md fingerprint role candidates = .ok md') :
    md'.setupRoles = md.setupRoles ++ [role] := by
  obtain ⟨md₁, hone, h⟩ := ok_of_bind h
  obtain ⟨md₂, htwo, h⟩ := ok_of_bind h
  rw [candidates_setups h, addMd_setups htwo, addMd_setups hone]
  simp [setupOf]

/-- A new session has a video and an audio section, both with `ActPass`. -/
theorem roleShown_new {net : IceAgent.Interfaces} {certificate : Option Str} {config : Config} {s : CallSession}
    (h : new net certificate config = .ok s) : s.RoleShown := by
  obtain ⟨localPort, _, h⟩ := ok_of_bind h
  obtain ⟨video, hvideo, h⟩ := ok_of_bind h
  obtain ⟨audio, haudio, h⟩ := ok_of_bind h
  obtain ⟨hash, _, h⟩ := ok_of_bind h
  obtain ⟨fingerprint, _, h⟩ := ok_of_bind h
  obtain ⟨video', hvideo', h⟩ := ok_of_bind h
  obtain ⟨audio', haudio', h⟩ := ok_of_bind h
  have hv : video'.setupRoles = [.actPass] := by
    rw [applyCommonAttributes_setups hvideo', addMd_setups (ok_of_mapError hvideo)]
    rfl
  have ha : audio'.setupRoles = [.actPass] := by
    rw [applyCommonAttributes_setups haudio', addMd_setups (ok_of_mapError haudio)]
    rfl
  -- the connection data is set or not; the sections are the same
  have hmds : s.sdp.mediaDescriptions = [video', audio'] := by
    cases h
    dsimp only
    split <;> rfl
  have hrole : s.localSetupRole = .actPass := by
    cases h
    rfl
  refine ⟨?_, ?_, ?_⟩
  · rw [hmds]
    simp
  · rw [hmds, hrole]
    simp [hv, ha]
  · rw [hrole]
    simp

theorem roleShown_negotiate {s : CallSession} (h : s.RoleShown) (n : Negotiation) : (s.negotiate n).RoleShown := by
  cases n with
  | answer sdp => exact (processAnswer_spec h sdp).shown
  | offer sdp =>
    obtain ⟨hset, hshown, _, _⟩ := setLocalSetupRole_spec h (determineLocalRole_ne_holdConn s sdp)
    rw [negotiate, processOffer]
    cases hone : s.setLocalSetupRole (s.determineLocalRole sdp .offer) with
    | mk s₁ result =>
      rw [hone] at hset hshown
      cases hset
      dsimp only
      cases s₁.sdp.createAnswer sdp with
      | error e => exact hshown
      | ok answer =>
        have htaken := (processRemoteMds_spec hshown .offer sdp.mediaDescriptions).shown
        dsimp only
        rw [processRemoteSdp]
        cases htwo : s₁.processRemoteMds .offer sdp.mediaDescriptions with
        | mk s₂ result =>
          rw [htwo] at htaken
          cases result <;> exact htaken

theorem roleShown_reachable {s : CallSession} (h : s.Reachable) : s.RoleShown := by
  obtain ⟨net, certificate, config, s₀, hnew, history, rfl⟩ := h
  have h₀ := roleShown_new hnew
  clear hnew
  induction history generalizing s₀ with
  | nil => exact h₀
  | cons n history ih => exact ih _ (roleShown_negotiate h₀ n)

/-! ## The role an answer announces -/

/-- The section leaves the passive part to the other side: it is active, or holds the connection. -/
def AsksPassive (role : Option DtlsSetupRole) : Prop := role = some .active ∨ role = some .holdConn

instance (role : Option DtlsSetupRole) : Decidable (AsksPassive role) := by
  unfold AsksPassive
  infer_instance

def firstRole (mds : List MediaDescription) : Option DtlsSetupRole := mds.head?.bind MediaDescription.getSetupRole

/-- The offer and the session have no section of one media type and protocol. -/
def NothingCommon (s : CallSession) (offer : SessionDescriptionProtocol) : Prop :=
  ∀ l ∈ s.sdp.mediaDescriptions, ∀ m ∈ offer.mediaDescriptions,
    ¬(m.mediaType = l.mediaType ∧ m.protocol = l.protocol)

theorem complementary_offer (role : DtlsSetupRole) :
    determineComplementaryRole role .offer = if AsksPassive (some role) then .passive else .active := by
  cases role <;> rfl

theorem determineLocalRole_offer (s : CallSession) (offer : SessionDescriptionProtocol) :
    s.determineLocalRole offer .offer =
      if AsksPassive (firstRole offer.mediaDescriptions) then .passive else .active := by
  unfold determineLocalRole firstRole
  cases offer.mediaDescriptions.head?.bind MediaDescription.getSetupRole with
  | none => rfl
  | some role => exact complementary_offer role

theorem firstRole_of_lastRole {mds : List MediaDescription} (h : lastRole mds = none) : firstRole mds = none := by
  cases mds with
  | nil => rfl
  | cons md mds =>
    rw [lastRole_cons, Option.or_eq_none_iff] at h
    exact h.2

theorem findOffer_eq_none {offer : SessionDescriptionProtocol} {l : MediaDescription} :
    findOffer offer l = none ↔
      ∀ m ∈ offer.mediaDescriptions, ¬(m.mediaType = l.mediaType ∧ m.protocol = l.protocol) := by
  simp [findOffer]

theorem nothingCommon_congr {s t : CallSession} (offer : SessionDescriptionProtocol)
    (h : t.sdp.mediaDescriptions.map (fun md => (md.mediaType, md.protocol)) =
      s.sdp.mediaDescriptions.map fun md => (md.mediaType, md.protocol)) :
    NothingCommon t offer ↔ NothingCommon s offer := by
  have hkind : ∀ u : CallSession, NothingCommon u offer ↔
      ∀ k ∈ u.sdp.mediaDescriptions.map fun md => (md.mediaType, md.protocol),
        ∀ m ∈ offer.mediaDescriptions, ¬(m.mediaType = k.1 ∧ m.protocol = k.2) := by
    intro u
    rw [List.forall_mem_map]
    rfl
  rw [hkind t, hkind s, h]

/-- **When the announced role is the role used.** Every section of the answer carries the role the
session has afterwards just when the first section of the offer and its last role ask for the
same part, or the answer has no section. -/
theorem announced_role_iff {s s' : CallSession} {offer answer : SessionDescriptionProtocol} (hs : s.Reachable)
    (hok : s.processOffer offer = (s', .ok answer)) :
    (∀ md ∈ answer.mediaDescriptions, md.setupRoles = [s'.localSetupRole]) ↔
      (AsksPassive (firstRole offer.mediaDescriptions) ↔ AsksPassive (lastRole offer.mediaDescriptions)) ∨
        NothingCommon s offer := by
  obtain ⟨s₁, hshown, hrole, hkinds, hanswer, hlast⟩ := processOffer_ok (roleShown_reachable hs) hok
  rw [determineLocalRole_offer] at hrole
  have hcarries : ∀ md ∈ answer.mediaDescriptions, md.setupRoles = [s₁.localSetupRole] := by
    intro md hmd
    obtain ⟨l, hl, heq⟩ := createAnswerMds_setups hanswer md hmd
    rw [heq, hshown.setups l hl]
  have hempty : answer.mediaDescriptions = [] ↔ NothingCommon s offer := by
    rw [createAnswerMds_eq_nil hanswer, ← nothingCommon_congr offer hkinds]
    constructor
    · exact fun h l hl => findOffer_eq_none.mp (h l hl)
    · exact fun h l hl => findOffer_eq_none.mpr (h l hl)
  have hsame : s₁.localSetupRole = s'.localSetupRole ↔
      (AsksPassive (firstRole offer.mediaDescriptions) ↔ AsksPassive (lastRole offer.mediaDescriptions)) := by
    rw [hlast]
    cases hrole' : lastRole offer.mediaDescriptions with
    | none => simp [firstRole_of_lastRole hrole']
    | some role =>
      rw [Option.map_some, Option.getD_some, complementary_offer, hrole]
      by_cases h₁ : AsksPassive (firstRole offer.mediaDescriptions)
      · by_cases h₂ : AsksPassive (some role)
        · simp [h₁, h₂]
        · simp [h₁, h₂]
      · by_cases h₂ : AsksPassive (some role)
        · simp [h₁, h₂]
        · simp [h₁, h₂]
  rw [← hsame, ← hempty]
  constructor
  · intro h
    cases hmds : answer.mediaDescriptions with
    | nil => exact .inr rfl
    | cons md mds =>
      have hmem : md ∈ answer.mediaDescriptions := by simp [hmds]
      exact .inl (List.singleton_inj.mp ((hcarries md hmem).symm.trans (h md hmem)))
  · intro h md hmd
    cases h with
    | inl h => rw [hcarries md hmd, h]
    | inr h =>
      rw [h] at hmd
      exact (List.not_mem_nil hmd).elim

/-! ## Opposite roles -/

theorem lastRole_of_forall {mds : List MediaDescription} {role : DtlsSetupRole} (hne : mds ≠ [])
    (h : ∀ md ∈ mds, md.setupRoles = [role]) : lastRole mds = some role := by
  induction mds with
  | nil => exact absurd rfl hne
  | cons md mds ih =>
    rw [List.forall_mem_cons] at h
    have hmd : md.getSetupRole = some role := by rw [getSetupRole_eq, h.1]; rfl
    rw [lastRole_cons, hmd]
    cases mds with
    | nil => rfl
    | cons md' mds => rw [ih (by simp) h.2]; rfl

/-- `is_client` of the transports. -/
def isClient (s : CallSession) : Bool := decide (s.localSetupRole = .active)

/-- **Offer and answer settle on opposite roles.** -/
theorem opposite_roles {a b a' b' : CallSession} {answer : SessionDescriptionProtocol} (ha : a.Reachable)
    (hb : b.Reachable)
    (hcommon : ∃ x ∈ a.sdp.mediaDescriptions, ∃ y ∈ b.sdp.mediaDescriptions,
      x.mediaType = y.mediaType ∧ x.protocol = y.protocol)
    (hoffer : b.processOffer a.getOffer = (b', .ok answer)) (hanswer : a.processAnswer answer = (a', .ok ())) :
    ((a'.localSetupRole = .active ∧ b'.localSetupRole = .passive) ∨
      (a'.localSetupRole = .passive ∧ b'.localSetupRole = .active)) ∧
    ∀ ctx : Srtp.SrtpContext, ctx.getWriteKeys a'.isClient = ctx.getReadKeys b'.isClient ∧
      ctx.getWriteKeys b'.isClient = ctx.getReadKeys a'.isClient := by
  have hA := roleShown_reachable ha
  have hofferRole : lastRole a.getOffer.mediaDescriptions = some a.localSetupRole :=
    lastRole_of_forall hA.sections hA.setups
  obtain ⟨b₁, hshown, hrole, hkinds, hmds, hlast⟩ := processOffer_ok (roleShown_reachable hb) hoffer
  -- B: the first section and the last role are the offerer's own role
  have hfirst : firstRole a.getOffer.mediaDescriptions = some a.localSetupRole := by
    have hne := hA.sections
    have hall := hA.setups
    unfold firstRole getOffer
    cases hcases : a.sdp.mediaDescriptions with
    | nil => exact absurd hcases hne
    | cons md mds =>
      have hmd : md.setupRoles = [a.localSetupRole] := hall md (by simp [hcases])
      rw [List.head?_cons, Option.bind_some, getSetupRole_eq, hmd]
      rfl
  rw [determineLocalRole_offer, hfirst, ← complementary_offer] at hrole
  rw [hofferRole, Option.map_some, Option.getD_some, ← hrole] at hlast
  -- A: every section of the answer carries the answerer's role, and there is one
  have hanswerRole : lastRole answer.mediaDescriptions = some b₁.localSetupRole := by
    apply lastRole_of_forall
    · intro hnil
      obtain ⟨x, hx, y, hy, hkind⟩ := hcommon
      have hnone : NothingCommon b₁ a.getOffer := fun l hl =>
        findOffer_eq_none.mp ((createAnswerMds_eq_nil hmds).mp hnil l hl)
      rw [nothingCommon_congr a.getOffer hkinds] at hnone
      exact hnone y hy x hx hkind
    · intro md hmd
      obtain ⟨l, hl, heq⟩ := createAnswerMds_setups hmds md hmd
      rw [heq, hshown.setups l hl]
  have htaken := processAnswer_spec hA answer
  rw [hanswer, hanswerRole] at htaken
  have ha' : a'.localSetupRole = determineComplementaryRole b₁.localSetupRole .answer := htaken.role_eq rfl
  have hopposite : (a'.localSetupRole = .active ∧ b'.localSetupRole = .passive) ∨
      (a'.localSetupRole = .passive ∧ b'.localSetupRole = .active) := by
    rw [ha', hlast, hrole]
    cases a.localSetupRole <;> simp [determineComplementaryRole]
  refine ⟨hopposite, fun ctx => ?_⟩
  obtain ⟨h₁, h₂⟩ | ⟨h₁, h₂⟩ := hopposite
  · simp [isClient, h₁, h₂, Srtp.SrtpContext.getWriteKeys, Srtp.SrtpContext.getReadKeys]
  · simp [isClient, h₁, h₂, Srtp.SrtpContext.getWriteKeys, Srtp.SrtpContext.getReadKeys]

/-! ## Two calls -/

/-- The configuration of `room_rtc.conf`. -/
def roomRtcConf : Config where
  media :=
    { videoMediaType := "video".toList
      audioMediaType := "audio".toList
      mediaProtocol := "RTP/AVP".toList
      videoPayloadType := 96
      videoCodecName := "H264".toList
      clockRate := 90000
      audioPayloadType := 111
      audioCodecName := "OPUS".toList
      audioSampleRate := 48000
      audioChannels := 2 }
  sdp := .default
  ice :=
    { foundation := "1".toList
      transport := "UDP".toList
      componentId := 1
      hostPriorityPreference := 126
      srflxPriorityPreference := 100
      hostLocalPreference := 65535 }

/-- A host without a STUN answer. -/
def homeNet : IceAgent.Interfaces := ⟨some "192.168.0.7".toList, some 50000, none⟩

/-- The session `new` makes there. -/
def freshSession : Except CallSessionError CallSession := new homeNet (some "AB:CD".toList) roomRtcConf

theorem fresh_reachable {s : CallSession} (h : freshSession = .ok s) : s.Reachable :=
  ⟨homeNet, _, roomRtcConf, s, h, [], rfl⟩

/-- What comes of an offer: the role the session keeps and the roles its answer announces. -/
def announcement (session : Except CallSessionError CallSession) (offer : SessionDescriptionProtocol) :
    Option (DtlsSetupRole × List (List DtlsSetupRole)) :=
  match session with
  | .error _ => none
  | .ok s =>
    match s.processOffer offer with
    | (_, .error _) => none
    | (s', .ok answer) => some (s'.localSetupRole, answer.mediaDescriptions.map MediaDescription.setupRoles)

theorem exists_of_announcement {session : Except CallSessionError CallSession} {offer : SessionDescriptionProtocol}
    {role : DtlsSetupRole} {roles : List (List DtlsSetupRole)} (h : announcement session offer = some (role, roles)) :
    ∃ (s s' : CallSession) (answer : SessionDescriptionProtocol), session = .ok s ∧
      s.processOffer offer = (s', .ok answer) ∧ s'.localSetupRole = role ∧
      answer.mediaDescriptions.map MediaDescription.setupRoles = roles := by
  cases session with
  | error e => cases h
  | ok s =>
    simp only [announcement] at h
    split at h
    · cases h
    · next s' answer hoffer =>
      cases h
      exact ⟨s, s', answer, rfl, hoffer, rfl, rfl⟩

/-- An offer whose two sections are both active. -/
def activeOffer : SessionDescriptionProtocol :=
  .new [⟨"video".toList, 5000, "RTP/AVP".toList, {96}, [.setup .active]⟩,
    ⟨"audio".toList, 5000, "RTP/AVP".toList, {111}, [.setup .active]⟩] .default

/-- An offer whose sections ask for different parts. -/
def mixedOffer : SessionDescriptionProtocol :=
  .new [⟨"video".toList, 5000, "RTP/AVP".toList, {96}, [.setup .active]⟩,
    ⟨"audio".toList, 5000, "RTP/AVP".toList, {111}, [.setup .passive]⟩] .default

/-- A fresh session answers an active offer with the role it takes. -/
theorem active_offer_announced : ∃ (s s' : CallSession) (answer : SessionDescriptionProtocol), s.Reachable ∧
    s.processOffer activeOffer = (s', .ok answer) ∧
    answer.mediaDescriptions ≠ [] ∧ ∀ md ∈ answer.mediaDescriptions, md.setupRoles = [s'.localSetupRole] := by
  have hrun : announcement freshSession activeOffer = some (.passive, [[.passive], [.passive]]) := by
    decide +kernel
  obtain ⟨s, s', answer, hs, hok, _, hroles⟩ := exists_of_announcement hrun
  refine ⟨s, s', answer, fresh_reachable hs, hok, ?_, ?_⟩
  · intro hnil
    rw [hnil] at hroles
    cases hroles
  · exact (announced_role_iff (fresh_reachable hs) hok).mpr (.inl (by decide +kernel))

/-- With different parts the answer announces `passive` and the session goes on as active. -/
theorem mixed_offer_misannounced : ∃ (s s' : CallSession) (answer : SessionDescriptionProtocol), s.Reachable ∧
    s.processOffer mixedOffer = (s', .ok answer) ∧ s'.localSetupRole = .active ∧
    answer.mediaDescriptions.map MediaDescription.setupRoles = [[.passive], [.passive]] ∧
    ¬∀ md ∈ answer.mediaDescriptions, md.setupRoles = [s'.localSetupRole] := by
  have hrun : announcement freshSession mixedOffer = some (.active, [[.passive], [.passive]]) := by
    decide +kernel
  obtain ⟨s, s', answer, hs, hok, hrole, hroles⟩ := exists_of_announcement hrun
  refine ⟨s, s', answer, fresh_reachable hs, hok, hrole, hroles, ?_⟩
  intro hall
  have hsame : ∀ roles ∈ answer.mediaDescriptions.map MediaDescription.setupRoles, roles = [s'.localSetupRole] :=
    List.forall_mem_map.mpr hall
  rw [hroles, hrole] at hsame
  exact absurd (hsame [.passive] (by simp)) (by decide)

/-- Two fresh sessions go through offer and answer without an error. -/
def freshCall : Option (CallSession × CallSession × SessionDescriptionProtocol) :=
  match freshSession with
  | .error _ => none
  | .ok s =>
    match s.processOffer s.getOffer with
    | (_, .error _) => none
    | (b', .ok answer) =>
      match s.processAnswer answer with
      | (_, .error _) => none
      | (a', .ok ()) => some (a', b', answer)

theorem fresh_call_opposite : ∃ (s a' b' : CallSession) (answer : SessionDescriptionProtocol), s.Reachable ∧
    s.processOffer s.getOffer = (b', .ok answer) ∧ s.processAnswer answer = (a', .ok ()) ∧
    ((a'.localSetupRole = .active ∧ b'.localSetupRole = .passive) ∨
      (a'.localSetupRole = .passive ∧ b'.localSetupRole = .active)) := by
  have hrun : freshCall.isSome = true := by decide +kernel
  obtain ⟨⟨a', b', answer⟩, hcall⟩ := Option.isSome_iff_exists.mp hrun
  unfold freshCall at hcall
  split at hcall
  · cases hcall
  · next s hs =>
    split at hcall
    · cases hcall
    · next b'' answer' hoffer =>
      split at hcall
      · cases hcall
      · next a'' hanswer =>
        have hreach := fresh_reachable hs
        obtain ⟨md, hmd⟩ := List.exists_mem_of_ne_nil _ (roleShown_reachable hreach).sections
        exact ⟨s, a'', b'', answer', hreach, hoffer, hanswer,
          (opposite_roles hreach hreach ⟨md, hmd, md, hmd, rfl, rfl⟩ hoffer hanswer).1⟩

end CallSession
end RoomRtc.Session
