import RoomRtc.Session.Sdp

/-! The call session (`session/call_session.rs`): how it is made, how it answers an offer and
takes an answer, and the DTLS role it settles on. Every method that may fail half way gives the
session it leaves behind together with its result. -/
namespace RoomRtc.Session
set_option autoImplicit false

/-- The causes stand for the texts made of them. -/
inductive CallSessionError where
  | sdpCreationError (cause : SdpError)
  /-- Without a cause where the socket has no address. -/
  | iceConnectionError (cause : Option IceError)
  | securityInitializationError
  | mapError (cause : CallSessionError)
  /-- The `MapError` of a fingerprint that cannot be read. -/
  | fingerprintError (cause : SdpError)
deriving DecidableEq, Repr

structure MediaConfig where
  videoMediaType : Str
  audioMediaType : Str
  mediaProtocol : Str
  videoPayloadType : UInt8
  videoCodecName : Str
  clockRate : UInt32
  audioPayloadType : UInt8
  audioCodecName : Str
  audioSampleRate : UInt32
  audioChannels : UInt8
deriving DecidableEq, Repr

structure Config where
  media : MediaConfig
  sdp : SdpConfig
  ice : IceConfig
deriving DecidableEq, Repr

structure CallSession where
  sdp : SessionDescriptionProtocol
  iceAgent : IceAgent
  remoteFingerprint : Option Fingerprint
  remoteSetupRole : Option DtlsSetupRole
  localSetupRole : DtlsSetupRole
deriving DecidableEq

inductive RemoteSdpType where
  | offer
  | answer
deriving DecidableEq, Repr

/-! ## A new session -/

def addMd (md : MediaDescription) (attr : Attribute) : Except CallSessionError MediaDescription :=
  (md.addAttribute attr).mapError .sdpCreationError

def generateVideoMd (config : MediaConfig) (localPort : UInt16) : Except CallSessionError MediaDescription :=
  addMd (.new config.videoMediaType localPort config.mediaProtocol {config.videoPayloadType})
    (.rtpMap config.videoPayloadType config.videoCodecName config.clockRate none)

def generateAudioMd (config : MediaConfig) (localPort : UInt16) : Except CallSessionError MediaDescription :=
  addMd (.new config.audioMediaType localPort config.mediaProtocol {config.audioPayloadType})
    (.rtpMap config.audioPayloadType config.audioCodecName config.audioSampleRate
      (some (Nat.toDigits 10 config.audioChannels.toNat)))

def applyCommonAttributes (md : MediaDescription) (fingerprint : Fingerprint) (role : DtlsSetupRole)
    (candidates : List Candidate) : Except CallSessionError MediaDescription := do
  let md ← addMd md (.fingerprint fingerprint)
  let md ← addMd md (.setup role)
  candidates.foldlM (fun md candidate => addMd md (.candidate candidate)) md

namespace CallSession

/-- `net` is what gathering finds and `certificate` the fingerprint of the certificate that was
generated, if one could be. -/
def new (net : IceAgent.Interfaces) (certificate : Option Str) (config : Config) :
    Except CallSessionError CallSession := do
  let iceAgent := IceAgent.new.gatherCandidates net config.ice
  let localPort ← (net.port.map Except.ok).getD (.error (.iceConnectionError none))
  let video ← (generateVideoMd config.media localPort).mapError .mapError
  let audio ← (generateAudioMd config.media localPort).mapError .mapError
  let hash ← (certificate.map Except.ok).getD (.error .securityInitializationError)
  let fingerprint ← (Fingerprint.fromHashString "sha-256".toList hash).mapError .fingerprintError
  let localSetupRole := DtlsSetupRole.actPass
  let candidates := iceAgent.localCandidates
  let video ← applyCommonAttributes video fingerprint localSetupRole candidates
  let audio ← applyCommonAttributes audio fingerprint localSetupRole candidates
  let sdp := SessionDescriptionProtocol.new [video, audio] config.sdp
  let sdp := match iceAgent.getLocalCandidate with
    | some localCandidate => sdp.setConnectionData "IN".toList "IP4".toList localCandidate.address
    | none => sdp
  return { sdp, iceAgent, remoteFingerprint := none, remoteSetupRole := none, localSetupRole }

/-! ## Roles -/

def determineComplementaryRole (remoteRole : DtlsSetupRole) (remoteType : RemoteSdpType) : DtlsSetupRole :=
  match remoteRole with
  | .active => .passive
  | .passive => .active
  | .holdConn => .passive
  | .actPass =>
    match remoteType with
    | .offer => .active
    | .answer => .passive

def determineLocalRole (s : CallSession) (remoteSdp : SessionDescriptionProtocol) (remoteType : RemoteSdpType) :
    DtlsSetupRole :=
  match remoteSdp.mediaDescriptions.head?.bind MediaDescription.getSetupRole with
  | some remoteRole => determineComplementaryRole remoteRole remoteType
  | none =>
    match remoteType with
    | .offer => .active
    | .answer => s.localSetupRole

def isSetup : Attribute → Bool
  | .setup _ => true
  | _ => false

/-- The loop of `set_local_setup_role`: every section gets the new role in place of the old. -/
def updateSetup (role : DtlsSetupRole) : List MediaDescription →
    List MediaDescription × Except CallSessionError Unit
  | [] => ([], .ok ())
  | md :: mds =>
    let md := { md with attributes := md.attributes.filter fun attr => !isSetup attr }
    match md.addAttribute (.setup role) with
    | .error e => (md :: mds, .error (.sdpCreationError e))
    | .ok md =>
      let (mds, result) := updateSetup role mds
      (md :: mds, result)

def setLocalSetupRole (s : CallSession) (role : DtlsSetupRole) : CallSession × Except CallSessionError Unit :=
  if s.localSetupRole = role then (s, .ok ())
  else
    match updateSetup role s.sdp.mediaDescriptions with
    | (mds, .error e) => ({ s with sdp := { s.sdp with mediaDescriptions := mds } }, .error e)
    | (mds, .ok ()) =>
      ({ s with sdp := { s.sdp with mediaDescriptions := mds }, localSetupRole := role }, .ok ())

/-! ## Offers and answers -/

def addRemoteCandidates (s : CallSession) : List Candidate → CallSession × Except CallSessionError Unit
  | [] => (s, .ok ())
  | candidate :: candidates =>
    match s.iceAgent.addRemoteCandidate candidate with
    | (iceAgent, .error e) => ({ s with iceAgent := iceAgent }, .error (.iceConnectionError e))
    | (iceAgent, .ok ()) => addRemoteCandidates { s with iceAgent := iceAgent } candidates

def noteFingerprint (s : CallSession) (md : MediaDescription) : CallSession :=
  match md.getFingerprint with
  | some fingerprint => { s with remoteFingerprint := some fingerprint }
  | none => s

def noteSetupRole (s : CallSession) (md : MediaDescription) (remoteType : RemoteSdpType) :
    CallSession × Except CallSessionError Unit :=
  match md.getSetupRole with
  | some remoteRole =>
    setLocalSetupRole { s with remoteSetupRole := some remoteRole }
      (determineComplementaryRole remoteRole remoteType)
  | none => (s, .ok ())

/-- One round of the loop of `process_remote_sdp`. -/
def processRemoteMd (s : CallSession) (md : MediaDescription) (remoteType : RemoteSdpType) :
    CallSession × Except CallSessionError Unit :=
  match s.addRemoteCandidates md.getCandidates with
  | (s, .error e) => (s, .error e)
  | (s, .ok ()) => (s.noteFingerprint md).noteSetupRole md remoteType

def processRemoteMds (s : CallSession) (remoteType : RemoteSdpType) : List MediaDescription →
    CallSession × Except CallSessionError Unit
  | [] => (s, .ok ())
  | md :: mds =>
    match s.processRemoteMd md remoteType with
    | (s, .error e) => (s, .error e)
    | (s, .ok ()) => processRemoteMds s remoteType mds

def processRemoteSdp (s : CallSession) (sdp : SessionDescriptionProtocol) (remoteType : RemoteSdpType) :
    CallSession × Except CallSessionError Unit :=
  s.processRemoteMds remoteType sdp.mediaDescriptions

def processOffer (s : CallSession) (offerSdp : SessionDescriptionProtocol) :
    CallSession × Except CallSessionError SessionDescriptionProtocol :=
  match s.setLocalSetupRole (s.determineLocalRole offerSdp .offer) with
  | (s, .error e) => (s, .error e)
  | (s, .ok ()) =>
    match s.sdp.createAnswer offerSdp with
    | .error e => (s, .error (.sdpCreationError e))
    | .ok answerSdp =>
      match s.processRemoteSdp offerSdp .offer with
      | (s, .error e) => (s, .error e)
      | (s, .ok ()) => (s, .ok answerSdp)

def processAnswer (s : CallSession) (answerSdp : SessionDescriptionProtocol) :
    CallSession × Except CallSessionError Unit :=
  s.processRemoteSdp answerSdp .answer

def getOffer (s : CallSession) : SessionDescriptionProtocol := s.sdp

/-! ## Histories -/

/-- A remote description that comes in, in whatever order and with whatever result. -/
inductive Negotiation where
  | offer (sdp : SessionDescriptionProtocol)
  | answer (sdp : SessionDescriptionProtocol)

def negotiate (s : CallSession) : Negotiation → CallSession
  | .offer sdp => (s.processOffer sdp).1
  | .answer sdp => (s.processAnswer sdp).1

/-- A session that came out of `new` and has since been given any remote descriptions. -/
def Reachable (s : CallSession) : Prop :=
  ∃ net certificate config s₀, new net certificate config = .ok s₀ ∧
    ∃ history : List Negotiation, s = history.foldl negotiate s₀

end CallSession
end RoomRtc.Session
