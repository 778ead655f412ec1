import Mathlib.Data.Finset.Insert
import Mathlib.Data.UInt
import RoomRtc.Session.Ice

/-! Session descriptions (`session/sdp`): attributes, media sections, and the answer to an
offer. The text form is in `Session/SdpText.lean`. -/
namespace RoomRtc.Session
open Text
set_option autoImplicit false

inductive SdpError where
  | invalidPriorityError
  | invalidPortError
  | invalidComponentIdError
  | invalidLineFormatError
  | invalidCandidateFormatError
  | invalidAttributeFormatError
  | invalidCandidateTypeError
  | invalidRtpMapFormatError
  | missingEncodingNameError
  | missingClockRateError
  | invalidClockRateParsingError
  | extraRtpFieldsError
  | missingFingerprintValueError
  | invalidFingerprintFormatError
  | invalidSetupRoleError
  | missingMediaDescriptionError
  | invalidMediaDescriptionFormatError
  | invalidFmtError
  | unmatchingMediaDescriptionAndAttributeError
deriving DecidableEq, Repr

/-! ## Attributes -/

inductive DtlsSetupRole where
  | actPass
  | active
  | passive
  | holdConn
deriving DecidableEq, Repr

structure Fingerprint where
  algorithm : Str
  bytes : Bytes
deriving DecidableEq, Repr

namespace Fingerprint

/-- One byte of a hash, two hexadecimal digits between colons as a rule. -/
def readByte (part : Str) : Except SdpError UInt8 :=
  let cleaned := trim part
  if cleaned = [] then .error .invalidFingerprintFormatError
  else
    match parseUnsigned 16 256 cleaned with
    | some byte => .ok (UInt8.ofNat byte)
    | none => .error .invalidFingerprintFormatError

def fromHashString (algorithm hash : Str) : Except SdpError Fingerprint := do
  let trimmedHash := trim hash
  if trimmedHash = [] then throw .missingFingerprintValueError
  let parsed ← (trimmedHash.splitOn ':').mapM readByte
  if parsed = [] then throw .missingFingerprintValueError
  return ⟨algorithm, parsed⟩

end Fingerprint

inductive Attribute where
  | candidate (candidate : Candidate)
  | rtpMap (fmt : UInt8) (encodingName : Str) (clockRate : UInt32) (encodingParams : Option Str)
  | fingerprint (fingerprint : Fingerprint)
  | setup (role : DtlsSetupRole)
deriving DecidableEq, Repr

/-! ## Media sections -/

structure MediaDescription where
  mediaType : Str
  port : UInt16
  protocol : Str
  fmts : Finset UInt8
  attributes : List Attribute
deriving DecidableEq

namespace MediaDescription

def new (mediaType : Str) (port : UInt16) (protocol : Str) (fmts : Finset UInt8) : MediaDescription :=
  ⟨mediaType, port, protocol, fmts, []⟩

/-- An `rtpmap` must be for a payload type of its section. -/
def addAttribute (md : MediaDescription) (attr : Attribute) : Except SdpError MediaDescription :=
  let matching := match attr with
    | .rtpMap fmt _ _ _ => decide (fmt ∈ md.fmts)
    | _ => true
  if matching then .ok { md with attributes := md.attributes ++ [attr] }
  else .error .unmatchingMediaDescriptionAndAttributeError

def getCandidates (md : MediaDescription) : List Candidate :=
  md.attributes.filterMap fun
    | .candidate candidate => some candidate
    | _ => none

def getFingerprint (md : MediaDescription) : Option Fingerprint :=
  md.attributes.findSome? fun
    | .fingerprint fingerprint => some fingerprint
    | _ => none

def getSetupRole (md : MediaDescription) : Option DtlsSetupRole :=
  md.attributes.findSome? fun
    | .setup role => some role
    | _ => none

end MediaDescription

/-! ## Session descriptions -/

structure SdpConfig where
  version : UInt8
  originId : UInt64
  sessionName : Str
  timing : Str
  connectionDataNetType : Str
  connectionDataAddrType : Str
  connectionDataAddress : Str
deriving DecidableEq, Repr

def SdpConfig.default : SdpConfig where
  version := 0
  originId := 0
  sessionName := "-".toList
  timing := "0 0".toList
  connectionDataNetType := "IN".toList
  connectionDataAddrType := "IP4".toList
  connectionDataAddress := "0.0.0.0".toList

structure SessionDescriptionProtocol where
  version : UInt8
  originId : UInt64
  sessionName : Str
  timing : Str
  mediaDescriptions : List MediaDescription
  connectionData : Str
deriving DecidableEq

namespace SessionDescriptionProtocol

def new (mediaDescriptions : List MediaDescription) (config : SdpConfig) : SessionDescriptionProtocol where
  version := config.version
  originId := config.originId
  sessionName := config.sessionName
  timing := config.timing
  mediaDescriptions := mediaDescriptions
  connectionData := config.connectionDataNetType ++ ' ' :: config.connectionDataAddrType ++
    ' ' :: config.connectionDataAddress

def setConnectionData (sdp : SessionDescriptionProtocol) (netType addrType address : Str) :
    SessionDescriptionProtocol :=
  { sdp with connectionData := netType ++ ' ' :: addrType ++ ' ' :: address }

/-- The inner loop of `compatible_attributes_data`: a local `rtpmap` is taken over once for every
`rtpmap` of the offer with its encoding name. -/
def takeRtpMap (offerAttributes : List Attribute) (localFmt : UInt8) (localEncodingName : Str)
    (localAttr : Attribute) (acc : Finset UInt8 × List Attribute) : Finset UInt8 × List Attribute :=
  offerAttributes.foldl (fun acc offerAttr =>
    match offerAttr with
    | .rtpMap _ offerEncodingName _ _ =>
      if localEncodingName = offerEncodingName then (insert localFmt acc.1, acc.2 ++ [localAttr]) else acc
    | _ => acc) acc

/-- Every other local attribute is taken over as it is. -/
def takeAttribute (offerAttributes : List Attribute) (acc : Finset UInt8 × List Attribute) (localAttr : Attribute) :
    Finset UInt8 × List Attribute :=
  match localAttr with
  | .rtpMap localFmt localEncodingName _ _ => takeRtpMap offerAttributes localFmt localEncodingName localAttr acc
  | _ => (acc.1, acc.2 ++ [localAttr])

/-- The payload types of the answer and its attributes. -/
def compatibleAttributesData (localMd offerMd : MediaDescription) : Finset UInt8 × List Attribute :=
  localMd.attributes.foldl (takeAttribute offerMd.attributes) (∅, [])

def createAnswerMd (localMd : MediaDescription) (answerMdFmts : Finset UInt8) (answerMdAttributes : List Attribute) :
    Except SdpError MediaDescription :=
  answerMdAttributes.foldlM MediaDescription.addAttribute
    (.new localMd.mediaType (if answerMdAttributes = [] then 0 else localMd.port) localMd.protocol answerMdFmts)

/-- The section of the offer that a local section answers. -/
def findOffer (offerSdp : SessionDescriptionProtocol) (localMd : MediaDescription) : Option MediaDescription :=
  offerSdp.mediaDescriptions.find? fun m => m.mediaType = localMd.mediaType ∧ m.protocol = localMd.protocol

def createAnswerMds (offerSdp : SessionDescriptionProtocol) : List MediaDescription →
    Except SdpError (List MediaDescription)
  | [] => .ok []
  | localMd :: localMds =>
    match findOffer offerSdp localMd with
    | none => createAnswerMds offerSdp localMds
    | some offerMd => do
      let (answerMdFmts, answerMdAttributes) := compatibleAttributesData localMd offerMd
      let answerMd ← createAnswerMd localMd answerMdFmts answerMdAttributes
      return answerMd :: (← createAnswerMds offerSdp localMds)

def createAnswer (sdp offerSdp : SessionDescriptionProtocol) : Except SdpError SessionDescriptionProtocol := do
  let answerMediaDescriptions ← createAnswerMds offerSdp sdp.mediaDescriptions
  return .new answerMediaDescriptions
    { version := sdp.version
      originId := sdp.originId
      sessionName := sdp.sessionName
      timing := sdp.timing
      connectionDataNetType := "IN".toList
      connectionDataAddrType := "IP4".toList
      connectionDataAddress := "0.0.0.0".toList }

end SessionDescriptionProtocol
end RoomRtc.Session
