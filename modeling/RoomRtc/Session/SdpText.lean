import RoomRtc.Session.Sdp

/-! The text form of session descriptions (`session/sdp`): `Display` and `FromStr` of roles,
fingerprints, attributes, media sections and whole descriptions. A hash set is written in
whatever order it iterates, so the order is given along with it. -/
namespace RoomRtc.Session
open Text
set_option autoImplicit false

def decimal (n : ℕ) : Str := Nat.toDigits 10 n

/-! ## Writing -/

def DtlsSetupRole.display : DtlsSetupRole → Str
  | .actPass => "actpass".toList
  | .active => "active".toList
  | .passive => "passive".toList
  | .holdConn => "holdconn".toList

def CandidateType.display : CandidateType → Str
  | .host => "host".toList
  | .serverReflexive => "srflx".toList

/-- `{b:02X}` -/
def hexByte (b : UInt8) : Str :=
  [Nat.digitChar (b.toNat / 16), Nat.digitChar (b.toNat % 16)].map Char.toUpper

def Fingerprint.hexValue (f : Fingerprint) : Str := [':'].intercalate (f.bytes.map hexByte)

def Attribute.display : Attribute → Str
  | .candidate c =>
    "a=candidate:".toList ++ c.foundation ++ ' ' :: decimal c.componentId.toNat ++ ' ' :: c.transport ++
      ' ' :: decimal c.priority.toNat ++ ' ' :: c.address ++ ' ' :: decimal c.port.toNat ++
      " typ ".toList ++ c.candidateType.display
  | .rtpMap fmt encName clockRate (some params) =>
    "a=rtpmap:".toList ++ decimal fmt.toNat ++ ' ' :: encName ++ '/' :: decimal clockRate.toNat ++ '/' :: params
  | .rtpMap fmt encName clockRate none =>
    "a=rtpmap:".toList ++ decimal fmt.toNat ++ ' ' :: encName ++ '/' :: decimal clockRate.toNat
  | .fingerprint f => "a=fingerprint:".toList ++ f.algorithm ++ ' ' :: f.hexValue
  | .setup role => "a=setup:".toList ++ role.display

/-- `order` is the order in which the payload types of the section iterate. -/
def MediaDescription.display (order : List UInt8) (md : MediaDescription) : Str :=
  "m=".toList ++ md.mediaType ++ ' ' :: decimal md.port.toNat ++ ' ' :: md.protocol ++
    order.flatMap (fun fmt => ' ' :: decimal fmt.toNat) ++
    md.attributes.flatMap (fun attr => '\n' :: ' ' :: attr.display)

/-- Section by section the order in which the payload types iterate. -/
abbrev Orders := ℕ → List UInt8

def displayMds (orders : Orders) : ℕ → List MediaDescription → Str
  | _, [] => []
  | i, md :: mds => '\n' :: md.display (orders i) ++ displayMds orders (i + 1) mds

def SessionDescriptionProtocol.display (orders : Orders) (sdp : SessionDescriptionProtocol) : Str :=
  "v=".toList ++ decimal sdp.version.toNat ++ "\no=".toList ++ decimal sdp.originId.toNat ++
    "\ns=".toList ++ sdp.sessionName ++ "\nt=".toList ++ sdp.timing ++ "\nc=".toList ++ sdp.connectionData ++
    displayMds orders 0 sdp.mediaDescriptions

/-- The orders are orders of the payload types of the sections. -/
def SessionDescriptionProtocol.Iterates (sdp : SessionDescriptionProtocol) (orders : Orders) : Prop :=
  ∀ i md, sdp.mediaDescriptions[i]? = some md → (orders i).Nodup ∧ (orders i).toFinset = md.fmts

/-! ## Reading -/

/-- `str::parse` of an unsigned integer type with `bound` values. -/
def parseNumber (bound : ℕ) (error : SdpError) (s : Str) : Except SdpError ℕ :=
  match parseUnsigned 10 bound s with
  | some n => .ok n
  | none => .error error

def DtlsSetupRole.fromStr (s : Str) : Except SdpError DtlsSetupRole :=
  let name := (trim s).map Char.toLower
  if name = "actpass".toList then .ok .actPass
  else if name = "active".toList then .ok .active
  else if name = "passive".toList then .ok .passive
  else if name = "holdconn".toList then .ok .holdConn
  else .error .invalidSetupRoleError

def CandidateType.fromStr (s : Str) : Option CandidateType :=
  if s = "host".toList then some .host
  else if s = "srflx".toList then some .serverReflexive
  else none

def parseRtpmapAttrValues (values : Str) : Except SdpError Attribute :=
  match splitWhitespace values with
  | fmt :: mapping :: _ => do
    let fmt ← parseNumber 256 .invalidRtpMapFormatError fmt
    match mapping.splitOn '/' with
    | encodingName :: parts =>
      if encodingName = [] then throw .missingEncodingNameError
      match parts with
      | [] => throw .missingClockRateError
      | clockRate :: parts =>
        let clockRate ← parseNumber (2 ^ 32) .invalidClockRateParsingError clockRate
        if 2 ≤ parts.length then throw .extraRtpFieldsError
        return .rtpMap (UInt8.ofNat fmt) encodingName (UInt32.ofNat clockRate) parts.head?
    | [] => throw .missingEncodingNameError
  | _ => .error .invalidRtpMapFormatError

def parseCandidateAttrValues (values : Str) : Except SdpError Attribute :=
  match splitWhitespace values with
  | foundation :: componentId :: transport :: priority :: address :: port :: typ :: candidateType :: _ => do
    if typ ≠ "typ".toList then throw .invalidCandidateFormatError
    let candidateType ← match CandidateType.fromStr candidateType with
      | some candidateType => pure candidateType
      | none => throw .invalidCandidateTypeError
    let priority ← parseNumber (2 ^ 32) .invalidPriorityError priority
    let port ← parseNumber 65536 .invalidPortError port
    let componentId ← parseNumber 256 .invalidComponentIdError componentId
    return .candidate
      { candidateType
        priority := UInt32.ofNat priority
        address
        port := UInt16.ofNat port
        componentId := UInt8.ofNat componentId
        foundation
        transport }
  | _ => .error .invalidLineFormatError

def parseFingerprintAttrValues (values : Str) : Except SdpError Attribute :=
  match splitWhitespace values with
  | [] => .error .invalidAttributeFormatError
  | [_] => .error .missingFingerprintValueError
  | algorithm :: hash :: _ => do
    let fingerprint ← Fingerprint.fromHashString (trim algorithm) (trim hash)
    return .fingerprint fingerprint

def parseSetupAttrValues (value : Str) : Except SdpError Attribute := do
  let role ← DtlsSetupRole.fromStr (trim value)
  return .setup role

def Attribute.fromStr (s : Str) : Except SdpError Attribute :=
  match splitOnce ':' s with
  | some (key, value) =>
    if key = "candidate".toList then parseCandidateAttrValues value
    else if key = "rtpmap".toList then parseRtpmapAttrValues value
    else if key = "fingerprint".toList then parseFingerprintAttrValues value
    else if key = "setup".toList then parseSetupAttrValues value
    else .error .invalidAttributeFormatError
  | none => .error .invalidAttributeFormatError

def MediaDescription.fromStr (s : Str) : Except SdpError MediaDescription :=
  match splitWhitespace s with
  | mediaType :: port :: protocol :: fmt :: fmts => do
    let port ← parseNumber 65536 .invalidPortError port
    let parsedFmt ← (fmt :: fmts).foldlM (fun (acc : Finset UInt8) f => do
      let fmt ← parseNumber 256 .invalidFmtError f
      return insert (UInt8.ofNat fmt) acc) ∅
    return .new mediaType (UInt16.ofNat port) protocol parsedFmt
  | _ => .error .invalidMediaDescriptionFormatError

def handleMediaDescriptionLine (line : Str) (mds : List MediaDescription) :
    Except SdpError (List MediaDescription) := do
  return mds ++ [← MediaDescription.fromStr line]

/-- The attribute goes to the section begun last. -/
def handleAttributeLine (line : Str) (mds : List MediaDescription) : Except SdpError (List MediaDescription) := do
  let attr ← Attribute.fromStr line
  match mds.getLast? with
  | some m => return mds.dropLast ++ [← m.addAttribute attr]
  | none => throw .missingMediaDescriptionError

def handleLine (mds : List MediaDescription) (line : Str) : Except SdpError (List MediaDescription) :=
  let line := trim line
  if line = [] then .ok mds
  else
    match splitOnce '=' line with
    | none => .error .invalidMediaDescriptionFormatError
    | some (key, value) =>
      if key = "m".toList then handleMediaDescriptionLine value mds
      else if key = "a".toList then handleAttributeLine value mds
      -- the session-level lines are not kept
      else .ok mds

def SessionDescriptionProtocol.fromStr (s : Str) : Except SdpError SessionDescriptionProtocol := do
  let mediaDescriptions ← (s.splitOn '\n').foldlM handleLine []
  return .new mediaDescriptions .default

end RoomRtc.Session
