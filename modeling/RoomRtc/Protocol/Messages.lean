import RoomRtc.Server.UserHandler
import RoomRtc.Session.SdpText

/-! The text form of what the server pushes and of what clients send
(`client_server_protocol/server_message.rs`, `client_server_protocol/client_message.rs`,
`client_server_protocol/client_response.rs`): a keyword and its fields between pipes, with a
newline at the end. -/
namespace RoomRtc
open Text Session
set_option autoImplicit false

/-! ## Fields -/

/-- A message that carries nothing. -/
def readBare {μ : Type} (m : μ) : List Str → Option μ
  | [] => some m
  | _ => none

/-- A message that carries one field. -/
def readOne {μ : Type} (m : Str → Option μ) : List Str → Option μ
  | [a] => m a
  | _ => none

/-- A message that carries two fields. -/
def readTwo {μ : Type} (m : Str → Str → Option μ) : List Str → Option μ
  | [a, b] => m a b
  | _ => none

/-- A message that carries three fields. -/
def readThree {μ : Type} (m : Str → Str → Str → Option μ) : List Str → Option μ
  | [a, b, c] => m a b c
  | _ => none

def readSdp (s : Str) : Option SessionDescriptionProtocol := (SessionDescriptionProtocol.fromStr s).toOption

/-! ## What the server pushes -/

namespace ServerMessage

abbrev Message := ServerMessage SessionDescriptionProtocol

def text (orders : Orders) : Message → Str
  | usernameRequest => "USERNAMEREQUEST".toList
  | callIncoming fromUsr offerSdp => "CALLINCOMING|".toList ++ fromUsr ++ '|' :: offerSdp.display orders
  | callAccepted fromUsr sdpAnswer => "CALLACCEPTED|".toList ++ fromUsr ++ '|' :: sdpAnswer.display orders
  | callRejected => "CALLREJECTED".toList
  | userStatusUpdate user status => "USERSTATE|".toList ++ user ++ '|' :: status.display
  | error msg => "ERROR|".toList ++ msg

def toBytes (orders : Orders) (m : Message) : Bytes := encode (m.text orders) ++ [10]

def readParts (kind : Str) (fields : List Str) : Option Message :=
  if kind = "USERNAMEREQUEST".toList then readBare usernameRequest fields
  else if kind = "CALLINCOMING".toList then
    readTwo (fun fromUsr offerSdp => do some (callIncoming fromUsr (← readSdp offerSdp))) fields
  else if kind = "CALLACCEPTED".toList then
    readTwo (fun fromUsr sdpAnswer => do some (callAccepted fromUsr (← readSdp sdpAnswer))) fields
  else if kind = "CALLREJECTED".toList then readBare callRejected fields
  else if kind = "USERSTATE".toList then
    readTwo (fun user status => do some (userStatusUpdate user (← UserStatus.fromBytes (encode status)))) fields
  else if kind = "ERROR".toList then readOne (fun msg => some (error msg)) fields
  else none

/-- From a trimmed text. -/
def fromText (s : Str) : Option Message :=
  match s.splitOn '|' with
  | [] => none
  | kind :: fields => readParts kind fields

def fromBytes (bytes : Bytes) : Option Message := do
  let s ← decode bytes
  fromText (trim s)

end ServerMessage

/-! ## What clients send -/

namespace ClientMessage

abbrev Message := ClientMessage SessionDescriptionProtocol

def text (orders : Orders) : Message → Str
  | hello => "HELLO".toList
  | logIn username password => "LOGIN|".toList ++ username ++ '|' :: password
  | signUp username password => "SIGNUP|".toList ++ username ++ '|' :: password
  | logOut token => "LOGOUT|".toList ++ token
  | callRequest token offerSdp toUsr =>
    "CALLREQUEST|".toList ++ token ++ '|' :: offerSdp.display orders ++ '|' :: toUsr
  | callAccept fromUsr toUsr sdpAnswer =>
    "CALLACCEPT|".toList ++ fromUsr ++ '|' :: toUsr ++ '|' :: sdpAnswer.display orders
  | callReject fromUsr toUsr => "CALLREJECT|".toList ++ fromUsr ++ '|' :: toUsr
  | callHangup token => "CALLHANG|".toList ++ token

def toBytes (orders : Orders) (m : Message) : Bytes := encode (m.text orders) ++ [10]

def readParts (kind : Str) (fields : List Str) : Option Message :=
  if kind = "HELLO".toList then readBare hello fields
  else if kind = "LOGIN".toList then readTwo (fun username password => some (logIn username password)) fields
  else if kind = "SIGNUP".toList then readTwo (fun username password => some (signUp username password)) fields
  else if kind = "LOGOUT".toList then readOne (fun token => some (logOut token)) fields
  else if kind = "CALLREQUEST".toList then
    readThree (fun token offerSdp toUsr => do some (callRequest token (← readSdp offerSdp) toUsr)) fields
  else if kind = "CALLACCEPT".toList then
    readThree (fun fromUsr toUsr sdpAnswer => do some (callAccept fromUsr toUsr (← readSdp sdpAnswer))) fields
  else if kind = "CALLREJECT".toList then readTwo (fun fromUsr toUsr => some (callReject fromUsr toUsr)) fields
  else if kind = "CALLHANG".toList then readOne (fun token => some (callHangup token)) fields
  else none

/-- From a trimmed text. -/
def fromText (s : Str) : Option Message :=
  match s.splitOn '|' with
  | [] => none
  | kind :: fields => readParts kind fields

def fromBytes (bytes : Bytes) : Option Message := do
  let s ← decode bytes
  fromText (trim s)

end ClientMessage

/-! ## What clients answer -/

inductive ClientResponse where
  | username (s : Str)
deriving DecidableEq, Repr

namespace ClientResponse

def text : ClientResponse → Str
  | username s => "USERNAME|".toList ++ s

def toBytes (r : ClientResponse) : Bytes := encode r.text ++ [10]

def readParts (kind : Str) (fields : List Str) : Option ClientResponse :=
  if kind = "USERNAME".toList then readOne (fun s => some (username s)) fields else none

def fromBytes (bytes : Bytes) : Option ClientResponse := do
  let s ← decode bytes
  match (trim s).splitOn '|' with
  | [] => none
  | kind :: fields => readParts kind fields

end ClientResponse
end RoomRtc
