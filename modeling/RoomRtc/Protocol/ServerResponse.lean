import Mathlib.Data.List.AList
import RoomRtc.Foundations.Text

/-! What the server answers to a request (`client_server_protocol/server_response.rs`): the
responses, the user statuses (`user/user_status.rs`) and the socket address that travel inside
them, and their pipe-delimited text form in both directions. -/
namespace RoomRtc
open Text
set_option autoImplicit false

/-! ## User status -/

inductive UserStatus where
  | available
  | occupied (peer : Str)
  | offline
deriving DecidableEq, Repr

namespace UserStatus

def display : UserStatus → Str
  | available => "Available".toList
  | occupied peer => "Occupied:".toList ++ peer
  | offline => "Offline".toList

theorem display_occupied (peer : Str) : (occupied peer).display = "Occupied:".toList ++ peer := rfl

def fromBytes (bytes : Bytes) : Option UserStatus := do
  let text ← decode bytes
  match (trim text).splitOn ':' with
  | [kind] =>
    if kind = "Available".toList then some available
    else if kind = "Offline".toList then some offline
    else none
  | [kind, peer] => if kind = "Occupied".toList then some (occupied peer) else none
  | _ => none

end UserStatus

/-! ## Socket addresses -/

/-- An IPv4 socket address; the server announces no other kind. -/
structure SocketAddr where
  a : UInt8
  b : UInt8
  c : UInt8
  d : UInt8
  port : UInt16
deriving DecidableEq, Repr

namespace SocketAddr

def decimal (n : ℕ) : Str := Nat.toDigits 10 n

def display (x : SocketAddr) : Str :=
  decimal x.a.toNat ++ '.' :: decimal x.b.toNat ++ '.' :: decimal x.c.toNat ++ '.' ::
    decimal x.d.toNat ++ ':' :: decimal x.port.toNat

/-- Decimal digits and nothing else, with a value below `bound`. -/
def readNumber (bound : ℕ) (s : Str) : Option ℕ :=
  if s ≠ [] ∧ s.all Char.isDigit ∧ Nat.ofDigitChars 10 s 0 < bound then some (Nat.ofDigitChars 10 s 0) else none

/-- An octet has at most three digits, and no leading zero before another digit. -/
def readOctet (s : Str) : Option UInt8 :=
  if s.length ≤ 3 ∧ (s.head? = some '0' → s.length = 1) then (readNumber 256 s).map UInt8.ofNat else none

def fromStr (s : Str) : Option SocketAddr :=
  match s.splitOn ':' with
  | [ip, port] =>
    match ip.splitOn '.' with
    | [a, b, c, d] => do
      some ⟨← readOctet a, ← readOctet b, ← readOctet c, ← readOctet d,
        UInt16.ofNat (← readNumber 65536 port)⟩
    | _ => none
  | _ => none

theorem isDigit_of_mem_decimal {n : ℕ} {c : Char} (h : c ∈ decimal n) : c.isDigit = true :=
  Nat.isDigit_of_mem_toDigits (by decide) (by decide) h

theorem not_mem_decimal {c : Char} (hc : c.isDigit = false) (n : ℕ) : c ∉ decimal n := by
  intro h
  rw [isDigit_of_mem_decimal h] at hc
  cases hc

theorem readNumber_decimal {n bound : ℕ} (h : n < bound) : readNumber bound (decimal n) = some n := by
  have hval : Nat.ofDigitChars 10 (decimal n) 0 = n := Nat.ofDigitChars_ten_toDigits
  have hall : (decimal n).all Char.isDigit = true :=
    List.all_eq_true.mpr fun c hc => isDigit_of_mem_decimal hc
  rw [readNumber, hval, if_pos ⟨Nat.toDigits_ne_nil, hall, h⟩]

theorem readOctet_decimal (x : UInt8) : readOctet (decimal x.toNat) = some x := by
  have hx : x.toNat < 256 := x.toNat_lt
  have hshape : ∀ n : ℕ, n < 256 →
      (decimal n).length ≤ 3 ∧ ((decimal n).head? = some '0' → (decimal n).length = 1) := by
    decide +kernel
  rw [readOctet, if_pos (hshape _ hx), readNumber_decimal hx]
  simp

theorem fromStr_display (x : SocketAddr) : fromStr (display x) = some x := by
  have hdot : ∀ n, '.' ∉ decimal n := not_mem_decimal (by decide)
  have hcolon : ∀ n, ':' ∉ decimal n := not_mem_decimal (by decide)
  have hip : ':' ∉ decimal x.a.toNat ++ '.' :: decimal x.b.toNat ++ '.' :: decimal x.c.toNat ++ '.' ::
      decimal x.d.toNat := by
    simp [hcolon]
  have hport : x.port.toNat < 65536 := x.port.toNat_lt
  rw [fromStr, display, List.splitOn_append_cons_self_of_not_mem hip, List.splitOn_eq_singleton (hcolon _)]
  simp only [List.append_assoc, List.cons_append]
  rw [List.splitOn_append_cons_self_of_not_mem (hdot _), List.splitOn_append_cons_self_of_not_mem (hdot _),
    List.splitOn_append_cons_self_of_not_mem (hdot _), List.splitOn_eq_singleton (hdot _)]
  simp [readOctet_decimal, readNumber_decimal hport]

theorem not_mem_display {c : Char} (hc : c.isDigit = false) (hdot : c ≠ '.') (hcolon : c ≠ ':')
    (x : SocketAddr) : c ∉ display x := by
  simp [display, not_mem_decimal hc, hdot, hcolon]

end SocketAddr

/-! ## Responses -/

/-- Users with their status, in the order in which the hash map happens to iterate. -/
abbrev StatusMap := AList fun _ : Str => UserStatus

inductive ServerResponse where
  | welcome
  | serverFull
  | loginOk (token : Str) (address : SocketAddr) (usersStatus : StatusMap)
  | loginError (msg : Str)
  | signupOk
  | signupError (msg : Str)
  | logoutOk
  | logoutError (msg : Str)
  | callHangUpOk
  | callHangUpError (msg : Str)
  | callRequestOk
  | callRequestError (msg : Str)
  | callAcceptOk
  | callAcceptError (msg : Str)
  | callRejectOk
  | callRejectError (msg : Str)
  | badMessage
  | error (msg : Str)
deriving DecidableEq

namespace ServerResponse

def entryText (e : Sigma fun _ : Str => UserStatus) : Str := e.1 ++ ',' :: e.2.display

def text : ServerResponse → Str
  | welcome => "WELCOME".toList
  | serverFull => "SERVERFULL".toList
  | loginOk token address usersStatus =>
    let kv := [';'].intercalate (usersStatus.entries.map entryText)
    "LOGINOK|".toList ++ token ++ '|' :: address.display ++ '|' :: kv
  | loginError msg => "LOGINERROR|".toList ++ msg
  | signupOk => "SIGNUPOK".toList
  | signupError msg => "SIGNUPERROR|".toList ++ msg
  | logoutOk => "LOGOUTOK".toList
  | logoutError msg => "LOGOUTERROR|".toList ++ msg
  | callHangUpOk => "CALLHANGUPOK".toList
  | callHangUpError msg => "CALLHANGUPERROR|".toList ++ msg
  | callRequestOk => "CALLREQUESTOK".toList
  | callRequestError msg => "CALLREQUESTERROR|".toList ++ msg
  | callAcceptOk => "CALLACCEPTOK".toList
  | callAcceptError msg => "CALLACCEPTERROR|".toList ++ msg
  | callRejectOk => "CALLREJECTOK".toList
  | callRejectError msg => "CALLREJECTERROR|".toList ++ msg
  | badMessage => "BADMSG".toList
  | error msg => "ERROR|".toList ++ msg

theorem text_loginOk (token : Str) (address : SocketAddr) (usersStatus : StatusMap) :
    (loginOk token address usersStatus).text = "LOGINOK|".toList ++ token ++ '|' :: address.display ++
      '|' :: [';'].intercalate (usersStatus.entries.map entryText) := rfl

def toBytes (r : ServerResponse) : Bytes := encode r.text ++ [10]

/-- One `name,status` entry goes into the map; an empty entry is skipped. -/
def readEntry (usersStatus : StatusMap) (entry : Str) : Option StatusMap :=
  if entry = [] then some usersStatus
  else
    match entry.splitOn ',' with
    | username :: statusStr :: _ => do
      let status ← UserStatus.fromBytes (encode statusStr)
      some (usersStatus.insert username status)
    | _ => none

def readUsers (usersStatusList : Str) : Option StatusMap :=
  if usersStatusList = [] then some ∅ else (usersStatusList.splitOn ';').foldlM readEntry ∅

def readLoginOk : List Str → Option ServerResponse
  | token :: address :: usersStatusList :: _ => do
    let address ← SocketAddr.fromStr address
    some (loginOk token address (← readUsers usersStatusList))
  | _ => none

/-- A response that carries nothing. -/
def readBare (r : ServerResponse) : List Str → Option ServerResponse
  | [] => some r
  | _ => none

/-- A response that carries one text. -/
def readMsg (r : Str → ServerResponse) : List Str → Option ServerResponse
  | [msg] => some (r msg)
  | _ => none

def readParts (kind : Str) (fields : List Str) : Option ServerResponse :=
  -- these two look at nothing behind their keyword
  if kind = "WELCOME".toList then some welcome
  else if kind = "SERVERFULL".toList then some serverFull
  else if kind = "LOGINOK".toList then readLoginOk fields
  else if kind = "LOGINERROR".toList then readMsg loginError fields
  else if kind = "SIGNUPOK".toList then readBare signupOk fields
  else if kind = "SIGNUPERROR".toList then readMsg signupError fields
  else if kind = "LOGOUTOK".toList then readBare logoutOk fields
  else if kind = "LOGOUTERROR".toList then readMsg logoutError fields
  else if kind = "CALLHANGUPOK".toList then readBare callHangUpOk fields
  else if kind = "CALLHANGUPERROR".toList then readMsg callHangUpError fields
  else if kind = "CALLREQUESTOK".toList then readBare callRequestOk fields
  else if kind = "CALLREQUESTERROR".toList then readMsg callRequestError fields
  else if kind = "CALLACCEPTOK".toList then readBare callAcceptOk fields
  else if kind = "CALLACCEPTERROR".toList then readMsg callAcceptError fields
  else if kind = "CALLREJECTOK".toList then readBare callRejectOk fields
  else if kind = "CALLREJECTERROR".toList then readMsg callRejectError fields
  else if kind = "BADMSG".toList then readBare badMessage fields
  else if kind = "ERROR".toList then readMsg error fields
  else none

def fromBytes (bytes : Bytes) : Option ServerResponse := do
  let s ← decode bytes
  match (trim s).splitOn '|' with
  | [] => none
  | kind :: fields => readParts kind fields

end ServerResponse
end RoomRtc
