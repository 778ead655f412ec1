import RoomRtc.Foundations.Machine
import RoomRtc.Server.OperatingServer

/-! The handler loop of every connection (`server/user_handler.rs`), all of them over one
server: a message is read and handled, its response is written, and the loop ends when the
client disconnects or a read or a write fails. The connections take turns at these points in
any order. -/
namespace RoomRtc
set_option autoImplicit false

inductive ClientMessage (Sdp : Type) where
  | hello
  | logIn (username password : Str)
  | signUp (username password : Str)
  | logOut (token : Str)
  | callRequest (token : Str) (offerSdp : Sdp) (toUsr : Str)
  | callAccept (fromUsr toUsr : Str) (sdpAnswer : Sdp)
  | callReject (fromUsr toUsr : Str)
  | callHangup (token : Str)
deriving DecidableEq

/-- Where the loop of a connection stands: before its next read, with a response still to
be written, or returned. -/
inductive Phase where
  | reading
  | writing
  | ended
deriving DecidableEq, Repr

structure Conn where
  phase : Phase
  username : Option Str
deriving DecidableEq, Repr

structure Server where
  users : Users
  serverClientSocketAddress : SocketAddr
  usersFile : Bytes
  conns : List Conn

/-- What can happen to the server next. -/
inductive ServerEvent (Sdp : Type) where
  | opened
  /-- A read brought these bytes, as far as they are a message. -/
  | received (conn : ℕ) (event : Option (ClientMessage Sdp)) (disk : DiskWrite)
  | written (conn : ℕ)
  | writeFailed (conn : ℕ)
  | eof (conn : ℕ)
  | readError (conn : ℕ)
  | streamMapped (username : Str) (stream : StreamId)

structure ServerOutput (Sdp : Type) where
  response : Option ServerResponse
  pushed : List (StreamId × ServerMessage Sdp)

namespace UserHandler
variable {Sdp : Type}

def handleClientMessage (s : OperatingServer) (event : ClientMessage Sdp) (disk : DiskWrite) : Outcome Sdp :=
  match event with
  | .logIn username password => s.loginUser username password
  | .signUp username password => s.signupUser username password disk
  | .logOut token => s.logoutUser token
  | .callRequest token offerSdp toUsr => s.callRequest token toUsr offerSdp
  | .callAccept fromUsr toUsr sdpAnswer => s.callAccept fromUsr toUsr sdpAnswer
  | .callReject fromUsr toUsr => s.callReject fromUsr toUsr
  | .callHangup token => s.callHangup token
  | .hello => s.refuse .badMessage

end UserHandler

namespace Server
variable {Sdp : Type}

/-- The server as the handler of one connection sees it. -/
def view (s : Server) (username : Option Str) : OperatingServer :=
  { users := s.users, serverClientSocketAddress := s.serverClientSocketAddress
    usersFile := s.usersFile, username }

/-- One connection moves on and leaves the shared data as its handler left them. -/
def store (s : Server) (conn : ℕ) (phase : Phase) (op : OperatingServer) : Server :=
  { s with
    users := op.users
    usersFile := op.usersFile
    conns := s.conns.set conn { phase, username := op.username } }

def handle (s : Server) (conn : ℕ) (username : Option Str) (event : Option (ClientMessage Sdp))
    (disk : DiskWrite) : Server × ServerOutput Sdp :=
  let r := match event with
    | some event => UserHandler.handleClientMessage (s.view username) event disk
    | none => (s.view username).refuse .badMessage
  (s.store conn .writing r.server, { response := some r.response, pushed := r.pushed })

/-- A failed read: the user goes offline, and the loop returns even if that fails. -/
def disconnect (s : Server) (conn : ℕ) (username : Option Str) : Server × ServerOutput Sdp :=
  match (s.view username).makeUserOffline with
  | .ok (op, pushed) => (s.store conn .ended op, { response := none, pushed })
  | .error _ => (s.store conn .ended (s.view username), { response := none, pushed := [] })

def step (s : Server) : ServerEvent Sdp → Option (Server × ServerOutput Sdp)
  | .opened =>
    some ({ s with conns := s.conns ++ [{ phase := .reading, username := none }] }, { response := none, pushed := [] })
  | .received conn event disk =>
    match s.conns[conn]? with
    | some ⟨.reading, username⟩ => some (s.handle conn username event disk)
    | _ => none
  | .written conn =>
    match s.conns[conn]? with
    | some ⟨.writing, username⟩ =>
      some (s.store conn .reading (s.view username), { response := none, pushed := [] })
    | _ => none
  | .writeFailed conn =>
    match s.conns[conn]? with
    -- `send_response(..)?` returns with the user as it is
    | some ⟨.writing, username⟩ =>
      some (s.store conn .ended (s.view username), { response := none, pushed := [] })
    | _ => none
  | .eof conn | .readError conn =>
    match s.conns[conn]? with
    | some ⟨.reading, username⟩ => some (s.disconnect conn username)
    | _ => none
  | .streamMapped username stream =>
    some ({ s with users := mapStreamToUser s.users username stream }, { response := none, pushed := [] })

/-- The ways in which the server moves on, each with the phase its connection must be in. -/
inductive Stepped (s : Server) : ServerEvent Sdp → Server → Prop
  | opened : Stepped s .opened { s with conns := s.conns ++ [{ phase := .reading, username := none }] }
  | received {conn : ℕ} {name : Option Str} {event : Option (ClientMessage Sdp)} {disk : DiskWrite} :
      s.conns[conn]? = some ⟨.reading, name⟩ →
      Stepped s (.received conn event disk) (s.handle conn name event disk).1
  | written {conn : ℕ} {name : Option Str} : s.conns[conn]? = some ⟨.writing, name⟩ →
      Stepped s (.written conn) (s.store conn .reading (s.view name))
  | writeFailed {conn : ℕ} {name : Option Str} : s.conns[conn]? = some ⟨.writing, name⟩ →
      Stepped s (.writeFailed conn) (s.store conn .ended (s.view name))
  | eof {conn : ℕ} {name : Option Str} : s.conns[conn]? = some ⟨.reading, name⟩ →
      Stepped s (.eof conn) (s.disconnect conn name : Server × ServerOutput Sdp).1
  | readError {conn : ℕ} {name : Option Str} : s.conns[conn]? = some ⟨.reading, name⟩ →
      Stepped s (.readError conn) (s.disconnect conn name : Server × ServerOutput Sdp).1
  | streamMapped {username : Str} {stream : StreamId} :
      Stepped s (.streamMapped username stream) { s with users := mapStreamToUser s.users username stream }

theorem stepped_of_step {s s' : Server} {e : ServerEvent Sdp} {o : ServerOutput Sdp}
    (h : s.step e = some (s', o)) : Stepped s e s' := by
  cases e with
  | opened =>
    cases h
    exact .opened
  | received conn event disk =>
    simp only [step] at h
    split at h
    · next name hc =>
      have hs : Stepped s (.received conn event disk) (s.handle conn name event disk).1 := .received hc
      rw [Option.some.inj h] at hs
      exact hs
    · cases h
  | written conn =>
    simp only [step] at h
    split at h
    · next name hc =>
      cases h
      exact .written hc
    · cases h
  | writeFailed conn =>
    simp only [step] at h
    split at h
    · next name hc =>
      cases h
      exact .writeFailed hc
    · cases h
  | eof conn =>
    simp only [step] at h
    split at h
    · next name hc =>
      have hs : Stepped s (.eof conn) (s.disconnect conn name : Server × ServerOutput Sdp).1 := .eof hc
      rw [Option.some.inj h] at hs
      exact hs
    · cases h
  | readError conn =>
    simp only [step] at h
    split at h
    · next name hc =>
      have hs : Stepped s (.readError conn) (s.disconnect conn name : Server × ServerOutput Sdp).1 := .readError hc
      rw [Option.some.inj h] at hs
      exact hs
    · cases h
  | streamMapped username stream =>
    cases h
    exact .streamMapped

/-- A server that has read its users file and has no connection yet. -/
def start (address : SocketAddr) (file : Bytes) : Server :=
  { users := loadUsersFromMem file, serverClientSocketAddress := address, usersFile := file, conns := [] }

end Server

def serverMachine (Sdp : Type) : Machine Server (ServerEvent Sdp) (ServerOutput Sdp) where
  step := Server.step

end RoomRtc
