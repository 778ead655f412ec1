import RoomRtc.Server.Accounts

/-! The contact list of the clients (`controller/control.rs`): a login answers with a snapshot
of everybody's status, the client then opens its push stream, the server maps it to the user,
and from then on the updates that the server pushes are applied in the order in which they
were sent. The server and any number of clients make one system; a request and its response
are one step of it, and pushed messages wait in a queue until the client takes them. -/
namespace RoomRtc
open OperatingServer UserHandler
set_option autoImplicit false

/-! ## Clients -/

structure Client (Sdp : Type) where
  /-- The name that the server keeps for the connection. -/
  username : Option Str
  token : Option Str
  usersStatus : StatusMap
  /-- The push stream of the current login. -/
  stream : Option StreamId
  /-- Messages on the push stream that have not been read. -/
  inbox : List (ServerMessage Sdp)

/-- What a client can be asked to do: `sign_up`, `log_in`, `log_out`, `call`, `accept_call`,
`reject_call` and `hang_up`. -/
inductive Action (Sdp : Type) where
  | signUp (username password : Str) (disk : DiskWrite)
  | logIn (username password : Str)
  | logOut
  | call (peerUsername : Str) (offerSdp : Sdp)
  | acceptCall (toUsr : Str) (sdpAnswer : Sdp)
  | rejectCall (toUsr : Str)
  | hangUp

section lobby
variable {Sdp : Type}

namespace Action

/-- The message that is sent; without a token all but the first two are errors of the client. -/
def message (token : Option Str) : Action Sdp → Option (ClientMessage Sdp)
  | signUp username password _ => some (.signUp username password)
  | logIn username password => some (.logIn username password)
  | logOut => token.map .logOut
  | call peerUsername offerSdp => token.map fun t => .callRequest t offerSdp peerUsername
  | acceptCall toUsr sdpAnswer => token.map fun t => .callAccept t toUsr sdpAnswer
  | rejectCall toUsr => token.map fun t => .callReject t toUsr
  | hangUp => token.map .callHangup

/-- How the write to the users file goes, if there is one. -/
def disk : Action Sdp → DiskWrite
  | signUp _ _ disk => disk
  | _ => .done

end Action

/-- What the receiver loop does to the statuses with a message of the push stream. -/
def updateStatus (usersStatus : StatusMap) : ServerMessage Sdp → StatusMap
  | .userStatusUpdate username status => usersStatus.insert username status
  | _ => usersStatus

def messagesFor (stream : StreamId) (pushed : List (StreamId × ServerMessage Sdp)) : List (ServerMessage Sdp) :=
  (pushed.filter fun p => p.1 = stream).map Prod.snd

namespace Client

/-- Messages pushed to the client's stream; those for a stream that nobody reads any more are lost. -/
def receive (c : Client Sdp) (pushed : List (StreamId × ServerMessage Sdp)) : Client Sdp :=
  match c.stream with
  | none => c
  | some stream => { c with inbox := c.inbox ++ messagesFor stream pushed }

/-- What the response changes in the client. -/
def answered (c : Client Sdp) : Action Sdp → ServerResponse → Client Sdp
  | .logIn _ _, .loginOk token _ usersStatus =>
    { c with token := some token, usersStatus, stream := none, inbox := [] }
  | .logOut, .logoutOk => { c with token := none, usersStatus := ∅, stream := none, inbox := [] }
  | _, _ => c

end Client

/-! ## The system -/

structure Lobby (Sdp : Type) where
  users : Users
  serverClientSocketAddress : SocketAddr
  usersFile : Bytes
  nextStream : StreamId
  clients : List (Client Sdp)

inductive LobbyEvent (Sdp : Type) where
  | connected
  | request (client : ℕ) (action : Action Sdp)
  /-- The push stream of a client that logged in is mapped to its user. -/
  | registered (client : ℕ)
  | delivered (client : ℕ)
  | disconnected (client : ℕ)

namespace Lobby

def view (s : Lobby Sdp) (username : Option Str) : OperatingServer :=
  { users := s.users, serverClientSocketAddress := s.serverClientSocketAddress
    usersFile := s.usersFile, username }

/-- The outcome of one request, with its response taken by the client that sent it. -/
def handle (s : Lobby Sdp) (client : ℕ) (c : Client Sdp) (action : Action Sdp) (message : ClientMessage Sdp) :
    Lobby Sdp × Option ServerResponse :=
  let r := handleClientMessage (s.view c.username) message action.disk
  ({ s with
      users := r.server.users
      usersFile := r.server.usersFile
      clients := (s.clients.map (·.receive r.pushed)).modify client fun c =>
        { c with username := r.server.username }.answered action r.response },
    some r.response)

def disconnect (s : Lobby Sdp) (client : ℕ) (c : Client Sdp) : Lobby Sdp × Option ServerResponse :=
  match (s.view c.username).makeUserOffline with
  | .ok (op, pushed) =>
    ({ s with users := op.users, clients := (s.clients.eraseIdx client).map (·.receive pushed) }, none)
  | .error _ => ({ s with clients := s.clients.eraseIdx client }, none)

def step (s : Lobby Sdp) : LobbyEvent Sdp → Option (Lobby Sdp × Option ServerResponse)
  | .connected =>
    some ({ s with clients := s.clients ++ [⟨none, none, ∅, none, []⟩] }, none)
  | .request client action =>
    match s.clients[client]? with
    | none => none
    | some c => (action.message c.token).map fun message => s.handle client c action message
  | .registered client =>
    match s.clients[client]? with
    | some ⟨_, some username, _, none, _⟩ =>
      some ({ s with
        users := mapStreamToUser s.users username s.nextStream
        nextStream := s.nextStream + 1
        clients := s.clients.modify client fun c => { c with stream := some s.nextStream, inbox := [] } }, none)
    | _ => none
  | .delivered client =>
    match s.clients[client]? with
    | some ⟨_, _, _, _, message :: rest⟩ =>
      some ({ s with
        clients := s.clients.modify client fun c =>
          { c with usersStatus := updateStatus c.usersStatus message, inbox := rest } }, none)
    | _ => none
  | .disconnected client =>
    match s.clients[client]? with
    | none => none
    | some c => some (s.disconnect client c)

def start (address : SocketAddr) (file : Bytes) : Lobby Sdp :=
  { users := loadUsersFromMem file, serverClientSocketAddress := address, usersFile := file
    nextStream := 0, clients := [] }

end Lobby

variable (Sdp) in
def lobbyMachine : Machine (Lobby Sdp) (LobbyEvent Sdp) (Option ServerResponse) where
  step := Lobby.step

/-! ## What the clients should hold -/

/-- The client is logged in and the server has its push stream under its name. -/
def Registered (users : Users) (c : Client Sdp) (username : Str) : Prop :=
  c.token = some username ∧ ∃ stream, c.stream = some stream ∧ streamOf users username = some stream

/-- The client's statuses are the server's, its own user's apart. -/
def UpToDate (users : Users) (usersStatus : StatusMap) (username : Str) : Prop :=
  ∀ u, u ≠ username → usersStatus.lookup u = statusOf users u

def Quiet (s : Lobby Sdp) : Prop := ∀ c ∈ s.clients, c.inbox = []

/-- With no message in flight, every registered client holds the server's statuses. -/
def Agreement (s : Lobby Sdp) : Prop :=
  Quiet s → ∀ c ∈ s.clients, ∀ username, Registered s.users c username →
    UpToDate s.users c.usersStatus username

/-- The same once all messages in flight have been delivered, in whatever order the clients
take them. -/
def Settles (s : Lobby Sdp) : Prop :=
  ∀ deliveries t os, (∀ d ∈ deliveries, ∃ client, d = .delivered client) →
    (lobbyMachine Sdp).run s deliveries = some (t, os) → Agreement t

/-- Two things must not happen: a push stream is registered when the snapshot of the login is
out of date, or a user who is online and has no push stream logs out while another client
is registered. -/
def KeepsUp (s : Lobby Sdp) : LobbyEvent Sdp → Prop
  | .registered client => ∀ c username, s.clients[client]? = some c →
    c.token = some username → c.stream = none →
    (s.users.lookup username).isSome → UpToDate s.users c.usersStatus username
  | .request client .logOut => ∀ c username, s.clients[client]? = some c → c.token = some username →
    Online s.users username → ¬HasStream s.users username →
    ∀ d ∈ s.clients, ∀ other, other ≠ username → ¬Registered s.users d other
  | _ => True

end lobby
end RoomRtc
