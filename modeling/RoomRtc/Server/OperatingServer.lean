import RoomRtc.Protocol.ServerResponse

/-! The server's operations on accounts and calls (`server/operating_server.rs`), as one
connection runs them: every operation takes the shared users table, the users file and the
name logged in on this connection, and gives them back with the response and the messages
pushed to other users. A lock is never poisoned and every operation runs atomically. Loading
the table and registering a push stream are `server/central_server.rs`. -/
namespace RoomRtc
open Text
set_option autoImplicit false

/-! ## Data -/

inductive ServerError where
  | openUserDataFileError
  | writeUserDataFileError
  | userDoesNotExist (usrName : Str)
  | userNotAvailable (userName : Str)
  | invalidFormat
deriving DecidableEq, Repr

def ServerError.display : ServerError → Str
  | openUserDataFileError => "Error: failed to open user data file".toList
  | writeUserDataFileError => "Error: failed to write user data file".toList
  | userDoesNotExist usrName => "Error: user does not exist: ".toList ++ usrName
  | userNotAvailable userName => "Error: user not available: ".toList ++ userName
  | invalidFormat => "Error: invalid format".toList

/-- A push stream, known by the number of its registration. -/
abbrev StreamId := ℕ

structure UserData where
  username : Str
  password : Str
  status : UserStatus
  serverClientStream : Option StreamId
deriving DecidableEq, Repr

namespace UserData

def new (username password : Str) (status : UserStatus) : UserData :=
  { username, password, status, serverClientStream := none }

def updateStatus (data : UserData) (status : UserStatus) : UserData := { data with status }

def updateServerClientStream (data : UserData) (stream : StreamId) : UserData :=
  { data with serverClientStream := some stream }

@[simp] theorem updateStatus_status (data : UserData) (status : UserStatus) :
    (data.updateStatus status).status = status := rfl

end UserData

abbrev Users := AList fun _ : Str => UserData

inductive ServerMessage (Sdp : Type) where
  | usernameRequest
  | callIncoming (fromUsr : Str) (offerSdp : Sdp)
  | callAccepted (fromUsr : Str) (sdpAnswer : Sdp)
  | callRejected
  | userStatusUpdate (username : Str) (status : UserStatus)
  | error (msg : Str)
deriving DecidableEq

structure OperatingServer where
  users : Users
  serverClientSocketAddress : SocketAddr
  usersFile : Bytes
  username : Option Str
deriving DecidableEq

/-- What one operation leaves behind, answers and pushes. -/
structure Outcome (Sdp : Type) where
  server : OperatingServer
  response : ServerResponse
  pushed : List (StreamId × ServerMessage Sdp)
deriving DecidableEq

/-- How appending to the users file goes; a write that fails may have got part of the
record into the file. -/
inductive DiskWrite where
  | done
  | openFailed
  | writeFailed (written : ℕ)
deriving DecidableEq, Repr

/-! ## Helpers -/

def validateString (s : Str) : Except ServerError Unit :=
  let trimmed := trim s
  if trimmed = [] then .error .invalidFormat
  else if ' ' ∈ trimmed ∨ '\n' ∈ trimmed ∨ ':' ∈ trimmed ∨ '|' ∈ trimmed then .error .invalidFormat
  else .ok ()

/-- The string passes `validateString`. -/
def Admitted (s : Str) : Prop := validateString s = .ok ()

theorem admitted_iff_trim (s : Str) : Admitted s ↔
    trim s ≠ [] ∧ ¬(' ' ∈ trim s ∨ '\n' ∈ trim s ∨ ':' ∈ trim s ∨ '|' ∈ trim s) := by
  unfold Admitted validateString
  by_cases h : trim s = []
  · simp [h]
  · by_cases h' : ' ' ∈ trim s ∨ '\n' ∈ trim s ∨ ':' ∈ trim s ∨ '|' ∈ trim s
    · simp [h, h']
    · simp [h, h']

instance (s : Str) : Decidable (Admitted s) := decidable_of_iff _ (admitted_iff_trim s).symm

/-- Two of the four characters that are looked for in the trimmed string are no whitespace,
so that they are nowhere in the string itself. -/
theorem Admitted.plain {s : Str} (h : Admitted s) : ':' ∉ s ∧ '|' ∉ s := by
  have hs := ((admitted_iff_trim s).mp h).2
  rw [← mem_trim_iff (s := s) (c := ':') (by decide), ← mem_trim_iff (s := s) (c := '|') (by decide)]
  tauto

theorem Admitted.ne_nil {s : Str} (h : Admitted s) : s ≠ [] := by
  intro hs
  subst hs
  exact ((admitted_iff_trim []).mp h).1 rfl

def getUserData (userName : Str) (users : Users) : Except Str UserData :=
  match users.lookup userName with
  | some data => .ok data
  | none => .error ("User ".toList ++ userName ++ " not found".toList)

def getStreamFromUser (username : Str) (users : Users) : Except ServerError StreamId :=
  match (users.lookup username).bind UserData.serverClientStream with
  | some stream => .ok stream
  | none => .error (.userDoesNotExist username)

section operations
variable {Sdp : Type}

/-- Every other user with a push stream is told. -/
def notifyStatusUpdate (users : Users) (username : Str) (status : UserStatus) :
    List (StreamId × ServerMessage Sdp) :=
  users.entries.filterMap fun e =>
    if e.1 = username then none
    else e.2.serverClientStream.map fun stream => (stream, .userStatusUpdate username status)

namespace OperatingServer

/-- The operation changes nothing and answers `response`. -/
def refuse (s : OperatingServer) (response : ServerResponse) : Outcome Sdp :=
  { server := s, response, pushed := [] }

@[simp] theorem refuse_server (s : OperatingServer) (response : ServerResponse) :
    (s.refuse response : Outcome Sdp).server = s := rfl

def getClientsForUser (users : Users) (ownUsername : Str) : StatusMap :=
  users.entries.foldl (fun m e => if e.1 = ownUsername then m else m.insert e.1 e.2.status) ∅

/-! ## Accounts -/

def loginUser (s : OperatingServer) (username password : Str) : Outcome Sdp :=
  match s.users.lookup username with
  | none => s.refuse (.loginError ("User ".toList ++ username ++ " not found".toList))
  | some data =>
    if data.password ≠ password then s.refuse (.loginError "Wrong password. Try again".toList)
    else
      match data.status with
      | .available | .occupied _ => s.refuse (.loginError "User already logged in".toList)
      | .offline =>
        let users := s.users.insert username (data.updateStatus .available)
        { server := { s with users, username := some username }
          response := .loginOk username s.serverClientSocketAddress (getClientsForUser users username)
          pushed := notifyStatusUpdate users username .available }

/-- The line that `writeln!` appends for an account. -/
def record (username password : Str) : Str := username ++ ':' :: password ++ ['\n']

def loadUserDataInDisk (file : Bytes) (username password : Str) (disk : DiskWrite) :
    Bytes × Except ServerError Unit :=
  match disk with
  | .done => (file ++ encode (record username password), .ok ())
  | .openFailed => (file, .error .openUserDataFileError)
  | .writeFailed written =>
    (file ++ (encode (record username password)).take written, .error .writeUserDataFileError)

def signupUser (s : OperatingServer) (username password : Str) (disk : DiskWrite) : Outcome Sdp :=
  match validateString username with
  | .error _ => s.refuse (.signupError "Invalid username".toList)
  | .ok () =>
    match validateString password with
    | .error _ => s.refuse (.signupError "Invalid password".toList)
    | .ok () =>
      match s.users.lookup username with
      | some _ => s.refuse (.signupError ("User ".toList ++ username ++ " already exists".toList))
      | none =>
        let users := s.users.insert username (UserData.new username password .offline)
        let (usersFile, result) := loadUserDataInDisk s.usersFile username password disk
        { server := { s with users, usersFile }
          response := match result with
            | .ok () => .signupOk
            | .error e => .error ("Error loading user data: ".toList ++ e.display)
          pushed := notifyStatusUpdate users username .offline }

def logoutUser (s : OperatingServer) (username : Str) : Outcome Sdp :=
  match s.users.lookup username with
  | none => s.refuse (.logoutError ("User ".toList ++ username ++ " not found".toList))
  | some data =>
    let users := s.users.insert username (data.updateStatus .offline)
    match data.serverClientStream with
    | none => { server := { s with users }, response := .error "User not found".toList, pushed := [] }
    | some _ =>
      { server := { s with users, username := none }
        response := .logoutOk
        pushed := notifyStatusUpdate users username .offline }

def makeUserOffline (s : OperatingServer) :
    Except ServerError (OperatingServer × List (StreamId × ServerMessage Sdp)) :=
  match s.username with
  | none => .ok (s, [])
  | some username =>
    match s.users.lookup username with
    | none => .error (.userNotAvailable username)
    | some data =>
      let users := s.users.insert username (data.updateStatus .offline)
      .ok ({ s with users, username := none }, notifyStatusUpdate users username .offline)

/-! ## Calls -/

def callRequest (s : OperatingServer) (fromUsr toUsr : Str) (offerSdp : Sdp) : Outcome Sdp :=
  match getStreamFromUser toUsr s.users with
  | .error e => s.refuse (.callRequestError e.display)
  | .ok stream =>
    match getUserData fromUsr s.users, getUserData toUsr s.users with
    | .error e, _ => s.refuse (.error e)
    | _, .error e => s.refuse (.error e)
    | .ok fromUsrData, .ok toUsrData =>
      if fromUsrData.status ≠ .available then
        s.refuse (.error (ServerError.userNotAvailable fromUsr).display)
      else if toUsrData.status ≠ .available then
        s.refuse (.error (ServerError.userNotAvailable toUsr).display)
      else
        let users := (s.users.insert toUsrData.username (toUsrData.updateStatus (.occupied fromUsr))).insert
          fromUsrData.username (fromUsrData.updateStatus (.occupied toUsr))
        { server := { s with users }
          response := .callRequestOk
          pushed := notifyStatusUpdate users fromUsr (.occupied toUsr) ++
            notifyStatusUpdate users toUsr (.occupied fromUsr) ++ [(stream, .callIncoming fromUsr offerSdp)] }

def callAccept (s : OperatingServer) (fromUsr toUsr : Str) (sdpAnswer : Sdp) : Outcome Sdp :=
  match getStreamFromUser toUsr s.users with
  | .error e => s.refuse (.callAcceptError e.display)
  | .ok stream =>
    match getUserData fromUsr s.users, getUserData toUsr s.users with
    | .error e, _ => s.refuse (.callAcceptError e)
    | _, .error e => s.refuse (.callAcceptError e)
    | .ok fromUsrData, .ok toUsrData =>
      if fromUsrData.status ≠ .occupied toUsr then
        s.refuse (.callAcceptError (ServerError.userNotAvailable fromUsr).display)
      else if toUsrData.status ≠ .occupied fromUsr then
        s.refuse (.callAcceptError (ServerError.userNotAvailable toUsr).display)
      else
        { server := s, response := .callAcceptOk, pushed := [(stream, .callAccepted fromUsr sdpAnswer)] }

def callReject (s : OperatingServer) (fromUsr toUsr : Str) : Outcome Sdp :=
  match getStreamFromUser toUsr s.users with
  | .error e => s.refuse (.callRejectError e.display)
  | .ok stream =>
    match getUserData fromUsr s.users, getUserData toUsr s.users with
    | .error e, _ => s.refuse (.callRejectError e)
    | _, .error e => s.refuse (.callRejectError e)
    | .ok fromUsrData, .ok toUsrData =>
      if fromUsrData.status ≠ .occupied toUsr then
        s.refuse (.callRejectError (ServerError.userNotAvailable fromUsr).display)
      else if toUsrData.status ≠ .occupied fromUsr then
        s.refuse (.callRejectError (ServerError.userNotAvailable toUsr).display)
      else
        let users := (s.users.insert toUsrData.username (toUsrData.updateStatus .available)).insert
          fromUsrData.username (fromUsrData.updateStatus .available)
        -- both updates are announced before the table is written
        { server := { s with users }
          response := .callRejectOk
          pushed := notifyStatusUpdate s.users fromUsr .available ++
            notifyStatusUpdate s.users toUsr .available ++ [(stream, .callRejected)] }

def callHangup (s : OperatingServer) (user : Str) : Outcome Sdp :=
  match s.users.lookup user with
  | none => s.refuse (.callHangUpError "User does not exist".toList)
  | some data =>
    match data.status with
    | .available | .offline => s.refuse (.callHangUpError "Unexpected user status".toList)
    | .occupied _ =>
      let users := s.users.insert user (data.updateStatus .available)
      { server := { s with users }
        response := .callHangUpOk
        pushed := notifyStatusUpdate users user .available }

end OperatingServer
end operations

/-! ## Loading and registering -/

/-- One line of the users file, as the loader takes it in. -/
def loadLine (users : Users) (line : Option Str) : Users :=
  match line.bind (splitOnce ':') with
  | none => users
  | some (username, password) =>
    users.insert username { username, password, status := .offline, serverClientStream := none }

def loadUsersFromMem (file : Bytes) : Users := (lines file).foldl loadLine ∅

/-- What every account read from a line has, the loaded table has. -/
theorem load_induction {file : Bytes} (P : Users → Prop) (hempty : P ∅)
    (hinsert : ∀ users line username password, P users → some line ∈ lines file →
      splitOnce ':' line = some (username, password) →
      P (users.insert username (UserData.new username password .offline))) : P (loadUsersFromMem file) := by
  have key : ∀ (ls : List (Option Str)) (users : Users), (∀ l ∈ ls, l ∈ lines file) → P users →
      P (ls.foldl loadLine users) := by
    intro ls
    induction ls with
    | nil => exact fun _ _ h => h
    | cons l ls ih =>
      intro users hls husers
      apply ih _ fun l' hl' => hls l' (List.mem_cons_of_mem l hl')
      unfold loadLine
      split
      · exact husers
      · next username password hl =>
        obtain ⟨line, rfl, hsplit⟩ := Option.bind_eq_some_iff.mp hl
        exact hinsert users line username password husers (hls _ (List.mem_cons_self ..)) hsplit
  exact key (lines file) ∅ (fun _ h => h) hempty

/-- A client's push connection named the user it belongs to. -/
def mapStreamToUser (users : Users) (username : Str) (stream : StreamId) : Users :=
  match users.lookup username with
  | none => users
  | some data => users.insert username (data.updateServerClientStream stream)

end RoomRtc
