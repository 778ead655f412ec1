import RoomRtc.Server.Sessions

/-! What the messages of a connection do to the statuses of the users: when each of them acts
at all, and the table it then leaves. The user a message acts for is named in the message, and
nothing compares that name with the user of the connection. -/
namespace RoomRtc
open OperatingServer UserHandler
set_option autoImplicit false

/-! ## Statuses of a table -/

def statusOf (users : Users) (username : Str) : Option UserStatus :=
  (users.lookup username).map UserData.status

/-- The table in which one user, if it exists, has another status. -/
def setStatus (users : Users) (username : Str) (status : UserStatus) : Users :=
  match users.lookup username with
  | none => users
  | some data => users.insert username (data.updateStatus status)

/-- The table in which two users have each other's statuses written, the callee's first. -/
def setPair (users : Users) (fromUsr toUsr : Str) (fromStatus toStatus : UserStatus) : Users :=
  setStatus (setStatus users toUsr toStatus) fromUsr fromStatus

theorem setStatus_known {users : Users} {username : Str} {data : UserData} (status : UserStatus)
    (h : users.lookup username = some data) :
    setStatus users username status = users.insert username (data.updateStatus status) := by
  simp [setStatus, h]

theorem lookup_setStatus (users : Users) (username : Str) (status : UserStatus) (other : Str) :
    (setStatus users username status).lookup other =
      if other = username then (users.lookup other).map (·.updateStatus status) else users.lookup other := by
  unfold setStatus
  by_cases h : other = username
  · subst h
    cases hlook : users.lookup other with
    | none => simp [hlook]
    | some data => simp
  · cases hlook : users.lookup username with
    | none => simp [h]
    | some data => simp [h, AList.lookup_insert_ne h]

theorem statusOf_setStatus (users : Users) (username : Str) (status : UserStatus) (other : Str) :
    statusOf (setStatus users username status) other =
      if other = username then (statusOf users other).map fun _ => status else statusOf users other := by
  unfold statusOf
  rw [lookup_setStatus]
  split
  · simp [Option.map_map, Function.comp_def]
  · rfl

theorem statusOf_insert (users : Users) (username : Str) (data : UserData) (other : Str) :
    statusOf (users.insert username data) other =
      if other = username then some data.status else statusOf users other := by
  unfold statusOf
  by_cases h : other = username
  · subst h
    simp
  · simp [h, AList.lookup_insert_ne h]

theorem statusOf_eq_some {users : Users} {username : Str} {status : UserStatus} :
    statusOf users username = some status ↔
      ∃ data, users.lookup username = some data ∧ data.status = status :=
  Option.map_eq_some_iff

theorem online_iff_statusOf {users : Users} {username : Str} :
    Online users username ↔ ∃ status, statusOf users username = some status ∧ status ≠ .offline := by
  unfold Online
  constructor
  · rintro ⟨data, hlook, hon⟩
    exact ⟨data.status, statusOf_eq_some.mpr ⟨data, hlook, rfl⟩, hon⟩
  · rintro ⟨status, hst, hon⟩
    obtain ⟨data, hlook, rfl⟩ := statusOf_eq_some.mp hst
    exact ⟨data, hlook, hon⟩

theorem KeyedByName.setStatus {users : Users} (h : KeyedByName users) (username : Str) (status : UserStatus) :
    KeyedByName (setStatus users username status) := by
  unfold RoomRtc.setStatus
  split
  · exact h
  · next data hlook => exact h.insert (h username data hlook)

/-! ## When a message acts -/

def InCall (users : Users) (username : Str) : Prop := ∃ peer, statusOf users username = some (.occupied peer)

/-- A call request goes through. -/
def Rings (users : Users) (fromUsr toUsr : Str) : Prop :=
  HasStream users toUsr ∧ statusOf users fromUsr = some .available ∧ statusOf users toUsr = some .available

/-- A rejection goes through. -/
def Declines (users : Users) (fromUsr toUsr : Str) : Prop :=
  HasStream users toUsr ∧ statusOf users fromUsr = some (.occupied toUsr) ∧
    statusOf users toUsr = some (.occupied fromUsr)

/-- An acceptance goes through. -/
def Accepts (users : Users) (fromUsr toUsr : Str) : Prop :=
  HasStream users toUsr ∧ statusOf users fromUsr = some (.occupied toUsr) ∧
    statusOf users toUsr = some (.occupied fromUsr)

section messages
variable {Sdp : Type}

/-- The message changes the table. -/
def Acts (users : Users) : ClientMessage Sdp → Prop
  | .logIn username password => LogsIn users username password
  | .signUp username password => Admitted username ∧ Admitted password ∧ users.lookup username = none
  | .logOut token => (users.lookup token).isSome
  | .callRequest token _ toUsr => Rings users token toUsr
  | .callReject fromUsr toUsr => Declines users fromUsr toUsr
  | .callHangup token => InCall users token
  | .callAccept _ _ _ | .hello => False

/-- The table a message leaves when it acts. -/
def tableAfter (users : Users) : ClientMessage Sdp → Users
  | .logIn username _ => setStatus users username .available
  | .signUp username password => users.insert username (UserData.new username password .offline)
  | .logOut token => setStatus users token .offline
  | .callRequest token _ toUsr => setPair users token toUsr (.occupied toUsr) (.occupied token)
  | .callReject fromUsr toUsr => setPair users fromUsr toUsr .available .available
  | .callHangup token => setStatus users token .available
  | .callAccept _ _ _ | .hello => users

variable (op : OperatingServer)

theorem getStreamFromUser_ok {users : Users} {username : Str} :
    (∃ stream, getStreamFromUser username users = .ok stream) ↔ HasStream users username := by
  unfold getStreamFromUser HasStream
  cases hlook : users.lookup username with
  | none => simp
  | some data =>
    cases hs : data.serverClientStream with
    | none => simp [hs]
    | some stream => simp [hs]

theorem getUserData_some {users : Users} {userName : Str} {data : UserData}
    (h : users.lookup userName = some data) : getUserData userName users = .ok data := by
  simp [getUserData, h]

/-- Two records read from the table and written back with other statuses. -/
theorem insert_pair (hk : KeyedByName op.users) {fromUsr toUsr : Str} {fromData toData : UserData}
    (hfrom : op.users.lookup fromUsr = some fromData) (hto : op.users.lookup toUsr = some toData)
    (fromStatus toStatus : UserStatus) :
    (op.users.insert toData.username (toData.updateStatus toStatus)).insert
        fromData.username (fromData.updateStatus fromStatus) =
      setPair op.users fromUsr toUsr fromStatus toStatus := by
  rw [hk fromUsr fromData hfrom, hk toUsr toData hto]
  unfold setPair
  rw [setStatus_known toStatus hto]
  by_cases h : fromUsr = toUsr
  · subst h
    rw [hfrom] at hto
    cases hto
    rw [setStatus_known fromStatus (AList.lookup_insert _)]
    rfl
  · rw [setStatus_known fromStatus ((AList.lookup_insert_ne h).trans hfrom)]

variable (Sdp) in
theorem login_granted {username password : Str} (h : LogsIn op.users username password) :
    (op.loginUser username password : Outcome Sdp) =
      { server := { op with users := setStatus op.users username .available, username := some username }
        response := .loginOk username op.serverClientSocketAddress
          (getClientsForUser (setStatus op.users username .available) username)
        pushed := notifyStatusUpdate (setStatus op.users username .available) username .available } := by
  obtain ⟨data, hlook, hpw, hoff⟩ := h
  simp [loginUser, hlook, hpw, hoff, setStatus_known _ hlook]

variable (Sdp) in
theorem login_denied {username password : Str} (h : ¬LogsIn op.users username password) :
    ∃ text, (op.loginUser username password : Outcome Sdp) = op.refuse (.loginError text) := by
  unfold loginUser
  cases hlook : op.users.lookup username with
  | none => exact ⟨_, rfl⟩
  | some data =>
    by_cases hpw : data.password = password
    · cases hst : data.status with
      | offline => exact absurd ⟨data, hlook, hpw, hst⟩ h
      | available => exact ⟨_, by simp only [hpw, hst, ne_eq, not_true_eq_false, if_false]; rfl⟩
      | occupied peer => exact ⟨_, by simp only [hpw, hst, ne_eq, not_true_eq_false, if_false]; rfl⟩
    · exact ⟨_, by simp only [hpw, ne_eq, not_false_eq_true, if_true]; rfl⟩

variable (Sdp) in
theorem signup_granted {username password : Str} (hu : Admitted username) (hp : Admitted password)
    (hnew : op.users.lookup username = none) (disk : DiskWrite) :
    (op.signupUser username password disk : Outcome Sdp).server.users =
        op.users.insert username (UserData.new username password .offline) ∧
      (op.signupUser username password disk : Outcome Sdp).server.username = op.username ∧
      (op.signupUser username password disk : Outcome Sdp).pushed =
        notifyStatusUpdate (op.users.insert username (UserData.new username password .offline)) username .offline := by
  unfold Admitted at hu hp
  simp [signupUser, hu, hp, hnew]

variable (Sdp) in
theorem signup_denied {username password : Str}
    (h : ¬(Admitted username ∧ Admitted password ∧ op.users.lookup username = none)) (disk : DiskWrite) :
    ∃ response, (op.signupUser username password disk : Outcome Sdp) = op.refuse response := by
  unfold Admitted at h
  unfold signupUser
  cases hu : validateString username with
  | error e => exact ⟨_, rfl⟩
  | ok _ =>
    cases hp : validateString password with
    | error e => exact ⟨_, rfl⟩
    | ok _ =>
      cases hlook : op.users.lookup username with
      | none => exact absurd ⟨hu, hp, hlook⟩ h
      | some data => exact ⟨_, rfl⟩

/-- The guards of a call request hold: both records are written, both are announced, and the callee's
stream gets the call. -/
theorem callRequest_ringing (hk : KeyedByName op.users) {fromUsr toUsr : Str} (offerSdp : Sdp) {stream : StreamId}
    (hs : getStreamFromUser toUsr op.users = .ok stream) (hfrom : statusOf op.users fromUsr = some .available)
    (hto : statusOf op.users toUsr = some .available) :
    op.callRequest fromUsr toUsr offerSdp =
      { server := { op with users := setPair op.users fromUsr toUsr (.occupied toUsr) (.occupied fromUsr) }
        response := .callRequestOk
        pushed :=
          notifyStatusUpdate (setPair op.users fromUsr toUsr (.occupied toUsr) (.occupied fromUsr)) fromUsr
              (.occupied toUsr) ++
            notifyStatusUpdate (setPair op.users fromUsr toUsr (.occupied toUsr) (.occupied fromUsr)) toUsr
              (.occupied fromUsr) ++
            [(stream, .callIncoming fromUsr offerSdp)] } := by
  obtain ⟨fromData, hfromLook, hfromSt⟩ := statusOf_eq_some.mp hfrom
  obtain ⟨toData, htoLook, htoSt⟩ := statusOf_eq_some.mp hto
  simp only [callRequest, hs, getUserData_some hfromLook, getUserData_some htoLook, hfromSt, htoSt,
    ne_eq, not_true_eq_false, if_false, insert_pair op hk hfromLook htoLook]

theorem callRequest_granted (hk : KeyedByName op.users) {fromUsr toUsr : Str} (offerSdp : Sdp)
    (h : Rings op.users fromUsr toUsr) :
    ∃ stream, op.callRequest fromUsr toUsr offerSdp =
      { server := { op with users := setPair op.users fromUsr toUsr (.occupied toUsr) (.occupied fromUsr) }
        response := .callRequestOk
        pushed :=
          notifyStatusUpdate (setPair op.users fromUsr toUsr (.occupied toUsr) (.occupied fromUsr)) fromUsr
              (.occupied toUsr) ++
            notifyStatusUpdate (setPair op.users fromUsr toUsr (.occupied toUsr) (.occupied fromUsr)) toUsr
              (.occupied fromUsr) ++
            [(stream, .callIncoming fromUsr offerSdp)] } := by
  obtain ⟨hstream, hfrom, hto⟩ := h
  obtain ⟨stream, hs⟩ := getStreamFromUser_ok.mpr hstream
  exact ⟨stream, callRequest_ringing op hk offerSdp hs hfrom hto⟩

theorem callRequest_denied {fromUsr toUsr : Str} (offerSdp : Sdp) (h : ¬Rings op.users fromUsr toUsr) :
    ∃ response, op.callRequest fromUsr toUsr offerSdp = op.refuse response ∧ response ≠ .callRequestOk := by
  unfold callRequest
  split
  · exact ⟨_, rfl, by simp⟩
  · next stream hs =>
    have hstream : HasStream op.users toUsr := getStreamFromUser_ok.mp ⟨stream, hs⟩
    split
    · exact ⟨_, rfl, by simp⟩
    · exact ⟨_, rfl, by simp⟩
    · next fromData toData hfrom hto =>
      by_cases hf : fromData.status = .available
      · by_cases ht : toData.status = .available
        · exact absurd ⟨hstream, statusOf_eq_some.mpr ⟨fromData, getUserData_ok hfrom, hf⟩,
            statusOf_eq_some.mpr ⟨toData, getUserData_ok hto, ht⟩⟩ h
        · exact ⟨_, by simp only [hf, ht, ne_eq, not_true_eq_false, not_false_eq_true, if_false, if_true]; rfl,
            by simp⟩
      · exact ⟨_, by simp only [hf, ne_eq, not_false_eq_true, if_true]; rfl, by simp⟩

theorem callAccept_granted {fromUsr toUsr : Str} (sdpAnswer : Sdp)
    (h : Accepts op.users fromUsr toUsr) :
    ∃ stream, op.callAccept fromUsr toUsr sdpAnswer =
      { server := op, response := .callAcceptOk, pushed := [(stream, .callAccepted fromUsr sdpAnswer)] } := by
  obtain ⟨hstream, hfrom, hto⟩ := h
  obtain ⟨stream, hs⟩ := getStreamFromUser_ok.mpr hstream
  obtain ⟨fromData, hfromLook, hfromSt⟩ := statusOf_eq_some.mp hfrom
  obtain ⟨toData, htoLook, htoSt⟩ := statusOf_eq_some.mp hto
  refine ⟨stream, ?_⟩
  simp only [callAccept, hs, getUserData_some hfromLook, getUserData_some htoLook, hfromSt, htoSt,
    ne_eq, not_true_eq_false, if_false]

theorem callAccept_denied {fromUsr toUsr : Str} (sdpAnswer : Sdp)
    (h : ¬Accepts op.users fromUsr toUsr) :
    ∃ text, op.callAccept fromUsr toUsr sdpAnswer = op.refuse (.callAcceptError text) := by
  unfold callAccept
  split
  · exact ⟨_, rfl⟩
  · next stream hs =>
    have hstream : HasStream op.users toUsr := getStreamFromUser_ok.mp ⟨stream, hs⟩
    split
    · exact ⟨_, rfl⟩
    · exact ⟨_, rfl⟩
    · next fromData toData hfrom hto =>
      by_cases hf : fromData.status = .occupied toUsr
      · by_cases ht : toData.status = .occupied fromUsr
        · exact absurd ⟨hstream, statusOf_eq_some.mpr ⟨fromData, getUserData_ok hfrom, hf⟩,
            statusOf_eq_some.mpr ⟨toData, getUserData_ok hto, ht⟩⟩ h
        · exact ⟨_, by simp only [hf, ht, ne_eq, not_true_eq_false, not_false_eq_true, if_false, if_true]; rfl⟩
      · exact ⟨_, by simp only [hf, ne_eq, not_false_eq_true, if_true]; rfl⟩

variable (Sdp) in
theorem callReject_granted (hk : KeyedByName op.users) {fromUsr toUsr : Str} (h : Declines op.users fromUsr toUsr) :
    ∃ stream, (op.callReject fromUsr toUsr : Outcome Sdp) =
      { server := { op with users := setPair op.users fromUsr toUsr .available .available }
        response := .callRejectOk
        pushed := notifyStatusUpdate op.users fromUsr .available ++ notifyStatusUpdate op.users toUsr .available ++
          [(stream, .callRejected)] } := by
  obtain ⟨hstream, hfrom, hto⟩ := h
  obtain ⟨stream, hs⟩ := getStreamFromUser_ok.mpr hstream
  obtain ⟨fromData, hfromLook, hfromSt⟩ := statusOf_eq_some.mp hfrom
  obtain ⟨toData, htoLook, htoSt⟩ := statusOf_eq_some.mp hto
  refine ⟨stream, ?_⟩
  simp only [callReject, hs, getUserData_some hfromLook, getUserData_some htoLook, hfromSt, htoSt,
    ne_eq, not_true_eq_false, if_false, insert_pair op hk hfromLook htoLook]

variable (Sdp) in
theorem callReject_denied {fromUsr toUsr : Str} (h : ¬Declines op.users fromUsr toUsr) :
    ∃ response, (op.callReject fromUsr toUsr : Outcome Sdp) = op.refuse response := by
  unfold callReject
  split
  · exact ⟨_, rfl⟩
  · next stream hs =>
    have hstream : HasStream op.users toUsr := getStreamFromUser_ok.mp ⟨stream, hs⟩
    split
    · exact ⟨_, rfl⟩
    · exact ⟨_, rfl⟩
    · next fromData toData hfrom hto =>
      by_cases hf : fromData.status = .occupied toUsr
      · by_cases ht : toData.status = .occupied fromUsr
        · exact absurd ⟨hstream, statusOf_eq_some.mpr ⟨fromData, getUserData_ok hfrom, hf⟩,
            statusOf_eq_some.mpr ⟨toData, getUserData_ok hto, ht⟩⟩ h
        · exact ⟨_, by simp only [hf, ht, ne_eq, not_true_eq_false, not_false_eq_true, if_false, if_true]; rfl⟩
      · exact ⟨_, by simp only [hf, ne_eq, not_false_eq_true, if_true]; rfl⟩

variable (Sdp) in
theorem callHangup_granted {user : Str} (h : InCall op.users user) :
    (op.callHangup user : Outcome Sdp) =
      { server := { op with users := setStatus op.users user .available }
        response := .callHangUpOk
        pushed := notifyStatusUpdate (setStatus op.users user .available) user .available } := by
  obtain ⟨peer, hst⟩ := h
  obtain ⟨data, hlook, hst'⟩ := statusOf_eq_some.mp hst
  simp [callHangup, hlook, hst', setStatus_known _ hlook]

variable (Sdp) in
theorem callHangup_denied {user : Str} (h : ¬InCall op.users user) :
    ∃ response, (op.callHangup user : Outcome Sdp) = op.refuse response := by
  unfold callHangup
  split
  · exact ⟨_, rfl⟩
  · next data hlook =>
    split
    · exact ⟨_, rfl⟩
    · exact ⟨_, rfl⟩
    · next peer hst => exact absurd ⟨peer, statusOf_eq_some.mpr ⟨data, hlook, hst⟩⟩ h

/-- **What a message does to the table.** -/
theorem message_table (hk : KeyedByName op.users) (event : ClientMessage Sdp) (disk : DiskWrite) :
    (Acts op.users event → (handleClientMessage op event disk).server.users = tableAfter op.users event) ∧
    (¬Acts op.users event → (handleClientMessage op event disk).server.users = op.users) := by
  cases event with
  | hello => exact ⟨False.elim, fun _ => rfl⟩
  | logIn username password =>
    show (_ → (op.loginUser username password : Outcome Sdp).server.users = _) ∧
      (_ → (op.loginUser username password : Outcome Sdp).server.users = _)
    constructor
    · intro h
      rw [login_granted Sdp op h]
      rfl
    · intro h
      rw [login_refused op h]
  | signUp username password =>
    show (_ → (op.signupUser username password disk : Outcome Sdp).server.users = _) ∧
      (_ → (op.signupUser username password disk : Outcome Sdp).server.users = _)
    constructor
    · exact fun ⟨hu, hp, hnew⟩ => (signup_granted Sdp op hu hp hnew disk).1
    · intro h
      obtain ⟨response, hr⟩ := signup_denied Sdp op h disk
      rw [hr]
      rfl
  | logOut token =>
    show (_ → (op.logoutUser token : Outcome Sdp).server.users = _) ∧
      (_ → (op.logoutUser token : Outcome Sdp).server.users = _)
    constructor
    · intro h
      obtain ⟨data, hlook⟩ := Option.isSome_iff_exists.mp h
      rw [logout_known op hlook]
      exact (setStatus_known _ hlook).symm
    · intro h
      rw [logout_unknown op (by simpa [Acts] using h)]
  | callRequest token offerSdp toUsr =>
    show (_ → (op.callRequest token toUsr offerSdp).server.users = _) ∧
      (_ → (op.callRequest token toUsr offerSdp).server.users = _)
    constructor
    · intro h
      obtain ⟨stream, hr⟩ := callRequest_granted op hk offerSdp h
      rw [hr]
      rfl
    · intro h
      obtain ⟨response, hr, _⟩ := callRequest_denied op offerSdp h
      rw [hr]
      rfl
  | callAccept fromUsr toUsr sdpAnswer =>
    refine ⟨False.elim, fun _ => ?_⟩
    show (op.callAccept fromUsr toUsr sdpAnswer).server.users = op.users
    rw [callAccept_server]
  | callReject fromUsr toUsr =>
    show (_ → (op.callReject fromUsr toUsr : Outcome Sdp).server.users = _) ∧
      (_ → (op.callReject fromUsr toUsr : Outcome Sdp).server.users = _)
    constructor
    · intro h
      obtain ⟨stream, hr⟩ := callReject_granted Sdp op hk h
      rw [hr]
      rfl
    · intro h
      obtain ⟨response, hr⟩ := callReject_denied Sdp op h
      rw [hr]
      rfl
  | callHangup token =>
    show (_ → (op.callHangup token : Outcome Sdp).server.users = _) ∧
      (_ → (op.callHangup token : Outcome Sdp).server.users = _)
    constructor
    · intro h
      rw [callHangup_granted Sdp op h]
      rfl
    · intro h
      obtain ⟨response, hr⟩ := callHangup_denied Sdp op h
      rw [hr]
      rfl

/-- The ways in which a step of the server leaves the table. -/
inductive TableStep (s : Server) : ServerEvent Sdp → Users → Prop
  | acts {conn : ℕ} {name : Option Str} {event : ClientMessage Sdp} {disk : DiskWrite} :
      s.conns[conn]? = some ⟨.reading, name⟩ → Acts s.users event →
      TableStep s (.received conn (some event) disk) (tableAfter s.users event)
  | refused {conn : ℕ} {name : Option Str} {event : ClientMessage Sdp} {disk : DiskWrite} :
      s.conns[conn]? = some ⟨.reading, name⟩ → ¬Acts s.users event →
      TableStep s (.received conn (some event) disk) s.users
  | garbled {conn : ℕ} {disk : DiskWrite} : TableStep s (.received conn none disk) s.users
  | left {conn : ℕ} {username : Str} {e : ServerEvent Sdp} : e = .eof conn ∨ e = .readError conn →
      s.conns[conn]? = some ⟨.reading, some username⟩ → TableStep s e (setStatus s.users username .offline)
  | leftUnnamed {conn : ℕ} {e : ServerEvent Sdp} : e = .eof conn ∨ e = .readError conn →
      s.conns[conn]? = some ⟨.reading, none⟩ → TableStep s e s.users
  | opened : TableStep s .opened s.users
  | written {conn : ℕ} : TableStep s (.written conn) s.users
  | writeFailed {conn : ℕ} : TableStep s (.writeFailed conn) s.users
  | mapped {username : Str} {stream : StreamId} :
      TableStep s (.streamMapped username stream) (mapStreamToUser s.users username stream)

variable (Sdp) in
theorem disconnect_users (s : Server) (conn : ℕ) (username : Str) :
    (s.disconnect conn (some username) : Server × ServerOutput Sdp).1.users = setStatus s.users username .offline := by
  unfold Server.disconnect makeUserOffline setStatus
  cases hlook : s.users.lookup username with
  | none => simp [Server.view, hlook, Server.store]
  | some data => simp [Server.view, hlook, Server.store]

theorem tableStep_of_left {s : Server} {conn : ℕ} {name : Option Str} {e : ServerEvent Sdp}
    (he : e = .eof conn ∨ e = .readError conn) (hc : s.conns[conn]? = some ⟨.reading, name⟩) :
    TableStep s e (s.disconnect conn name : Server × ServerOutput Sdp).1.users := by
  cases name with
  | none => exact .leftUnnamed he hc
  | some username =>
    rw [disconnect_users]
    exact .left he hc

theorem tableStep_of_step {s s' : Server} {e : ServerEvent Sdp} {o : ServerOutput Sdp} (hk : KeyedByName s.users)
    (h : s.step e = some (s', o)) : TableStep s e s'.users := by
  cases Server.stepped_of_step h with
  | opened => exact .opened
  | @received conn name event disk hc =>
    cases event with
    | none => exact .garbled
    | some event =>
      obtain ⟨hacts, hnot⟩ := message_table (s.view name) hk event disk
      show TableStep s _ (handleClientMessage (s.view name) event disk).server.users
      by_cases ha : Acts s.users event
      · rw [hacts ha]
        exact .acts hc ha
      · rw [hnot ha]
        exact .refused hc ha
  | written hc => exact .written
  | writeFailed hc => exact .writeFailed
  | eof hc => exact tableStep_of_left (.inl rfl) hc
  | readError hc => exact tableStep_of_left (.inr rfl) hc
  | streamMapped => exact .mapped

/-! ## Push streams of a table -/

def streamOf (users : Users) (username : Str) : Option StreamId :=
  (users.lookup username).bind UserData.serverClientStream

theorem streamOf_setStatus (users : Users) (username : Str) (status : UserStatus) (u : Str) :
    streamOf (setStatus users username status) u = streamOf users u := by
  unfold streamOf
  rw [lookup_setStatus]
  split
  · cases users.lookup u with
    | none => rfl
    | some data => rfl
  · rfl

theorem streamOf_setPair (users : Users) (fromUsr toUsr : Str) (fromStatus toStatus : UserStatus) (u : Str) :
    streamOf (setPair users fromUsr toUsr fromStatus toStatus) u = streamOf users u := by
  unfold setPair
  rw [streamOf_setStatus, streamOf_setStatus]

theorem streamOf_insert_new {users : Users} {username : Str} (hnew : users.lookup username = none)
    (password : Str) (status : UserStatus) (u : Str) :
    streamOf (users.insert username (UserData.new username password status)) u = streamOf users u := by
  unfold streamOf
  by_cases hu : u = username
  · subst hu
    simp [hnew, UserData.new]
  · rw [AList.lookup_insert_ne hu]

theorem hasStream_iff_streamOf {users : Users} {username : Str} :
    HasStream users username ↔ ∃ stream, streamOf users username = some stream := by
  unfold HasStream streamOf
  constructor
  · exact fun ⟨data, stream, hlook, hs⟩ => ⟨stream, Option.bind_eq_some_iff.mpr ⟨data, hlook, hs⟩⟩
  · intro ⟨stream, h⟩
    obtain ⟨data, hlook, hs⟩ := Option.bind_eq_some_iff.mp h
    exact ⟨data, stream, hlook, hs⟩

theorem getStreamFromUser_eq_ok {users : Users} {username : Str} {stream : StreamId} :
    getStreamFromUser username users = .ok stream ↔ streamOf users username = some stream := by
  unfold getStreamFromUser streamOf
  cases (users.lookup username).bind UserData.serverClientStream with
  | none => simp
  | some k => simp

theorem streamOf_mapStreamToUser (users : Users) (username : Str) (stream : StreamId) (u : Str) :
    streamOf (mapStreamToUser users username stream) u =
      if u = username ∧ (users.lookup username).isSome then some stream else streamOf users u := by
  unfold mapStreamToUser
  cases hlook : users.lookup username with
  | none => simp
  | some data =>
    unfold streamOf
    by_cases hu : u = username
    · subst hu
      simp [UserData.updateServerClientStream]
    · simp [hu, AList.lookup_insert_ne hu]

/-- No message moves a push stream. -/
theorem streamOf_tableAfter {users : Users} {event : ClientMessage Sdp} (ha : Acts users event) (u : Str) :
    streamOf (tableAfter users event) u = streamOf users u := by
  cases event with
  | signUp username password => exact streamOf_insert_new ha.2.2 password .offline u
  | callRequest token offerSdp toUsr => exact streamOf_setPair users token toUsr _ _ u
  | callReject fromUsr toUsr => exact streamOf_setPair users fromUsr toUsr _ _ u
  | logIn username password => exact streamOf_setStatus users username _ u
  | logOut token => exact streamOf_setStatus users token _ u
  | callHangup token => exact streamOf_setStatus users token _ u
  | callAccept fromUsr toUsr sdpAnswer => rfl
  | hello => rfl

theorem streamOf_message (op : OperatingServer) (hk : KeyedByName op.users) (event : ClientMessage Sdp)
    (disk : DiskWrite) (u : Str) :
    streamOf (handleClientMessage op event disk).server.users u = streamOf op.users u := by
  obtain ⟨hacts, hnot⟩ := message_table op hk event disk
  by_cases ha : Acts op.users event
  · rw [hacts ha, streamOf_tableAfter ha]
  · rw [hnot ha]

/-! ## Who may change whose status -/

/-- A user who existed before does not have the status of before. -/
def ChangesStatus (users users' : Users) (username : Str) : Prop :=
  ∃ status, statusOf users username = some status ∧ statusOf users' username ≠ some status

def Between : ClientMessage Sdp → Str → Str → Prop
  | .callRequest token _ toUsr, a, u => (token = a ∧ toUsr = u) ∨ (token = u ∧ toUsr = a)
  | .callReject fromUsr toUsr, a, u => (fromUsr = a ∧ toUsr = u) ∨ (fromUsr = u ∧ toUsr = a)
  | _, _, _ => False

/-- The message is a login as this user and is answered with `LoginOk`. -/
def LoginAs (event : ClientMessage Sdp) (disk : DiskWrite) (username : Str) : Prop :=
  ∃ password address statuses, event = .logIn username password ∧
    (handleClientMessage op event disk).response = .loginOk username address statuses

/-- The message changes only the statuses that the user of this connection may change. -/
structure ActsForItself (event : ClientMessage Sdp) (disk : DiskWrite) : Prop where
  entitled : ∀ u, ChangesStatus op.users (handleClientMessage op event disk).server.users u →
    op.username = some u ∨ LoginAs op event disk u ∨ ∃ a, op.username = some a ∧ Between event a u
  anonymous : op.username = none →
    ∀ u, ChangesStatus op.users (handleClientMessage op event disk).server.users u → LoginAs op event disk u

/-- The message names the user of the connection, unless it would be refused or leave every
status as it is. -/
def OwnRequest : ClientMessage Sdp → Prop
  | .logOut token => Online op.users token → op.username = some token
  | .callRequest token _ toUsr =>
    Rings op.users token toUsr → op.username = some token ∨ op.username = some toUsr
  | .callReject fromUsr toUsr =>
    Declines op.users fromUsr toUsr → op.username = some fromUsr ∨ op.username = some toUsr
  | .callHangup token => InCall op.users token → op.username = some token
  | _ => True

theorem changesStatus_self (users : Users) (username : Str) : ¬ChangesStatus users users username :=
  fun ⟨_, h, h'⟩ => h' h

theorem changes_setStatus (users : Users) (username : Str) (status : UserStatus) (u : Str) :
    ChangesStatus users (setStatus users username status) u ↔
      u = username ∧ ∃ old, statusOf users username = some old ∧ old ≠ status := by
  unfold ChangesStatus
  rw [statusOf_setStatus]
  constructor
  · rintro ⟨old, hold, hnew⟩
    by_cases hu : u = username
    · subst hu
      refine ⟨rfl, old, hold, ?_⟩
      simpa [hold, eq_comm] using hnew
    · simp [hu, hold] at hnew
  · rintro ⟨rfl, old, hold, hne⟩
    exact ⟨old, hold, by simpa [hold, eq_comm] using hne⟩

/-- Both users of a pair lose the statuses they had. -/
theorem changes_setPair {users : Users} {fromUsr toUsr : Str} {fromOld toOld fromStatus toStatus : UserStatus}
    (hfrom : statusOf users fromUsr = some fromOld) (hto : statusOf users toUsr = some toOld)
    (hf : fromOld ≠ fromStatus) (ht : toOld ≠ toStatus) (u : Str) :
    ChangesStatus users (setPair users fromUsr toUsr fromStatus toStatus) u ↔ u = fromUsr ∨ u = toUsr := by
  unfold ChangesStatus setPair
  rw [statusOf_setStatus, statusOf_setStatus]
  by_cases huf : u = fromUsr
  · subst huf
    simp only [true_or, iff_true]
    refine ⟨fromOld, hfrom, ?_⟩
    by_cases hut : u = toUsr
    · simp [hut, hto, Ne.symm hf]
    · simp [hut, hfrom, Ne.symm hf]
  · by_cases hut : u = toUsr
    · subst hut
      simp only [or_true, iff_true]
      exact ⟨toOld, hto, by simp [huf, hto, Ne.symm ht]⟩
    · simp only [huf, hut, if_false, or_self, iff_false]
      rintro ⟨status, h, h'⟩
      exact h' h

/-- The statuses that a message changes, when the table is keyed by the names of the users. -/
def Touches (users : Users) : ClientMessage Sdp → Str → Prop
  | .logIn username password, u => u = username ∧ LogsIn users username password
  | .logOut token, u => u = token ∧ Online users token
  | .callRequest token _ toUsr, u => Rings users token toUsr ∧ (u = token ∨ u = toUsr)
  | .callReject fromUsr toUsr, u => Declines users fromUsr toUsr ∧ (u = fromUsr ∨ u = toUsr)
  | .callHangup token, u => u = token ∧ InCall users token
  | _, _ => False

theorem changes_iff_touches (hk : KeyedByName op.users) (event : ClientMessage Sdp) (disk : DiskWrite) (u : Str) :
    ChangesStatus op.users (handleClientMessage op event disk).server.users u ↔ Touches op.users event u := by
  obtain ⟨hacts, hnot⟩ := message_table op hk event disk
  by_cases ha : Acts op.users event
  · rw [hacts ha]
    cases event with
    | hello => exact ha.elim
    | logIn username password =>
      obtain ⟨data, hlook, hpw, hoff⟩ := ha
      refine (changes_setStatus op.users username .available u).trans (and_congr_right fun _ => ?_)
      refine iff_of_true ⟨.offline, statusOf_eq_some.mpr ⟨data, hlook, hoff⟩, by simp⟩ ?_
      exact ⟨data, hlook, hpw, hoff⟩
    | signUp username password =>
      refine iff_of_false ?_ id
      rintro ⟨status, hst, hst'⟩
      obtain ⟨data, hlook, rfl⟩ := statusOf_eq_some.mp hst
      have hu : u ≠ username := by
        rintro rfl
        cases ha.2.2.symm.trans hlook
      simp only [tableAfter, statusOf_insert, hu, if_false] at hst'
      exact hst' hst
    | logOut token =>
      refine (changes_setStatus op.users token .offline u).trans (and_congr_right fun _ => ?_)
      exact online_iff_statusOf.symm
    | callRequest token offerSdp toUsr =>
      refine (changes_setPair ha.2.1 ha.2.2 (by simp) (by simp) u).trans ?_
      exact (and_iff_right ha).symm
    | callAccept fromUsr toUsr sdpAnswer => exact ha.elim
    | callReject fromUsr toUsr =>
      refine (changes_setPair ha.2.1 ha.2.2 (by simp) (by simp) u).trans ?_
      exact (and_iff_right ha).symm
    | callHangup token =>
      refine (changes_setStatus op.users token .available u).trans (and_congr_right fun _ => ?_)
      obtain ⟨peer, hst⟩ := ha
      exact iff_of_true ⟨_, hst, by simp⟩ ⟨peer, hst⟩
  · rw [hnot ha]
    refine iff_of_false (changesStatus_self op.users u) ?_
    intro ht
    apply ha
    cases event with
    | hello => exact ht.elim
    | logIn username password => exact ht.2
    | signUp username password => exact ht.elim
    | logOut token =>
      obtain ⟨_, data, hlook, _⟩ := ht
      simp [Acts, hlook]
    | callRequest token offerSdp toUsr => exact ht.1
    | callAccept fromUsr toUsr sdpAnswer => exact ht.elim
    | callReject fromUsr toUsr => exact ht.1
    | callHangup token => exact ht.2

/-- The user of the connection, or the other one of the two it names. -/
theorem own_of_between {u fromUsr toUsr : Str} (hu : u = fromUsr ∨ u = toUsr)
    (h : op.username = some u ∨ ∃ a, op.username = some a ∧
      ((fromUsr = a ∧ toUsr = u) ∨ (fromUsr = u ∧ toUsr = a))) :
    op.username = some fromUsr ∨ op.username = some toUsr := by
  rcases h with h | ⟨a, h, ⟨rfl, _⟩ | ⟨_, rfl⟩⟩
  · rcases hu with rfl | rfl
    · exact .inl h
    · exact .inr h
  · exact .inl h
  · exact .inr h

theorem between_of_own {u fromUsr toUsr : Str} (hu : u = fromUsr ∨ u = toUsr)
    (h : op.username = some fromUsr ∨ op.username = some toUsr) :
    op.username = some u ∨ ∃ a, op.username = some a ∧
      ((fromUsr = a ∧ toUsr = u) ∨ (fromUsr = u ∧ toUsr = a)) := by
  rcases hu with rfl | rfl
  · rcases h with h | h
    · exact .inl h
    · exact .inr ⟨toUsr, h, .inr ⟨rfl, rfl⟩⟩
  · rcases h with h | h
    · exact .inr ⟨fromUsr, h, .inl ⟨rfl, rfl⟩⟩
    · exact .inl h

/-- **Whom a request acts for.** A message changes no status but those that the user of its
connection may change exactly when it names that user, or changes no status at all. -/
theorem acts_for_itself_iff (hk : KeyedByName op.users) (event : ClientMessage Sdp) (disk : DiskWrite) :
    ActsForItself op event disk ↔ OwnRequest op event := by
  have hchanges := changes_iff_touches op hk event disk
  constructor
  · rintro ⟨h, _⟩
    cases event with
    | logOut token =>
      intro hon
      rcases h token ((hchanges token).mpr ⟨rfl, hon⟩) with h | ⟨_, _, _, he, _⟩ | ⟨_, _, hb⟩
      · exact h
      · cases he
      · exact hb.elim
    | callRequest token offerSdp toUsr =>
      intro hr
      rcases h token ((hchanges token).mpr ⟨hr, .inl rfl⟩) with h | ⟨_, _, _, he, _⟩ | h
      · exact .inl h
      · cases he
      · exact own_of_between op (.inl rfl) (.inr h)
    | callReject fromUsr toUsr =>
      intro hr
      rcases h fromUsr ((hchanges fromUsr).mpr ⟨hr, .inl rfl⟩) with h | ⟨_, _, _, he, _⟩ | h
      · exact .inl h
      · cases he
      · exact own_of_between op (.inl rfl) (.inr h)
    | callHangup token =>
      intro hin
      rcases h token ((hchanges token).mpr ⟨rfl, hin⟩) with h | ⟨_, _, _, he, _⟩ | ⟨_, _, hb⟩
      · exact h
      · cases he
      · exact hb.elim
    | _ => trivial
  · intro h
    have hentitled : ∀ u, Touches op.users event u →
        op.username = some u ∨ LoginAs op event disk u ∨ ∃ a, op.username = some a ∧ Between event a u := by
      intro u ht
      cases event with
      | hello => exact ht.elim
      | logIn username password =>
        obtain ⟨rfl, hl⟩ := ht
        exact .inr (.inl ⟨password, _, _, rfl, congrArg Outcome.response (login_granted Sdp op hl)⟩)
      | signUp username password => exact ht.elim
      | logOut token =>
        obtain ⟨rfl, hon⟩ := ht
        exact .inl (h hon)
      | callRequest token offerSdp toUsr => exact (between_of_own op ht.2 (h ht.1)).imp_right .inr
      | callAccept fromUsr toUsr sdpAnswer => exact ht.elim
      | callReject fromUsr toUsr => exact (between_of_own op ht.2 (h ht.1)).imp_right .inr
      | callHangup token =>
        obtain ⟨rfl, hin⟩ := ht
        exact .inl (h hin)
    refine ⟨fun u hu => hentitled u ((hchanges u).mp hu), ?_⟩
    intro hnone u hu
    rcases hentitled u ((hchanges u).mp hu) with hname | hlogin | ⟨a, hname, _⟩
    · cases hnone.symm.trans hname
    · exact hlogin
    · cases hnone.symm.trans hname

end messages

/-- A server with one user online, as a connection with this user sees it. -/
def serverOfAlice (username : Option Str) : OperatingServer :=
  { users := (∅ : Users).insert "alice".toList ⟨"alice".toList, "pw".toList, .available, some 0⟩
    serverClientSocketAddress := ⟨127, 0, 0, 1, 8081⟩, usersFile := [], username }

theorem own_logout_acts_for_itself :
    ActsForItself (serverOfAlice (some "alice".toList)) (.logOut "alice".toList : ClientMessage Unit) .done := by
  have hkeyed : KeyedByName (serverOfAlice (some "alice".toList)).users := keyed_empty.insert rfl
  exact (acts_for_itself_iff _ hkeyed _ _).mpr fun _ => rfl

/-- A logout is carried out for whatever name it carries: a connection that has logged nobody
in takes a user offline. -/
theorem stranger_logs_user_out :
    ¬ActsForItself (serverOfAlice none) (.logOut "alice".toList : ClientMessage Unit) .done := by
  rintro ⟨_, h⟩
  obtain ⟨_, _, _, he, _⟩ := h rfl "alice".toList ⟨.available, by decide +kernel, by decide +kernel⟩
  cases he

end RoomRtc
