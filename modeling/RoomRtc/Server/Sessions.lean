import RoomRtc.Foundations.Sessions
import RoomRtc.Server.UserHandler

/-! Sessions of the server: which connection stands for which user. The shared table says who
is online, every connection keeps the name of its own user, and different code updates the
two. They stay in step over a run exactly when no step of it drops a name of somebody who
stays online or takes a name that another connection still has. -/
namespace RoomRtc
open OperatingServer UserHandler Sessions
set_option autoImplicit false

/-! ## Who is online -/

def Online (users : Users) (username : Str) : Prop :=
  ∃ data, users.lookup username = some data ∧ data.status ≠ .offline

/-- Every record stands under its own name. -/
def KeyedByName (users : Users) : Prop :=
  ∀ username data, users.lookup username = some data → data.username = username

/-- The login succeeds. -/
def LogsIn (users : Users) (username password : Str) : Prop :=
  ∃ data, users.lookup username = some data ∧ data.password = password ∧ data.status = .offline

def HasStream (users : Users) (username : Str) : Prop :=
  ∃ data stream, users.lookup username = some data ∧ data.serverClientStream = some stream

theorem not_online_of_logsIn {users : Users} {username password : Str} (h : LogsIn users username password) :
    ¬Online users username := by
  obtain ⟨data, hlook, _, hoff⟩ := h
  rintro ⟨data', hlook', hon⟩
  rw [hlook] at hlook'
  cases hlook'
  exact hon hoff

theorem online_insert_self (users : Users) (name : Str) (data : UserData) :
    Online (users.insert name data) name ↔ data.status ≠ .offline := by
  unfold Online
  rw [AList.lookup_insert]
  simp

theorem online_insert_ne (users : Users) {name other : Str} (data : UserData) (h : other ≠ name) :
    Online (users.insert name data) other ↔ Online users other := by
  unfold Online
  rw [AList.lookup_insert_ne h]

theorem keyed_empty : KeyedByName ∅ := by
  intro username data h
  cases h

theorem KeyedByName.insert {users : Users} (h : KeyedByName users) {name : Str} {data : UserData}
    (hname : data.username = name) : KeyedByName (users.insert name data) := by
  intro other data' hlook
  by_cases hn : other = name
  · subst hn
    rw [AList.lookup_insert] at hlook
    cases hlook
    exact hname
  · rw [AList.lookup_insert_ne hn] at hlook
    exact h other data' hlook

theorem online_set_offline (users : Users) (name other : Str) (data : UserData) :
    Online (users.insert name (data.updateStatus .offline)) other ↔ other ≠ name ∧ Online users other := by
  by_cases h : other = name
  · subst h
    rw [online_insert_self]
    simp
  · rw [online_insert_ne users _ h]
    simp [h]

/-- A record changes between two statuses of users online. -/
theorem online_set_online {users : Users} {name : Str} {data : UserData} {status : UserStatus}
    (hon : Online users name) (hs : status ≠ .offline) (other : Str) :
    Online (users.insert name (data.updateStatus status)) other ↔ Online users other := by
  by_cases h : other = name
  · subst h
    rw [online_insert_self]
    exact iff_of_true hs hon
  · exact online_insert_ne users _ h

/-! ## What each operation does to the sessions -/

/-- The operation leaves the connection's name and everybody's being online as they were. -/
structure SameSessions (op op' : OperatingServer) : Prop where
  username : op'.username = op.username
  online : ∀ v, Online op'.users v ↔ Online op.users v
  keyed : KeyedByName op.users → KeyedByName op'.users

theorem SameSessions.refl (op : OperatingServer) : SameSessions op op :=
  ⟨rfl, fun _ => Iff.rfl, id⟩

section operations
variable {Sdp : Type} (op : OperatingServer)

variable (Sdp) in
theorem login_taken {username password : Str} (h : LogsIn op.users username password) :
    ∃ data, op.users.lookup username = some data ∧
      (op.loginUser username password : Outcome Sdp).server =
        { op with users := op.users.insert username (data.updateStatus .available), username := some username } := by
  obtain ⟨data, hlook, hpw, hoff⟩ := h
  refine ⟨data, hlook, ?_⟩
  simp [loginUser, hlook, hpw, hoff]

theorem login_refused {username password : Str} (h : ¬LogsIn op.users username password) :
    (op.loginUser username password : Outcome Sdp).server = op := by
  unfold loginUser
  cases hlook : op.users.lookup username with
  | none => rfl
  | some data =>
    by_cases hpw : data.password = password
    · cases hst : data.status with
      | offline => exact absurd ⟨data, hlook, hpw, hst⟩ h
      | available => simp [hpw, hst]
      | occupied peer => simp [hpw, hst]
    · simp [hpw]

theorem signup_sessions (username password : Str) (disk : DiskWrite) :
    SameSessions op (op.signupUser username password disk : Outcome Sdp).server := by
  unfold signupUser
  split
  · exact .refl op
  · split
    · exact .refl op
    · split
      · exact .refl op
      · next hnew =>
        refine ⟨rfl, ?_, fun hk => hk.insert rfl⟩
        intro v
        by_cases hv : v = username
        · subst hv
          rw [online_insert_self]
          refine iff_of_false (fun h => h rfl) ?_
          rintro ⟨data, hlook, _⟩
          rw [hnew] at hlook
          cases hlook
        · exact online_insert_ne _ _ hv

theorem logout_unknown {token : Str} (h : op.users.lookup token = none) :
    (op.logoutUser token : Outcome Sdp).server = op := by
  simp [logoutUser, h]

theorem logout_known {token : Str} {data : UserData} (h : op.users.lookup token = some data) :
    (op.logoutUser token : Outcome Sdp).server =
      { op with
        users := op.users.insert token (data.updateStatus .offline)
        username := if data.serverClientStream = none then op.username else none } := by
  cases hs : data.serverClientStream with
  | none => simp [logoutUser, h, hs]
  | some stream => simp [logoutUser, h, hs]

theorem getUserData_ok {userName : Str} {users : Users} {data : UserData}
    (h : getUserData userName users = .ok data) : users.lookup userName = some data := by
  unfold getUserData at h
  cases hlook : users.lookup userName with
  | none => simp [hlook] at h
  | some data' =>
    simp only [hlook, Except.ok.injEq] at h
    rw [h]

/-- Both records of a call are written back with statuses of users online. -/
theorem pair_sessions (hk : KeyedByName op.users) {fromUsr toUsr : Str} {fromData toData : UserData}
    {fromStatus toStatus : UserStatus} (hfrom : op.users.lookup fromUsr = some fromData)
    (hto : op.users.lookup toUsr = some toData) (hfromOn : fromData.status ≠ .offline)
    (htoOn : toData.status ≠ .offline) (hfs : fromStatus ≠ .offline) (hts : toStatus ≠ .offline) :
    SameSessions op { op with
      users := (op.users.insert toData.username (toData.updateStatus toStatus)).insert
        fromData.username (fromData.updateStatus fromStatus) } := by
  have honline : ∀ v, Online (op.users.insert toUsr (toData.updateStatus toStatus)) v ↔ Online op.users v :=
    online_set_online ⟨toData, hto, htoOn⟩ hts
  rw [hk fromUsr fromData hfrom, hk toUsr toData hto]
  refine ⟨rfl, ?_, ?_⟩
  · intro v
    show Online (AList.insert fromUsr _ _) v ↔ _
    rw [online_set_online ((honline fromUsr).mpr ⟨fromData, hfrom, hfromOn⟩) hfs, honline]
  · intro _
    have hto' : KeyedByName (op.users.insert toUsr (toData.updateStatus toStatus)) :=
      hk.insert (hk toUsr toData hto)
    exact hto'.insert (hk fromUsr fromData hfrom)

theorem callRequest_sessions (hk : KeyedByName op.users) (fromUsr toUsr : Str) (offerSdp : Sdp) :
    SameSessions op (op.callRequest fromUsr toUsr offerSdp).server := by
  unfold callRequest
  split
  · exact .refl op
  · split
    · exact .refl op
    · exact .refl op
    · next fromData toData hfrom hto =>
      by_cases hf : fromData.status = .available
      · by_cases ht : toData.status = .available
        · simp only [hf, ht, ne_eq, not_true_eq_false, if_false]
          apply pair_sessions op hk (getUserData_ok hfrom) (getUserData_ok hto) <;> simp [hf, ht]
        · simp only [hf, ht, ne_eq, not_true_eq_false, not_false_eq_true, if_false, if_true]
          exact .refl op
      · simp only [hf, ne_eq, not_false_eq_true, if_true]
        exact .refl op

theorem callAccept_server (fromUsr toUsr : Str) (sdpAnswer : Sdp) :
    (op.callAccept fromUsr toUsr sdpAnswer).server = op := by
  unfold callAccept
  repeat' split
  all_goals rfl

theorem callAccept_sessions (fromUsr toUsr : Str) (sdpAnswer : Sdp) :
    SameSessions op (op.callAccept fromUsr toUsr sdpAnswer).server := by
  rw [callAccept_server]
  exact .refl op

theorem callReject_sessions (hk : KeyedByName op.users) (fromUsr toUsr : Str) :
    SameSessions op (op.callReject fromUsr toUsr : Outcome Sdp).server := by
  unfold callReject
  split
  · exact .refl op
  · split
    · exact .refl op
    · exact .refl op
    · next fromData toData hfrom hto =>
      by_cases hf : fromData.status = .occupied toUsr
      · by_cases ht : toData.status = .occupied fromUsr
        · simp only [hf, ht, ne_eq, not_true_eq_false, if_false]
          apply pair_sessions op hk (getUserData_ok hfrom) (getUserData_ok hto) <;> simp [hf, ht]
        · simp only [hf, ht, ne_eq, not_true_eq_false, not_false_eq_true, if_false, if_true]
          exact .refl op
      · simp only [hf, ne_eq, not_false_eq_true, if_true]
        exact .refl op

theorem callHangup_sessions (user : Str) : SameSessions op (op.callHangup user : Outcome Sdp).server := by
  unfold callHangup
  split
  · exact .refl op
  · next data hlook =>
    split
    · exact .refl op
    · exact .refl op
    · next peer hst =>
      refine ⟨rfl, ?_, fun hk => hk.insert (hk user data hlook)⟩
      exact online_set_online ⟨data, hlook, by simp [hst]⟩ (by simp)

end operations

theorem mapStreamToUser_online (users : Users) (username : Str) (stream : StreamId) (v : Str) :
    Online (mapStreamToUser users username stream) v ↔ Online users v := by
  unfold mapStreamToUser
  split
  · exact Iff.rfl
  · next data hlook =>
    by_cases hv : v = username
    · subst hv
      rw [online_insert_self]
      constructor
      · exact fun hst => ⟨data, hlook, hst⟩
      · rintro ⟨data', hlook', hst⟩
        rw [hlook] at hlook'
        cases hlook'
        exact hst
    · exact online_insert_ne _ _ hv

theorem KeyedByName.mapStreamToUser {users : Users} (h : KeyedByName users) (username : Str) (stream : StreamId) :
    KeyedByName (mapStreamToUser users username stream) := by
  unfold RoomRtc.mapStreamToUser
  split
  · exact h
  · next data hlook => exact h.insert (h username data hlook)

/-! ## Connections -/

/-- A connection that is still alive and whose user this is. -/
def Holds (s : Server) (conn : ℕ) (username : Str) : Prop :=
  ∃ phase, s.conns[conn]? = some ⟨phase, some username⟩ ∧ phase ≠ .ended

/-- Every user that is not offline is the user of exactly one connection alive. -/
def NoGhosts (s : Server) : Prop := Attended (Online s.users) (Holds s)

/-- The move of the sessions from one state of the server to the next. -/
def Moves (s s' : Server) (cond : Prop) : Prop :=
  Move (Online s.users) (Online s'.users) (Holds s) (Holds s') cond

theorem Moves.congr {s s' : Server} {p q : Prop} (h : Moves s s' p) (hpq : p ↔ q) : Moves s s' q :=
  propext hpq ▸ h

theorem holds_iff {s : Server} {conn : ℕ} {phase : Phase} {name : Option Str}
    (h : s.conns[conn]? = some ⟨phase, name⟩) (v : Str) :
    Holds s conn v ↔ phase ≠ .ended ∧ name = some v := by
  unfold Holds
  rw [h]
  constructor
  · rintro ⟨phase', he, hp⟩
    cases he
    exact ⟨hp, rfl⟩
  · rintro ⟨hp, rfl⟩
    exact ⟨phase, rfl, hp⟩

section store
variable {s : Server} {conn : ℕ} {phase phase' : Phase} {name : Option Str} {op : OperatingServer}

theorem store_conn (h : s.conns[conn]? = some ⟨phase, name⟩) :
    (s.store conn phase' op).conns[conn]? = some ⟨phase', op.username⟩ := by
  have hlt : conn < s.conns.length := (List.getElem?_eq_some_iff.mp h).1
  simp [Server.store, hlt]

theorem holds_store_ne {d : ℕ} (hd : d ≠ conn) (v : Str) :
    Holds (s.store conn phase' op) d v ↔ Holds s d v := by
  unfold Holds Server.store
  rw [List.getElem?_set_ne (Ne.symm hd)]

theorem moves_keep (hc : s.conns[conn]? = some ⟨phase, name⟩) (hp : phase ≠ .ended) (hp' : phase' ≠ .ended)
    (hname : op.username = name) (hon : ∀ v, Online op.users v → Online s.users v) :
    Moves s (s.store conn phase' op) True := by
  apply Move.keep hon
  intro d v
  by_cases hd : d = conn
  · subst hd
    rw [holds_iff (store_conn hc), holds_iff hc, hname]
    exact and_congr_left' (iff_of_true hp' hp)
  · exact holds_store_ne hd v

theorem moves_release (hc : s.conns[conn]? = some ⟨phase, name⟩) (hgone : phase' = .ended ∨ op.username = none)
    (hon : ∀ v, Online op.users v → Online s.users v) :
    Moves s (s.store conn phase' op) (∀ v, Holds s conn v → ¬Online op.users v) := by
  apply Move.release conn hon
  · intro v hv
    rw [holds_iff (store_conn hc)] at hv
    cases hgone with
    | inl he => exact hv.1 he
    | inr he =>
      rw [he] at hv
      cases hv.2
  · exact fun d hd v => holds_store_ne hd v

theorem moves_take (hc : s.conns[conn]? = some ⟨phase, name⟩) (hp' : phase' ≠ .ended) {username : Str}
    (hoff : ¬Online s.users username) (hname : op.username = some username)
    (hon : ∀ v, Online op.users v ↔ v = username ∨ Online s.users v) :
    Moves s (s.store conn phase' op)
      ((∀ v, Holds s conn v → ¬Online s.users v) ∧ ∀ d, d ≠ conn → ¬Holds s d username) := by
  apply Move.take conn username hoff hon
  · intro v
    rw [holds_iff (store_conn hc), hname, and_iff_right hp', Option.some.injEq]
    exact eq_comm
  · exact fun d hd v => holds_store_ne hd v

end store

/-! ## One step -/

section steps
variable {Sdp : Type}

/-- The step neither drops the name of a user who stays online nor takes a name that
another connection still has. Three kinds of steps could: a login that succeeds, a logout
of a user who has a push stream, and a response that cannot be written. -/
def Undisturbed (s : Server) : ServerEvent Sdp → Prop
  | .received conn (some (.logIn username password)) _ =>
    ∀ name, s.conns[conn]? = some ⟨.reading, name⟩ → LogsIn s.users username password →
      (∀ v, name = some v → ¬Online s.users v) ∧ ∀ d, d ≠ conn → ¬Holds s d username
  | .received conn (some (.logOut token)) _ =>
    ∀ v, s.conns[conn]? = some ⟨.reading, some v⟩ → HasStream s.users token → v = token ∨ ¬Online s.users v
  | .writeFailed conn => ∀ v, s.conns[conn]? = some ⟨.writing, some v⟩ → ¬Online s.users v
  | _ => True

theorem moves_opened (s : Server) : Moves s { s with conns := s.conns ++ [⟨.reading, none⟩] } True := by
  apply Move.keep (fun v hv => hv)
  intro d v
  unfold Holds
  by_cases hd : d < s.conns.length
  · rw [List.getElem?_append_left hd]
  · have hnone : s.conns[d]? = none := List.getElem?_eq_none (by omega)
    rw [List.getElem?_append_right (by omega), hnone]
    constructor
    · rintro ⟨phase, he, _⟩
      cases hi : d - s.conns.length with
      | zero =>
        rw [hi] at he
        cases he
      | succ i =>
        rw [hi] at he
        cases he
    · rintro ⟨phase, he, _⟩
      cases he

section received
variable {s : Server} {conn : ℕ} {name : Option Str}

theorem moves_same (hc : s.conns[conn]? = some ⟨.reading, name⟩) {op : OperatingServer}
    (hs : SameSessions (s.view name) op) : Moves s (s.store conn .writing op) True :=
  moves_keep hc (by simp) (by simp) hs.username fun v hv => (hs.online v).mp hv

theorem moves_login (hc : s.conns[conn]? = some ⟨.reading, name⟩) {username password : Str}
    (h : LogsIn s.users username password) :
    Moves s (s.store conn .writing ((s.view name).loginUser username password : Outcome Sdp).server)
      ((∀ v, Holds s conn v → ¬Online s.users v) ∧ ∀ d, d ≠ conn → ¬Holds s d username) := by
  obtain ⟨data, _, hserver⟩ := login_taken Sdp (s.view name) h
  rw [hserver]
  apply moves_take hc (by simp) (not_online_of_logsIn h) rfl
  intro v
  by_cases hv : v = username
  · subst hv
    exact iff_of_true ((online_insert_self _ _ _).mpr (by simp)) (.inl rfl)
  · simp only [hv, false_or]
    exact online_insert_ne _ _ hv

theorem moves_logout (hc : s.conns[conn]? = some ⟨.reading, name⟩) (token : Str) (disk : DiskWrite) :
    Moves s (s.store conn .writing ((s.view name).logoutUser token : Outcome Sdp).server)
      (Undisturbed s (.received conn (some (.logOut token)) disk : ServerEvent Sdp)) := by
  cases hlook : s.users.lookup token with
  | none =>
    rw [logout_unknown (s.view name) hlook]
    refine (moves_same hc (.refl _)).congr (iff_of_true trivial ?_)
    rintro v _ ⟨data, stream, hlook', _⟩
    rw [hlook] at hlook'
    cases hlook'
  | some data =>
    have hon : ∀ v, Online (s.users.insert token (data.updateStatus .offline)) v → Online s.users v :=
      fun v hv => ((online_set_offline s.users token v data).mp hv).2
    rw [logout_known (s.view name) hlook]
    cases hstream : data.serverClientStream with
    | none =>
      -- the name on the connection stays
      refine (moves_keep hc (by simp) (by simp) (by simp [Server.view]) hon).congr (iff_of_true trivial ?_)
      rintro v _ ⟨data', stream, hlook', hstream'⟩
      rw [hlook] at hlook'
      cases hlook'
      rw [hstream] at hstream'
      cases hstream'
    | some stream =>
      refine (moves_release hc (.inr (by simp)) hon).congr ?_
      constructor
      · intro h v hv _
        have hv' := h v ((holds_iff hv v).mpr ⟨by simp, rfl⟩)
        rw [online_set_offline] at hv'
        tauto
      · intro h v hv hon'
        obtain ⟨_, hname⟩ := (holds_iff hc v).mp hv
        have hdone := h v (hname ▸ hc) ⟨data, stream, hlook, hstream⟩
        have hstays := (online_set_offline s.users token v data).mp hon'
        cases hdone with
        | inl he => exact hstays.1 he
        | inr hoff => exact hoff hstays.2

theorem moves_disconnect (hc : s.conns[conn]? = some ⟨.reading, name⟩) :
    Moves s (s.disconnect conn name : Server × ServerOutput Sdp).1 True := by
  cases name with
  | none =>
    refine (moves_release hc (.inl rfl) (fun v hv => hv)).congr (iff_of_true ?_ trivial)
    intro v hv
    cases ((holds_iff hc v).mp hv).2
  | some username =>
    cases hlook : s.users.lookup username with
    | none =>
      have hserver : (s.disconnect conn (some username) : Server × ServerOutput Sdp).1 =
          s.store conn .ended (s.view (some username)) := by
        simp [Server.disconnect, makeUserOffline, Server.view, hlook]
      rw [hserver]
      refine (moves_release hc (.inl rfl) (fun v hv => hv)).congr (iff_of_true ?_ trivial)
      intro v hv hon
      cases ((holds_iff hc v).mp hv).2
      obtain ⟨data, hlook', _⟩ := hon
      cases hlook.symm.trans hlook'
    | some data =>
      have hserver : (s.disconnect conn (some username) : Server × ServerOutput Sdp).1 =
          s.store conn .ended { s.view none with
            users := s.users.insert username (data.updateStatus .offline) } := by
        simp [Server.disconnect, makeUserOffline, Server.view, hlook]
      have hon : ∀ v, Online (s.users.insert username (data.updateStatus .offline)) v → Online s.users v :=
        fun v hv => ((online_set_offline s.users username v data).mp hv).2
      rw [hserver]
      refine (moves_release hc (.inl rfl) hon).congr (iff_of_true ?_ trivial)
      intro v hv hon'
      cases ((holds_iff hc v).mp hv).2
      exact ((online_set_offline s.users username username data).mp hon').1 rfl

end received

/-- Every message but a login and a logout leaves the sessions as they are. -/
theorem moves_handle {s : Server} {conn : ℕ} {name : Option Str} (hk : KeyedByName s.users)
    (hc : s.conns[conn]? = some ⟨.reading, name⟩) (event : Option (ClientMessage Sdp)) (disk : DiskWrite) :
    Moves s (s.handle conn name event disk).1 (Undisturbed s (.received conn event disk)) := by
  cases event with
  | none => exact moves_same hc (.refl _)
  | some event =>
    cases event with
    | hello => exact moves_same hc (.refl _)
    | logIn username password =>
      by_cases h : LogsIn s.users username password
      · refine (moves_login hc h).congr ?_
        constructor
        · intro hcond name' hc' _
          refine ⟨?_, hcond.2⟩
          intro v hv
          apply hcond.1 v
          rw [holds_iff hc']
          exact ⟨by simp, hv⟩
        · intro hcond
          obtain ⟨hfree, halone⟩ := hcond name hc h
          exact ⟨fun v hv => hfree v ((holds_iff hc v).mp hv).2, halone⟩
      · have hmove : Moves s (s.store conn .writing
            ((s.view name).loginUser username password : Outcome Sdp).server) True := by
          rw [login_refused (s.view name) h]
          exact moves_same hc (.refl _)
        exact hmove.congr (iff_of_true trivial fun _ _ h' => absurd h' h)
    | signUp username password => exact moves_same hc (signup_sessions (s.view name) username password disk)
    | logOut token => exact moves_logout hc token disk
    | callRequest token offerSdp toUsr =>
      exact moves_same hc (callRequest_sessions (s.view name) hk token toUsr offerSdp)
    | callAccept fromUsr toUsr sdpAnswer =>
      exact moves_same hc (callAccept_sessions (s.view name) fromUsr toUsr sdpAnswer)
    | callReject fromUsr toUsr => exact moves_same hc (callReject_sessions (s.view name) hk fromUsr toUsr)
    | callHangup token => exact moves_same hc (callHangup_sessions (s.view name) token)

theorem step_moves {s s' : Server} {e : ServerEvent Sdp} {o : ServerOutput Sdp} (hk : KeyedByName s.users)
    (h : s.step e = some (s', o)) : Moves s s' (Undisturbed s e) := by
  cases Server.stepped_of_step h with
  | opened => exact moves_opened s
  | received hc => exact moves_handle hk hc _ _
  | written hc => exact moves_keep hc (by simp) (by simp) rfl fun v hv => hv
  | writeFailed hc =>
    refine (moves_release hc (.inl rfl) (fun v hv => hv)).congr ?_
    constructor
    · exact fun hfree v hv => hfree v ((holds_iff hv v).mpr ⟨by simp, rfl⟩)
    · intro hfree v hv
      obtain ⟨_, hname⟩ := (holds_iff hc v).mp hv
      exact hfree v (hname ▸ hc)
  | eof hc => exact moves_disconnect hc
  | readError hc => exact moves_disconnect hc
  | streamMapped => exact Move.keep (fun v hv => (mapStreamToUser_online s.users _ _ v).mp hv) fun _ _ => Iff.rfl

end steps

end RoomRtc
