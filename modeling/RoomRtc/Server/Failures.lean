import RoomRtc.Server.Statuses

/-! What a refused operation leaves behind. Five of the seven operations check everything before
they write. `signup_user` inserts the account before it appends it to the users file, and
`logout_user` sets the user offline before it looks for the stream it has to close. -/
namespace RoomRtc
open OperatingServer
set_option autoImplicit false

/-! ## Operations -/

/-- How `stream.lock()` goes: another connection may have panicked while it held the stream. -/
inductive StreamLock where
  | free
  | poisoned
deriving DecidableEq, Repr

/-- What `logout_user` does when the stream of the user can not be locked. -/
def OperatingServer.logoutUserPoisoned {Sdp : Type} (s : OperatingServer) (username : Str) : Outcome Sdp :=
  match s.users.lookup username with
  | none => s.refuse (.logoutError ("User ".toList ++ username ++ " not found".toList))
  | some data =>
    let users := s.users.insert username (data.updateStatus .offline)
    { server := { s with users }
      response := match data.serverClientStream with
        | none => .error "User not found".toList
        | some _ => .error "poisoned lock: another task failed inside".toList
      pushed := [] }

/-- An operation with its arguments and with how the file or the stream behaves. -/
inductive Operation (Sdp : Type) where
  | loginUser (username password : Str)
  | signupUser (username password : Str) (disk : DiskWrite)
  | logoutUser (username : Str) (lock : StreamLock)
  | callRequest (fromUsr toUsr : Str) (offerSdp : Sdp)
  | callAccept (fromUsr toUsr : Str) (sdpAnswer : Sdp)
  | callReject (fromUsr toUsr : Str)
  | callHangup (user : Str)

section operations
variable {Sdp : Type}

def OperatingServer.perform (s : OperatingServer) : Operation Sdp → Outcome Sdp
  | .loginUser username password => s.loginUser username password
  | .signupUser username password disk => s.signupUser username password disk
  | .logoutUser username .free => s.logoutUser username
  | .logoutUser username .poisoned => s.logoutUserPoisoned username
  | .callRequest fromUsr toUsr offerSdp => s.callRequest fromUsr toUsr offerSdp
  | .callAccept fromUsr toUsr sdpAnswer => s.callAccept fromUsr toUsr sdpAnswer
  | .callReject fromUsr toUsr => s.callReject fromUsr toUsr
  | .callHangup user => s.callHangup user

/-- The response is the operation's `Ok` variant. -/
def Operation.Succeeded : Operation Sdp → ServerResponse → Prop
  | .loginUser .., response => ∃ token address users, response = .loginOk token address users
  | .signupUser .., response => response = .signupOk
  | .logoutUser .., response => response = .logoutOk
  | .callRequest .., response => response = .callRequestOk
  | .callAccept .., response => response = .callAcceptOk
  | .callReject .., response => response = .callRejectOk
  | .callHangup .., response => response = .callHangUpOk

/-- The same accounts with the same passwords, statuses and streams, and the same user on the
connection. -/
structure Unchanged (s s' : OperatingServer) : Prop where
  users : ∀ name, s'.users.lookup name = s.users.lookup name
  username : s'.username = s.username

theorem Unchanged.refl (s : OperatingServer) : Unchanged s s := ⟨fun _ => rfl, rfl⟩

/-- The operation does not come to its error exit behind a write: the file takes the account, or no
account is written; the user has a stream that can be locked, or is offline already. -/
def CleanExit (s : OperatingServer) : Operation Sdp → Prop
  | .signupUser username password disk =>
    disk = .done ∨ ¬(Admitted username ∧ Admitted password ∧ s.users.lookup username = none)
  | .logoutUser username lock => ∀ data, s.users.lookup username = some data →
    data.status = .offline ∨ (data.serverClientStream.isSome ∧ lock = .free)
  | _ => True

/-! ## Checks before writes -/

variable (s : OperatingServer)

theorem login_failure {username password : Str}
    (h : ¬(Operation.loginUser username password : Operation Sdp).Succeeded
      (s.loginUser username password : Outcome Sdp).response) :
    Unchanged s (s.loginUser username password : Outcome Sdp).server := by
  by_cases hlogs : LogsIn s.users username password
  · rw [login_granted Sdp s hlogs] at h
    exact absurd ⟨_, _, _, rfl⟩ h
  · obtain ⟨text, hr⟩ := login_denied Sdp s hlogs
    rw [hr]
    exact .refl s

theorem callRequest_failure {fromUsr toUsr : Str} (offerSdp : Sdp)
    (h : (s.callRequest fromUsr toUsr offerSdp).response ≠ .callRequestOk) :
    Unchanged s (s.callRequest fromUsr toUsr offerSdp).server := by
  by_cases hrings : Rings s.users fromUsr toUsr
  · obtain ⟨hstream, hfrom, hto⟩ := hrings
    obtain ⟨stream, hs⟩ := getStreamFromUser_ok.mpr hstream
    obtain ⟨fromData, hfromLook, hfromSt⟩ := statusOf_eq_some.mp hfrom
    obtain ⟨toData, htoLook, htoSt⟩ := statusOf_eq_some.mp hto
    refine absurd ?_ h
    simp [callRequest, hs, getUserData_some hfromLook, getUserData_some htoLook, hfromSt, htoSt]
  · obtain ⟨response, hr, _⟩ := callRequest_denied s offerSdp hrings
    rw [hr]
    exact .refl s

variable (Sdp) in
theorem callReject_failure {fromUsr toUsr : Str}
    (h : (s.callReject fromUsr toUsr : Outcome Sdp).response ≠ .callRejectOk) :
    Unchanged s (s.callReject fromUsr toUsr : Outcome Sdp).server := by
  by_cases hdeclines : Declines s.users fromUsr toUsr
  · obtain ⟨hstream, hfrom, hto⟩ := hdeclines
    obtain ⟨stream, hs⟩ := getStreamFromUser_ok.mpr hstream
    obtain ⟨fromData, hfromLook, hfromSt⟩ := statusOf_eq_some.mp hfrom
    obtain ⟨toData, htoLook, htoSt⟩ := statusOf_eq_some.mp hto
    refine absurd ?_ h
    simp [callReject, hs, getUserData_some hfromLook, getUserData_some htoLook, hfromSt, htoSt]
  · obtain ⟨response, hr⟩ := callReject_denied Sdp s hdeclines
    rw [hr]
    exact .refl s

variable (Sdp) in
theorem callHangup_failure {user : Str} (h : (s.callHangup user : Outcome Sdp).response ≠ .callHangUpOk) :
    Unchanged s (s.callHangup user : Outcome Sdp).server := by
  by_cases hcall : InCall s.users user
  · rw [callHangup_granted Sdp s hcall] at h
    exact absurd rfl h
  · obtain ⟨response, hr⟩ := callHangup_denied Sdp s hcall
    rw [hr]
    exact .refl s

/-! ## Writes before checks -/

variable (Sdp) in
theorem signup_response {username password : Str} (hu : Admitted username) (hp : Admitted password)
    (hnew : s.users.lookup username = none) (disk : DiskWrite) :
    (s.signupUser username password disk : Outcome Sdp).response = .signupOk ↔ disk = .done := by
  unfold Admitted at hu hp
  cases disk with
  | done => simp [signupUser, hu, hp, hnew, loadUserDataInDisk]
  | openFailed => simp [signupUser, hu, hp, hnew, loadUserDataInDisk]
  | writeFailed written => simp [signupUser, hu, hp, hnew, loadUserDataInDisk]

/-- An account that could not be written to the file is in the table all the same. -/
theorem signup_failure_iff (username password : Str) (disk : DiskWrite) :
    ((s.signupUser username password disk : Outcome Sdp).response ≠ .signupOk →
        Unchanged s (s.signupUser username password disk : Outcome Sdp).server) ↔
      CleanExit s (.signupUser username password disk : Operation Sdp) := by
  unfold CleanExit
  by_cases hacts : Admitted username ∧ Admitted password ∧ s.users.lookup username = none
  · obtain ⟨hu, hp, hnew⟩ := hacts
    have hresponse := signup_response Sdp s hu hp hnew disk
    have hserver := signup_granted Sdp s hu hp hnew disk
    constructor
    · intro h
      by_contra hbad
      have hfail : (s.signupUser username password disk : Outcome Sdp).response ≠ .signupOk :=
        fun hok => hbad (Or.inl (hresponse.mp hok))
      have hsame := (h hfail).users username
      rw [hserver.1, hnew, AList.lookup_insert] at hsame
      cases hsame
    · intro h hfail
      rcases h with hdone | hnot
      · exact absurd (hresponse.mpr hdone) hfail
      · exact absurd ⟨hu, hp, hnew⟩ hnot
  · obtain ⟨response, hr⟩ := signup_denied Sdp s hacts disk
    rw [hr]
    exact ⟨fun _ => Or.inr hacts, fun _ _ => .refl s⟩

theorem offline_unchanged_iff {username : Str} {data : UserData} (h : s.users.lookup username = some data) :
    Unchanged s { s with users := s.users.insert username (data.updateStatus .offline) } ↔
      data.status = .offline := by
  constructor
  · intro hsame
    have hentry := hsame.users username
    rw [h, AList.lookup_insert, Option.some.injEq] at hentry
    rw [← hentry]
    rfl
  · intro hoff
    have hdata : data.updateStatus .offline = data := by
      rw [UserData.updateStatus, ← hoff]
    refine ⟨fun name => ?_, rfl⟩
    dsimp only
    rw [hdata]
    by_cases hname : name = username
    · rw [hname, AList.lookup_insert, h]
    · exact AList.lookup_insert_ne hname

theorem logout_failure_iff (username : Str) (lock : StreamLock) :
    ((s.perform (.logoutUser username lock : Operation Sdp)).response ≠ .logoutOk →
        Unchanged s (s.perform (.logoutUser username lock : Operation Sdp)).server) ↔
      CleanExit s (.logoutUser username lock : Operation Sdp) := by
  have hclean : CleanExit s (.logoutUser username lock : Operation Sdp) ↔
      ∀ data, s.users.lookup username = some data →
        data.status = .offline ∨ (data.serverClientStream.isSome ∧ lock = .free) := Iff.rfl
  rw [hclean]
  cases hlook : s.users.lookup username with
  | none =>
    refine ⟨fun _ => nofun, fun _ _ => ?_⟩
    cases lock with
    | free => simpa [perform, logoutUser, hlook] using Unchanged.refl s
    | poisoned => simpa [perform, logoutUserPoisoned, hlook] using Unchanged.refl s
  | some data =>
    simp only [Option.some.injEq, forall_eq']
    cases hstream : data.serverClientStream with
    | none =>
      cases lock with
      | free => simp [perform, logoutUser, hlook, hstream, offline_unchanged_iff s hlook]
      | poisoned => simp [perform, logoutUserPoisoned, hlook, hstream, offline_unchanged_iff s hlook]
    | some stream =>
      cases lock with
      | free => simp [perform, logoutUser, hlook, hstream]
      | poisoned => simp [perform, logoutUserPoisoned, hlook, hstream, offline_unchanged_iff s hlook]

/-- **Failed operations change nothing** exactly when they have a clean exit. -/
theorem failed_unchanged_iff (operation : Operation Sdp) :
    (¬operation.Succeeded (s.perform operation).response → Unchanged s (s.perform operation).server) ↔
      CleanExit s operation := by
  cases operation with
  | signupUser username password disk => exact signup_failure_iff s username password disk
  | logoutUser username lock => exact logout_failure_iff s username lock
  | loginUser username password => exact ⟨fun _ => trivial, fun _ => login_failure s⟩
  | callRequest fromUsr toUsr offerSdp => exact ⟨fun _ => trivial, fun _ => callRequest_failure s offerSdp⟩
  | callReject fromUsr toUsr => exact ⟨fun _ => trivial, fun _ => callReject_failure Sdp s⟩
  | callHangup user => exact ⟨fun _ => trivial, fun _ => callHangup_failure Sdp s⟩
  | callAccept fromUsr toUsr sdpAnswer =>
    refine ⟨fun _ => trivial, fun _ _ => ?_⟩
    rw [perform, callAccept_server]
    exact .refl s

/-- Alice is logged in and has not opened her push connection yet. Her logout is answered with an
error and leaves her offline. -/
theorem logout_half_applied :
    ∃ (s : OperatingServer) (operation : Operation Unit),
      ¬operation.Succeeded (s.perform operation).response ∧
      statusOf s.users "alice".toList = some .available ∧
      statusOf (s.perform operation).server.users "alice".toList = some .offline ∧
      ¬Unchanged s (s.perform operation).server := by
  refine ⟨⟨(∅ : Users).insert "alice".toList ⟨"alice".toList, "1234".toList, .available, none⟩,
    ⟨127, 0, 0, 1, 8080⟩, [], some "alice".toList⟩, .logoutUser "alice".toList .free, ?_,
      by decide, by decide, ?_⟩
  · intro h
    cases h
  · intro h
    have hentry := congrArg (Option.map UserData.status) (h.users "alice".toList)
    revert hentry
    decide

end operations
end RoomRtc
