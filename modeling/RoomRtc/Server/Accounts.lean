import RoomRtc.Server.Calls

/-! Accounts over whole runs of the server. Several operations write back a whole record with
a new status; none of them drops a record or changes a password, and the only step that brings
a user online is a login with the password of the record. -/
namespace RoomRtc
open OperatingServer UserHandler
set_option autoImplicit false

/-! ## Passwords -/

/-- Every account of the first table is in the second one, with the same password. -/
def KeepsAccounts (users users' : Users) : Prop :=
  ∀ u data, users.lookup u = some data → ∃ data', users'.lookup u = some data' ∧ data'.password = data.password

theorem KeepsAccounts.refl (users : Users) : KeepsAccounts users users :=
  fun _ data h => ⟨data, h, rfl⟩

theorem KeepsAccounts.trans {users users' users'' : Users} (h : KeepsAccounts users users')
    (h' : KeepsAccounts users' users'') : KeepsAccounts users users'' := by
  intro u data hlook
  obtain ⟨data', hlook', hpw⟩ := h u data hlook
  obtain ⟨data'', hlook'', hpw'⟩ := h' u data' hlook'
  exact ⟨data'', hlook'', hpw'.trans hpw⟩

theorem keepsAccounts_setStatus (users : Users) (username : Str) (status : UserStatus) :
    KeepsAccounts users (setStatus users username status) := by
  intro u data hlook
  rw [lookup_setStatus, hlook]
  split
  · exact ⟨data.updateStatus status, rfl, rfl⟩
  · exact ⟨data, rfl, rfl⟩

theorem keepsAccounts_setPair (users : Users) (fromUsr toUsr : Str) (fromStatus toStatus : UserStatus) :
    KeepsAccounts users (setPair users fromUsr toUsr fromStatus toStatus) :=
  (keepsAccounts_setStatus users toUsr toStatus).trans (keepsAccounts_setStatus _ fromUsr fromStatus)

theorem keepsAccounts_insert_new {users : Users} {username : Str} (hnew : users.lookup username = none)
    (data : UserData) : KeepsAccounts users (users.insert username data) := by
  intro u data' hlook
  have hu : u ≠ username := by
    rintro rfl
    cases hnew.symm.trans hlook
  exact ⟨data', (AList.lookup_insert_ne hu).trans hlook, rfl⟩

theorem keepsAccounts_mapStreamToUser (users : Users) (username : Str) (stream : StreamId) :
    KeepsAccounts users (mapStreamToUser users username stream) := by
  unfold mapStreamToUser
  split
  · exact .refl users
  · next data hlook =>
    intro u data' hlook'
    by_cases hu : u = username
    · subst hu
      cases hlook.symm.trans hlook'
      exact ⟨_, AList.lookup_insert _, rfl⟩
    · exact ⟨data', (AList.lookup_insert_ne hu).trans hlook', rfl⟩

section steps
variable {Sdp : Type}

theorem keepsAccounts_message {users : Users} {event : ClientMessage Sdp} (ha : Acts users event) :
    KeepsAccounts users (tableAfter users event) := by
  cases event with
  | hello => exact ha.elim
  | logIn username password => exact keepsAccounts_setStatus users username _
  | signUp username password => exact keepsAccounts_insert_new ha.2.2 _
  | logOut token => exact keepsAccounts_setStatus users token _
  | callRequest token offerSdp toUsr => exact keepsAccounts_setPair users token toUsr _ _
  | callAccept fromUsr toUsr sdpAnswer => exact ha.elim
  | callReject fromUsr toUsr => exact keepsAccounts_setPair users fromUsr toUsr _ _
  | callHangup token => exact keepsAccounts_setStatus users token _

theorem keepsAccounts_step {s s' : Server} {e : ServerEvent Sdp} {o : ServerOutput Sdp} (hk : KeyedByName s.users)
    (hstep : s.step e = some (s', o)) : KeepsAccounts s.users s'.users := by
  generalize htable : s'.users = users'
  have ht := tableStep_of_step hk hstep
  rw [htable] at ht
  cases ht with
  | acts hc ha => exact keepsAccounts_message ha
  | left he hc => exact keepsAccounts_setStatus s.users _ _
  | mapped => exact keepsAccounts_mapStreamToUser s.users _ _
  | _ => exact .refl s.users

/-! ## Coming online -/

theorem online_setStatus {users : Users} {username : Str} {status : UserStatus} {u : Str}
    (h : Online (setStatus users username status) u) :
    Online users u ∨ (u = username ∧ statusOf users u ≠ none ∧ status ≠ .offline) := by
  obtain ⟨new, hst, hon⟩ := online_iff_statusOf.mp h
  rw [statusOf_setStatus] at hst
  split at hst
  · next hu =>
    obtain ⟨old, hold, rfl⟩ := Option.map_eq_some_iff.mp hst
    exact .inr ⟨hu, by simp [hold], hon⟩
  · exact .inl (online_iff_statusOf.mpr ⟨new, hst, hon⟩)

/-- Users whose statuses are written while both are online do not come online. -/
theorem online_setPair {users : Users} {fromUsr toUsr : Str} {fromStatus toStatus : UserStatus} {u : Str}
    (hfrom : Online users fromUsr) (hto : Online users toUsr)
    (h : Online (setPair users fromUsr toUsr fromStatus toStatus) u) : Online users u := by
  rcases online_setStatus h with h | ⟨rfl, _⟩
  · rcases online_setStatus h with h | ⟨rfl, _⟩
    · exact h
    · exact hto
  · exact hfrom

theorem online_of_status {users : Users} {u : Str} {status : UserStatus} (h : statusOf users u = some status)
    (hon : status ≠ .offline) : Online users u :=
  online_iff_statusOf.mpr ⟨status, h, hon⟩

theorem comes_online_message {users : Users} {event : ClientMessage Sdp} (ha : Acts users event) {u : Str}
    (hoff : ¬Online users u) (hon : Online (tableAfter users event) u) :
    ∃ password, event = .logIn u password ∧ LogsIn users u password := by
  cases event with
  | hello => exact ha.elim
  | logIn username password =>
    rcases online_setStatus hon with h | ⟨rfl, _⟩
    · exact absurd h hoff
    · exact ⟨password, rfl, ha⟩
  | signUp username password =>
    exfalso
    by_cases hu : u = username
    · subst hu
      exact (online_insert_self users u _).mp hon rfl
    · exact hoff ((online_insert_ne users _ hu).mp hon)
  | logOut token =>
    rcases online_setStatus hon with h | ⟨_, _, h⟩
    · exact absurd h hoff
    · exact absurd rfl h
  | callRequest token offerSdp toUsr =>
    exact absurd (online_setPair (online_of_status ha.2.1 (by simp)) (online_of_status ha.2.2 (by simp)) hon) hoff
  | callAccept fromUsr toUsr sdpAnswer => exact ha.elim
  | callReject fromUsr toUsr =>
    exact absurd (online_setPair (online_of_status ha.2.1 (by simp)) (online_of_status ha.2.2 (by simp)) hon) hoff
  | callHangup token =>
    obtain ⟨peer, hst⟩ := ha
    rcases online_setStatus hon with h | ⟨rfl, _⟩
    · exact absurd h hoff
    · exact absurd (online_of_status hst (by simp)) hoff

/-- The only step that brings a user online is a login with the right password. -/
theorem comes_online_step {s s' : Server} {e : ServerEvent Sdp} {o : ServerOutput Sdp} (hk : KeyedByName s.users)
    (hstep : s.step e = some (s', o)) {u : Str} (hoff : ¬Online s.users u) (hon : Online s'.users u) :
    ∃ conn password disk, e = .received conn (some (.logIn u password)) disk ∧ LogsIn s.users u password := by
  generalize htable : s'.users = users' at hon
  have ht := tableStep_of_step hk hstep
  rw [htable] at ht
  cases ht with
  | @acts conn name event disk hc ha =>
    obtain ⟨password, rfl, hl⟩ := comes_online_message ha hoff hon
    exact ⟨conn, password, disk, rfl, hl⟩
  | left he hc =>
    rcases online_setStatus hon with h | ⟨_, _, h⟩
    · exact absurd h hoff
    · exact absurd rfl h
  | mapped => exact absurd ((mapStreamToUser_online s.users _ _ u).mp hon) hoff
  | _ => exact absurd hon hoff

theorem login_answered {s s' : Server} {conn : ℕ} {u password : Str} {disk : DiskWrite} {o : ServerOutput Sdp}
    (hl : LogsIn s.users u password)
    (hstep : s.step (.received conn (some (.logIn u password)) disk) = some (s', o)) :
    ∃ address statuses, o.response = some (.loginOk u address statuses) := by
  simp only [Server.step] at hstep
  split at hstep
  · next name hc =>
    cases hstep
    exact ⟨_, _, congrArg (some ·.response) (login_granted Sdp (s.view name) hl)⟩
  · cases hstep

/-! ## Runs -/

theorem keepsAccounts_run {s t : Server} {events : List (ServerEvent Sdp)} {os : List (ServerOutput Sdp)}
    (hk : KeyedByName s.users) (hr : (serverMachine Sdp).run s events = some (t, os)) :
    KeepsAccounts s.users t.users := by
  have key := (serverMachine Sdp).run_invariant (G := fun _ _ => True)
    (fun r => KeyedByName r.users ∧ KeepsAccounts s.users r.users)
    (fun r e r' o h _ hstep => ⟨keyed_step h.1 hstep, h.2.trans (keepsAccounts_step h.1 hstep)⟩)
    ⟨hk, .refl s.users⟩ ((serverMachine Sdp).guarded_of_forall fun _ _ _ => trivial) hr
  exact key.2

/-- Some login of the run, answered with `LoginOk` and carrying the stored password, brought
the user online, and the user has been online since. -/
def LoggedInSince (s₀ : Server) (events : List (ServerEvent Sdp)) (u : Str) : Prop :=
  ∃ before conn password disk after s s' o os,
    events = before ++ .received conn (some (.logIn u password)) disk :: after ∧
    (serverMachine Sdp).run s₀ before = some (s, os) ∧
    (serverMachine Sdp).step s (.received conn (some (.logIn u password)) disk) = some (s', o) ∧
    (∃ address statuses, o.response = some (.loginOk u address statuses)) ∧
    (∃ data, s.users.lookup u = some data ∧ data.password = password) ∧
    Online s'.users u ∧ (serverMachine Sdp).Throughout (fun _ _ r => Online r.users u) s' after

theorem keyed_run {s t : Server} {events : List (ServerEvent Sdp)} {os : List (ServerOutput Sdp)}
    (hk : KeyedByName s.users) (hr : (serverMachine Sdp).run s events = some (t, os)) : KeyedByName t.users :=
  (serverMachine Sdp).run_invariant (G := fun _ _ => True) (fun r => KeyedByName r.users)
    (fun _ _ _ _ h _ hstep => keyed_step h hstep) hk
    ((serverMachine Sdp).guarded_of_forall fun _ _ _ => trivial) hr

/-- **Only a correct password brings a user online.** In every run of the server from a loaded
table, no account is lost and no password changes between any two of its states, and whoever
is available or occupied has logged in with the stored password and not been offline since. -/
theorem only_password_brings_online (address : SocketAddr) (file : Bytes) {events : List (ServerEvent Sdp)}
    {t : Server} {os : List (ServerOutput Sdp)}
    (hr : (serverMachine Sdp).run (Server.start address file) events = some (t, os)) :
    (∀ before after s os', events = before ++ after →
      (serverMachine Sdp).run (Server.start address file) before = some (s, os') → KeepsAccounts s.users t.users) ∧
    ∀ u, Online t.users u → LoggedInSince (Server.start address file) events u := by
  constructor
  · rintro before after s os' rfl hbefore
    obtain ⟨s₁, os₁, os₂, hs₁, hafter, _⟩ := (serverMachine Sdp).run_append_some hr
    cases hbefore.symm.trans hs₁
    exact keepsAccounts_run (keyed_run (keyed_load file) hbefore) hafter
  · intro u hon
    obtain ⟨before, e, after, s, s', o, os₁, os₂, he, hbefore, hk, hoff, hstep, hon', hsince, _⟩ :=
      (serverMachine Sdp).exists_since (fun r => KeyedByName r.users) (fun r => Online r.users u)
        (fun _ _ _ _ h hstep => keyed_step h hstep) (keyed_load file) (not_online_load file u) hr hon
    obtain ⟨conn, password, disk, rfl, hl⟩ := comes_online_step hk hstep hoff hon'
    have hanswer := login_answered hl hstep
    obtain ⟨data, hlook, hpw, _⟩ := hl
    exact ⟨before, conn, password, disk, after, s, s', o, os₁, he, hbefore, hstep, hanswer,
      ⟨data, hlook, hpw⟩, hon', hsince⟩

end steps

/-- Both users of a call have logged in before. -/
theorem bob_in_call_logged_in : ∃ t os,
    (serverMachine Unit).run (Server.start ⟨127, 0, 0, 1, 8081⟩ []) aliceCallsBob = some (t, os) ∧
    statusOf t.users "bob".toList = some (.occupied "alice".toList) ∧
    LoggedInSince (Server.start ⟨127, 0, 0, 1, 8081⟩ []) aliceCallsBob "bob".toList := by
  have hrun : ((serverMachine Unit).run (Server.start ⟨127, 0, 0, 1, 8081⟩ []) aliceCallsBob).map
      (fun r => statusOf r.1.users "bob".toList) = some (some (.occupied "alice".toList)) := by
    decide +kernel
  obtain ⟨⟨t, os⟩, hr, hbob⟩ := Option.map_eq_some_iff.mp hrun
  refine ⟨t, os, hr, hbob, ?_⟩
  exact (only_password_brings_online ⟨127, 0, 0, 1, 8081⟩ [] hr).2 _ (online_of_status hbob (by simp))

end RoomRtc
