import RoomRtc.Foundations.Trace
import RoomRtc.Server.Accounts

/-! The stream a call rings on. A push stream is registered after the login, on a connection of its
own, and stays in the record of the user when the user logs out or disconnects. A request that finds
the callee available takes whatever stream the record holds. -/
namespace RoomRtc
open OperatingServer UserHandler
set_option autoImplicit false

section ringing
variable {Sdp : Type}

/-! ## Histories of the server -/

abbrev ServerTaken (Sdp : Type) := Taken Server (ServerEvent Sdp) (ServerOutput Sdp)

/-- A step that answers a login of this user with `LoginOk`, which names the user as its token. -/
def answersLogin (username : Str) (x : ServerTaken Sdp) : Bool :=
  match x.output.response with
  | some (.loginOk token _ _) => token = username
  | _ => false

/-- The stream a step registers for this user. -/
def registeredBy (username : Str) : ServerEvent Sdp → Option StreamId
  | .streamMapped name stream => if name = username then some stream else none
  | _ => none

/-- A request that is answered `CallRequestOk` writes `CallIncoming` on one stream, which was
registered for the callee after its last login. -/
def RungAfresh (past : List (ServerTaken Sdp)) (x : ServerTaken Sdp) : Prop :=
  ∀ conn fromUsr offerSdp toUsr disk,
    x.input = .received conn (some (.callRequest fromUsr offerSdp toUsr)) disk →
    x.output.response = some .callRequestOk →
    ∃ stream, (∀ k, (k, .callIncoming fromUsr offerSdp) ∈ x.output.pushed ↔ k = stream) ∧
      (lastOf (answersLogin toUsr) past).isSome ∧
      ∃ r ∈ since (answersLogin toUsr) past, r.input = .streamMapped toUsr stream

/-- The last login of the user found a stream in its record, and the user has not registered one
since. -/
def HeldOver (past : List (ServerTaken Sdp)) (username : Str) : Prop :=
  ∃ login, lastOf (answersLogin username) past = some login ∧ HasStream login.state.users username ∧
    ∀ r ∈ since (answersLogin username) past, ∀ stream, r.input ≠ .streamMapped username stream

/-- No request goes through to a user whose stream is held over. -/
def RingsRegistered (past : List (ServerTaken Sdp)) (x : ServerTaken Sdp) : Prop :=
  ∀ conn fromUsr offerSdp toUsr disk,
    x.input = .received conn (some (.callRequest fromUsr offerSdp toUsr)) disk →
    Rings x.state.users fromUsr toUsr → ¬HeldOver past toUsr

/-! ## One step -/

variable {s s' : Server} {e : ServerEvent Sdp} {o : ServerOutput Sdp}

theorem login_of_loginOk (op : OperatingServer) {event : ClientMessage Sdp} {disk : DiskWrite} {token : Str}
    {address : SocketAddr} {statuses : StatusMap}
    (h : (handleClientMessage op event disk).response = .loginOk token address statuses) :
    ∃ password, event = .logIn token password ∧ LogsIn op.users token password := by
  cases event
  case logIn username password =>
    change (op.loginUser username password : Outcome Sdp).response = _ at h
    by_cases hl : LogsIn op.users username password
    · rw [login_granted Sdp op hl] at h
      cases h
      exact ⟨password, rfl, hl⟩
    · obtain ⟨text, hdenied⟩ := login_denied Sdp op hl
      rw [hdenied] at h
      cases h
  -- no other operation has `LoginOk` among its responses
  all_goals
    simp only [handleClientMessage, signupUser, logoutUser, callRequest, callAccept, callReject, callHangup] at h
    repeat' split at h
    all_goals cases h

theorem handled_of_response {response : ServerResponse} (hstep : s.step e = some (s', o))
    (h : o.response = some response) : ∃ conn name event disk, e = .received conn event disk ∧
      s.conns[conn]? = some ⟨.reading, name⟩ ∧ s.handle conn name event disk = (s', o) := by
  cases e with
  | received conn event disk =>
    simp only [Server.step] at hstep
    split at hstep
    · next name hc => exact ⟨conn, name, event, disk, rfl, hc, Option.some.inj hstep⟩
    · cases hstep
  | opened =>
    cases hstep
    cases h
  | written conn | writeFailed conn =>
    simp only [Server.step] at hstep
    split at hstep <;> cases hstep
    cases h
  | eof conn | readError conn =>
    simp only [Server.step, Server.disconnect] at hstep
    repeat' split at hstep
    all_goals cases hstep
    all_goals cases h
  | streamMapped username stream =>
    cases hstep
    cases h

theorem login_of_answersLogin {username : Str} (hstep : s.step e = some (s', o))
    (h : answersLogin username (⟨s, e, o⟩ : ServerTaken Sdp) = true) :
    ∃ conn password disk, e = .received conn (some (.logIn username password)) disk ∧
      LogsIn s.users username password := by
  unfold answersLogin at h
  dsimp only at h
  split at h
  · next token address statuses hresponse =>
    obtain rfl : token = username := of_decide_eq_true h
    obtain ⟨conn, name, event, disk, rfl, _, hhandle⟩ := handled_of_response hstep hresponse
    obtain ⟨rfl, rfl⟩ := Prod.mk.inj hhandle
    cases event with
    | none => cases hresponse
    | some event =>
      obtain ⟨password, rfl, hl⟩ := login_of_loginOk (s.view name) (Option.some.inj hresponse)
      exact ⟨conn, password, disk, rfl, hl⟩
  · cases h

/-- A registration is the only step that moves the stream of a user. -/
theorem streamOf_step (hk : KeyedByName s.users) (hstep : s.step e = some (s', o)) {username : Str}
    (hknown : (s.users.lookup username).isSome) :
    streamOf s'.users username = (registeredBy username e).or (streamOf s.users username) := by
  generalize htable : s'.users = users'
  have ht := tableStep_of_step hk hstep
  rw [htable] at ht
  cases ht with
  | acts hc ha => exact streamOf_tableAfter ha username
  | left he hc =>
    obtain rfl | rfl := he <;> exact streamOf_setStatus ..
  | leftUnnamed he hc =>
    obtain rfl | rfl := he <;> rfl
  | @mapped name stream =>
    rw [streamOf_mapStreamToUser, registeredBy]
    by_cases hname : name = username
    · subst hname
      simp [hknown]
    · simp [hname, Ne.symm hname]
  | _ => rfl

/-! ## Where a stream comes from -/

/-- The last stream the user registered since its last login. -/
def registeredSince (past : List (ServerTaken Sdp)) (username : Str) : Option StreamId :=
  ((since (answersLogin username) past).filterMap fun r => registeredBy username r.input).getLast?

/-- Who is online has logged in, and holds the last stream it registered since then, or else the one
its login found. -/
structure Remembered (past : List (ServerTaken Sdp)) (s : Server) : Prop where
  keyed : KeyedByName s.users
  loggedIn : ∀ u, Online s.users u → (lastOf (answersLogin u) past).isSome
  known : ∀ u login, lastOf (answersLogin u) past = some login → (s.users.lookup u).isSome
  stream : ∀ u login, lastOf (answersLogin u) past = some login →
    streamOf s.users u = (registeredSince past u).or (streamOf login.state.users u)

theorem remembered_start (address : SocketAddr) (file : Bytes) :
    Remembered ([] : List (ServerTaken Sdp)) (Server.start address file) := by
  constructor
  · exact keyed_load file
  · intro u hon
    exact absurd hon (not_online_load file u)
  · intro u login hlast
    cases hlast
  · intro u login hlast
    cases hlast

theorem known_step (hk : KeyedByName s.users) (hstep : s.step e = some (s', o)) {u : Str}
    (h : (s.users.lookup u).isSome) : (s'.users.lookup u).isSome := by
  obtain ⟨data, hlook⟩ := Option.isSome_iff_exists.mp h
  obtain ⟨data', hlook', _⟩ := keepsAccounts_step hk hstep u data hlook
  exact Option.isSome_iff_exists.mpr ⟨data', hlook'⟩

/-- A login puts its user at the end of the history, with the stream it found. -/
theorem remembered_login {past : List (ServerTaken Sdp)} {u : Str} (hk : KeyedByName s.users)
    (hstep : s.step e = some (s', o)) (h : answersLogin u (⟨s, e, o⟩ : ServerTaken Sdp) = true) :
    (s'.users.lookup u).isSome ∧
      streamOf s'.users u = (registeredSince (past ++ [⟨s, e, o⟩]) u).or (streamOf s.users u) := by
  obtain ⟨conn, password, disk, rfl, data, hlook, _⟩ := login_of_answersLogin hstep h
  have hknown : (s.users.lookup u).isSome := Option.isSome_iff_exists.mpr ⟨data, hlook⟩
  refine ⟨known_step hk hstep hknown, ?_⟩
  rw [streamOf_step hk hstep hknown, registeredSince, since_concat_self h]
  rfl

theorem registeredSince_concat {past : List (ServerTaken Sdp)} {u : Str} {x : ServerTaken Sdp}
    (h : answersLogin u x = false) :
    registeredSince (past ++ [x]) u = (registeredBy u x.input).or (registeredSince past u) := by
  rw [registeredSince, since_concat_other h, List.filterMap_append, List.getLast?_append]
  cases hx : registeredBy u x.input with
  | none => simp [hx, registeredSince]
  | some stream => simp [hx]

theorem remembered_step {past : List (ServerTaken Sdp)} (h : Remembered past s) (hstep : s.step e = some (s', o)) :
    Remembered (past ++ [⟨s, e, o⟩]) s' := by
  have hk := h.keyed
  constructor
  · exact keyed_step hk hstep
  · intro u hon
    cases hlogin : answersLogin u (⟨s, e, o⟩ : ServerTaken Sdp) with
    | true =>
      rw [lastOf_concat_self hlogin]
      rfl
    | false =>
      rw [lastOf_concat_other hlogin]
      apply h.loggedIn u
      -- nobody comes online but by a login that is answered
      by_contra hoff
      obtain ⟨conn, password, disk, rfl, hl⟩ := comes_online_step hk hstep hoff hon
      obtain ⟨address, statuses, hresponse⟩ := login_answered hl hstep
      simp [answersLogin, hresponse] at hlogin
  · intro u login hlast
    cases hlogin : answersLogin u (⟨s, e, o⟩ : ServerTaken Sdp) with
    | true => exact (@remembered_login Sdp s s' e o past u hk hstep hlogin).1
    | false =>
      rw [lastOf_concat_other hlogin] at hlast
      exact known_step hk hstep (h.known u login hlast)
  · intro u login hlast
    cases hlogin : answersLogin u (⟨s, e, o⟩ : ServerTaken Sdp) with
    | true =>
      rw [lastOf_concat_self hlogin] at hlast
      cases hlast
      exact (remembered_login hk hstep hlogin).2
    | false =>
      rw [lastOf_concat_other hlogin] at hlast
      rw [streamOf_step hk hstep (h.known u login hlast), registeredSince_concat hlogin, h.stream u login hlast,
        Option.or_assoc]

theorem registeredSince_eq_none {past : List (ServerTaken Sdp)} {u : Str} : registeredSince past u = none ↔
    ∀ r ∈ since (answersLogin u) past, ∀ stream, r.input ≠ .streamMapped u stream := by
  rw [registeredSince, List.getLast?_eq_none_iff, List.filterMap_eq_nil_iff]
  refine forall₂_congr fun r _ => ?_
  unfold registeredBy
  split
  · next name stream hinput =>
    rw [hinput]
    simp
  · next hother =>
    simp only [true_iff]
    exact hother u

theorem mem_of_registeredSince {past : List (ServerTaken Sdp)} {u : Str} {stream : StreamId}
    (h : registeredSince past u = some stream) :
    ∃ r ∈ since (answersLogin u) past, r.input = .streamMapped u stream := by
  obtain ⟨r, hr, hby⟩ := List.mem_filterMap.mp (List.mem_of_getLast? h)
  refine ⟨r, hr, ?_⟩
  unfold registeredBy at hby
  split at hby
  · next name k hinput =>
    split at hby
    · next hname =>
      cases hby
      rw [hinput, hname]
    · cases hby
  · cases hby

/-! ## Whole runs -/

theorem callIncoming_not_mem_notify {users : Users} {name fromUsr : Str} {status : UserStatus} {k : StreamId}
    {offerSdp : Sdp} (h : (k, .callIncoming fromUsr offerSdp) ∈ notifyStatusUpdate users name status) : False := by
  obtain ⟨entry, _, hentry⟩ := List.mem_filterMap.mp h
  split at hentry
  · cases hentry
  · obtain ⟨stream, _, hmessage⟩ := Option.map_eq_some_iff.mp hentry
    cases hmessage

/-- A request goes through just when its guards hold, and then rings on the stream of the callee's
record. -/
theorem request_answered {conn : ℕ} {fromUsr toUsr : Str} {offerSdp : Sdp} {disk : DiskWrite}
    (hk : KeyedByName s.users)
    (hstep : s.step (.received conn (some (.callRequest fromUsr offerSdp toUsr)) disk) = some (s', o)) :
    (o.response = some .callRequestOk ↔ Rings s.users fromUsr toUsr) ∧
      (Rings s.users fromUsr toUsr →
        ∀ k, (k, .callIncoming fromUsr offerSdp) ∈ o.pushed ↔ streamOf s.users toUsr = some k) := by
  simp only [Server.step] at hstep
  split at hstep
  · next name hc =>
    cases hstep
    show ((some ((s.view name).callRequest fromUsr toUsr offerSdp).response = _ ↔ _) ∧
      (_ → ∀ k, _ ∈ ((s.view name).callRequest fromUsr toUsr offerSdp).pushed ↔ _))
    by_cases hr : Rings s.users fromUsr toUsr
    · obtain ⟨stream, hs⟩ := getStreamFromUser_ok.mpr hr.1
      rw [callRequest_ringing (s.view name) hk offerSdp hs hr.2.1 hr.2.2, getStreamFromUser_eq_ok.mp hs]
      refine ⟨iff_of_true rfl hr, fun _ k => ?_⟩
      rw [List.mem_append, List.mem_append, List.mem_singleton, Prod.mk.injEq, Option.some.injEq]
      constructor
      · rintro ((h | h) | h)
        · cases callIncoming_not_mem_notify h
        · cases callIncoming_not_mem_notify h
        · exact h.1.symm
      · rintro rfl
        exact .inr ⟨rfl, rfl⟩
    · obtain ⟨response, hdenied, hne⟩ := callRequest_denied (s.view name) offerSdp hr
      rw [hdenied]
      exact ⟨iff_of_false (fun h => hne (Option.some.inj h)) hr, fun h => absurd h hr⟩
  · cases hstep

theorem rungAfresh_iff {past : List (ServerTaken Sdp)} {x : ServerTaken Sdp} (h : Remembered past x.state)
    (hstep : x.state.step x.input = some (s', x.output)) : RungAfresh past x ↔ RingsRegistered past x := by
  refine forall₅_congr fun conn fromUsr offerSdp toUsr disk => forall_congr' fun hinput => ?_
  rw [hinput] at hstep
  obtain ⟨hanswer, hstream⟩ := request_answered h.keyed hstep
  rw [hanswer]
  refine forall_congr' fun hrings => ?_
  obtain ⟨login, hlast⟩ := Option.isSome_iff_exists.mp (h.loggedIn toUsr (online_of_status hrings.2.2 (by simp)))
  have hheld := h.stream toUsr login hlast
  obtain ⟨stream, hrecord⟩ := hasStream_iff_streamOf.mp hrings.1
  constructor
  · rintro ⟨k, _, _, r, hr, hregistered⟩ ⟨_, _, _, hnone⟩
    exact hnone r hr k hregistered
  · intro hfresh
    cases hsince : registeredSince past toUsr with
    | none =>
      rw [hsince, Option.none_or, hrecord] at hheld
      refine absurd ⟨login, hlast, hasStream_iff_streamOf.mpr ⟨stream, hheld.symm⟩, ?_⟩ hfresh
      exact registeredSince_eq_none.mp hsince
    | some k =>
      rw [hsince, Option.some_or] at hheld
      refine ⟨k, fun k' => ?_, ?_, mem_of_registeredSince hsince⟩
      · rw [hstream hrings, hheld, Option.some.injEq, eq_comm]
      · rw [hlast]
        rfl

/-- **When `CallRequestOk` means that the callee could be rung.** In a run of the server every
request that is answered `CallRequestOk` rings on a stream the callee registered after its last
login, if and only if no request goes through to a callee whose last login found an old stream in
its record and who has not registered one since. -/
theorem rings_registered_iff (address : SocketAddr) (file : Bytes) (events : List (ServerEvent Sdp)) :
    AtEvery RungAfresh ((serverMachine Sdp).trace (Server.start address file) events) ↔
      AtEvery RingsRegistered ((serverMachine Sdp).trace (Server.start address file) events) :=
  (serverMachine Sdp).atEvery_trace_iff Remembered (fun _ _ _ _ _ h hstep => remembered_step h hstep)
    (fun _ _ _ h hstep => rungAfresh_iff h hstep) (remembered_start address file) events

end ringing

/-- Bob registers his stream, logs out and in again, and alice calls him before he has registered
the stream of his new session. -/
def bobComesBack : List (ServerEvent Unit) :=
  [.opened, .opened,
    .received 0 (some (.signUp "alice".toList "pw".toList)) .done, .written 0,
    .received 1 (some (.signUp "bob".toList "pw".toList)) .done, .written 1,
    .received 0 (some (.logIn "alice".toList "pw".toList)) .done, .written 0, .streamMapped "alice".toList 0,
    .received 1 (some (.logIn "bob".toList "pw".toList)) .done, .written 1, .streamMapped "bob".toList 1,
    .received 1 (some (.logOut "bob".toList)) .done, .written 1,
    .received 1 (some (.logIn "bob".toList "pw".toList)) .done, .written 1,
    .received 0 (some (.callRequest "alice".toList () "bob".toList)) .done]

/-- The request is answered `CallRequestOk` and rings on the stream of the session that is over. -/
theorem rings_on_old_stream :
    ¬AtEvery RungAfresh ((serverMachine Unit).trace (Server.start ⟨127, 0, 0, 1, 8081⟩ []) bobComesBack) := by
  intro h
  have hcall : (((serverMachine Unit).trace (Server.start ⟨127, 0, 0, 1, 8081⟩ []) bobComesBack)[16]?).map
      (fun x => x.output.response) = some (some .callRequestOk) := by
    decide +kernel
  have hnone : (since (answersLogin "bob".toList)
      (((serverMachine Unit).trace (Server.start ⟨127, 0, 0, 1, 8081⟩ []) bobComesBack).take 16)).all
        (fun r => (registeredBy "bob".toList r.input).isNone) = true := by
    decide +kernel
  obtain ⟨x, hx, hresponse⟩ := Option.map_eq_some_iff.mp hcall
  have hinput := (serverMachine Unit).trace_input hx
  obtain ⟨stream, _, _, r, hr, hregistered⟩ :=
    h.get hx 0 "alice".toList () "bob".toList .done (Option.some.inj hinput).symm hresponse
  have hby := List.all_eq_true.mp hnone r hr
  rw [hregistered, registeredBy, if_pos rfl] at hby
  cases hby

end RoomRtc
