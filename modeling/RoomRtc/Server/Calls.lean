import RoomRtc.Server.GhostSessions
import RoomRtc.Server.Statuses

/-! Calls and their ends. A user in a call is marked as occupied with the other one. A request
marks both and a rejection frees both, but a hang-up, a logout and a lost connection take only
the user who leaves out of the call, and nothing keeps users from calling themselves. Every
call has two ends over a run exactly when nobody in a call leaves it and nobody calls
themselves. -/
namespace RoomRtc
open OperatingServer
set_option autoImplicit false

def TwoEnds (users : Users) : Prop :=
  ∀ u v, statusOf users u = some (.occupied v) → v ≠ u ∧ statusOf users v = some (.occupied u)

def AllOffline (users : Users) : Prop := ∀ u status, statusOf users u = some status → status = .offline

theorem TwoEnds.of_statusOf {users users' : Users} (h : TwoEnds users)
    (he : ∀ u, statusOf users' u = statusOf users u) : TwoEnds users' := by
  intro u v huv
  rw [he] at huv
  rw [he]
  exact h u v huv

/-! ## One user changes -/

/-- A user who leaves a call leaves the other end behind. -/
theorem TwoEnds.leave_iff {users : Users} (h : TwoEnds users) (u : Str) {status : UserStatus}
    (hst : ∀ v, status ≠ .occupied v) : TwoEnds (setStatus users u status) ↔ ¬InCall users u := by
  constructor
  · rintro h' ⟨v, huv⟩
    obtain ⟨hne, hvu⟩ := h u v huv
    have hv : statusOf (setStatus users u status) v = some (.occupied u) := by
      rw [statusOf_setStatus, if_neg hne]
      exact hvu
    obtain ⟨_, hu⟩ := h' v u hv
    rw [statusOf_setStatus, if_pos rfl, huv] at hu
    exact hst v (Option.some.inj hu)
  · intro hno a b hab
    rw [statusOf_setStatus] at hab
    split at hab
    · next ha =>
      obtain ⟨old, _, he⟩ := Option.map_eq_some_iff.mp hab
      exact absurd he (hst b)
    · next ha =>
      obtain ⟨hne, hba⟩ := h a b hab
      have hb : b ≠ u := by
        rintro rfl
        exact hno ⟨a, hba⟩
      refine ⟨hne, ?_⟩
      rw [statusOf_setStatus, if_neg hb]
      exact hba

theorem TwoEnds.insert_new {users : Users} (h : TwoEnds users) {u : Str} {data : UserData}
    (hnew : users.lookup u = none) (hst : data.status = .offline) : TwoEnds (users.insert u data) := by
  intro a b hab
  rw [statusOf_insert] at hab
  split at hab
  · rw [hst] at hab
    cases hab
  · next ha =>
    obtain ⟨hne, hba⟩ := h a b hab
    have hb : b ≠ u := by
      rintro rfl
      simp [statusOf, hnew] at hba
    refine ⟨hne, ?_⟩
    rw [statusOf_insert, if_neg hb]
    exact hba

/-! ## Both users of a pair change -/

theorem statusOf_setPair (users : Users) (fromUsr toUsr : Str) (fromStatus toStatus : UserStatus) (u : Str) :
    statusOf (setPair users fromUsr toUsr fromStatus toStatus) u =
      if u = fromUsr then (statusOf users u).map fun _ => fromStatus
      else if u = toUsr then (statusOf users u).map fun _ => toStatus
      else statusOf users u := by
  unfold setPair
  rw [statusOf_setStatus, statusOf_setStatus]
  by_cases hf : u = fromUsr
  · rw [if_pos hf, if_pos hf]
    split
    · rw [Option.map_map]
      rfl
    · rfl
  · rw [if_neg hf, if_neg hf]

/-- A call between two available users has two ends unless they are the same. -/
theorem TwoEnds.ring_iff {users : Users} (h : TwoEnds users) {fromUsr toUsr : Str} (hr : Rings users fromUsr toUsr) :
    TwoEnds (setPair users fromUsr toUsr (.occupied toUsr) (.occupied fromUsr)) ↔ fromUsr ≠ toUsr := by
  obtain ⟨_, hfrom, hto⟩ := hr
  constructor
  · intro h' he
    subst he
    have hself : statusOf (setPair users fromUsr fromUsr (.occupied fromUsr) (.occupied fromUsr)) fromUsr =
        some (.occupied fromUsr) := by
      rw [statusOf_setPair, if_pos rfl, hfrom]
      rfl
    exact (h' fromUsr fromUsr hself).1 rfl
  · intro hne a b hab
    rw [statusOf_setPair] at hab
    rw [statusOf_setPair]
    split_ifs at hab with haf hat
    · subst haf
      rw [hfrom] at hab
      cases hab
      simp [hne.symm, hto]
    · subst hat
      rw [hto] at hab
      cases hab
      simp [hne, hfrom]
    · obtain ⟨hba, hb⟩ := h a b hab
      have hbf : b ≠ fromUsr := by
        rintro rfl
        cases hfrom.symm.trans hb
      have hbt : b ≠ toUsr := by
        rintro rfl
        cases hto.symm.trans hb
      simp [hba, hbf, hbt, hb]

theorem TwoEnds.decline {users : Users} (h : TwoEnds users) {fromUsr toUsr : Str}
    (hd : Declines users fromUsr toUsr) : TwoEnds (setPair users fromUsr toUsr .available .available) := by
  obtain ⟨_, hfrom, hto⟩ := hd
  intro a b hab
  rw [statusOf_setPair] at hab
  split_ifs at hab with haf hat
  · subst haf
    rw [hfrom] at hab
    cases hab
  · subst hat
    rw [hto] at hab
    cases hab
  · obtain ⟨hba, hb⟩ := h a b hab
    have hbf : b ≠ fromUsr := by
      rintro rfl
      cases hfrom.symm.trans hb
      exact hat rfl
    have hbt : b ≠ toUsr := by
      rintro rfl
      cases hto.symm.trans hb
      exact haf rfl
    rw [statusOf_setPair, if_neg hbf, if_neg hbt]
    exact ⟨hba, hb⟩

theorem statusOf_mapStreamToUser (users : Users) (username : Str) (stream : StreamId) (u : Str) :
    statusOf (mapStreamToUser users username stream) u = statusOf users u := by
  unfold mapStreamToUser
  split
  · rfl
  · next data hlook =>
    rw [statusOf_insert]
    split
    · next hu =>
      subst hu
      simp [statusOf, hlook, UserData.updateServerClientStream]
    · rfl

/-! ## One step -/

section steps
variable {Sdp : Type}

/-- The message takes nobody out of a call they are in and connects nobody with themselves. -/
def KeepsPairs (users : Users) : ClientMessage Sdp → Prop
  | .logOut token | .callHangup token => ¬InCall users token
  | .callRequest token _ toUsr => Rings users token toUsr → token ≠ toUsr
  | _ => True

/-- The same for a step of the server: a connection that ends takes its user with it. -/
def KeepsCalls (s : Server) : ServerEvent Sdp → Prop
  | .received conn (some event) _ => ∀ name, s.conns[conn]? = some ⟨.reading, name⟩ → KeepsPairs s.users event
  | .eof conn | .readError conn => ∀ u, s.conns[conn]? = some ⟨.reading, some u⟩ → ¬InCall s.users u
  | _ => True

theorem TwoEnds.message_iff {users : Users} (h : TwoEnds users) {event : ClientMessage Sdp}
    (ha : Acts users event) : TwoEnds (tableAfter users event) ↔ KeepsPairs users event := by
  cases event with
  | hello => exact ha.elim
  | logIn username password =>
    refine iff_of_true ((h.leave_iff username (by simp)).mpr ?_) trivial
    rintro ⟨v, huv⟩
    obtain ⟨data, hlook, _, hoff⟩ := ha
    simp [statusOf, hlook, hoff] at huv
  | signUp username password => exact iff_of_true (h.insert_new ha.2.2 rfl) trivial
  | logOut token => exact h.leave_iff token (by simp)
  | callRequest token offerSdp toUsr =>
    refine (h.ring_iff ha).trans ?_
    exact ⟨fun hne _ => hne, fun hne => hne ha⟩
  | callAccept fromUsr toUsr sdpAnswer => exact ha.elim
  | callReject fromUsr toUsr => exact iff_of_true (h.decline ha) trivial
  | callHangup token => exact h.leave_iff token (by simp)

/-- A message that does nothing keeps every call. -/
theorem keepsPairs_of_refused {users : Users} {event : ClientMessage Sdp} (ha : ¬Acts users event) :
    KeepsPairs users event := by
  cases event with
  | logOut token =>
    rintro ⟨v, huv⟩
    obtain ⟨data, hlook, _⟩ := statusOf_eq_some.mp huv
    exact ha (by simp [Acts, hlook])
  | callHangup token => exact ha
  | callRequest token offerSdp toUsr => exact fun hr => absurd hr ha
  | _ => trivial

theorem twoEnds_step_iff {s s' : Server} {e : ServerEvent Sdp} {o : ServerOutput Sdp} (hk : KeyedByName s.users)
    (h : TwoEnds s.users) (hstep : s.step e = some (s', o)) : TwoEnds s'.users ↔ KeepsCalls s e := by
  generalize htable : s'.users = users'
  have ht := tableStep_of_step hk hstep
  rw [htable] at ht
  cases ht with
  | acts hc ha =>
    refine (h.message_iff ha).trans ⟨fun hkeep _ _ => hkeep, fun hkeep => hkeep _ hc⟩
  | refused hc ha => exact iff_of_true h fun _ _ => keepsPairs_of_refused ha
  | garbled => exact iff_of_true h trivial
  | @left conn username e he hc =>
    refine (h.leave_iff username (by simp)).trans ?_
    rcases he with rfl | rfl
    all_goals
      constructor
      · intro hno u hu
        cases hc.symm.trans hu
        exact hno
      · exact fun hkeep => hkeep username hc
  | leftUnnamed he hc =>
    refine iff_of_true h ?_
    rcases he with rfl | rfl
    all_goals
      intro u hu
      cases hc.symm.trans hu
  | opened => exact iff_of_true h trivial
  | written => exact iff_of_true h trivial
  | writeFailed => exact iff_of_true h trivial
  | mapped => exact iff_of_true (h.of_statusOf (statusOf_mapStreamToUser s.users _ _)) trivial

theorem keepsCalls_of_stuck {s : Server} {e : ServerEvent Sdp} (h : s.step e = none) : KeepsCalls s e := by
  cases e with
  | received conn event disk =>
    cases event with
    | none => trivial
    | some event =>
      intro name hc
      simp [Server.step, hc] at h
  | eof conn =>
    intro u hc
    simp [Server.step, hc] at h
  | readError conn =>
    intro u hc
    simp [Server.step, hc] at h
  | _ => trivial

/-! ## Runs -/

theorem AllOffline.twoEnds {users : Users} (h : AllOffline users) : TwoEnds users := by
  intro u v huv
  cases h u _ huv

/-- **A call has two ends.** In every run of the server from a table in which everybody is
offline, every user who is occupied is occupied with somebody else who is occupied with them,
after every step, exactly when no step takes a user out of a call alone or lets one call
themselves. -/
theorem two_ends_iff {s₀ : Server} (hk : KeyedByName s₀.users) (hoff : AllOffline s₀.users)
    (events : List (ServerEvent Sdp)) :
    (serverMachine Sdp).Throughout (fun _ _ t => TwoEnds t.users) s₀ events ↔
      (serverMachine Sdp).Guarded KeepsCalls s₀ events :=
  (serverMachine Sdp).throughout_iff_guarded (fun s => KeyedByName s.users ∧ TwoEnds s.users)
    (fun _ _ _ _ h hstep => twoEnds_step_iff h.1 h.2 hstep)
    (fun _ _ _ _ h hg hstep => ⟨keyed_step h.1 hstep, (twoEnds_step_iff h.1 h.2 hstep).mpr hg⟩)
    (fun _ _ _ hstep => keepsCalls_of_stuck hstep) ⟨hk, hoff.twoEnds⟩ events

end steps

theorem allOffline_load (file : Bytes) : AllOffline (loadUsersFromMem file) := by
  intro u status hst
  by_contra hon
  exact not_online_load file u (online_iff_statusOf.mpr ⟨status, hst, hon⟩)

/-- Two clients sign up, log in and register their push streams, and one calls the other. -/
def aliceCallsBob : List (ServerEvent Unit) :=
  [.opened, .opened,
    .received 0 (some (.signUp "alice".toList "pw".toList)) .done, .written 0,
    .received 1 (some (.signUp "bob".toList "pw".toList)) .done, .written 1,
    .received 0 (some (.logIn "alice".toList "pw".toList)) .done, .written 0, .streamMapped "alice".toList 0,
    .received 1 (some (.logIn "bob".toList "pw".toList)) .done, .written 1, .streamMapped "bob".toList 1,
    .received 0 (some (.callRequest "alice".toList () "bob".toList)) .done, .written 0]

theorem alice_calls_bob_two_ends :
    (serverMachine Unit).Throughout (fun _ _ t => TwoEnds t.users) (Server.start ⟨127, 0, 0, 1, 8081⟩ [])
      aliceCallsBob := by
  refine (two_ends_iff (keyed_load []) (allOffline_load []) aliceCallsBob).mpr ?_
  apply (serverMachine Unit).guarded_of_forall
  simp only [aliceCallsBob, List.forall_mem_cons, List.not_mem_nil, false_imp_iff, implies_true, and_true]
  -- only the call request has a condition to meet
  refine ⟨?_, ?_, ?_, ?_, ?_, ?_, ?_, ?_, ?_, ?_, ?_, ?_, ?_, ?_⟩
  case refine_13 => exact fun _ _ _ _ => by decide
  all_goals exact fun _ => by simp [KeepsCalls, KeepsPairs]

/-- The caller hangs up and is available again, and the callee stays occupied with her. -/
theorem hangup_leaves_other_end : ∃ t os,
    (serverMachine Unit).run (Server.start ⟨127, 0, 0, 1, 8081⟩ [])
      (aliceCallsBob ++ [.received 0 (some (.callHangup "alice".toList)) .done]) = some (t, os) ∧
    statusOf t.users "alice".toList = some .available ∧
    statusOf t.users "bob".toList = some (.occupied "alice".toList) ∧ ¬TwoEnds t.users := by
  have hrun : ((serverMachine Unit).run (Server.start ⟨127, 0, 0, 1, 8081⟩ [])
      (aliceCallsBob ++ [.received 0 (some (.callHangup "alice".toList)) .done])).map
        (fun r => (statusOf r.1.users "alice".toList, statusOf r.1.users "bob".toList)) =
      some (some .available, some (.occupied "alice".toList)) := by
    decide +kernel
  obtain ⟨⟨t, os⟩, hr, hview⟩ := Option.map_eq_some_iff.mp hrun
  obtain ⟨halice, hbob⟩ := Prod.mk.inj hview
  refine ⟨t, os, hr, halice, hbob, ?_⟩
  intro h
  cases halice.symm.trans (h _ _ hbob).2

end RoomRtc
