import RoomRtc.Server.Sessions

/-! Runs of the server, from its start on any users file and over any order of events: nobody
is online without a connection, and nobody outlives the connection of their login, exactly
when every step of the run leaves the sessions undisturbed. -/
namespace RoomRtc
open OperatingServer UserHandler Sessions
set_option autoImplicit false

/-! ## Records stay under their names -/

theorem keyed_load (file : Bytes) : KeyedByName (loadUsersFromMem file) := by
  apply load_induction KeyedByName
  · exact keyed_empty
  · exact fun users line username password husers _ _ => husers.insert rfl

theorem not_online_load (file : Bytes) (username : Str) : ¬Online (loadUsersFromMem file) username := by
  apply load_induction fun users => ¬Online users username
  · rintro ⟨data, h, _⟩
    cases h
  · intro users line name password husers _ _ h
    by_cases hn : username = name
    · subst hn
      rw [online_insert_self] at h
      exact h rfl
    · exact husers ((online_insert_ne users _ hn).mp h)

section keyed
variable {Sdp : Type} {op : OperatingServer}

theorem keyed_login (hk : KeyedByName op.users) (username password : Str) :
    KeyedByName (op.loginUser username password : Outcome Sdp).server.users := by
  by_cases h : LogsIn op.users username password
  · obtain ⟨data, hlook, hserver⟩ := login_taken Sdp op h
    rw [hserver]
    exact hk.insert (hk username data hlook)
  · rw [login_refused op h]
    exact hk

theorem keyed_logout (hk : KeyedByName op.users) (token : Str) :
    KeyedByName (op.logoutUser token : Outcome Sdp).server.users := by
  cases hlook : op.users.lookup token with
  | none =>
    rw [logout_unknown op hlook]
    exact hk
  | some data =>
    rw [logout_known op hlook]
    exact hk.insert (hk token data hlook)

theorem keyed_message (hk : KeyedByName op.users) (event : ClientMessage Sdp) (disk : DiskWrite) :
    KeyedByName (handleClientMessage op event disk).server.users := by
  cases event with
  | hello => exact hk
  | logIn username password => exact keyed_login hk username password
  | signUp username password => exact (signup_sessions op username password disk).keyed hk
  | logOut token => exact keyed_logout hk token
  | callRequest token offerSdp toUsr => exact (callRequest_sessions op hk token toUsr offerSdp).keyed hk
  | callAccept fromUsr toUsr sdpAnswer => exact (callAccept_sessions op fromUsr toUsr sdpAnswer).keyed hk
  | callReject fromUsr toUsr => exact (callReject_sessions op hk fromUsr toUsr).keyed hk
  | callHangup token => exact (callHangup_sessions op token).keyed hk

theorem keyed_disconnect {s : Server} (hk : KeyedByName s.users) (conn : ℕ) (name : Option Str) :
    KeyedByName (s.disconnect conn name : Server × ServerOutput Sdp).1.users := by
  unfold Server.disconnect makeUserOffline
  cases name with
  | none => exact hk
  | some username =>
    cases hlook : s.users.lookup username with
    | none =>
      simp only [Server.view, hlook]
      exact hk
    | some data =>
      simp only [Server.view, hlook]
      exact hk.insert (hk username data hlook)

theorem keyed_step {s s' : Server} {e : ServerEvent Sdp} {o : ServerOutput Sdp} (hk : KeyedByName s.users)
    (h : s.step e = some (s', o)) : KeyedByName s'.users := by
  cases Server.stepped_of_step h with
  | opened => exact hk
  | @received conn name event disk hc =>
    cases event with
    | none => exact hk
    | some event => exact keyed_message hk event disk
  | written hc => exact hk
  | writeFailed hc => exact hk
  | eof hc => exact keyed_disconnect hk _ _
  | readError hc => exact keyed_disconnect hk _ _
  | streamMapped => exact hk.mapStreamToUser _ _

end keyed

/-! ## Runs -/

section runs
variable {Sdp : Type}

/-- Nobody is left behind by a login: a user who logged in through a connection and has been
online ever since is still the user of that connection, which is alive. -/
def NoOrphans (s₀ : Server) (events : List (ServerEvent Sdp)) : Prop :=
  ∀ before after conn username password disk s t r o os os',
    events = before ++ .received conn (some (.logIn username password)) disk :: after →
    (serverMachine Sdp).run s₀ before = some (s, os) →
    (serverMachine Sdp).step s (.received conn (some (.logIn username password)) disk) = some (t, o) →
    LogsIn s.users username password →
    (serverMachine Sdp).Throughout (fun _ _ t' => Online t'.users username) t after →
    (serverMachine Sdp).run t after = some (r, os') → Holds r conn username

/-- What a run of undisturbed steps keeps. -/
structure InStep (s : Server) : Prop where
  keyed : KeyedByName s.users
  attended : NoGhosts s

theorem inStep_start (address : SocketAddr) (file : Bytes) : InStep (Server.start address file) :=
  ⟨keyed_load file, fun username h => absurd h (not_online_load file username)⟩

theorem InStep.step {s s' : Server} {e : ServerEvent Sdp} {o : ServerOutput Sdp} (h : InStep s)
    (hg : Undisturbed s e) (hstep : s.step e = some (s', o)) : InStep s' :=
  ⟨keyed_step h.keyed hstep, ((step_moves h.keyed hstep).attended_iff h.attended).mpr hg⟩

theorem undisturbed_of_stuck {s : Server} {e : ServerEvent Sdp} (h : s.step e = none) : Undisturbed s e := by
  cases e with
  | received conn event disk =>
    cases event with
    | none => trivial
    | some event =>
      cases event with
      | logIn username password =>
        intro name hc
        simp [Server.step, hc] at h
      | logOut token =>
        intro v hc
        simp [Server.step, hc] at h
      | _ => trivial
  | writeFailed conn =>
    intro v hc
    simp [Server.step, hc] at h
  | _ => trivial

/-- A user who stays online stays with the connection, step after step. -/
theorem holds_run {s t : Server} {events : List (ServerEvent Sdp)} {os : List (ServerOutput Sdp)} {conn : ℕ}
    {username : Str} (h : InStep s) (hg : (serverMachine Sdp).Guarded Undisturbed s events)
    (hc : Holds s conn username) (hu : Online s.users username)
    (hon : (serverMachine Sdp).Throughout (fun _ _ t' => Online t'.users username) s events)
    (hr : (serverMachine Sdp).run s events = some (t, os)) : Holds t conn username := by
  induction events generalizing s os with
  | nil =>
    cases hr
    exact hc
  | cons e events ih =>
    obtain ⟨s', o, os', hstep, hr', _⟩ := (serverMachine Sdp).run_cons_some hr
    have h' : InStep s' := h.step hg.1 hstep
    obtain ⟨hu', hon'⟩ := hon s' o hstep
    have hc' : Holds s' conn username :=
      (step_moves h.keyed hstep).keeps_holder h.attended h'.attended hu hu' hc
    exact ih h' (hg.2 s' o hstep) hc' hu' hon' hr'

theorem login_holds {s t : Server} {conn : ℕ} {username password : Str} {disk : DiskWrite} {o : ServerOutput Sdp}
    (h : LogsIn s.users username password)
    (hstep : s.step (.received conn (some (.logIn username password)) disk) = some (t, o)) :
    Holds t conn username ∧ Online t.users username := by
  cases Server.stepped_of_step hstep with
  | @received _ name _ _ hc =>
    obtain ⟨data, _, hserver⟩ := login_taken Sdp (s.view name) h
    show Holds (s.store conn .writing ((s.view name).loginUser username password : Outcome Sdp).server) _ _ ∧ _
    refine ⟨(holds_iff (store_conn hc) username).mpr ⟨by simp, by rw [hserver]⟩, ?_⟩
    show Online ((s.view name).loginUser username password : Outcome Sdp).server.users username
    rw [hserver]
    exact (online_insert_self s.users username _).mpr (by simp)

theorem noOrphans_of_guarded {s₀ : Server} {events : List (ServerEvent Sdp)} (h : InStep s₀)
    (hg : (serverMachine Sdp).Guarded Undisturbed s₀ events) : NoOrphans s₀ events := by
  intro before after conn username password disk s t r o os os' hevents hbefore hstep hlogin hon hafter
  subst hevents
  have hs : InStep s := (serverMachine Sdp).run_invariant InStep
    (fun s i s' o hs hi hstep => hs.step hi hstep) h ((serverMachine Sdp).guarded_left hg) hbefore
  have hrest := (serverMachine Sdp).guarded_append hg hbefore
  obtain ⟨hc, hu⟩ := login_holds hlogin hstep
  exact holds_run (hs.step hrest.1 hstep) (hrest.2 t o hstep) hc hu hon hafter

/-- **No ghost sessions.** Over every run of the server, everybody who is not offline is the
user of exactly one connection alive after every step, and nobody outlives the connection of
their login, exactly when every step leaves the sessions undisturbed. -/
theorem no_ghost_sessions_iff (address : SocketAddr) (file : Bytes) (events : List (ServerEvent Sdp)) :
    ((serverMachine Sdp).Throughout (fun _ _ t => NoGhosts t) (Server.start address file) events ∧
      NoOrphans (Server.start address file) events) ↔
    (serverMachine Sdp).Guarded Undisturbed (Server.start address file) events := by
  have hiff := (serverMachine Sdp).throughout_iff_guarded (R := fun _ _ t => NoGhosts t) (G := Undisturbed)
    InStep (fun s e s' o h hstep => (step_moves h.keyed hstep).attended_iff h.attended)
    (fun s e s' o h hg hstep => h.step hg hstep) (fun s e _ hstep => undisturbed_of_stuck hstep)
    (inStep_start address file) events
  constructor
  · exact fun h => hiff.mp h.1
  · exact fun hg => ⟨hiff.mpr hg, noOrphans_of_guarded (inStep_start address file) hg⟩

end runs

/-- Two accounts on one connection: alice logs in, then bob, and the client disconnects. -/
def secondLogin : List (ServerEvent Unit) :=
  [.opened, .received 0 (some (.signUp "alice".toList "pw".toList)) .done, .written 0,
    .received 0 (some (.signUp "bob".toList "pw".toList)) .done, .written 0,
    .received 0 (some (.logIn "alice".toList "pw".toList)) .done, .written 0,
    .received 0 (some (.logIn "bob".toList "pw".toList)) .done, .written 0, .eof 0]

/-- The second login takes over the connection and leaves the first user as they are; the end of the
connection takes only bob offline, and alice stays online with no connection left. -/
theorem second_login_leaves_ghost : ∃ t os,
    (serverMachine Unit).run (Server.start ⟨127, 0, 0, 1, 8081⟩ []) secondLogin = some (t, os) ∧
      Online t.users "alice".toList ∧ (∀ conn username, ¬Holds t conn username) ∧ ¬NoGhosts t := by
  have hrun : ((serverMachine Unit).run (Server.start ⟨127, 0, 0, 1, 8081⟩ []) secondLogin).map
      (fun r => (r.1.conns.map Conn.phase, (r.1.users.lookup "alice".toList).map UserData.status)) =
        some ([.ended], some .available) := by
    decide +kernel
  obtain ⟨⟨t, os⟩, hr, hview⟩ := Option.map_eq_some_iff.mp hrun
  obtain ⟨hconns, hstatus⟩ := Prod.mk.inj hview
  have hon : Online t.users "alice".toList := by
    obtain ⟨data, hlook, hst⟩ := Option.map_eq_some_iff.mp hstatus
    exact ⟨data, hlook, by simp [hst]⟩
  have hholds : ∀ conn username, ¬Holds t conn username := by
    rintro conn username ⟨phase, hc, hp⟩
    have hphase : (t.conns.map Conn.phase)[conn]? = some phase := by
      rw [List.getElem?_map, hc]
      rfl
    have hconns' : t.conns.map Conn.phase = [Phase.ended] := hconns
    rw [hconns'] at hphase
    cases conn with
    | zero =>
      cases hphase
      exact hp rfl
    | succ conn => cases hphase
  refine ⟨t, os, hr, hon, hholds, ?_⟩
  intro h
  obtain ⟨conn, hc, _⟩ := h _ hon
  exact hholds conn _ hc

end RoomRtc
