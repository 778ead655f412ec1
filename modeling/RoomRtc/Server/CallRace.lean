import RoomRtc.Server.Statuses

/-! Two call requests at once. `call_request` takes the lock of the users table for each of
its reads and for its write, and lets go of it in between: the statuses it checks are those of
copies, and the copies are what it writes back. Here a request is the sequence of these steps,
and two connection handlers run one each, a step at a time in any order. -/
namespace RoomRtc
open OperatingServer
set_option autoImplicit false

/-! ## One request, lock by lock -/

structure Request (Sdp : Type) where
  fromUsr : Str
  toUsr : Str
  offerSdp : Sdp

namespace Request

/-- Where an execution of `call_request` stands: the next lock it takes, with its local
variables, or what it returned. -/
inductive Point where
  | getStream
  | getFrom (stream : StreamId)
  | getTo (stream : StreamId) (fromUsrData : UserData)
  | write (stream : StreamId) (fromUsrData toUsrData : UserData)
  | notifyFrom (stream : StreamId)
  | notifyTo (stream : StreamId)
  | returned (response : ServerResponse)

variable {Sdp : Type}

abbrev Pushed (Sdp : Type) := List (StreamId × ServerMessage Sdp)

/-- One lock taken and let go. -/
def step (req : Request Sdp) (users : Users) : Point → Users × Point × Pushed Sdp
  | .getStream =>
    match getStreamFromUser req.toUsr users with
    | .error e => (users, .returned (.callRequestError e.display), [])
    | .ok stream => (users, .getFrom stream, [])
  | .getFrom stream =>
    match getUserData req.fromUsr users with
    | .error e => (users, .returned (.error e), [])
    | .ok fromUsrData => (users, .getTo stream fromUsrData, [])
  | .getTo stream fromUsrData =>
    match getUserData req.toUsr users with
    | .error e => (users, .returned (.error e), [])
    | .ok toUsrData =>
      -- the lock is free again; what is checked are the copies
      if fromUsrData.status ≠ .available then
        (users, .returned (.error (ServerError.userNotAvailable req.fromUsr).display), [])
      else if toUsrData.status ≠ .available then
        (users, .returned (.error (ServerError.userNotAvailable req.toUsr).display), [])
      else (users, .write stream fromUsrData toUsrData, [])
  | .write stream fromUsrData toUsrData =>
    ((users.insert toUsrData.username (toUsrData.updateStatus (.occupied req.fromUsr))).insert
        fromUsrData.username (fromUsrData.updateStatus (.occupied req.toUsr)),
      .notifyFrom stream, [])
  | .notifyFrom stream =>
    (users, .notifyTo stream, notifyStatusUpdate users req.fromUsr (.occupied req.toUsr))
  | .notifyTo stream =>
    (users, .returned .callRequestOk,
      notifyStatusUpdate users req.toUsr (.occupied req.fromUsr) ++
        [(stream, .callIncoming req.fromUsr req.offerSdp)])
  | .returned response => (users, .returned response, [])

def parties (req : Request Sdp) : List Str := [req.fromUsr, req.toUsr]

end Request

/-! ## Two handlers -/

inductive Handler where
  | first
  | second
deriving DecidableEq, Repr

def Handler.other : Handler → Handler
  | first => second
  | second => first

structure Race where
  users : Users
  point : Handler → Request.Point

section race
variable {Sdp : Type} (reqs : Handler → Request Sdp)

def Race.start (users : Users) : Race := { users, point := fun _ => .getStream }

def Race.step (s : Race) (h : Handler) : Race × Request.Pushed Sdp :=
  let r := (reqs h).step s.users (s.point h)
  ({ users := r.1, point := Function.update s.point h r.2.1 }, r.2.2)

def raceMachine : Machine Race Handler (Request.Pushed Sdp) where
  step s h := some (s.step reqs h)

theorem race_run_total (s : Race) (turns : List Handler) : ∃ t os, (raceMachine reqs).run s turns = some (t, os) := by
  induction turns generalizing s with
  | nil => exact ⟨s, [], rfl⟩
  | cons h turns ih =>
    obtain ⟨t, os, hr⟩ := ih (s.step reqs h).1
    exact ⟨t, _, (raceMachine reqs).run_cons rfl hr⟩

/-- A handler that has the table to itself does what `callRequest` does in one go. -/
theorem undisturbed_request (op : OperatingServer) (h : Handler) : ∃ t os,
    (raceMachine reqs).run (Race.start op.users) (List.replicate 6 h) = some (t, os) ∧
      t.users = (op.callRequest (reqs h).fromUsr (reqs h).toUsr (reqs h).offerSdp).server.users ∧
      t.point h = .returned (op.callRequest (reqs h).fromUsr (reqs h).toUsr (reqs h).offerSdp).response ∧
      os.flatten = (op.callRequest (reqs h).fromUsr (reqs h).toUsr (reqs h).offerSdp).pushed := by
  obtain ⟨t, os, hr⟩ := race_run_total reqs (Race.start op.users) (List.replicate 6 h)
  refine ⟨t, os, hr, ?_⟩
  simp only [List.replicate, Machine.run, raceMachine, Race.step, Race.start, Option.map_some,
    Option.some.injEq, Function.update_self, Prod.mk.injEq] at hr
  obtain ⟨rfl, rfl⟩ := hr
  unfold callRequest
  cases hstream : getStreamFromUser (reqs h).toUsr op.users with
  | error e => simp [Request.step, hstream, refuse]
  | ok stream =>
    cases hfrom : getUserData (reqs h).fromUsr op.users with
    | error e => simp [Request.step, hstream, hfrom, refuse]
    | ok fromData =>
      cases hto : getUserData (reqs h).toUsr op.users with
      | error e => simp [Request.step, hstream, hfrom, hto, refuse]
      | ok toData =>
        by_cases hf : fromData.status = .available
        · by_cases ht : toData.status = .available
          · simp [Request.step, hstream, hfrom, hto, hf, ht]
          · simp [Request.step, hstream, hfrom, hto, hf, ht, refuse]
        · simp [Request.step, hstream, hfrom, hto, hf, refuse]

/-! ## Which turns see the other's write -/

/-- The next turn of `h` reads a record that the other handler has written back. A handler
reads the caller at its second turn and the callee at its third, and writes at its fourth. -/
def ReadsWritten (before : List Handler) (h : Handler) : Prop :=
  4 ≤ before.count h.other ∧
    ((before.count h = 1 ∧ (reqs h).fromUsr ∈ (reqs h.other).parties) ∨
      (before.count h = 2 ∧ (reqs h).toUsr ∈ (reqs h.other).parties))

def SeesWrite (turns : List Handler) : Prop :=
  ∃ before h after, turns = before ++ h :: after ∧ ReadsWritten reqs before h

/-- Some handler has written a record of this user back. -/
def Written (turns : List Handler) (u : Str) : Prop := ∃ h, 4 ≤ turns.count h ∧ u ∈ (reqs h).parties

/-- So far nothing has happened that makes a request fail. -/
structure Unhindered (users₀ : Users) (turns : List Handler) : Prop where
  streams : ∀ h, turns.count h ≠ 0 → HasStream users₀ (reqs h).toUsr
  blind : ¬SeesWrite reqs turns

theorem Handler.eq_or_other (h h' : Handler) : h' = h ∨ h' = h.other := by
  cases h <;> cases h' <;> simp [other]

theorem Handler.other_ne (h : Handler) : h.other ≠ h := by
  cases h <;> simp [other]

theorem count_concat_self (turns : List Handler) (h : Handler) : (turns ++ [h]).count h = turns.count h + 1 := by
  simp

theorem count_concat_ne (turns : List Handler) {h h' : Handler} (hne : h' ≠ h) :
    (turns ++ [h]).count h' = turns.count h' := by
  simp [Ne.symm hne]

theorem seesWrite_concat (turns : List Handler) (h : Handler) :
    SeesWrite reqs (turns ++ [h]) ↔ SeesWrite reqs turns ∨ ReadsWritten reqs turns h := by
  constructor
  · rintro ⟨before, h', after, he, hr⟩
    rcases List.eq_nil_or_concat after with rfl | ⟨after', last, rfl⟩
    · obtain ⟨rfl, hh⟩ := List.append_inj' he rfl
      cases hh
      exact .inr hr
    · rw [List.concat_eq_append, ← List.cons_append, ← List.append_assoc] at he
      obtain ⟨rfl, -⟩ := List.append_inj' he rfl
      exact .inl ⟨before, h', after', rfl, hr⟩
  · rintro (⟨before, h', after, rfl, hr⟩ | hr)
    · exact ⟨before, h', after ++ [h], by simp, hr⟩
    · exact ⟨turns, h, [], rfl, hr⟩

theorem unhindered_concat (users₀ : Users) (turns : List Handler) (h : Handler) :
    Unhindered reqs users₀ (turns ++ [h]) ↔
      Unhindered reqs users₀ turns ∧ (turns.count h = 0 → HasStream users₀ (reqs h).toUsr) ∧
        ¬ReadsWritten reqs turns h := by
  constructor
  · rintro ⟨hstreams, hblind⟩
    rw [seesWrite_concat] at hblind
    push Not at hblind
    refine ⟨⟨?_, hblind.1⟩, fun _ => hstreams h (by simp), hblind.2⟩
    intro h' hc
    apply hstreams h'
    rw [List.count_append]
    omega
  · rintro ⟨⟨hstreams, hblind⟩, hfirst, hreads⟩
    refine ⟨?_, by rw [seesWrite_concat]; tauto⟩
    intro h' hc
    by_cases hh : h' = h
    · subst hh
      by_cases hz : turns.count h' = 0
      · exact hfirst hz
      · exact hstreams h' hz
    · rw [count_concat_ne turns hh] at hc
      exact hstreams h' hc

theorem written_concat (turns : List Handler) (h : Handler) (u : Str) :
    Written reqs (turns ++ [h]) u ↔ Written reqs turns u ∨ (turns.count h = 3 ∧ u ∈ (reqs h).parties) := by
  constructor
  · rintro ⟨h', hc, hu⟩
    by_cases hh : h' = h
    · subst hh
      rw [count_concat_self] at hc
      by_cases h3 : turns.count h' = 3
      · exact .inr ⟨h3, hu⟩
      · exact .inl ⟨h', by omega, hu⟩
    · rw [count_concat_ne turns hh] at hc
      exact .inl ⟨h', hc, hu⟩
  · rintro (⟨h', hc, hu⟩ | ⟨hc, hu⟩)
    · refine ⟨h', ?_, hu⟩
      rw [List.count_append]
      omega
    · exact ⟨h, by rw [count_concat_self]; omega, hu⟩

/-- Before its own write, what a handler finds written comes from the other one. -/
theorem written_iff_other {turns : List Handler} {h : Handler} (hc : turns.count h < 4) (u : Str) :
    Written reqs turns u ↔ 4 ≤ turns.count h.other ∧ u ∈ (reqs h.other).parties := by
  constructor
  · rintro ⟨h', hc', hu⟩
    rcases h.eq_or_other h' with rfl | rfl
    · omega
    · exact ⟨hc', hu⟩
  · exact fun ⟨hc', hu⟩ => ⟨h.other, hc', hu⟩

/-! ## How far a request has got -/

/-- A copy of the record of `v`, up to its status. -/
def Copy (users₀ : Users) (v : Str) (data : UserData) : Prop :=
  data.username = v ∧ (data.serverClientStream.isSome ↔ HasStream users₀ v)

/-- After `n` turns and no failure. -/
def Reached (req : Request Sdp) (users₀ : Users) : ℕ → Request.Point → Prop
  | 0, p => p = .getStream
  | 1, p => ∃ stream, p = .getFrom stream
  | 2, p => ∃ stream f, p = .getTo stream f ∧ Copy users₀ req.fromUsr f ∧ f.status = .available
  | 3, p => ∃ stream f t, p = .write stream f t ∧ Copy users₀ req.fromUsr f ∧ Copy users₀ req.toUsr t
  | 4, p => ∃ stream, p = .notifyFrom stream
  | 5, p => ∃ stream, p = .notifyTo stream
  | _ + 6, p => p = .returned .callRequestOk

/-- The request has failed, or will when it looks at the copy it holds. -/
def Doomed : Request.Point → Prop
  | .returned response => response ≠ .callRequestOk
  | .getTo _ fromUsrData => fromUsrData.status ≠ .available
  | _ => False

theorem doomed_step (req : Request Sdp) (users : Users) {p : Request.Point} (h : Doomed p) :
    Doomed (req.step users p).2.1 := by
  cases p with
  | returned response => exact h
  | getTo stream fromData =>
    have hf : fromData.status ≠ .available := h
    simp only [Request.step]
    split
    · simp [Doomed]
    · simp [hf, Doomed]
  | _ => exact h.elim

/-- What holds while no request has failed. -/
structure OnTrack (users₀ : Users) (turns : List Handler) (s : Race) : Prop where
  keyed : KeyedByName s.users
  streams : ∀ u, HasStream s.users u ↔ HasStream users₀ u
  statuses : ∀ h, ∀ u ∈ (reqs h).parties, statusOf s.users u = some .available ↔ ¬Written reqs turns u
  points : ∀ h, Reached (reqs h) users₀ (turns.count h) (s.point h)

/-- The race goes on as it was, with one handler further on. -/
def Race.advance (s : Race) (h : Handler) (p : Request.Point) : Race :=
  { s with point := Function.update s.point h p }

section steps
variable {users₀ : Users} {turns : List Handler} {s : Race}

variable (users₀) in
/-- Either both requests are on their way, or one of them is lost. -/
def Progress (turns : List Handler) (s : Race) : Prop :=
  (Unhindered reqs users₀ turns ∧ OnTrack reqs users₀ turns s) ∨
    (¬Unhindered reqs users₀ turns ∧ ∃ h, Doomed (s.point h))

variable {reqs}

theorem OnTrack.reached_update (hs : OnTrack reqs users₀ turns s) {h : Handler} {p : Request.Point}
    (hp : Reached (reqs h) users₀ (turns.count h + 1) p) (h' : Handler) :
    Reached (reqs h') users₀ ((turns ++ [h]).count h') (Function.update s.point h p h') := by
  by_cases hh : h' = h
  · subst hh
    rw [count_concat_self, Function.update_self]
    exact hp
  · rw [count_concat_ne turns hh, Function.update_of_ne hh]
    exact hs.points h'

theorem OnTrack.advance (hs : OnTrack reqs users₀ turns s) {h : Handler} {p : Request.Point}
    (hc : turns.count h ≠ 3) (hp : Reached (reqs h) users₀ (turns.count h + 1) p) :
    OnTrack reqs users₀ (turns ++ [h]) (s.advance h p) := by
  refine ⟨hs.keyed, hs.streams, ?_, hs.reached_update hp⟩
  intro h' u hu
  rw [written_concat]
  simp only [hc, false_and, or_false]
  exact hs.statuses h' u hu

theorem progress_advance (hu : Unhindered reqs users₀ turns) (hs : OnTrack reqs users₀ turns s) {h : Handler}
    {p : Request.Point} (hc : turns.count h ≠ 3) (hz : turns.count h ≠ 0) (hr : ¬ReadsWritten reqs turns h)
    (hp : Reached (reqs h) users₀ (turns.count h + 1) p) :
    Progress reqs users₀ (turns ++ [h]) (s.advance h p) :=
  .inl ⟨(unhindered_concat reqs users₀ turns h).mpr ⟨hu, fun h0 => absurd h0 hz, hr⟩, hs.advance hc hp⟩

theorem progress_doomed {h : Handler} {p : Request.Point} (hr : ReadsWritten reqs turns h) (hp : Doomed p) :
    Progress reqs users₀ (turns ++ [h]) (s.advance h p) := by
  refine .inr ⟨?_, h, by simpa [Race.advance] using hp⟩
  rw [unhindered_concat]
  tauto

theorem OnTrack.copy (hs : OnTrack reqs users₀ turns s) {v : Str} {data : UserData}
    (hlook : s.users.lookup v = some data) : Copy users₀ v data := by
  refine ⟨hs.keyed v data hlook, ?_⟩
  rw [← hs.streams v]
  constructor
  · intro hsome
    obtain ⟨stream, hstream⟩ := Option.isSome_iff_exists.mp hsome
    exact ⟨data, stream, hlook, hstream⟩
  · rintro ⟨data', stream, hlook', hstream⟩
    cases hlook.symm.trans hlook'
    simp [hstream]

theorem progress_getStream (hu : Unhindered reqs users₀ turns) (hs : OnTrack reqs users₀ turns s) {h : Handler}
    (hn : turns.count h = 0) :
    Progress reqs users₀ (turns ++ [h]) (s.advance h ((reqs h).step s.users .getStream).2.1) := by
  have hreads : ¬ReadsWritten reqs turns h := by
    rintro ⟨_, ⟨hc, _⟩ | ⟨hc, _⟩⟩ <;> omega
  cases hstream : getStreamFromUser (reqs h).toUsr s.users with
  | error e =>
    refine .inr ⟨?_, h, by simp [Race.advance, Request.step, hstream, Doomed]⟩
    rw [unhindered_concat, ← hs.streams]
    rintro ⟨_, hhas, _⟩
    obtain ⟨stream, hok⟩ := getStreamFromUser_ok.mpr (hhas hn)
    cases hstream.symm.trans hok
  | ok stream =>
    have hhas : HasStream users₀ (reqs h).toUsr := (hs.streams _).mp (getStreamFromUser_ok.mp ⟨stream, hstream⟩)
    refine .inl ⟨(unhindered_concat reqs users₀ turns h).mpr ⟨hu, fun _ => hhas, hreads⟩,
      hs.advance (by omega) ?_⟩
    rw [hn]
    exact ⟨stream, by simp [Request.step, hstream]⟩

/-- A party is available unless the other handler has written its record. -/
theorem OnTrack.available_iff (hs : OnTrack reqs users₀ turns s) (h : Handler) (hc : turns.count h < 4) {u : Str}
    (hu : u ∈ (reqs h).parties) :
    statusOf s.users u = some .available ↔ ¬(4 ≤ turns.count h.other ∧ u ∈ (reqs h.other).parties) := by
  rw [hs.statuses h u hu, written_iff_other reqs hc]

/-- The record that a handler reads is written by the other one exactly when it is not available. -/
theorem OnTrack.readsWritten_iff (hs : OnTrack reqs users₀ turns s) {h : Handler} {u : Str}
    (hread : (turns.count h = 1 ∧ u = (reqs h).fromUsr) ∨ (turns.count h = 2 ∧ u = (reqs h).toUsr)) :
    ReadsWritten reqs turns h ↔ statusOf s.users u ≠ some .available := by
  obtain ⟨hn, rfl⟩ | ⟨hn, rfl⟩ := hread
  · rw [Ne, hs.available_iff h (by omega) (by simp [Request.parties]), not_not]
    simp [ReadsWritten, hn]
  · rw [Ne, hs.available_iff h (by omega) (by simp [Request.parties]), not_not]
    simp [ReadsWritten, hn]

theorem getUserData_cases (users : Users) (u : Str) :
    (∃ data, getUserData u users = .ok data ∧ users.lookup u = some data ∧ data.status = .available ∧
      statusOf users u = some .available) ∨
    (((∃ e, getUserData u users = .error e) ∨ ∃ data, getUserData u users = .ok data ∧
      data.status ≠ .available) ∧
      statusOf users u ≠ some .available) := by
  unfold getUserData statusOf
  cases hlook : users.lookup u with
  | none => simp
  | some data =>
    by_cases hst : data.status = .available
    · simp [hst]
    · simp [hst]

theorem progress_getFrom (hu : Unhindered reqs users₀ turns) (hs : OnTrack reqs users₀ turns s) {h : Handler}
    (hn : turns.count h = 1) (stream : StreamId) :
    Progress reqs users₀ (turns ++ [h]) (s.advance h ((reqs h).step s.users (.getFrom stream)).2.1) := by
  have hreads := hs.readsWritten_iff (.inl ⟨hn, rfl⟩)
  rcases getUserData_cases s.users (reqs h).fromUsr with ⟨data, hdata, hlook, hst, hav⟩ | ⟨hbad, hav⟩
  · refine progress_advance hu hs (by omega) (by omega) (fun hr => hreads.mp hr hav) ?_
    rw [hn]
    exact ⟨stream, data, by simp [Request.step, hdata], hs.copy hlook, hst⟩
  · refine progress_doomed (hreads.mpr hav) ?_
    rcases hbad with ⟨e, hdata⟩ | ⟨data, hdata, hst⟩
    · simp [Request.step, hdata, Doomed]
    · simp [Request.step, hdata, Doomed, hst]

theorem progress_getTo (hu : Unhindered reqs users₀ turns) (hs : OnTrack reqs users₀ turns s) {h : Handler}
    (hn : turns.count h = 2) (stream : StreamId) {f : UserData} (hf : Copy users₀ (reqs h).fromUsr f)
    (hfst : f.status = .available) :
    Progress reqs users₀ (turns ++ [h]) (s.advance h ((reqs h).step s.users (.getTo stream f)).2.1) := by
  have hreads := hs.readsWritten_iff (.inr ⟨hn, rfl⟩)
  rcases getUserData_cases s.users (reqs h).toUsr with ⟨data, hdata, hlook, hst, hav⟩ | ⟨hbad, hav⟩
  · refine progress_advance hu hs (by omega) (by omega) (fun hr => hreads.mp hr hav) ?_
    rw [hn]
    exact ⟨stream, f, data, by simp [Request.step, hdata, hfst, hst], hf, hs.copy hlook⟩
  · refine progress_doomed (hreads.mpr hav) ?_
    rcases hbad with ⟨e, hdata⟩ | ⟨data, hdata, hst⟩
    · simp [Request.step, hdata, Doomed]
    · simp [Request.step, hdata, Doomed, hfst, hst]

theorem hasStream_insert (users : Users) (name : Str) (data : UserData) (u : Str) :
    HasStream (users.insert name data) u ↔
      if u = name then data.serverClientStream.isSome = true else HasStream users u := by
  unfold HasStream
  by_cases h : u = name
  · subst h
    simp [Option.isSome_iff_exists]
  · simp [h, AList.lookup_insert_ne h]

/-- The write: both records are the copies, whatever the table holds by now. -/
theorem progress_write (hu : Unhindered reqs users₀ turns) (hs : OnTrack reqs users₀ turns s) {h : Handler}
    (hn : turns.count h = 3) (hp : ∃ stream f t, s.point h = .write stream f t ∧
      Copy users₀ (reqs h).fromUsr f ∧ Copy users₀ (reqs h).toUsr t) :
    Progress reqs users₀ (turns ++ [h]) (s.step reqs h).1 := by
  obtain ⟨stream, f, t, hpoint, ⟨hfname, hfstream⟩, ⟨htname, htstream⟩⟩ := hp
  have hreads : ¬ReadsWritten reqs turns h := by
    rintro ⟨_, ⟨hc, _⟩ | ⟨hc, _⟩⟩ <;> omega
  refine .inl ⟨(unhindered_concat reqs users₀ turns h).mpr ⟨hu, fun h0 => by omega, hreads⟩, ?_⟩
  have hstep : (s.step reqs h).1 =
      { users := (s.users.insert (reqs h).toUsr (t.updateStatus (.occupied (reqs h).fromUsr))).insert
          (reqs h).fromUsr (f.updateStatus (.occupied (reqs h).toUsr))
        point := Function.update s.point h (.notifyFrom stream) } := by
    simp [Race.step, hpoint, Request.step, hfname, htname]
  have hkeyed : KeyedByName (s.users.insert (reqs h).toUsr (t.updateStatus (.occupied (reqs h).fromUsr))) :=
    hs.keyed.insert htname
  rw [hstep]
  refine ⟨hkeyed.insert hfname, ?_, ?_, hs.reached_update (by rw [hn]; exact ⟨stream, rfl⟩)⟩
  · intro u
    simp only [hasStream_insert, UserData.updateStatus]
    split_ifs with h1 h2
    · subst h1
      exact hfstream
    · subst h2
      exact htstream
    · exact hs.streams u
  · intro h' u hu'
    rw [written_concat]
    simp only [statusOf_insert, UserData.updateStatus, hn, true_and, Request.parties, List.mem_cons,
      List.not_mem_nil, or_false]
    by_cases h1 : u = (reqs h).fromUsr
    · simp [h1]
    · by_cases h2 : u = (reqs h).toUsr
      · rw [if_neg h1, if_pos h2]
        simp [h2]
      · simp only [h1, h2, if_false, or_self, or_false]
        exact hs.statuses h' u hu'

theorem step_users (req : Request Sdp) (users : Users) {p : Request.Point}
    (hp : ∀ stream f t, p ≠ .write stream f t) : (req.step users p).1 = users := by
  cases p with
  | write stream f t => exact absurd rfl (hp stream f t)
  | getTo stream f =>
    simp only [Request.step]
    repeat' split
    all_goals rfl
  | _ =>
    simp only [Request.step]
    try split
    all_goals rfl

theorem progress_step (hp : Progress reqs users₀ turns s) (h : Handler) :
    Progress reqs users₀ (turns ++ [h]) (s.step reqs h).1 := by
  rcases hp with ⟨hu, hs⟩ | ⟨hu, h', hdoomed⟩
  · have hpoint := hs.points h
    have hreads : 3 ≤ turns.count h → ¬ReadsWritten reqs turns h := by
      rintro hc ⟨_, ⟨hc', _⟩ | ⟨hc', _⟩⟩ <;> omega
    -- all but the write leave the table alone
    have hstep : ∀ p, s.point h = p → (∀ stream f t, p ≠ .write stream f t) →
        (s.step reqs h).1 = s.advance h ((reqs h).step s.users p).2.1 := by
      rintro p rfl hp
      simp [Race.step, Race.advance, step_users (reqs h) s.users hp]
    match hn : turns.count h with
    | 0 =>
      rw [hn] at hpoint
      have hp : s.point h = .getStream := hpoint
      rw [hstep _ hp (by simp)]
      exact progress_getStream hu hs hn
    | 1 =>
      rw [hn] at hpoint
      obtain ⟨stream, hp⟩ := hpoint
      rw [hstep _ hp (by simp)]
      exact progress_getFrom hu hs hn stream
    | 2 =>
      rw [hn] at hpoint
      obtain ⟨stream, f, hp, hf, hfst⟩ := hpoint
      rw [hstep _ hp (by simp)]
      exact progress_getTo hu hs hn stream hf hfst
    | 3 =>
      rw [hn] at hpoint
      exact progress_write hu hs hn hpoint
    | 4 =>
      rw [hn] at hpoint
      obtain ⟨stream, hp⟩ := hpoint
      rw [hstep _ hp (by simp)]
      exact progress_advance hu hs (by omega) (by omega) (hreads (by omega)) (by rw [hn]; exact ⟨stream, rfl⟩)
    | 5 =>
      rw [hn] at hpoint
      obtain ⟨stream, hp⟩ := hpoint
      rw [hstep _ hp (by simp)]
      exact progress_advance hu hs (by omega) (by omega) (hreads (by omega)) (by rw [hn]; rfl)
    | n + 6 =>
      rw [hn] at hpoint
      have hp : s.point h = .returned .callRequestOk := hpoint
      rw [hstep _ hp (by simp)]
      exact progress_advance hu hs (by omega) (by omega) (hreads (by omega)) (by rw [hn]; rfl)
  · refine .inr ⟨fun hu' => hu ((unhindered_concat reqs users₀ turns h).mp hu').1, h', ?_⟩
    by_cases hh : h' = h
    · subst hh
      simpa [Race.step] using doomed_step (reqs h') s.users hdoomed
    · simpa [Race.step, Function.update_of_ne hh] using hdoomed

end steps
/-! ## Two requests, any order of turns -/

/-- Both handlers have answered `CallRequestOk`. -/
def BothBooked (s : Race) : Prop := ∀ h, s.point h = .returned .callRequestOk

/-- Whenever both requests are granted they have no user in common. -/
def NoDoubleBooking (users : Users) (turns : List Handler) : Prop :=
  ∀ t os, (raceMachine reqs).run (Race.start users) turns = some (t, os) → BothBooked t →
    List.Disjoint (reqs .first).parties (reqs .second).parties

/-- One of the requests is not granted: a callee has no push stream, a handler has not come
to its end, or a handler reads a shared user after the other has written. -/
def OneFails (users : Users) (turns : List Handler) : Prop :=
  (∃ h, ¬HasStream users (reqs h).toUsr) ∨ (∃ h, turns.count h < 6) ∨ SeesWrite reqs turns

variable {reqs}

theorem onTrack_start {users : Users} (hk : KeyedByName users)
    (hav : ∀ h, ∀ u ∈ (reqs h).parties, statusOf users u = some .available) :
    OnTrack reqs users [] (Race.start users) := by
  refine ⟨hk, fun _ => Iff.rfl, ?_, fun _ => rfl⟩
  intro h u hu
  refine iff_of_true (hav h u hu) ?_
  rintro ⟨h', hc, _⟩
  simp at hc

theorem progress_run {users : Users} (hk : KeyedByName users)
    (hav : ∀ h, ∀ u ∈ (reqs h).parties, statusOf users u = some .available) {turns : List Handler} {t : Race}
    {os : List (Request.Pushed Sdp)} (hr : (raceMachine reqs).run (Race.start users) turns = some (t, os)) :
    Progress reqs users turns t := by
  refine (raceMachine reqs).run_induction (G := fun _ _ => True) (fun turns _ s => Progress reqs users turns s)
    ?_ ?_ ((raceMachine reqs).guarded_of_forall fun _ _ _ => trivial) hr
  · intro turns os s h s' o hp _ hstep
    cases hstep
    exact progress_step hp h
  · refine .inl ⟨⟨fun h hc => absurd rfl hc, ?_⟩, onTrack_start hk hav⟩
    rintro ⟨before, h, after, he, _⟩
    simp at he

theorem bothBooked_iff {users : Users} (hk : KeyedByName users)
    (hav : ∀ h, ∀ u ∈ (reqs h).parties, statusOf users u = some .available) {turns : List Handler} {t : Race}
    {os : List (Request.Pushed Sdp)} (hr : (raceMachine reqs).run (Race.start users) turns = some (t, os)) :
    BothBooked t ↔ ¬OneFails reqs users turns := by
  unfold OneFails
  push Not
  rcases progress_run hk hav hr with ⟨hu, hs⟩ | ⟨hu, h, hdoomed⟩
  · constructor
    · intro hb
      have hcount : ∀ h, 6 ≤ turns.count h := by
        intro h
        have hpoint := hs.points h
        rw [hb h] at hpoint
        match hn : turns.count h with
        | 0 | 1 | 2 | 3 | 4 | 5 =>
          rw [hn] at hpoint
          simp [Reached] at hpoint
        | n + 6 => omega
      exact ⟨fun h => hu.streams h (by have := hcount h; omega), hcount, hu.blind⟩
    · rintro ⟨_, hcount, _⟩ h
      obtain ⟨n, hn⟩ := Nat.exists_eq_add_of_le' (hcount h)
      have hpoint := hs.points h
      rw [hn] at hpoint
      exact hpoint
  · refine iff_of_false ?_ ?_
    · intro hb
      rw [hb h] at hdoomed
      exact hdoomed rfl
    · rintro ⟨hstreams, _, hblind⟩
      exact hu ⟨fun h _ => hstreams h, hblind⟩

variable (reqs) in
/-- **Two requests at once.** From a table in which all callers and callees are available, and
for every order in which the two handlers take their locks, two granted requests have no user
in common exactly when they name no common user to begin with or one of them is not granted. -/
theorem no_double_booking_iff {users : Users} (hk : KeyedByName users)
    (hav : ∀ h, ∀ u ∈ (reqs h).parties, statusOf users u = some .available) (turns : List Handler) :
    NoDoubleBooking reqs users turns ↔
      List.Disjoint (reqs .first).parties (reqs .second).parties ∨ OneFails reqs users turns := by
  obtain ⟨t, os, hr⟩ := race_run_total reqs (Race.start users) turns
  have hbooked := bothBooked_iff hk hav hr
  constructor
  · intro h
    by_cases hf : OneFails reqs users turns
    · exact .inr hf
    · exact .inl (h t os hr (hbooked.mpr hf))
  · rintro (hd | hf)
    · exact fun _ _ _ _ => hd
    · intro t' os' hr' hb
      exact absurd hf ((bothBooked_iff hk hav hr').mp hb)

end race

/-- Two users call the same third one. -/
def rivals : Handler → Request Unit
  | .first => ⟨"alice".toList, "carol".toList, ()⟩
  | .second => ⟨"bob".toList, "carol".toList, ()⟩

def threeAvailable : Users :=
  (((∅ : Users).insert "alice".toList ⟨"alice".toList, "pw".toList, .available, some 0⟩).insert
    "bob".toList ⟨"bob".toList, "pw".toList, .available, some 1⟩).insert
    "carol".toList ⟨"carol".toList, "pw".toList, .available, some 2⟩

theorem threeAvailable_keyed : KeyedByName threeAvailable := by
  refine KeyedByName.insert (KeyedByName.insert (KeyedByName.insert keyed_empty ?_) ?_) ?_
  all_goals rfl

theorem rivals_available (h : Handler) : ∀ u ∈ (rivals h).parties, statusOf threeAvailable u = some .available := by
  cases h <;> decide +kernel

theorem rivals_in_turn : NoDoubleBooking rivals threeAvailable
    (List.replicate 6 .first ++ List.replicate 6 .second) := by
  refine (no_double_booking_iff rivals threeAvailable_keyed rivals_available _).mpr (.inr (.inr (.inr ?_)))
  refine ⟨List.replicate 6 .first ++ [.second, .second], .second, List.replicate 3 .second,
    by decide, by decide, ?_⟩
  exact .inr ⟨by decide, by decide⟩

/-- Both handlers read the callee before either of them writes: both callers are told that
the callee is being rung, and the callee is booked for both. -/
theorem rivals_double_booked :
    (∀ h, ∀ u ∈ (rivals h).parties, statusOf threeAvailable u = some .available) ∧
    ¬NoDoubleBooking rivals threeAvailable
      (List.replicate 3 .first ++ List.replicate 6 .second ++ List.replicate 3 .first) := by
  refine ⟨rivals_available, ?_⟩
  intro h
  have hrun : ((raceMachine rivals).run (Race.start threeAvailable)
      (List.replicate 3 .first ++ List.replicate 6 .second ++ List.replicate 3 .first)).map
        (fun r => ((r.1.point .first, r.1.point .second) : Request.Point × Request.Point)) =
      some (.returned .callRequestOk, .returned .callRequestOk) := by
    rfl
  obtain ⟨⟨t, os⟩, hr, hpoints⟩ := Option.map_eq_some_iff.mp hrun
  obtain ⟨hfirst, hsecond⟩ := Prod.mk.inj hpoints
  have hbooked : BothBooked t := by
    intro h
    cases h
    · exact hfirst
    · exact hsecond
  have hdisjoint := h t os hr hbooked
  exact hdisjoint (a := "carol".toList) (by decide) (by decide)

end RoomRtc
