import Mathlib.Algebra.GroupWithZero.Nat
import RoomRtc.Controller.Lobby

/-! Clients and server agree on everybody's status once no message is in flight. Every change
of a status is pushed to all other users who have a push stream, with one exception, and the
pushes arrive in order; so a client that starts from current statuses keeps up. -/
namespace RoomRtc
open OperatingServer UserHandler
set_option autoImplicit false

section contacts
variable {Sdp : Type}

/-! ## What the pushed messages tell -/

/-- The statuses after the messages of one stream. -/
def told (pushed : List (StreamId × ServerMessage Sdp)) (stream : StreamId) (usersStatus : StatusMap) : StatusMap :=
  (messagesFor stream pushed).foldl updateStatus usersStatus

theorem messagesFor_append (stream : StreamId) (p q : List (StreamId × ServerMessage Sdp)) :
    messagesFor stream (p ++ q) = messagesFor stream p ++ messagesFor stream q := by
  simp [messagesFor]

theorem told_append (p q : List (StreamId × ServerMessage Sdp)) (stream : StreamId) (usersStatus : StatusMap) :
    told (p ++ q) stream usersStatus = told q stream (told p stream usersStatus) := by
  unfold told
  rw [messagesFor_append, List.foldl_append]

theorem told_other {message : ServerMessage Sdp} (h : ∀ usersStatus, updateStatus usersStatus message = usersStatus)
    (stream' stream : StreamId) (usersStatus : StatusMap) :
    told [(stream', message)] stream usersStatus = usersStatus := by
  unfold told messagesFor
  by_cases hs : stream' = stream
  · simp [hs, h]
  · simp [hs]

theorem foldl_updates {messages : List (ServerMessage Sdp)} {username : Str} {status : UserStatus}
    (h : ∀ m ∈ messages, m = .userStatusUpdate username status) (usersStatus : StatusMap) (u : Str) :
    (messages.foldl updateStatus usersStatus).lookup u =
      if u = username ∧ messages ≠ [] then some status else usersStatus.lookup u := by
  induction messages generalizing usersStatus with
  | nil => simp
  | cons m messages ih =>
    have hm := h m (List.mem_cons_self ..)
    subst hm
    rw [List.foldl_cons, ih fun m' hm' => h m' (List.mem_cons_of_mem _ hm')]
    by_cases hu : u = username
    · subst hu
      by_cases hnil : messages = []
      · simp [hnil, updateStatus]
      · simp [hnil]
    · simp [hu, updateStatus, AList.lookup_insert_ne hu]

theorem mem_messagesFor_notify {users : Users} {username : Str} {status : UserStatus} {stream : StreamId}
    {m : ServerMessage Sdp} (h : m ∈ messagesFor stream (notifyStatusUpdate users username status)) :
    m = .userStatusUpdate username status := by
  simp only [messagesFor, notifyStatusUpdate, List.mem_map, List.mem_filter, List.mem_filterMap] at h
  obtain ⟨⟨stream', m'⟩, ⟨⟨e, _, he⟩, _⟩, rfl⟩ := h
  split at he
  · cases he
  · obtain ⟨_, _, heq⟩ := Option.map_eq_some_iff.mp he
    cases heq
    rfl

theorem messagesFor_notify_ne_nil {users : Users} {username other : Str} {status : UserStatus} {stream : StreamId}
    (hs : streamOf users other = some stream) (hne : other ≠ username) :
    messagesFor stream (notifyStatusUpdate users username status : List (StreamId × ServerMessage Sdp)) ≠ [] := by
  obtain ⟨data, hlook, hstream⟩ := Option.bind_eq_some_iff.mp hs
  apply List.ne_nil_of_mem (a := ServerMessage.userStatusUpdate username status)
  simp only [messagesFor, notifyStatusUpdate, List.mem_map, List.mem_filter, List.mem_filterMap]
  refine ⟨(stream, .userStatusUpdate username status), ⟨⟨⟨other, data⟩, ?_, ?_⟩, by simp⟩, rfl⟩
  · exact AList.mem_lookup_iff.mp hlook
  · simp [hne, hstream]

theorem told_notify {users : Users} {username other : Str} {status : UserStatus} {stream : StreamId}
    (hs : streamOf users other = some stream) (usersStatus : StatusMap) {u : Str} (hu : u ≠ other) :
    (told (notifyStatusUpdate users username status : List (StreamId × ServerMessage Sdp)) stream
      usersStatus).lookup u =
      if u = username then some status else usersStatus.lookup u := by
  unfold told
  rw [foldl_updates (fun m hm => mem_messagesFor_notify hm)]
  by_cases huu : u = username
  · subst huu
    have hnil : messagesFor stream (notifyStatusUpdate users u status : List (StreamId × ServerMessage Sdp)) ≠ [] :=
      messagesFor_notify_ne_nil hs (Ne.symm hu)
    simp [hnil]
  · simp [huu]

/-! ## Changes that are announced -/

/-- Whoever has a push stream and is up to date with the first table is up to date with the
second one after the pushed messages. -/
def Announces (users users' : Users) (pushed : List (StreamId × ServerMessage Sdp)) : Prop :=
  ∀ other stream, streamOf users other = some stream → ∀ usersStatus,
    UpToDate users usersStatus other → UpToDate users' (told pushed stream usersStatus) other

theorem Announces.congr {users users' users'' : Users} {pushed : List (StreamId × ServerMessage Sdp)}
    (h : Announces users users' pushed) (he : ∀ u, statusOf users'' u = statusOf users' u) :
    Announces users users'' pushed := by
  intro other stream hs usersStatus hup u hu
  rw [he]
  exact h other stream hs usersStatus hup u hu

theorem Announces.trans {users users' users'' : Users} {p q : List (StreamId × ServerMessage Sdp)}
    (h : Announces users users' p) (hs : ∀ u, streamOf users' u = streamOf users u)
    (h' : Announces users' users'' q) : Announces users users'' (p ++ q) := by
  intro other stream hstream usersStatus hup
  rw [told_append]
  exact h' other stream ((hs other).trans hstream) _ (h other stream hstream usersStatus hup)

theorem announces_silent {users users' : Users} {pushed : List (StreamId × ServerMessage Sdp)}
    (he : ∀ u, statusOf users' u = statusOf users u)
    (htold : ∀ stream usersStatus, told pushed stream usersStatus = usersStatus) : Announces users users' pushed := by
  intro other stream _ usersStatus hup u hu
  rw [htold, he]
  exact hup u hu

theorem told_nil (stream : StreamId) (usersStatus : StatusMap) :
    told ([] : List (StreamId × ServerMessage Sdp)) stream usersStatus = usersStatus := rfl

/-- One user has another status, and everybody else is told. -/
theorem announces_update {users users' notified : Users} {username : Str} {status : UserStatus}
    (hs : ∀ u, streamOf notified u = streamOf users u)
    (he : ∀ u, statusOf users' u = if u = username then some status else statusOf users u) :
    Announces users users' (notifyStatusUpdate notified username status : List (StreamId × ServerMessage Sdp)) := by
  intro other stream hstream usersStatus hup u hu
  rw [told_notify ((hs other).trans hstream) usersStatus hu, he]
  split
  · rfl
  · exact hup u hu

/-! ## Every operation but one announces its changes -/

theorem statusOf_setStatus_known {users : Users} {username : Str} {old : UserStatus}
    (h : statusOf users username = some old) (status : UserStatus) (u : Str) :
    statusOf (setStatus users username status) u = if u = username then some status else statusOf users u := by
  rw [statusOf_setStatus]
  split
  · next hu =>
    subst hu
    rw [h]
    rfl
  · rfl

theorem announces_pair {users notified : Users} {fromUsr toUsr : Str} {fromOld toOld fromStatus toStatus : UserStatus}
    (hs : ∀ u, streamOf notified u = streamOf users u) (hfrom : statusOf users fromUsr = some fromOld)
    (hto : statusOf users toUsr = some toOld) (hsame : fromUsr = toUsr → fromStatus = toStatus) :
    Announces users (setPair users fromUsr toUsr fromStatus toStatus)
      (notifyStatusUpdate notified fromUsr fromStatus ++ notifyStatusUpdate notified toUsr toStatus :
        List (StreamId × ServerMessage Sdp)) := by
  have hfirst : Announces users (setStatus users fromUsr fromStatus)
      (notifyStatusUpdate notified fromUsr fromStatus : List (StreamId × ServerMessage Sdp)) :=
    announces_update hs (statusOf_setStatus_known hfrom fromStatus)
  refine hfirst.trans (streamOf_setStatus users fromUsr fromStatus) ?_
  refine announces_update (fun u => (hs u).trans (streamOf_setStatus users fromUsr fromStatus u).symm) ?_
  intro u
  rw [statusOf_setPair, statusOf_setStatus_known hfrom]
  by_cases huf : u = fromUsr
  · by_cases hut : u = toUsr
    · rw [if_pos huf, if_pos hut, huf, hfrom, hsame (huf.symm.trans hut)]
      rfl
    · rw [if_pos huf, if_neg hut, if_pos huf, huf, hfrom]
      rfl
  · by_cases hut : u = toUsr
    · rw [if_neg huf, if_pos hut, if_pos hut, hut, hto]
      rfl
    · rw [if_neg huf, if_neg hut, if_neg hut, if_neg huf]

theorem announces_refuse (op : OperatingServer) (response : ServerResponse) :
    Announces op.users (op.refuse response : Outcome Sdp).server.users (op.refuse response : Outcome Sdp).pushed :=
  announces_silent (fun _ => rfl) told_nil

theorem Announces.push {users users' : Users} {pushed : List (StreamId × ServerMessage Sdp)}
    (h : Announces users users' pushed) (hs : ∀ u, streamOf users' u = streamOf users u) (stream : StreamId)
    {message : ServerMessage Sdp} (hm : ∀ usersStatus, updateStatus usersStatus message = usersStatus) :
    Announces users users' (pushed ++ [(stream, message)]) :=
  h.trans hs (announces_silent (fun _ => rfl) (told_other hm stream))

theorem announces_login (op : OperatingServer) (username password : Str) :
    Announces op.users (op.loginUser username password : Outcome Sdp).server.users
      (op.loginUser username password : Outcome Sdp).pushed := by
  by_cases h : LogsIn op.users username password
  · rw [login_granted Sdp op h]
    obtain ⟨data, hlook, _, hoff⟩ := h
    have hst : statusOf op.users username = some .offline := statusOf_eq_some.mpr ⟨data, hlook, hoff⟩
    exact announces_update (streamOf_setStatus op.users username .available) (statusOf_setStatus_known hst _)
  · obtain ⟨text, hr⟩ := login_denied Sdp op h
    rw [hr]
    exact announces_refuse op _

theorem announces_signup (op : OperatingServer) (username password : Str) (disk : DiskWrite) :
    Announces op.users (op.signupUser username password disk : Outcome Sdp).server.users
      (op.signupUser username password disk : Outcome Sdp).pushed := by
  by_cases h : Admitted username ∧ Admitted password ∧ op.users.lookup username = none
  · obtain ⟨hu, hp, hnew⟩ := h
    obtain ⟨husers, _, hpushed⟩ := signup_granted Sdp op hu hp hnew disk
    rw [husers, hpushed]
    exact announces_update (streamOf_insert_new hnew password .offline) (statusOf_insert op.users username _)
  · obtain ⟨response, hr⟩ := signup_denied Sdp op h disk
    rw [hr]
    exact announces_refuse op _

/-- A logout is announced unless the user has no push stream and was online. -/
theorem announces_logout (op : OperatingServer) {token : Str}
    (h : HasStream op.users token ∨ ¬Online op.users token) :
    Announces op.users (op.logoutUser token : Outcome Sdp).server.users
      (op.logoutUser token : Outcome Sdp).pushed := by
  cases hlook : op.users.lookup token with
  | none =>
    have hr : (op.logoutUser token : Outcome Sdp) =
        op.refuse (.logoutError ("User ".toList ++ token ++ " not found".toList)) := by
      simp [logoutUser, hlook]
    rw [hr]
    exact announces_refuse op _
  | some data =>
    have hst : statusOf op.users token = some data.status := statusOf_eq_some.mpr ⟨data, hlook, rfl⟩
    have husers : (op.logoutUser token : Outcome Sdp).server.users = setStatus op.users token .offline := by
      rw [logout_known op hlook]
      exact (setStatus_known _ hlook).symm
    rw [husers]
    cases hs : data.serverClientStream with
    | none =>
      have hpushed : (op.logoutUser token : Outcome Sdp).pushed = [] := by
        simp [logoutUser, hlook, hs]
      have hoff : data.status = .offline := by
        by_contra hon
        obtain ⟨data', stream, hlook', hs'⟩ | hno := h
        · cases hlook.symm.trans hlook'
          cases hs.symm.trans hs'
        · exact hno ⟨data, hlook, hon⟩
      rw [hpushed]
      refine announces_silent ?_ told_nil
      intro u
      rw [statusOf_setStatus_known hst]
      split
      · next hu => rw [hu, hst, hoff]
      · rfl
    | some stream =>
      have hpushed : (op.logoutUser token : Outcome Sdp).pushed =
          notifyStatusUpdate (setStatus op.users token .offline) token .offline := by
        simp [logoutUser, hlook, hs, setStatus_known _ hlook]
      rw [hpushed]
      exact announces_update (streamOf_setStatus op.users token .offline) (statusOf_setStatus_known hst _)

theorem announces_callRequest {op : OperatingServer} (hk : KeyedByName op.users) (fromUsr toUsr : Str)
    (offerSdp : Sdp) :
    Announces op.users (op.callRequest fromUsr toUsr offerSdp).server.users
      (op.callRequest fromUsr toUsr offerSdp).pushed := by
  by_cases h : Rings op.users fromUsr toUsr
  · obtain ⟨stream, hr⟩ := callRequest_granted op hk offerSdp h
    rw [hr]
    refine (announces_pair (streamOf_setPair op.users fromUsr toUsr _ _) h.2.1 h.2.2 ?_).push
      (streamOf_setPair op.users fromUsr toUsr _ _) stream fun _ => rfl
    intro he
    rw [he]
  · obtain ⟨response, hr, _⟩ := callRequest_denied op offerSdp h
    rw [hr]
    exact announces_refuse op _

theorem callAccept_pushed (op : OperatingServer) (fromUsr toUsr : Str) (sdpAnswer : Sdp) :
    (op.callAccept fromUsr toUsr sdpAnswer).pushed = [] ∨
      ∃ stream, (op.callAccept fromUsr toUsr sdpAnswer).pushed = [(stream, .callAccepted fromUsr sdpAnswer)] := by
  by_cases h : Accepts op.users fromUsr toUsr
  · obtain ⟨stream, hr⟩ := callAccept_granted op sdpAnswer h
    rw [hr]
    exact .inr ⟨stream, rfl⟩
  · obtain ⟨text, hr⟩ := callAccept_denied op sdpAnswer h
    rw [hr]
    exact .inl rfl

theorem announces_callAccept (op : OperatingServer) (fromUsr toUsr : Str) (sdpAnswer : Sdp) :
    Announces op.users (op.callAccept fromUsr toUsr sdpAnswer).server.users
      (op.callAccept fromUsr toUsr sdpAnswer).pushed := by
  rw [callAccept_server]
  obtain hp | ⟨stream, hp⟩ := callAccept_pushed op fromUsr toUsr sdpAnswer
  · rw [hp]
    exact announces_silent (fun _ => rfl) told_nil
  · rw [hp]
    exact announces_silent (fun _ => rfl) (told_other (fun _ => rfl) stream)

theorem announces_callReject {op : OperatingServer} (hk : KeyedByName op.users) (fromUsr toUsr : Str) :
    Announces op.users (op.callReject fromUsr toUsr : Outcome Sdp).server.users
      (op.callReject fromUsr toUsr : Outcome Sdp).pushed := by
  by_cases h : Declines op.users fromUsr toUsr
  · obtain ⟨stream, hr⟩ := callReject_granted Sdp op hk h
    rw [hr]
    exact (announces_pair (fun _ => rfl) h.2.1 h.2.2 (fun _ => rfl)).push
      (streamOf_setPair op.users fromUsr toUsr _ _) stream fun _ => rfl
  · obtain ⟨response, hr⟩ := callReject_denied Sdp op h
    rw [hr]
    exact announces_refuse op _

theorem announces_callHangup (op : OperatingServer) (user : Str) :
    Announces op.users (op.callHangup user : Outcome Sdp).server.users
      (op.callHangup user : Outcome Sdp).pushed := by
  by_cases h : InCall op.users user
  · rw [callHangup_granted Sdp op h]
    obtain ⟨peer, hst⟩ := h
    exact announces_update (streamOf_setStatus op.users user .available) (statusOf_setStatus_known hst _)
  · obtain ⟨response, hr⟩ := callHangup_denied Sdp op h
    rw [hr]
    exact announces_refuse op _

theorem announces_message (op : OperatingServer) (hk : KeyedByName op.users) (event : ClientMessage Sdp)
    (disk : DiskWrite)
    (h : ∀ token, event = .logOut token → HasStream op.users token ∨ ¬Online op.users token) :
    Announces op.users (handleClientMessage op event disk).server.users
      (handleClientMessage op event disk).pushed := by
  cases event with
  | hello => exact announces_refuse op _
  | logIn username password => exact announces_login op username password
  | signUp username password => exact announces_signup op username password disk
  | logOut token => exact announces_logout op (h token rfl)
  | callRequest token offerSdp toUsr => exact announces_callRequest hk token toUsr offerSdp
  | callAccept fromUsr toUsr sdpAnswer => exact announces_callAccept op fromUsr toUsr sdpAnswer
  | callReject fromUsr toUsr => exact announces_callReject hk fromUsr toUsr
  | callHangup token => exact announces_callHangup op token

/-! ## Clients with their messages in flight -/

/-- The statuses the client holds once it has read everything on its way. -/
def Client.settled (c : Client Sdp) : StatusMap := c.inbox.foldl updateStatus c.usersStatus

def Converges (s : Lobby Sdp) : Prop :=
  ∀ c ∈ s.clients, ∀ username, Registered s.users c username → UpToDate s.users c.settled username

theorem settled_receive {c : Client Sdp} {stream : StreamId} (h : c.stream = some stream)
    (pushed : List (StreamId × ServerMessage Sdp)) : (c.receive pushed).settled = told pushed stream c.settled := by
  simp [Client.receive, h, Client.settled, told]

theorem receive_token (c : Client Sdp) (pushed : List (StreamId × ServerMessage Sdp)) :
    (c.receive pushed).token = c.token := by
  unfold Client.receive
  split <;> rfl

theorem receive_stream (c : Client Sdp) (pushed : List (StreamId × ServerMessage Sdp)) :
    (c.receive pushed).stream = c.stream := by
  unfold Client.receive
  split <;> rfl

theorem receive_nil (c : Client Sdp) : c.receive [] = c := by
  obtain ⟨username, token, usersStatus, stream, inbox⟩ := c
  cases stream with
  | none => rfl
  | some stream => simp [Client.receive, messagesFor]

theorem registered_receive {users users' : Users} (hs : ∀ u, streamOf users' u = streamOf users u) (c : Client Sdp)
    (pushed : List (StreamId × ServerMessage Sdp)) (username : Str) :
    Registered users' (c.receive pushed) username ↔ Registered users c username := by
  unfold Registered
  rw [receive_token, receive_stream, hs]

theorem upToDate_receive {users users' : Users} {pushed : List (StreamId × ServerMessage Sdp)}
    (ha : Announces users users' pushed) {c : Client Sdp} {username : Str} (hreg : Registered users c username)
    (hup : UpToDate users c.settled username) : UpToDate users' (c.receive pushed).settled username := by
  obtain ⟨_, stream, hstream, hserver⟩ := hreg
  rw [settled_receive hstream]
  exact ha username stream hserver c.settled hup

theorem mem_modify_cases {α : Type} {l : List α} {i : ℕ} {f : α → α} {a : α} (h : a ∈ l.modify i f) :
    a ∈ l ∨ ∃ b, l[i]? = some b ∧ a = f b := by
  obtain ⟨j, hj⟩ := List.mem_iff_getElem?.mp h
  rw [List.getElem?_modify] at hj
  cases hb : l[j]? with
  | none =>
    rw [hb] at hj
    cases hj
  | some b =>
    rw [hb] at hj
    simp only [Option.map_eq_map, Option.map_some, Option.some.injEq] at hj
    by_cases hij : i = j
    · subst hij
      exact .inr ⟨b, hb, by simpa using hj.symm⟩
    · simp only [hij, if_false] at hj
      exact .inl (hj ▸ List.mem_of_getElem? hb)

theorem mem_modify_self {α : Type} {l : List α} {i : ℕ} {b : α} (f : α → α) (h : l[i]? = some b) :
    f b ∈ l.modify i f := by
  apply List.mem_of_getElem? (i := i)
  rw [List.getElem?_modify, h]
  simp

/-- No client has a push stream of a number that is still to be given out. -/
def StreamsGiven (s : Lobby Sdp) : Prop := ∀ c ∈ s.clients, ∀ stream, c.stream = some stream →
    stream < s.nextStream

/-! ## Deliveries -/

/-- What decides whether a client keeps up: delivering a message changes none of it. -/
def Client.standing (c : Client Sdp) : Option Str × Option StreamId × StatusMap := (c.token, c.stream, c.settled)

def SameStanding (s s' : Lobby Sdp) : Prop :=
  s'.users = s.users ∧ s'.clients.map Client.standing = s.clients.map Client.standing

theorem SameStanding.trans {s s' s'' : Lobby Sdp} (h : SameStanding s s') (h' : SameStanding s' s'') :
    SameStanding s s'' :=
  ⟨h'.1.trans h.1, h'.2.trans h.2⟩

theorem registered_of_standing {c d : Client Sdp} (h : c.standing = d.standing) (users : Users) (username : Str) :
    Registered users c username ↔ Registered users d username := by
  simp only [Client.standing, Prod.mk.injEq] at h
  unfold Registered
  rw [h.1, h.2.1]

theorem settled_of_standing {c d : Client Sdp} (h : c.standing = d.standing) : c.settled = d.settled :=
  congrArg (fun p => p.2.2) h

theorem Converges.of_standing {s s' : Lobby Sdp} (h : Converges s) (hs : SameStanding s s') : Converges s' := by
  intro c' hc' username hreg
  have hmem : c'.standing ∈ s.clients.map Client.standing := by
    rw [← hs.2]
    exact List.mem_map_of_mem hc'
  obtain ⟨c, hc, hstanding⟩ := List.mem_map.mp hmem
  rw [hs.1] at hreg ⊢
  rw [← settled_of_standing hstanding]
  exact h c hc username ((registered_of_standing hstanding s.users username).mpr hreg)

theorem SameStanding.symm {s s' : Lobby Sdp} (h : SameStanding s s') : SameStanding s' s := ⟨h.1.symm, h.2.symm⟩

theorem map_modify_of_eq {α β : Type} {l : List α} {i : ℕ} {b : α} {f : α → α} {g : α → β}
    (h : l[i]? = some b)
    (hg : g (f b) = g b) : (l.modify i f).map g = l.map g := by
  induction l generalizing i with
  | nil => simp
  | cons a l ih =>
    cases i with
    | zero =>
      cases h
      simp [hg]
    | succ i => simpa using ih h

theorem sum_map_modify {α : Type} {l : List α} {i : ℕ} {b : α} {f : α → α} (g : α → ℕ)
    (h : l[i]? = some b) :
    ((l.modify i f).map g).sum + g b = (l.map g).sum + g (f b) := by
  induction l generalizing i with
  | nil => cases h
  | cons a l ih =>
    cases i with
    | zero =>
      cases h
      simp only [List.modify_zero_cons, List.map_cons, List.sum_cons]
      omega
    | succ i =>
      have := ih h
      simp only [List.modify_succ_cons, List.map_cons, List.sum_cons]
      omega

def inFlight (s : Lobby Sdp) : ℕ := (s.clients.map fun c => c.inbox.length).sum

theorem sameStanding_delivered {s s' : Lobby Sdp} {client : ℕ} {o : Option ServerResponse}
    (h : s.step (.delivered client) = some (s', o)) : SameStanding s s' := by
  simp only [Lobby.step] at h
  split at h
  · next name token statuses stream message rest hc =>
    cases h
    exact ⟨rfl, map_modify_of_eq hc rfl⟩
  · cases h

theorem deliver_head {s : Lobby Sdp} {c : Client Sdp} (hc : c ∈ s.clients) (hne : c.inbox ≠ []) :
    ∃ client s' o, s.step (.delivered client) = some (s', o) ∧ inFlight s' < inFlight s := by
  obtain ⟨client, hclient⟩ := List.mem_iff_getElem?.mp hc
  obtain ⟨name, token, statuses, stream, inbox⟩ := c
  cases inbox with
  | nil => exact absurd rfl hne
  | cons message rest =>
    refine ⟨client, _, _, by simp only [Lobby.step, hclient]; rfl, ?_⟩
    have hsum := sum_map_modify
      (f := fun c : Client Sdp => { c with usersStatus := updateStatus c.usersStatus message, inbox := rest })
      (fun c : Client Sdp => c.inbox.length) hclient
    simp only [List.length_cons] at hsum
    unfold inFlight
    show ((s.clients.modify client _).map _).sum < _
    omega

theorem exists_drained (s : Lobby Sdp) :
    ∃ deliveries t os, (∀ d ∈ deliveries, ∃ client, d = .delivered client) ∧
    (lobbyMachine Sdp).run s deliveries = some (t, os) ∧ Quiet t ∧ SameStanding s t := by
  induction hn : inFlight s using Nat.strong_induction_on generalizing s with
  | _ n ih =>
    by_cases hq : Quiet s
    · exact ⟨[], s, [], by simp, rfl, hq, rfl, rfl⟩
    · unfold Quiet at hq
      push Not at hq
      obtain ⟨c, hc, hne⟩ := hq
      obtain ⟨client, s', o, hstep, hlt⟩ := deliver_head hc hne
      obtain ⟨ds, t, os, hds, hr, hquiet, hsame⟩ := ih _ (hn ▸ hlt) s' rfl
      refine ⟨.delivered client :: ds, t, o :: os, ?_, (lobbyMachine Sdp).run_cons hstep hr, hquiet,
        (sameStanding_delivered hstep).trans hsame⟩
      intro d hd
      obtain rfl | hd := List.mem_cons.mp hd
      · exact ⟨client, rfl⟩
      · exact hds d hd

theorem sameStanding_run {s t : Lobby Sdp} {deliveries : List (LobbyEvent Sdp)} {os : List (Option ServerResponse)}
    (hd : ∀ d ∈ deliveries, ∃ client, d = .delivered client)
    (hr : (lobbyMachine Sdp).run s deliveries = some (t, os)) : SameStanding s t := by
  refine (lobbyMachine Sdp).run_invariant (G := fun _ e => ∃ client, e = .delivered client) (SameStanding s) ?_
    ⟨rfl, rfl⟩ ((lobbyMachine Sdp).guarded_of_forall fun d hd' _ => hd d hd') hr
  intro r e r' o h he hstep
  obtain ⟨client, rfl⟩ := he
  exact h.trans (sameStanding_delivered hstep)

/-- Agreement after all deliveries is agreement of what the clients will hold. -/
theorem settles_iff (s : Lobby Sdp) : Settles s ↔ Converges s := by
  have hsettled : ∀ {t : Lobby Sdp}, Quiet t → ∀ c ∈ t.clients, c.settled = c.usersStatus := by
    intro t hq c hc
    unfold Client.settled
    rw [hq c hc]
    rfl
  constructor
  · intro h
    obtain ⟨ds, t, os, hds, hr, hquiet, hsame⟩ := exists_drained s
    have hagree := h ds t os hds hr hquiet
    have ht : Converges t := by
      intro c hc username hreg
      rw [hsettled hquiet c hc]
      exact hagree c hc username hreg
    exact ht.of_standing hsame.symm
  · intro h ds t os hds hr hquiet c hc username hreg
    rw [← hsettled hquiet c hc]
    exact h.of_standing (sameStanding_run hds hr) c hc username hreg

/-! ## One step -/

section steps
variable {s : Lobby Sdp}

/-- The response leaves the client without a push stream, or as it was. -/
theorem answered_cases (c : Client Sdp) (action : Action Sdp) (response : ServerResponse) :
    (c.answered action response).stream = none ∨ c.answered action response = c := by
  unfold Client.answered
  split
  · exact .inl rfl
  · exact .inl rfl
  · exact .inr rfl

theorem client_of_handle {client : ℕ} {c₀ : Client Sdp} {action : Action Sdp} {message : ClientMessage Sdp}
    {c : Client Sdp} (hc : c ∈ (s.handle client c₀ action message).1.clients) :
    c.stream = none ∨ ∃ d ∈ s.clients, c.standing =
      (d.receive (handleClientMessage (s.view c₀.username) message action.disk).pushed).standing := by
  obtain hmem | ⟨b, hb, hc'⟩ := mem_modify_cases hc
  · obtain ⟨d, hd, rfl⟩ := List.mem_map.mp hmem
    exact .inr ⟨d, hd, rfl⟩
  · rw [List.getElem?_map] at hb
    obtain ⟨d, hd, rfl⟩ := Option.map_eq_some_iff.mp hb
    obtain hnone | hsame := answered_cases
      { d.receive (handleClientMessage (s.view c₀.username) message action.disk).pushed with
        username := (handleClientMessage (s.view c₀.username) message action.disk).server.username } action
      (handleClientMessage (s.view c₀.username) message action.disk).response
    · rw [← hc'] at hnone
      exact .inl hnone
    · refine .inr ⟨d, List.mem_of_getElem? hd, ?_⟩
      rw [hc', hsame]
      rfl

theorem mem_handle (client : ℕ) {c₀ : Client Sdp} {action : Action Sdp} {message : ClientMessage Sdp}
    (hkeep : ∀ c : Client Sdp,
      c.answered action (handleClientMessage (s.view c₀.username) message action.disk).response = c)
    {d : Client Sdp} (hd : d ∈ s.clients) :
    ∃ c ∈ (s.handle client c₀ action message).1.clients, c.standing =
      (d.receive (handleClientMessage (s.view c₀.username) message action.disk).pushed).standing := by
  obtain ⟨j, hj⟩ := List.mem_iff_getElem?.mp hd
  have hmap : (s.clients.map (·.receive (handleClientMessage (s.view c₀.username) message action.disk).pushed))[j]? =
      some (d.receive (handleClientMessage (s.view c₀.username) message action.disk).pushed) := by
    rw [List.getElem?_map, hj]
    rfl
  by_cases hcj : client = j
  · subst hcj
    refine ⟨_, mem_modify_self _ hmap, ?_⟩
    rw [hkeep]
    rfl
  · refine ⟨_, List.mem_of_getElem? (i := j) ?_, rfl⟩
    show (List.modify _ _ _)[j]? = _
    rw [List.getElem?_modify, hmap]
    simp [hcj]

theorem converges_handle (hk : KeyedByName s.users) (h : Converges s) {client : ℕ} {c₀ : Client Sdp}
    {action : Action Sdp} {message : ClientMessage Sdp}
    (ha : Announces s.users (handleClientMessage (s.view c₀.username) message action.disk).server.users
      (handleClientMessage (s.view c₀.username) message action.disk).pushed) :
    Converges (s.handle client c₀ action message).1 := by
  have hs : ∀ u, streamOf (handleClientMessage (s.view c₀.username) message action.disk).server.users u =
      streamOf s.users u := streamOf_message (s.view c₀.username) hk message action.disk
  intro c hc username hreg
  obtain hnone | ⟨d, hd, hstanding⟩ := client_of_handle hc
  · obtain ⟨_, stream, hstream, _⟩ := hreg
    cases hnone.symm.trans hstream
  · have hreg' : Registered s.users d username :=
      (registered_receive hs d _ username).mp ((registered_of_standing hstanding _ username).mp hreg)
    rw [settled_of_standing hstanding]
    exact upToDate_receive ha hreg' (h d hd username hreg')

/-- A user who is online and has no push stream logs out: nobody is told. -/
theorem converges_silent_logout (hk : KeyedByName s.users) (h : Converges s) {client : ℕ}
    {c₀ : Client Sdp} {token : Str}
    (hon : Online s.users token) (hno : ¬HasStream s.users token) :
    Converges (s.handle client c₀ .logOut (.logOut token)).1 ↔
      ∀ d ∈ s.clients, ∀ other, other ≠ token → ¬Registered s.users d other := by
  have hs : ∀ u, streamOf ((s.view c₀.username).logoutUser token : Outcome Sdp).server.users u =
    streamOf s.users u :=
    streamOf_message (s.view c₀.username) hk (.logOut token) .done
  obtain ⟨data, hlook, hst⟩ := hon
  have hnone : data.serverClientStream = none := by
    by_contra hsome
    obtain ⟨stream, hstream⟩ := Option.ne_none_iff_exists'.mp hsome
    exact hno ⟨data, stream, hlook, hstream⟩
  have houtcome : ((s.view c₀.username).logoutUser token : Outcome Sdp) =
      { server := { s.view c₀.username with users := setStatus s.users token .offline }
        response := .error "User not found".toList, pushed := [] } := by
    simp [logoutUser, Lobby.view, hlook, hnone, setStatus_known _ hlook]
  constructor
  · intro h' d hd other hne hreg
    have hkeep : ∀ c : Client Sdp, c.answered .logOut
        (handleClientMessage (s.view c₀.username) (.logOut token : ClientMessage Sdp) .done).response = c := by
      intro c
      show c.answered .logOut ((s.view c₀.username).logoutUser token : Outcome Sdp).response = c
      rw [houtcome]
      rfl
    obtain ⟨c, hc, hstanding⟩ := mem_handle client hkeep hd
    have hsame : d.receive (handleClientMessage (s.view c₀.username)
      (.logOut token : ClientMessage Sdp) .done).pushed =
        d := by
      show d.receive ((s.view c₀.username).logoutUser token : Outcome Sdp).pushed = d
      rw [houtcome]
      exact receive_nil d
    have husers : (s.handle client c₀ .logOut (.logOut token)).1.users = setStatus s.users token .offline :=
      congrArg (fun r : Outcome Sdp => r.server.users) houtcome
    have hregc : Registered (s.handle client c₀ .logOut (.logOut token)).1.users c other := by
      refine (registered_of_standing hstanding _ other).mpr ?_
      exact (registered_receive hs d _ other).mpr hreg
    have hafter := h' c hc other hregc token (Ne.symm hne)
    have hold : statusOf s.users token = some data.status := statusOf_eq_some.mpr ⟨data, hlook, rfl⟩
    rw [settled_of_standing (hstanding.trans (congrArg Client.standing hsame)),
      h d hd other hreg token (Ne.symm hne), husers, statusOf_setStatus_known hold, if_pos rfl, hold] at hafter
    exact hst (Option.some.inj hafter)
  · intro hothers c hc username hreg
    exfalso
    obtain hnone' | ⟨d, hd, hstanding⟩ := client_of_handle hc
    · obtain ⟨_, stream, hstream, _⟩ := hreg
      cases hnone'.symm.trans hstream
    · have hreg' : Registered s.users d username :=
        (registered_receive hs d _ username).mp ((registered_of_standing hstanding _ username).mp hreg)
      by_cases hu : username = token
      · subst hu
        obtain ⟨_, stream, _, hserver⟩ := hreg'
        exact hno (hasStream_iff_streamOf.mpr ⟨stream, hserver⟩)
      · exact hothers d hd username hu hreg'

theorem converges_registered (h : Converges s) (hg : StreamsGiven s) {client : ℕ} {c : Client Sdp} {username : Str}
    (hc : s.clients[client]? = some c) (htoken : c.token = some username) :
    Converges { s with
      users := mapStreamToUser s.users username s.nextStream
      nextStream := s.nextStream + 1
      clients := s.clients.modify client fun c => { c with stream := some s.nextStream, inbox := [] } } ↔
    ((s.users.lookup username).isSome → UpToDate s.users c.usersStatus username) := by
  have hstatus := statusOf_mapStreamToUser s.users username s.nextStream
  have hstream := streamOf_mapStreamToUser s.users username s.nextStream
  constructor
  · intro h' hsome u hu
    have hreg : Registered (mapStreamToUser s.users username s.nextStream)
        ({ c with stream := some s.nextStream, inbox := [] } : Client Sdp) username := by
      refine ⟨htoken, s.nextStream, rfl, ?_⟩
      rw [hstream]
      simp [hsome]
    rw [← hstatus]
    exact h' _ (mem_modify_self _ hc) username hreg u hu
  · intro hup d hd other hreg u hu
    show d.settled.lookup u = statusOf (mapStreamToUser s.users username s.nextStream) u
    rw [hstatus]
    obtain hmem | ⟨b, hb, rfl⟩ := mem_modify_cases hd
    · obtain ⟨hdtoken, k, hk, hserver⟩ := hreg
      have hserver' : streamOf (mapStreamToUser s.users username s.nextStream) other = some k := hserver
      rw [hstream] at hserver'
      split at hserver'
      · -- the stream under this name is the new one, which is not the stream of `d`
        cases hserver'
        exact absurd (hg d hmem s.nextStream hk) (lt_irrefl _)
      · exact h d hmem other ⟨hdtoken, k, hk, hserver'⟩ u hu
    · cases hc.symm.trans hb
      obtain ⟨hdtoken, k, hk, hserver⟩ := hreg
      cases htoken.symm.trans hdtoken
      cases hk
      have hsome : (s.users.lookup username).isSome := by
        by_contra hno
        have hserver' : streamOf (mapStreamToUser s.users username s.nextStream) username = some s.nextStream := hserver
        rw [hstream] at hserver'
        simp only [hno, and_false, if_false] at hserver'
        simp [streamOf, Option.not_isSome_iff_eq_none.mp hno] at hserver'
      exact hup hsome u hu

theorem announces_offline {op op' : OperatingServer} {pushed : List (StreamId × ServerMessage Sdp)}
    (h : op.makeUserOffline = .ok (op', pushed)) :
    Announces op.users op'.users pushed ∧ ∀ u, streamOf op'.users u = streamOf op.users u := by
  unfold makeUserOffline at h
  split at h
  · cases h
    exact ⟨announces_silent (fun _ => rfl) told_nil, fun _ => rfl⟩
  · next username _ =>
    split at h
    · cases h
    · next data hlook =>
      cases h
      have hst : statusOf op.users username = some data.status := statusOf_eq_some.mpr ⟨data, hlook, rfl⟩
      have hset := setStatus_known .offline hlook
      constructor
      · apply announces_update
        · intro u
          rw [← hset, streamOf_setStatus]
        · intro u
          rw [← hset, statusOf_setStatus_known hst]
      · intro u
        rw [← hset, streamOf_setStatus]

theorem converges_disconnect (h : Converges s) (client : ℕ) (c₀ : Client Sdp) :
    Converges (s.disconnect client c₀).1 := by
  unfold Lobby.disconnect
  split
  · next op pushed hr =>
    obtain ⟨ha, hs⟩ := announces_offline hr
    intro c hc username hreg
    obtain ⟨d, hd, rfl⟩ := List.mem_map.mp hc
    have hreg' : Registered s.users d username := (registered_receive hs d pushed username).mp hreg
    exact upToDate_receive ha hreg' (h d (List.mem_of_mem_eraseIdx hd) username hreg')
  · exact fun c hc => h c (List.mem_of_mem_eraseIdx hc)

theorem converges_request (hk : KeyedByName s.users) (h : Converges s) {client : ℕ} {c : Client Sdp}
    (hc : s.clients[client]? = some c) {action : Action Sdp} {message : ClientMessage Sdp}
    (hm : action.message c.token = some message) :
    Converges (s.handle client c action message).1 ↔ KeepsUp s (.request client action) := by
  by_cases hlogout : action = .logOut
  · subst hlogout
    obtain ⟨token, htoken, rfl⟩ := Option.map_eq_some_iff.mp hm
    by_cases hsilent : Online s.users token ∧ ¬HasStream s.users token
    · refine (converges_silent_logout hk h hsilent.1 hsilent.2).trans ?_
      constructor
      · intro hothers c' username hc' htoken' _ _
        cases hc.symm.trans hc'
        cases htoken.symm.trans htoken'
        exact hothers
      · exact fun hkeep => hkeep c token hc htoken hsilent.1 hsilent.2
    · refine iff_of_true (converges_handle hk h (announces_message (s.view c.username) hk _ _ ?_)) ?_
      · intro token' he
        cases he
        by_contra hno
        push Not at hno
        exact hsilent ⟨hno.2, hno.1⟩
      · intro c' username hc' htoken' hon hno
        cases hc.symm.trans hc'
        cases htoken.symm.trans htoken'
        exact absurd ⟨hon, hno⟩ hsilent
  · refine iff_of_true (converges_handle hk h (announces_message (s.view c.username) hk _ _ ?_)) ?_
    · intro token he
      subst he
      exfalso
      cases action with
      | logOut => exact hlogout rfl
      | signUp username password disk => cases hm
      | logIn username password => cases hm
      | _ =>
        obtain ⟨_, _, he⟩ := Option.map_eq_some_iff.mp hm
        cases he
    · cases action with
      | logOut => exact absurd rfl hlogout
      | _ => trivial

/-- What a run that keeps up keeps. -/
structure InTouch (s : Lobby Sdp) : Prop where
  keyed : KeyedByName s.users
  given : StreamsGiven s
  converges : Converges s

theorem converges_step {s' : Lobby Sdp} {e : LobbyEvent Sdp} {o : Option ServerResponse} (h : InTouch s)
    (hstep : s.step e = some (s', o)) : Converges s' ↔ KeepsUp s e := by
  cases e with
  | connected =>
    cases hstep
    refine iff_of_true ?_ trivial
    intro c hc username hreg
    obtain hc | hc := List.mem_append.mp hc
    · exact h.converges c hc username hreg
    · cases List.mem_singleton.mp hc
      cases hreg.1
  | request client action =>
    simp only [Lobby.step] at hstep
    split at hstep
    · cases hstep
    · next c hc =>
      obtain ⟨message, hm, he⟩ := Option.map_eq_some_iff.mp hstep
      have hs' : (s.handle client c action message).1 = s' := congrArg Prod.fst he
      rw [← hs']
      exact converges_request h.keyed h.converges hc hm
  | registered client =>
    simp only [Lobby.step] at hstep
    split at hstep
    · next name username statuses inbox hc =>
      cases hstep
      refine (converges_registered h.converges h.given hc rfl).trans ?_
      constructor
      · intro hup c' username' hc' htoken' _ hsome
        cases hc.symm.trans hc'
        cases htoken'
        exact hup hsome
      · exact fun hkeep hsome => hkeep _ username hc rfl rfl hsome
    · cases hstep
  | delivered client => exact iff_of_true (h.converges.of_standing (sameStanding_delivered hstep)) trivial
  | disconnected client =>
    simp only [Lobby.step] at hstep
    split at hstep
    · cases hstep
    · next c hc =>
      have hs' : (s.disconnect client c).1 = s' := congrArg Prod.fst (Option.some.inj hstep)
      rw [← hs']
      exact iff_of_true (converges_disconnect h.converges client c) trivial

theorem given_step {s' : Lobby Sdp} {e : LobbyEvent Sdp} {o : Option ServerResponse} (h : StreamsGiven s)
    (hstep : s.step e = some (s', o)) : StreamsGiven s' := by
  cases e with
  | connected =>
    cases hstep
    intro c hc stream hstream
    obtain hc | hc := List.mem_append.mp hc
    · exact h c hc stream hstream
    · cases List.mem_singleton.mp hc
      cases hstream
  | request client action =>
    simp only [Lobby.step] at hstep
    split at hstep
    · cases hstep
    · next c₀ hc₀ =>
      obtain ⟨message, _, he⟩ := Option.map_eq_some_iff.mp hstep
      have hs' : (s.handle client c₀ action message).1 = s' := congrArg Prod.fst he
      rw [← hs']
      intro c hc stream hstream
      obtain hnone | ⟨d, hd, hstanding⟩ := client_of_handle hc
      · cases hnone.symm.trans hstream
      · have hd' : c.stream = (d.receive _).stream := congrArg (fun p => p.2.1) hstanding
        rw [receive_stream] at hd'
        exact h d hd stream (hd'.symm.trans hstream)
  | registered client =>
    simp only [Lobby.step] at hstep
    split at hstep
    · cases hstep
      intro c hc stream hstream
      obtain hc | ⟨b, _, rfl⟩ := mem_modify_cases hc
      · exact Nat.lt_succ_of_lt (h c hc stream hstream)
      · cases hstream
        exact Nat.lt_succ_self _
    · cases hstep
  | delivered client =>
    simp only [Lobby.step] at hstep
    split at hstep
    · next name token statuses stream message rest hc₀ =>
      cases hstep
      intro c hc k hk
      obtain hc | ⟨b, hb, rfl⟩ := mem_modify_cases hc
      · exact h c hc k hk
      · exact h b (List.mem_of_getElem? hb) k hk
    · cases hstep
  | disconnected client =>
    simp only [Lobby.step] at hstep
    split at hstep
    · cases hstep
    · next c₀ hc₀ =>
      have hs' : (s.disconnect client c₀).1 = s' := congrArg Prod.fst (Option.some.inj hstep)
      rw [← hs']
      unfold Lobby.disconnect
      split
      · intro c hc stream hstream
        obtain ⟨d, hd, rfl⟩ := List.mem_map.mp hc
        rw [receive_stream] at hstream
        exact h d (List.mem_of_mem_eraseIdx hd) stream hstream
      · exact fun c hc => h c (List.mem_of_mem_eraseIdx hc)

theorem keyed_offline {op op' : OperatingServer} {pushed : List (StreamId × ServerMessage Sdp)}
    (hk : KeyedByName op.users) (h : op.makeUserOffline = .ok (op', pushed)) : KeyedByName op'.users := by
  unfold makeUserOffline at h
  split at h
  · cases h
    exact hk
  · split at h
    · cases h
    · next data hlook =>
      cases h
      exact hk.insert (hk _ data hlook)

theorem keyed_lobby_step {s' : Lobby Sdp} {e : LobbyEvent Sdp} {o : Option ServerResponse} (hk : KeyedByName s.users)
    (hstep : s.step e = some (s', o)) : KeyedByName s'.users := by
  cases e with
  | connected =>
    cases hstep
    exact hk
  | request client action =>
    simp only [Lobby.step] at hstep
    split at hstep
    · cases hstep
    · next c hc =>
      obtain ⟨message, _, he⟩ := Option.map_eq_some_iff.mp hstep
      have hs' : (s.handle client c action message).1 = s' := congrArg Prod.fst he
      rw [← hs']
      exact keyed_message (show KeyedByName (s.view c.username).users from hk) message action.disk
  | registered client =>
    simp only [Lobby.step] at hstep
    split at hstep
    · cases hstep
      exact hk.mapStreamToUser _ _
    · cases hstep
  | delivered client =>
    rw [(sameStanding_delivered hstep).1]
    exact hk
  | disconnected client =>
    simp only [Lobby.step] at hstep
    split at hstep
    · cases hstep
    · next c hc =>
      have hs' : (s.disconnect client c).1 = s' := congrArg Prod.fst (Option.some.inj hstep)
      rw [← hs']
      unfold Lobby.disconnect
      split
      · next op pushed hr => exact keyed_offline (show KeyedByName (s.view c.username).users from hk) hr
      · exact hk

theorem keepsUp_of_stuck {e : LobbyEvent Sdp} (h : s.step e = none) : KeepsUp s e := by
  cases e with
  | request client action =>
    cases action with
    | logOut =>
      intro c username hc htoken
      simp [Lobby.step, hc, Action.message, htoken] at h
    | _ => trivial
  | registered client =>
    intro c username hc htoken hnone
    obtain ⟨name, token, statuses, stream, inbox⟩ := c
    cases htoken
    cases hnone
    simp [Lobby.step, hc] at h
  | _ => trivial

end steps

/-! ## Runs -/

theorem inTouch_start (address : SocketAddr) (file : Bytes) : InTouch (Lobby.start address file : Lobby Sdp) :=
  ⟨keyed_load file, fun _ hc => absurd hc List.not_mem_nil, fun _ hc => absurd hc List.not_mem_nil⟩

/-- **Clients converge to the server's view.** After every step of a run, in every state that
deliveries lead to and in which no message is in flight, every registered client holds the
server's status of every other user, exactly when every step keeps the clients up to date. -/
theorem clients_converge_iff (address : SocketAddr) (file : Bytes) (events : List (LobbyEvent Sdp)) :
    (lobbyMachine Sdp).Throughout (fun _ _ t => Settles t) (Lobby.start address file) events ↔
      (lobbyMachine Sdp).Guarded KeepsUp (Lobby.start address file) events :=
  (lobbyMachine Sdp).throughout_iff_guarded InTouch
    (fun _ _ s' _ h hstep => (settles_iff s').trans (converges_step h hstep))
    (fun _ _ _ _ h hg hstep =>
      ⟨keyed_lobby_step h.keyed hstep, given_step h.given hstep, (converges_step h hstep).mpr hg⟩)
    (fun _ _ _ hstep => keepsUp_of_stuck hstep) (inTouch_start address file) events

end contacts

/-- One user logs out between the login of another and the registration of his push stream. -/
def missedUpdate : List (LobbyEvent Unit) :=
  [.connected, .connected,
    .request 0 (.signUp "alice".toList "pw".toList .done), .request 1 (.signUp "bob".toList "pw".toList .done),
    .request 0 (.logIn "alice".toList "pw".toList), .registered 0,
    .request 1 (.logIn "bob".toList "pw".toList), .delivered 0, .request 0 .logOut, .registered 1]

/-- What the run leaves of a client. -/
structure Glance where
  token : Option Str
  stream : Option StreamId
  alice : Option UserStatus
  unread : ℕ
deriving DecidableEq

def Client.glance {Sdp : Type} (c : Client Sdp) : Glance :=
  ⟨c.token, c.stream, c.usersStatus.lookup "alice".toList, c.inbox.length⟩

/-- No message is in flight, and the client holds a user as available who is offline. -/
theorem missed_update_stays : ∃ t os,
    (lobbyMachine Unit).run (Lobby.start ⟨127, 0, 0, 1, 8081⟩ []) missedUpdate = some (t, os) ∧ Quiet t ∧
      ¬Agreement t := by
  have hrun : ((lobbyMachine Unit).run (Lobby.start ⟨127, 0, 0, 1, 8081⟩ []) missedUpdate).map
      (fun r => (r.1.clients.map Client.glance, statusOf r.1.users "alice".toList, streamOf r.1.users "bob".toList)) =
      some ([⟨none, none, none, 0⟩, ⟨some "bob".toList, some 1, some .available, 0⟩],
        some .offline, some 1) := by
    decide +kernel
  obtain ⟨⟨t, os⟩, hr, hview⟩ := Option.map_eq_some_iff.mp hrun
  simp only [Prod.mk.injEq] at hview
  obtain ⟨hclients, halice, hbob⟩ := hview
  obtain ⟨c₀, rest, hcons, h₀, hrest⟩ := List.map_eq_cons_iff.mp hclients
  obtain ⟨c₁, rest', rfl, h₁, hnil⟩ := List.map_eq_cons_iff.mp hrest
  have hrest' : rest' = [] := List.map_eq_nil_iff.mp hnil
  subst hrest'
  simp only [Client.glance, Glance.mk.injEq] at h₀ h₁
  have hquiet : Quiet t := by
    intro c hc
    rw [hcons] at hc
    obtain rfl | rfl : c = c₀ ∨ c = c₁ := by simpa using hc
    · exact List.eq_nil_of_length_eq_zero h₀.2.2.2
    · exact List.eq_nil_of_length_eq_zero h₁.2.2.2
  refine ⟨t, os, hr, hquiet, ?_⟩
  intro h
  have hheld := h hquiet c₁ (by simp [hcons]) "bob".toList ⟨h₁.1, 1, h₁.2.1, hbob⟩ "alice".toList (by decide)
  rw [h₁.2.2.1, halice] at hheld
  cases hheld

end RoomRtc
