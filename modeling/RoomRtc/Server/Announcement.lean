import RoomRtc.Server.OperatingServer

/-! The list of users that a successful login sends to the client, written and read back.
Reading only ever gives names and peers without the separators of the list; writing and
reading gives the list back just when it was such a list to begin with. -/
namespace RoomRtc
open Text
set_option autoImplicit false

/-- A name with its status that the separators of the list leave in one piece. -/
def PlainEntry (username : Str) (status : UserStatus) : Prop :=
  ',' ∉ username ∧ ';' ∉ username ∧
    ∀ peer, status = .occupied peer → ',' ∉ peer ∧ ';' ∉ peer ∧ EndsPlain peer

def Announceable (users : StatusMap) : Prop :=
  ∀ username status, users.lookup username = some status → PlainEntry username status

/-! ## What is read is plain -/

theorem UserStatus.occupied_of_fromBytes {s peer : Str}
    (h : UserStatus.fromBytes (encode s) = some (.occupied peer)) :
    (∀ c ∈ peer, c ∈ s) ∧ EndsPlain peer := by
  simp only [UserStatus.fromBytes, decode_encode, Option.bind_eq_bind, Option.bind_some] at h
  split at h
  · split at h
    · cases h
    · split at h <;> cases h
  · next kind peer' hsplit =>
    split at h
    · cases h
      have htrim : trim s = kind ++ ':' :: peer := by
        have hjoin : [':'].intercalate ((trim s).splitOn ':') = trim s := List.intercalate_splitOn ':'
        rw [hsplit] at hjoin
        rw [← hjoin]
        simp [List.intercalate]
      refine ⟨?_, ?_⟩
      · intro c hc
        apply mem_of_mem_trim
        rw [htrim]
        simp [hc]
      · have hends := endsPlain_trim s
        rw [htrim, endsPlain_append (List.cons_ne_nil _ _)] at hends
        cases peer with
        | nil =>
          intro c hc
          cases hc
        | cons c peer => exact (endsPlain_append (s := [':']) (List.cons_ne_nil c peer)).mp hends
    · cases h
  · cases h

theorem announceable_readEntry {users users' : StatusMap} {entry : Str} (hsemi : ';' ∉ entry)
    (hu : Announceable users) (h : ServerResponse.readEntry users entry = some users') :
    Announceable users' := by
  unfold ServerResponse.readEntry at h
  split at h
  · cases h
    exact hu
  · split at h
    · next name statusStr rest hsplit =>
      obtain ⟨status, hstatus, he⟩ := Option.bind_eq_some_iff.mp h
      cases he
      obtain ⟨hname, hnames⟩ := mem_splitOn (hsplit ▸ List.mem_cons_self .. : name ∈ entry.splitOn ',')
      obtain ⟨hstr, hstrs⟩ := mem_splitOn
        (hsplit ▸ List.mem_cons_of_mem _ (List.mem_cons_self ..) : statusStr ∈ entry.splitOn ',')
      intro username st hlook
      by_cases hn : username = name
      · subst hn
        rw [AList.lookup_insert] at hlook
        cases hlook
        refine ⟨hname, fun hm => hsemi (hnames _ hm), ?_⟩
        intro peer hpeer
        subst hpeer
        obtain ⟨hmem, hends⟩ := UserStatus.occupied_of_fromBytes hstatus
        exact ⟨fun hm => hstr (hmem _ hm), fun hm => hsemi (hstrs _ (hmem _ hm)), hends⟩
      · rw [AList.lookup_insert_ne hn] at hlook
        exact hu username st hlook
    · cases h

theorem announceable_readUsers {list : Str} {users : StatusMap}
    (h : ServerResponse.readUsers list = some users) : Announceable users := by
  have hempty : Announceable ∅ := by
    intro username status hlook
    cases hlook
  have key : ∀ (entries : List Str) (m : StatusMap), (∀ e ∈ entries, ';' ∉ e) → Announceable m →
      entries.foldlM ServerResponse.readEntry m = some users → Announceable users := by
    intro entries
    induction entries with
    | nil =>
      intro m _ hm hr
      cases hr
      exact hm
    | cons e entries ih =>
      intro m hall hm hr
      rw [List.foldlM_cons] at hr
      obtain ⟨m', hstep, hr'⟩ := Option.bind_eq_some_iff.mp hr
      apply ih m' (fun e' he' => hall e' (List.mem_cons_of_mem e he')) _ hr'
      exact announceable_readEntry (hall e (List.mem_cons_self ..)) hm hstep
  unfold ServerResponse.readUsers at h
  split at h
  · cases h
    exact hempty
  · exact key _ ∅ (fun e he => (mem_splitOn he).1) hempty h

theorem ServerResponse.readParts_loginOk {kind token : Str} {fields : List Str} {address : SocketAddr}
    {users : StatusMap} (h : readParts kind fields = some (.loginOk token address users)) :
    readLoginOk fields = some (.loginOk token address users) := by
  have hbare : ∀ r, readBare r fields = some (.loginOk token address users) → r = .loginOk token address users := by
    intro r hr
    cases fields with
    | nil => exact Option.some.inj hr
    | cons f fields => cases hr
  have hmsg : ∀ r : Str → ServerResponse, readMsg r fields = some (.loginOk token address users) →
      ∃ msg, r msg = .loginOk token address users := by
    intro r hr
    unfold readMsg at hr
    split at hr
    · next msg => exact ⟨msg, Option.some.inj hr⟩
    · cases hr
  have hite : ∀ {c : Prop} [Decidable c] {a b : Option ServerResponse},
      (if c then a else b) = some (.loginOk token address users) →
      a = some (.loginOk token address users) ∨ b = some (.loginOk token address users) := by
    intro c _ a b hc
    split at hc
    · exact .inl hc
    · exact .inr hc
  unfold readParts at h
  rcases hite h with h | h
  · cases h
  rcases hite h with h | h
  · cases h
  rcases hite h with h | h
  · exact h
  -- the other keywords give other responses
  repeat' first
    | (with_reducible have hr := hbare _ h
       cases hr)
    | (with_reducible have hr := hmsg _ h
       obtain ⟨msg, hr⟩ := hr
       cases hr)
    | (with_reducible have hr := hite h
       clear h
       obtain h | h := hr)
  cases h

/-- Whatever bytes a client receives, the list of users it takes out of them is plain. -/
theorem announceable_fromBytes {bytes : Bytes} {token : Str} {address : SocketAddr} {users : StatusMap}
    (h : ServerResponse.fromBytes bytes = some (.loginOk token address users)) : Announceable users := by
  obtain ⟨s, _, h⟩ := Option.bind_eq_some_iff.mp h
  split at h
  · cases h
  · next kind fields _ =>
    have hread := ServerResponse.readParts_loginOk h
    unfold ServerResponse.readLoginOk at hread
    split at hread
    · obtain ⟨_, _, hread⟩ := Option.bind_eq_some_iff.mp hread
      obtain ⟨users', husers, he⟩ := Option.bind_eq_some_iff.mp hread
      cases he
      exact announceable_readUsers husers
    · cases hread

/-! ## What is plain is read back -/

theorem endsPlain_display {status : UserStatus} {username : Str} (h : PlainEntry username status) :
    status.display ≠ [] ∧ EndsPlain status.display := by
  cases status with
  | available => decide
  | offline => decide
  | occupied peer =>
    refine ⟨by simp [UserStatus.display_occupied], ?_⟩
    obtain ⟨_, _, hends⟩ := h.2.2 peer rfl
    rw [UserStatus.display_occupied]
    cases peer with
    | nil => decide
    | cons c peer => exact (endsPlain_append (List.cons_ne_nil c peer)).mpr hends

theorem UserStatus.fromBytes_display {status : UserStatus} {username : Str} (h : PlainEntry username status)
    (hcolon : ∀ peer, status = .occupied peer → ':' ∉ peer) :
    UserStatus.fromBytes (encode status.display) = some status := by
  have hends := (endsPlain_display h).2
  cases status with
  | available => decide +kernel
  | offline => decide +kernel
  | occupied peer =>
    have htrim : trim (UserStatus.occupied peer).display = (UserStatus.occupied peer).display := by
      have htext : "Occupied:".toList = 'O' :: "ccupied:".toList := by decide
      rw [UserStatus.display_occupied, htext, List.cons_append] at hends ⊢
      have h' : trim ('O' :: ("ccupied:".toList ++ peer) ++ []) = 'O' :: ("ccupied:".toList ++ peer) :=
        trim_append_of_plain (by decide) hends (by simp)
      rw [List.append_nil] at h'
      exact h'
    have hsplit : (UserStatus.occupied peer).display.splitOn ':' = ["Occupied".toList, peer] := by
      have htext : "Occupied:".toList = "Occupied".toList ++ [':'] := by decide
      rw [UserStatus.display_occupied, htext, List.append_assoc, List.singleton_append,
        List.splitOn_append_cons_self_of_not_mem (by decide), List.splitOn_eq_singleton (hcolon peer rfl)]
    simp only [UserStatus.fromBytes, decode_encode, Option.bind_eq_bind, Option.bind_some, htrim, hsplit, if_true]

theorem not_mem_display {c : Char} {status : UserStatus}
    (hfixed : c ∉ "Available".toList ∧ c ∉ "Offline".toList ∧ c ∉ "Occupied:".toList)
    (hpeer : ∀ peer, status = .occupied peer → c ∉ peer) : c ∉ status.display := by
  cases status with
  | available => exact hfixed.1
  | offline => exact hfixed.2.1
  | occupied peer =>
    rw [UserStatus.display_occupied, List.mem_append, not_or]
    exact ⟨hfixed.2.2, hpeer peer rfl⟩

section
variable {entries : List (Sigma fun _ : Str => UserStatus)}

theorem readEntry_entryText {e : Sigma fun _ : Str => UserStatus} (users : StatusMap) (h : PlainEntry e.1 e.2)
    (hcolon : ∀ peer, e.2 = .occupied peer → ':' ∉ peer) :
    ServerResponse.readEntry users (ServerResponse.entryText e) = some (users.insert e.1 e.2) := by
  have hne : ServerResponse.entryText e ≠ [] := by simp [ServerResponse.entryText]
  have hcomma : ',' ∉ e.2.display := not_mem_display (by decide) fun peer hp => (h.2.2 peer hp).1
  have hsplit : (ServerResponse.entryText e).splitOn ',' = [e.1, e.2.display] := by
    rw [ServerResponse.entryText, List.splitOn_append_cons_self_of_not_mem h.1, List.splitOn_eq_singleton hcomma]
  rw [ServerResponse.readEntry, if_neg hne, hsplit]
  simp only [UserStatus.fromBytes_display h hcolon, Option.bind_eq_bind, Option.bind_some]

theorem foldlM_readEntry (h : ∀ e ∈ entries, PlainEntry e.1 e.2)
    (hcolon : ∀ e ∈ entries, ∀ peer, e.2 = .occupied peer → ':' ∉ peer) (users : StatusMap) :
    (entries.map ServerResponse.entryText).foldlM ServerResponse.readEntry users =
      some (entries.foldl (fun m e => m.insert e.1 e.2) users) := by
  induction entries generalizing users with
  | nil => rfl
  | cons e entries ih =>
    have hmem := List.mem_cons_self (a := e) (l := entries)
    rw [List.map_cons, List.foldlM_cons, readEntry_entryText users (h e hmem) (hcolon e hmem)]
    exact ih (fun e' he' => h e' (List.mem_cons_of_mem e he'))
      (fun e' he' => hcolon e' (List.mem_cons_of_mem e he')) (users.insert e.1 e.2)

theorem lookup_foldl_insert (hnodup : entries.NodupKeys) (users : StatusMap) (username : Str) :
    (entries.foldl (fun m e => m.insert e.1 e.2) users).lookup username =
      (entries.dlookup username).or (users.lookup username) := by
  induction entries generalizing users with
  | nil => simp
  | cons e entries ih =>
    obtain ⟨name, status⟩ := e
    rw [List.nodupKeys_cons] at hnodup
    rw [List.foldl_cons, ih hnodup.2]
    by_cases hn : username = name
    · subst hn
      rw [List.dlookup_eq_none.mpr hnodup.1, AList.lookup_insert, List.dlookup_cons_eq]
      rfl
    · rw [AList.lookup_insert_ne hn, List.dlookup_cons_ne _ _ hn]

/-- The list of entries as it stands in the message. -/
def usersText (entries : List (Sigma fun _ : Str => UserStatus)) : Str :=
  [';'].intercalate (entries.map ServerResponse.entryText)

theorem usersText_cons_cons (e e' : Sigma fun _ : Str => UserStatus) :
    usersText (e :: e' :: entries) = ServerResponse.entryText e ++ ';' :: usersText (e' :: entries) := by
  simp [usersText, List.intercalate]

theorem usersText_ends (h : ∀ e ∈ entries, PlainEntry e.1 e.2) (hne : entries ≠ []) :
    usersText entries ≠ [] ∧ EndsPlain (usersText entries) := by
  induction entries with
  | nil => exact absurd rfl hne
  | cons e rest ih =>
    obtain ⟨hdisplay, hends⟩ := endsPlain_display (h e (List.mem_cons_self ..))
    cases rest with
    | nil =>
      have htext : usersText [e] = ServerResponse.entryText e := by simp [usersText]
      rw [htext, ServerResponse.entryText]
      refine ⟨by simp, ?_⟩
      rw [endsPlain_append (List.cons_ne_nil _ _)]
      exact (endsPlain_append (s := [',']) hdisplay).mpr hends
    | cons e' rest =>
      obtain ⟨hne', hends'⟩ := ih (fun x hx => h x (List.mem_cons_of_mem e hx)) (List.cons_ne_nil e' rest)
      rw [usersText_cons_cons]
      refine ⟨by simp, ?_⟩
      rw [endsPlain_append (List.cons_ne_nil _ _)]
      exact (endsPlain_append (s := [';']) hne').mpr hends'

theorem not_mem_usersText {c : Char} (hc : c ≠ ';') (h : ∀ e ∈ entries, c ∉ ServerResponse.entryText e) :
    c ∉ usersText entries := by
  induction entries with
  | nil => simp [usersText]
  | cons e rest ih =>
    have he := h e (List.mem_cons_self ..)
    have hrest := ih fun x hx => h x (List.mem_cons_of_mem e hx)
    cases rest with
    | nil => simpa [usersText] using he
    | cons e' rest =>
      rw [usersText_cons_cons]
      simp [he, hrest, hc]

theorem readUsers_usersText (h : ∀ e ∈ entries, PlainEntry e.1 e.2)
    (hcolon : ∀ e ∈ entries, ∀ peer, e.2 = .occupied peer → ':' ∉ peer) :
    ServerResponse.readUsers (usersText entries) = some (entries.foldl (fun m e => m.insert e.1 e.2) ∅) := by
  by_cases hne : entries = []
  · subst hne
    rfl
  · have hsemi : ∀ piece ∈ entries.map ServerResponse.entryText, ';' ∉ piece := by
      intro piece hpiece
      obtain ⟨e, he, rfl⟩ := List.mem_map.mp hpiece
      have hdisplay : ';' ∉ e.2.display :=
        not_mem_display (by decide) fun peer hp => ((h e he).2.2 peer hp).2.1
      simp [ServerResponse.entryText, (h e he).2.1, hdisplay]
    rw [ServerResponse.readUsers, if_neg (usersText_ends h hne).1, usersText,
      List.splitOn_intercalate ';' hsemi (by simpa using hne)]
    exact foldlM_readEntry h hcolon ∅

end

theorem ServerResponse.readParts_of_loginOk (fields : List Str) :
    readParts "LOGINOK".toList fields = readLoginOk fields := by
  rw [readParts, if_neg (by decide), if_neg (by decide), if_pos rfl]

theorem splitOn_text_loginOk {token : Str} (address : SocketAddr) {users : StatusMap} (htoken : '|' ∉ token)
    (husers : '|' ∉ usersText users.entries) :
    (ServerResponse.loginOk token address users).text.splitOn '|' =
      ["LOGINOK".toList, token, address.display, usersText users.entries] := by
  have hhead : "LOGINOK|".toList = "LOGINOK".toList ++ ['|'] := by decide
  have haddress : '|' ∉ address.display :=
    SocketAddr.not_mem_display (by decide) (by decide) (by decide) address
  rw [ServerResponse.text_loginOk, hhead]
  simp only [List.append_assoc, List.cons_append, List.nil_append]
  rw [List.splitOn_append_cons_self_of_not_mem (by decide), List.splitOn_append_cons_self_of_not_mem htoken,
    List.splitOn_append_cons_self_of_not_mem haddress, ← usersText, List.splitOn_eq_singleton husers]

theorem trim_text_loginOk (token : Str) (address : SocketAddr) {users : StatusMap}
    (h : ∀ e ∈ users.entries, PlainEntry e.1 e.2) :
    trim ((ServerResponse.loginOk token address users).text ++ ['\n']) =
      (ServerResponse.loginOk token address users).text := by
  have hends : EndsPlain (ServerResponse.loginOk token address users).text := by
    rw [ServerResponse.text_loginOk, ← usersText, endsPlain_append (List.cons_ne_nil _ _)]
    by_cases hne : users.entries = []
    · rw [hne]
      decide
    · obtain ⟨hne', hends⟩ := usersText_ends h hne
      exact (endsPlain_append (s := ['|']) hne').mpr hends
  have hhead : "LOGINOK|".toList = 'L' :: "OGINOK|".toList := by decide
  rw [ServerResponse.text_loginOk, hhead] at hends ⊢
  simp only [List.cons_append] at hends ⊢
  rw [← List.cons_append]
  apply trim_append_of_plain (by decide) hends
  intro d hd
  rw [List.mem_singleton] at hd
  subst hd
  rfl

theorem fromBytes_toBytes_loginOk {token : Str} (address : SocketAddr) {users : StatusMap} (htoken : '|' ∉ token)
    (h : Announceable users) (hpipe : '|' ∉ usersText users.entries)
    (hcolon : ∀ e ∈ users.entries, ∀ peer, e.2 = .occupied peer → ':' ∉ peer) :
    ∃ users', ServerResponse.fromBytes (ServerResponse.loginOk token address users).toBytes =
      some (.loginOk token address users') ∧ ∀ username, users'.lookup username = users.lookup username := by
  have hplain : ∀ e ∈ users.entries, PlainEntry e.1 e.2 := fun e he =>
    h e.1 e.2 (AList.mem_lookup_iff.mpr he)
  have hbytes : (ServerResponse.loginOk token address users).toBytes =
      encode ((ServerResponse.loginOk token address users).text ++ ['\n']) := (encode_append _ ['\n']).symm
  refine ⟨users.entries.foldl (fun m e => m.insert e.1 e.2) ∅, ?_, ?_⟩
  · simp only [ServerResponse.fromBytes, hbytes, decode_encode, Option.bind_eq_bind, Option.bind_some,
      trim_text_loginOk token address hplain, splitOn_text_loginOk address htoken hpipe,
      ServerResponse.readParts_of_loginOk, ServerResponse.readLoginOk, SocketAddr.fromStr_display,
      readUsers_usersText hplain hcolon]
  · intro username
    rw [lookup_foldl_insert users.nodupKeys, AList.lookup_empty, Option.or_none]
    rfl

/-! ## Users that signed up -/

/-- The map is over names that a sign-up admits, and so are the peers in it. -/
def AdmittedUsers (users : StatusMap) : Prop :=
  ∀ username status, users.lookup username = some status →
    Admitted username ∧ ∀ peer, status = .occupied peer → Admitted peer

/-- **The announcement of a login.** For every token and every map that the sign-up admits,
the client reads back what the server wrote just when no name and no peer in the map holds
a comma or a semicolon and no peer ends in whitespace. -/
theorem login_announced_iff {token : Str} (address : SocketAddr) {users : StatusMap} (htoken : Admitted token)
    (husers : AdmittedUsers users) :
    (∃ users', ServerResponse.fromBytes (ServerResponse.loginOk token address users).toBytes =
      some (.loginOk token address users') ∧ ∀ username, users'.lookup username = users.lookup username) ↔
    ∀ username status, users.lookup username = some status → ',' ∉ username ∧ ';' ∉ username ∧
      ∀ peer, status = .occupied peer → ',' ∉ peer ∧ ';' ∉ peer ∧ EndsPlain peer := by
  constructor
  · rintro ⟨users', hread, hsame⟩ username status hlook
    exact announceable_fromBytes hread username status ((hsame username).trans hlook)
  · intro h
    have hadmitted : ∀ e ∈ users.entries, Admitted e.1 ∧ ∀ peer, e.2 = .occupied peer → Admitted peer :=
      fun e he => husers e.1 e.2 (AList.mem_lookup_iff.mpr he)
    apply fromBytes_toBytes_loginOk address htoken.plain.2 h
    · apply not_mem_usersText (by decide)
      intro e he
      have hdisplay : '|' ∉ e.2.display :=
        not_mem_display (by decide) fun peer hp => ((hadmitted e he).2 peer hp).plain.2
      simp [ServerResponse.entryText, (hadmitted e he).1.plain.2, hdisplay]
    · exact fun e he peer hp => ((hadmitted e he).2 peer hp).plain.1

/-- Two users in a call; one of the names starts with a space. -/
def pairInCall : StatusMap :=
  (AList.singleton "bob".toList (.occupied " carol".toList)).insert " carol".toList (.occupied "bob".toList)

theorem pair_in_call_announced : Admitted "alice".toList ∧ AdmittedUsers pairInCall ∧
    ∃ users', ServerResponse.fromBytes
        (ServerResponse.loginOk "alice".toList ⟨192, 168, 0, 7, 8081⟩ pairInCall).toBytes =
      some (.loginOk "alice".toList ⟨192, 168, 0, 7, 8081⟩ users') ∧
      ∀ username, users'.lookup username = pairInCall.lookup username := by
  have hentries : ∀ username status, pairInCall.lookup username = some status →
      (username = " carol".toList ∧ status = .occupied "bob".toList) ∨
        (username = "bob".toList ∧ status = .occupied " carol".toList) := by
    intro username status hlook
    have hmem : (⟨username, status⟩ : Sigma fun _ : Str => UserStatus) ∈
        [⟨" carol".toList, .occupied "bob".toList⟩, ⟨"bob".toList, .occupied " carol".toList⟩] :=
      AList.mem_lookup_iff.mp hlook
    simpa [Sigma.ext_iff] using hmem
  have hbob : Admitted "bob".toList := by decide +kernel
  have hcarol : Admitted " carol".toList := by decide +kernel
  have husers : AdmittedUsers pairInCall := by
    intro username status hlook
    obtain ⟨rfl, rfl⟩ | ⟨rfl, rfl⟩ := hentries username status hlook
    · exact ⟨hcarol, fun peer hp => by cases hp; exact hbob⟩
    · exact ⟨hbob, fun peer hp => by cases hp; exact hcarol⟩
  have htoken : Admitted "alice".toList := by decide +kernel
  refine ⟨htoken, husers, (login_announced_iff _ htoken husers).mpr ?_⟩
  intro username status hlook
  obtain ⟨rfl, rfl⟩ | ⟨rfl, rfl⟩ := hentries username status hlook
  · refine ⟨by decide, by decide, ?_⟩
    intro peer hp
    cases hp
    decide
  · refine ⟨by decide, by decide, ?_⟩
    intro peer hp
    cases hp
    decide

/-- `validateString` lets the separators of the list through: one user named `a,b` makes
the response to everybody else's login unreadable. -/
theorem comma_name_breaks_login : Admitted "alice".toList ∧
    AdmittedUsers (AList.singleton "a,b".toList .available) ∧
    ServerResponse.fromBytes (ServerResponse.loginOk "alice".toList ⟨192, 168, 0, 7, 8081⟩
      (AList.singleton "a,b".toList .available)).toBytes = none := by
  refine ⟨by decide +kernel, ?_, by decide +kernel⟩
  intro username status hlook
  have hmem : (⟨username, status⟩ : Sigma fun _ : Str => UserStatus) ∈ [⟨"a,b".toList, .available⟩] :=
    AList.mem_lookup_iff.mp hlook
  have hname : Admitted "a,b".toList := by decide +kernel
  rw [List.mem_singleton] at hmem
  cases hmem
  exact ⟨hname, fun peer hp => by cases hp⟩

end RoomRtc
