import RoomRtc.Foundations.Machine
import RoomRtc.Server.OperatingServer

/-! The users file against the account table. The server appends one record per account and
reads the records back when it starts; the table is read back unchanged just when no account
that was registered has a newline in its name or password or a carriage return at the end of
its password. -/
namespace RoomRtc
open Text OperatingServer
set_option autoImplicit false

/-! ## Signing up -/

/-- A server that has just started on a users file. -/
def startUp (address : SocketAddr) (file : Bytes) : OperatingServer :=
  { users := loadUsersFromMem file, serverClientSocketAddress := address, usersFile := file, username := none }

/-- Sign-ups one after the other, with every write to the file succeeding. -/
def signups : Machine OperatingServer (Str × Str) ServerResponse where
  step s account :=
    let r : Outcome Empty := s.signupUser account.1 account.2 .done
    some (r.server, r.response)

/-- What a server can have left in its users file: the records of admitted accounts. -/
inductive WrittenByServer : Bytes → Prop
  | empty : WrittenByServer []
  | append {file : Bytes} {username password : Str} : WrittenByServer file → Admitted username →
      Admitted password → WrittenByServer (file ++ encode (record username password))

def passwordOf (users : Users) (username : Str) : Option Str := (users.lookup username).map UserData.password

/-- The file gives back the table, from username to password. -/
def FileFaithful (s : OperatingServer) : Prop :=
  ∀ username, passwordOf (loadUsersFromMem s.usersFile) username = passwordOf s.users username

/-- The sign-up adds the account. -/
def Registers (s : OperatingServer) (account : Str × Str) : Prop :=
  Admitted account.1 ∧ Admitted account.2 ∧ s.users.lookup account.1 = none

/-- A record of this account is one line, and the line ends with the password. -/
def Storable (account : Str × Str) : Prop :=
  '\n' ∉ account.1 ∧ '\n' ∉ account.2 ∧ account.2.getLast? ≠ some '\r'

instance : DecidablePred Storable := fun _ => inferInstanceAs (Decidable (_ ∧ _ ∧ _))

def RegistersStorable (s : OperatingServer) (account : Str × Str) : Prop :=
  Registers s account → Storable account

def registered (s : OperatingServer) (account : Str × Str) : OperatingServer :=
  { s with
    users := s.users.insert account.1 (UserData.new account.1 account.2 .offline)
    usersFile := s.usersFile ++ encode (record account.1 account.2) }

theorem step_of_registers {s : OperatingServer} {account : Str × Str} (h : Registers s account) :
    signups.step s account = some (registered s account, .signupOk) := by
  obtain ⟨hu, hp, hnew⟩ := h
  show some (_, _) = _
  rw [signupUser, show validateString account.1 = .ok () from hu, show validateString account.2 = .ok () from hp,
    hnew]
  rfl

theorem step_of_refused {s : OperatingServer} {account : Str × Str} (h : ¬Registers s account) :
    ∃ r, signups.step s account = some (s, r) := by
  refine ⟨(s.signupUser account.1 account.2 .done : Outcome Empty).response, ?_⟩
  have hserver : (s.signupUser account.1 account.2 .done : Outcome Empty).server = s := by
    cases hu : validateString account.1 with
    | error e => simp [signupUser, hu]
    | ok _ =>
      cases hp : validateString account.2 with
      | error e => simp [signupUser, hu, hp]
      | ok _ =>
        cases hl : s.users.lookup account.1 with
        | none => exact absurd ⟨hu, hp, hl⟩ h
        | some data => simp [signupUser, hu, hp, hl]
  show some (_, _) = _
  rw [hserver]

/-! ## Reading a record back -/

theorem passwordOf_insert (users : Users) (name other : Str) (data : UserData) :
    passwordOf (users.insert name data) other =
      if other = name then some data.password else passwordOf users other := by
  unfold passwordOf
  by_cases h : other = name
  · subst h
    rw [AList.lookup_insert, if_pos rfl, Option.map_some]
  · rw [AList.lookup_insert_ne h, if_neg h]

theorem stripCr_append (a p : Str) {c : Char} (hc : c ≠ '\r') :
    stripCr (a ++ c :: p) = a ++ c :: stripCr p := by
  unfold stripCr
  rw [List.getLast?_append_of_ne_nil a (List.cons_ne_nil c p)]
  cases hp : p.getLast? with
  | none =>
    rw [List.getLast?_eq_none_iff.mp hp]
    simp [hc]
  | some d =>
    have hne : p ≠ [] := by
      intro h
      simp [h] at hp
    rw [List.getLast?_cons, hp, Option.getD_some, List.dropLast_append_of_ne_nil (List.cons_ne_nil c p),
      List.dropLast_cons_of_ne_nil hne]
    split <;> rfl

/-- A record without a newline in its fields is one line, and the loader takes it as the
account it was written for, but for a carriage return behind the password. -/
theorem load_record {file : Bytes} {account : Str × Str} (hfile : Terminated file)
    (hcolon : ':' ∉ account.1) (hu : '\n' ∉ account.1) (hp : '\n' ∉ account.2) :
    loadUsersFromMem (file ++ encode (record account.1 account.2)) =
      (loadUsersFromMem file).insert account.1 (UserData.new account.1 (stripCr account.2) .offline) := by
  have hline : '\n' ∉ account.1 ++ ':' :: account.2 := by simp [hu, hp]
  have hlines : lines (encode (record account.1 account.2)) =
      [some (account.1 ++ ':' :: stripCr account.2)] := by
    rw [record, lines_encode_concat, List.splitOn_eq_singleton hline, List.map_singleton,
      stripCr_append _ _ (by decide)]
  rw [loadUsersFromMem, lines_append hfile, List.foldl_append, hlines]
  simp only [List.foldl_cons, List.foldl_nil, loadLine, Option.bind_some, splitOnce_append _ hcolon]
  rfl

/-- Nothing that is read back holds a newline. -/
theorem newline_not_mem_loaded {file : Bytes} {name password : Str}
    (h : passwordOf (loadUsersFromMem file) name = some password) : '\n' ∉ name ∧ '\n' ∉ password := by
  revert name password
  apply load_induction (fun users => ∀ {name password},
    passwordOf users name = some password → '\n' ∉ name ∧ '\n' ∉ password)
  · intro name password h
    cases h
  · intro users line username q husers hline hsplit name password h
    have htext := newline_not_mem_lines hline
    rw [splitOnce_eq_some hsplit] at htext
    rw [passwordOf_insert] at h
    split at h
    · cases h
      simp_all [UserData.new]
    · exact husers h

theorem terminated_of_written {file : Bytes} (h : WrittenByServer file) : Terminated file := by
  cases h with
  | empty => exact .inl rfl
  | append _ _ _ => exact terminated_append _ _

/-! ## One sign-up -/

/-- An account of the table that a restart does not give back. -/
def Lost (s : OperatingServer) : Prop :=
  ∃ name password, passwordOf s.users name = some password ∧
    passwordOf (loadUsersFromMem s.usersFile) name ≠ some password

theorem Lost.not_faithful {s : OperatingServer} (h : Lost s) : ¬FileFaithful s := by
  obtain ⟨name, password, hmem, hfile⟩ := h
  intro hs
  apply hfile
  rw [hs name, hmem]

theorem passwordOf_registered (s : OperatingServer) (account : Str × Str) (name : Str) :
    passwordOf (registered s account).users name =
      if name = account.1 then some account.2 else passwordOf s.users name :=
  passwordOf_insert s.users account.1 name _

theorem passwordOf_reloaded {s : OperatingServer} {account : Str × Str} (hfile : Terminated s.usersFile)
    (h : Registers s account) (hu : '\n' ∉ account.1) (hp : '\n' ∉ account.2) (name : Str) :
    passwordOf (loadUsersFromMem (registered s account).usersFile) name =
      if name = account.1 then some (stripCr account.2) else passwordOf (loadUsersFromMem s.usersFile) name := by
  rw [registered, load_record hfile h.1.plain.1 hu hp, passwordOf_insert]
  rfl

theorem registered_faithful {s : OperatingServer} {account : Str × Str} (hfile : Terminated s.usersFile)
    (hs : FileFaithful s) (h : Registers s account) (hst : Storable account) :
    FileFaithful (registered s account) := by
  intro name
  rw [passwordOf_registered, passwordOf_reloaded hfile h hst.1 hst.2.1, stripCr, if_neg hst.2.2, hs name]

/-- A record with a newline in it is never read back as its account; one that only has a
carriage return at the end comes back with a shorter password. -/
theorem registered_lost {s : OperatingServer} {account : Str × Str} (hfile : Terminated s.usersFile)
    (h : Registers s account) (hst : ¬Storable account) : Lost (registered s account) := by
  refine ⟨account.1, account.2, ?_, ?_⟩
  · rw [passwordOf_registered, if_pos rfl]
  · intro hload
    obtain ⟨hu, hp⟩ := newline_not_mem_loaded hload
    rw [passwordOf_reloaded hfile h hu hp, if_pos rfl] at hload
    have hstrip : stripCr account.2 = account.2 := Option.some.inj hload
    apply hst
    refine ⟨hu, hp, ?_⟩
    intro hcr
    rw [stripCr, if_pos hcr] at hstrip
    have hlen := congrArg List.length hstrip
    rw [List.length_dropLast] at hlen
    have hpos := List.length_pos_iff.mpr h.2.1.ne_nil
    omega

/-- What is lost stays lost: a later record is for another name, or is lost itself. -/
theorem Lost.registered {s : OperatingServer} {account : Str × Str} (hfile : Terminated s.usersFile)
    (hl : Lost s) (h : Registers s account) : Lost (registered s account) := by
  by_cases hst : Storable account
  · obtain ⟨name, password, hmem, hload⟩ := hl
    have hne : name ≠ account.1 := by
      intro he
      rw [he, passwordOf, h.2.2] at hmem
      cases hmem
    refine ⟨name, password, ?_, ?_⟩
    · rw [passwordOf_registered, if_neg hne, hmem]
    · rw [passwordOf_reloaded hfile h hst.1 hst.2.1, if_neg hne]
      exact hload
  · exact registered_lost hfile h hst

/-! ## A sequence of sign-ups -/

theorem signups_total (accounts : List (Str × Str)) (s : OperatingServer) :
    ∃ t rs, signups.run s accounts = some (t, rs) := by
  induction accounts generalizing s with
  | nil => exact ⟨s, [], rfl⟩
  | cons account accounts ih =>
    obtain ⟨t, rs, hr⟩ := ih (s.signupUser account.1 account.2 .done : Outcome Empty).server
    exact ⟨t, _, signups.run_cons rfl hr⟩

theorem lost_run {s t : OperatingServer} {accounts : List (Str × Str)} {rs : List ServerResponse}
    (hfile : Terminated s.usersFile) (hl : Lost s) (hr : signups.run s accounts = some (t, rs)) : Lost t := by
  have hinv : Terminated t.usersFile ∧ Lost t := by
    apply signups.run_invariant (fun s => Terminated s.usersFile ∧ Lost s) (G := fun _ _ => True) _ ⟨hfile, hl⟩
      (signups.guarded_of_forall fun _ _ _ => trivial) hr
    intro s account s' r hs _ hstep
    by_cases h : Registers s account
    · rw [step_of_registers h] at hstep
      cases hstep
      exact ⟨terminated_append _ _, hs.2.registered hs.1 h⟩
    · obtain ⟨r', hstep'⟩ := step_of_refused h
      rw [hstep'] at hstep
      cases hstep
      exact hs
  exact hinv.2

/-- From a faithful state the file stays faithful to the end exactly when every account that
is added is storable. -/
theorem faithful_run_iff {s : OperatingServer} (accounts : List (Str × Str)) (hfile : Terminated s.usersFile)
    (hs : FileFaithful s) : ∃ t rs, signups.run s accounts = some (t, rs) ∧
      (FileFaithful t ↔ signups.Guarded RegistersStorable s accounts) := by
  induction accounts generalizing s with
  | nil => exact ⟨s, [], rfl, iff_of_true hs trivial⟩
  | cons account accounts ih =>
    by_cases h : Registers s account
    · have hstep := step_of_registers h
      have hguard : signups.Guarded RegistersStorable s (account :: accounts) ↔
          Storable account ∧ signups.Guarded RegistersStorable (registered s account) accounts := by
        constructor
        · exact fun hg => ⟨hg.1 h, hg.2 _ _ hstep⟩
        · intro hg
          refine ⟨fun _ => hg.1, ?_⟩
          intro s' r hstep'
          rw [hstep] at hstep'
          cases hstep'
          exact hg.2
      by_cases hst : Storable account
      · obtain ⟨t, rs, hr, hiff⟩ := ih (terminated_append _ _) (registered_faithful hfile hs h hst)
        refine ⟨t, _, signups.run_cons hstep hr, ?_⟩
        rw [hiff, hguard]
        exact (and_iff_right hst).symm
      · -- the account is lost here, whatever follows
        obtain ⟨t, rs, hr⟩ := signups_total accounts (registered s account)
        have hlost := lost_run (terminated_append _ _) (registered_lost hfile h hst) hr
        refine ⟨t, _, signups.run_cons hstep hr, iff_of_false hlost.not_faithful ?_⟩
        intro hg
        exact hst (hguard.mp hg).1
    · obtain ⟨r, hstep⟩ := step_of_refused h
      obtain ⟨t, rs, hr, hiff⟩ := ih hfile hs
      refine ⟨t, _, signups.run_cons hstep hr, hiff.trans ?_⟩
      constructor
      · intro hg
        refine ⟨fun hreg => absurd hreg h, ?_⟩
        intro s' r' hstep'
        rw [hstep] at hstep'
        cases hstep'
        exact hg
      · exact fun hg => hg.2 _ _ hstep

/-- **A restart.** After any sequence of sign-ups on a file that the server wrote, the file
gives back exactly the table in memory just when every account that a sign-up added has no
newline in its name or its password and no carriage return at the end of its password. -/
theorem users_file_faithful_iff (address : SocketAddr) {file : Bytes} (hfile : WrittenByServer file)
    (accounts : List (Str × Str)) : ∃ s rs, signups.run (startUp address file) accounts = some (s, rs) ∧
      (FileFaithful s ↔ signups.Guarded RegistersStorable (startUp address file) accounts) :=
  faithful_run_iff accounts (terminated_of_written hfile) fun _ => rfl

/-- The second of these is refused, the third has a space in front of its name. -/
def threeSignups : List (Str × Str) :=
  [("alice".toList, "a;b".toList), ("carol".toList, "x".toList), (" bob".toList, "y\t".toList)]

theorem restart_keeps_accounts : ∃ s rs,
    signups.run (startUp ⟨127, 0, 0, 1, 8081⟩ (encode (record "carol".toList "pw".toList))) threeSignups =
      some (s, rs) ∧ s.users.keys.length = 3 ∧ FileFaithful s := by
  have hfile : WrittenByServer ([] ++ encode (record "carol".toList "pw".toList)) :=
    .append .empty (by decide +kernel) (by decide +kernel)
  obtain ⟨s, rs, hr, hiff⟩ := users_file_faithful_iff ⟨127, 0, 0, 1, 8081⟩ hfile threeSignups
  refine ⟨s, rs, hr, ?_, ?_⟩
  · have hlen : (signups.run (startUp ⟨127, 0, 0, 1, 8081⟩ ([] ++ encode (record "carol".toList "pw".toList)))
        threeSignups).map (fun r => r.1.users.keys.length) = some 3 := by
      decide +kernel
    rw [hr] at hlen
    exact Option.some.inj hlen
  · apply hiff.mpr
    apply signups.guarded_of_forall
    intro account haccount _ _
    have hall : ∀ account ∈ threeSignups, Storable account := by decide +kernel
    exact hall account haccount

/-- `validateString` looks at the trimmed name, the record holds the name as it came: the
newline behind it makes two lines of the record, and the loader finds an account without a
name instead of this one. -/
theorem newline_name_lost : WrittenByServer [] ∧ ∃ s rs,
    signups.run (startUp ⟨127, 0, 0, 1, 8081⟩ []) [("alice\n".toList, "pw".toList)] = some (s, rs) ∧
      rs = [.signupOk] ∧ passwordOf s.users "alice\n".toList = some "pw".toList ∧
      passwordOf (loadUsersFromMem s.usersFile) "alice\n".toList = none ∧
      passwordOf s.users [] = none ∧ passwordOf (loadUsersFromMem s.usersFile) [] = some "pw".toList ∧
      ¬FileFaithful s := by
  refine ⟨.empty, _, _, rfl, ?_, ?_, ?_, ?_, ?_, ?_⟩
  · decide +kernel
  · decide +kernel
  · decide +kernel
  · decide +kernel
  · decide +kernel
  · intro h
    have hname := h []
    revert hname
    decide +kernel

end RoomRtc
