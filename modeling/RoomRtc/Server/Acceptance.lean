import Mathlib.Algebra.GroupWithZero.Nat
import RoomRtc.Server.Ringing

/-! Acceptances and the calls they answer. All that the server keeps of a call is that each of its
two users is occupied with the other one: who called, and whether the call was accepted before, is
nowhere. -/
namespace RoomRtc
open OperatingServer UserHandler
set_option autoImplicit false

instance decidableAccepts (users : Users) (fromUsr toUsr : Str) : Decidable (Accepts users fromUsr toUsr) :=
  decidable_of_iff ((streamOf users toUsr).isSome ∧ statusOf users fromUsr = some (.occupied toUsr) ∧
    statusOf users toUsr = some (.occupied fromUsr))
    (by rw [Accepts, hasStream_iff_streamOf, Option.isSome_iff_exists])

section acceptance
variable {Sdp : Type}

/-! ## Calls made and acceptances told -/

/-- The step answers a request of this caller to this callee with `CallRequestOk`. -/
def grantsRequest (caller callee : Str) (x : ServerTaken Sdp) : Bool :=
  match x.input with
  | .received _ (some (.callRequest token _ toUsr)) _ =>
    token = caller && toUsr = callee && x.output.response = some .callRequestOk
  | _ => false

/-- The step answers an acceptance of this callee to this caller with `CallAcceptOk`. -/
def grantsAcceptance (caller callee : Str) (x : ServerTaken Sdp) : Bool :=
  match x.input with
  | .received _ (some (.callAccept fromUsr toUsr _)) _ =>
    fromUsr = callee && toUsr = caller && x.output.response = some .callAcceptOk
  | _ => false

def isAcceptanceFrom (callee : Str) : ServerMessage Sdp → Bool
  | .callAccepted fromUsr _ => fromUsr = callee
  | _ => false

/-- How many `CallAccepted` messages from the callee the step pushes to the caller. They go to the
stream of the user that the acceptance is for. -/
def acceptancesTold (caller callee : Str) (x : ServerTaken Sdp) : ℕ :=
  match x.input with
  | .received _ (some (.callAccept _ toUsr _)) _ =>
    if toUsr = caller then x.output.pushed.countP fun m => isAcceptanceFrom callee m.2 else 0
  | _ => 0

/-- At no point of the history was a caller told of more acceptances than it had made calls. -/
def EachAnswersACall (trace : List (ServerTaken Sdp)) : Prop :=
  ∀ past rest, trace = past ++ rest → ∀ caller callee,
    (past.map (acceptancesTold caller callee)).sum ≤ past.countP (grantsRequest caller callee)

/-- An acceptance goes through only after a request of its caller to its callee, and as the first one
since the last such request. -/
def FirstSinceRequest (past : List (ServerTaken Sdp)) (x : ServerTaken Sdp) : Prop :=
  match x.input with
  | .received _ (some (.callAccept fromUsr toUsr _)) _ =>
    Accepts x.state.users fromUsr toUsr →
      (lastOf (grantsRequest toUsr fromUsr) past).isSome = true ∧
        ∀ y ∈ since (grantsRequest toUsr fromUsr) past, grantsAcceptance toUsr fromUsr y = false
  | _ => True

instance decidableFirstSinceRequest (past : List (ServerTaken Sdp)) :
    ∀ x : ServerTaken Sdp, Decidable (FirstSinceRequest past x)
  | ⟨s, .received _ (some (.callAccept fromUsr toUsr _)) _, _⟩ =>
    inferInstanceAs (Decidable (Accepts s.users fromUsr toUsr → _ ∧ ∀ y ∈ _, _ = false))
  | ⟨_, .received _ none _, _⟩ | ⟨_, .received _ (some .hello) _, _⟩
  | ⟨_, .received _ (some (.logIn _ _)) _, _⟩
  | ⟨_, .received _ (some (.signUp _ _)) _, _⟩ | ⟨_, .received _ (some (.logOut _)) _, _⟩
  | ⟨_, .received _ (some (.callRequest _ _ _)) _, _⟩ | ⟨_, .received _ (some (.callReject _ _)) _, _⟩
  | ⟨_, .received _ (some (.callHangup _)) _, _⟩ | ⟨_, .opened, _⟩ | ⟨_, .written _, _⟩
  | ⟨_, .writeFailed _, _⟩
  | ⟨_, .eof _, _⟩ | ⟨_, .readError _, _⟩ | ⟨_, .streamMapped _ _, _⟩ => .isTrue trivial

variable {s' : Server} {x : ServerTaken Sdp} {caller callee : Str}

/-- An acceptance goes through just when its guards hold, and then is told once. -/
theorem acceptance_answered {s : Server} {o : ServerOutput Sdp} {conn : ℕ} {fromUsr toUsr : Str} {sdpAnswer : Sdp}
    {disk : DiskWrite}
    (hstep : s.step (.received conn (some (.callAccept fromUsr toUsr sdpAnswer)) disk) = some (s', o)) :
    (o.response = some .callAcceptOk ∧ Accepts s.users fromUsr toUsr ∧
        ∃ stream, o.pushed = [(stream, .callAccepted fromUsr sdpAnswer)]) ∨
      (o.response ≠ some .callAcceptOk ∧ o.pushed = []) := by
  simp only [Server.step] at hstep
  split at hstep
  · next name hc =>
    cases hstep
    show (some ((s.view name).callAccept fromUsr toUsr sdpAnswer).response = _ ∧ _ ∧
        ∃ stream, ((s.view name).callAccept fromUsr toUsr sdpAnswer).pushed = _) ∨
      (some ((s.view name).callAccept fromUsr toUsr sdpAnswer).response ≠ _ ∧
        ((s.view name).callAccept fromUsr toUsr sdpAnswer).pushed = _)
    by_cases ha : Accepts s.users fromUsr toUsr
    · obtain ⟨stream, hr⟩ := callAccept_granted (s.view name) sdpAnswer ha
      rw [hr]
      exact .inl ⟨rfl, ha, stream, rfl⟩
    · obtain ⟨text, hr⟩ := callAccept_denied (s.view name) sdpAnswer ha
      rw [hr]
      refine .inr ⟨fun hbad => ?_, rfl⟩
      cases hbad
  · cases hstep

/-- Nobody is told of an acceptance that is not granted, and of one that is granted once. -/
theorem told_eq (hstep : x.state.step x.input = some (s', x.output)) (caller callee : Str) :
    acceptancesTold caller callee x = if grantsAcceptance caller callee x = true then 1 else 0 := by
  unfold acceptancesTold grantsAcceptance
  split
  · next conn fromUsr toUsr sdpAnswer disk hinput =>
    rw [hinput] at hstep
    obtain ⟨hok, _, stream, hpushed⟩ | ⟨hno, hpushed⟩ := acceptance_answered hstep
    · rw [hok, hpushed]
      by_cases hto : toUsr = caller <;> by_cases hfrom : fromUsr = callee <;> simp [hto, hfrom, isAcceptanceFrom]
    · rw [hpushed]
      simp [hno]
  · rfl

theorem input_of_grantsAcceptance (h : grantsAcceptance caller callee x = true) :
    (∃ conn sdpAnswer disk, x.input = .received conn (some (.callAccept callee caller sdpAnswer)) disk) ∧
      x.output.response = some .callAcceptOk := by
  unfold grantsAcceptance at h
  split at h
  · next conn fromUsr toUsr sdpAnswer disk hinput =>
    simp only [Bool.and_eq_true, decide_eq_true_eq] at h
    obtain ⟨⟨rfl, rfl⟩, hok⟩ := h
    exact ⟨⟨conn, sdpAnswer, disk, hinput⟩, hok⟩
  · cases h

theorem acceptance_no_request (h : grantsAcceptance caller callee x = true) :
    grantsRequest caller callee x = false := by
  obtain ⟨⟨conn, sdpAnswer, disk, hinput⟩, _⟩ := input_of_grantsAcceptance h
  rw [grantsRequest, hinput]

/-- The condition at an acceptance that was granted. -/
theorem first_of_granted {past : List (ServerTaken Sdp)} (hfirst : FirstSinceRequest past x)
    (hstep : x.state.step x.input = some (s', x.output)) (h : grantsAcceptance caller callee x = true) :
    (lastOf (grantsRequest caller callee) past).isSome = true ∧
      ∀ y ∈ since (grantsRequest caller callee) past, grantsAcceptance caller callee y = false := by
  obtain ⟨⟨conn, sdpAnswer, disk, hinput⟩, hok⟩ := input_of_grantsAcceptance h
  rw [hinput] at hstep
  rw [FirstSinceRequest, hinput] at hfirst
  obtain ⟨_, ha, _⟩ | ⟨hno, _⟩ := acceptance_answered hstep
  · exact hfirst ha
  · exact absurd hok hno

/-! ## Whole runs -/

theorem step_of_trace {s : Server} {events : List (ServerEvent Sdp)} {past rest : List (ServerTaken Sdp)}
    (h : (serverMachine Sdp).trace s events = past ++ x :: rest) : ∃ s', x.state.step x.input = some (s', x.output) :=
  ((serverMachine Sdp).trace_induction (fun _ _ => True) (fun _ _ _ _ _ _ _ => trivial) trivial h).2

theorem sum_told {s : Server} {events : List (ServerEvent Sdp)} {past rest : List (ServerTaken Sdp)}
    (h : (serverMachine Sdp).trace s events = past ++ rest) (caller callee : Str) :
    (past.map (acceptancesTold caller callee)).sum = past.countP (grantsAcceptance caller callee) := by
  induction past using List.reverseRecOn generalizing rest with
  | nil => rfl
  | append_singleton past x ih =>
    rw [List.append_assoc] at h
    obtain ⟨s', hstep⟩ := step_of_trace h
    rw [List.map_append, List.sum_append, List.countP_append, ih h, List.map_singleton, List.sum_singleton,
      told_eq hstep, List.countP_singleton]

/-- **Each acceptance answers a call, where no call is accepted twice or by its caller.** In every run
of the server in which each acceptance that goes through is the first one since a request of its
caller to its callee, no caller is ever told of more acceptances than it has made calls. -/
theorem acceptances_answer_calls (address : SocketAddr) (file : Bytes) (events : List (ServerEvent Sdp))
    (h : AtEvery FirstSinceRequest ((serverMachine Sdp).trace (Server.start address file) events)) :
    EachAnswersACall ((serverMachine Sdp).trace (Server.start address file) events) := by
  intro past rest hsplit caller callee
  rw [sum_told hsplit]
  apply countP_le_of_answers fun x => acceptance_no_request
  rintro earlier x later rfl hgranted
  rw [List.append_assoc] at hsplit
  obtain ⟨s', hstep⟩ := step_of_trace hsplit
  exact first_of_granted (h earlier x _ hsplit) hstep hgranted

end acceptance

/-- Bob accepts the call of alice. -/
def bobAccepts : List (ServerEvent Unit) :=
  aliceCallsBob ++ [.received 1 (some (.callAccept "bob".toList "alice".toList ())) .done, .written 1]

theorem bob_accepts_once :
    AtEvery FirstSinceRequest ((serverMachine Unit).trace (Server.start ⟨127, 0, 0, 1, 8081⟩ []) bobAccepts) ∧
      EachAnswersACall ((serverMachine Unit).trace (Server.start ⟨127, 0, 0, 1, 8081⟩ []) bobAccepts) := by
  have h : AtEvery FirstSinceRequest
    ((serverMachine Unit).trace (Server.start ⟨127, 0, 0, 1, 8081⟩ []) bobAccepts) := by
    decide +kernel
  exact ⟨h, acceptances_answer_calls _ _ _ h⟩

/-- Bob accepts the call twice, and alice accepts her own call: alice is told of two acceptances of
one call, and bob of the acceptance of a call that he did not make. -/
theorem accepted_twice_or_by_caller :
    ¬EachAnswersACall ((serverMachine Unit).trace (Server.start ⟨127, 0, 0, 1, 8081⟩ [])
      (bobAccepts ++ [.received 1 (some (.callAccept "bob".toList "alice".toList ())) .done])) ∧
    ¬EachAnswersACall ((serverMachine Unit).trace (Server.start ⟨127, 0, 0, 1, 8081⟩ [])
      (aliceCallsBob ++ [.received 0 (some (.callAccept "alice".toList "bob".toList ())) .done])) := by
  constructor
  · intro h
    have htwice := h _ [] (List.append_nil _).symm "alice".toList "bob".toList
    exact absurd htwice (by decide +kernel)
  · intro h
    have hown := h _ [] (List.append_nil _).symm "bob".toList "alice".toList
    exact absurd hown (by decide +kernel)

end RoomRtc
