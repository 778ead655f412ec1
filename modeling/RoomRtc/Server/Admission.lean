import RoomRtc.Foundations.Machine
import RoomRtc.Protocol.Messages

/-! How many connections the server serves at once (`client_server_handshake` of
`server/user_handler.rs` and `handle_client_conn` of `server/central_server.rs`). The handler of a
connection loads the number of users connected, writes its answer and only then adds itself, and
gives its place back on some of the ways out. Any number of handlers take these steps in any
order. -/
namespace RoomRtc
open Text
set_option autoImplicit false

/-! ## One handler -/

/-- The errors of `server/error.rs` with which a handler comes to its end. -/
inductive HandlerError where
  | connectionError
  | serverOff
  | operating (error : ServerError)
deriving DecidableEq, Repr

/-- Where the thread of a connection stands. -/
inductive HandlerPoint where
  | readHello
  | loadUsersConnected
  | sendServerFull
  | sendWelcome
  | addUserConnected
  | handleClient
  | subUserConnected (result : Except HandlerError Unit)
  | ended
deriving DecidableEq

inductive HandlerTurn where
  /-- What the first read brought, or nothing when it failed. -/
  | read (buff : Option Bytes)
  | load
  /-- Whether the answer could be written. -/
  | sendResponse (sent : Bool)
  | fetchAdd
  /-- How `handle_client` returned. -/
  | handled (result : Except HandlerError Unit)
  | fetchUpdate
deriving DecidableEq

def saturatingSub (n : UInt64) : UInt64 := if n = 0 then 0 else n - 1

/-- One step of a handler: the number of users connected and where the handler goes on. -/
def HandlerPoint.step (maxAmountOfUsersConnected usersConnected : UInt64) :
    HandlerPoint → HandlerTurn → Option (UInt64 × HandlerPoint × Option ServerResponse)
  | readHello, .read buff =>
    match buff.bind ClientMessage.fromBytes with
    | some .hello => some (usersConnected, loadUsersConnected, none)
    | _ => some (usersConnected, ended, none)
  | loadUsersConnected, .load =>
    if maxAmountOfUsersConnected ≤ usersConnected then some (usersConnected, sendServerFull, none)
    else some (usersConnected, sendWelcome, none)
  | sendServerFull, .sendResponse sent => some (usersConnected, ended, if sent then some .serverFull else none)
  | sendWelcome, .sendResponse sent =>
    if sent then some (usersConnected, addUserConnected, some .welcome) else some (usersConnected, ended, none)
  | addUserConnected, .fetchAdd => some (usersConnected + 1, handleClient, none)
  | handleClient, .handled result => some (usersConnected, subUserConnected result, none)
  | subUserConnected result, .fetchUpdate =>
    match result with
    | .ok () | .error .connectionError => some (saturatingSub usersConnected, ended, none)
    | _ => some (usersConnected, ended, none)
  | _, _ => none

namespace HandlerPoint

/-- Let in by its load and not yet added. -/
def inWindow : HandlerPoint → Bool
  | sendWelcome | addUserConnected => true
  | _ => false

/-- Added and not yet through with `handle_client_conn`. -/
def added : HandlerPoint → Bool
  | handleClient | subUserConnected _ => true
  | _ => false

/-- Answered `Welcome` and not yet through with `handle_client_conn`. -/
def live : HandlerPoint → Bool
  | addUserConnected | handleClient | subUserConnected _ => true
  | _ => false

end HandlerPoint

/-! ## All handlers -/

structure Admission where
  usersConnected : UInt64
  handlers : List HandlerPoint

inductive AdmissionEvent where
  /-- A connection is accepted and its TLS session set up. -/
  | opened
  | turn (conn : ℕ) (turn : HandlerTurn)
deriving DecidableEq

namespace Admission

def start : Admission := { usersConnected := 0, handlers := [] }

def step (maxAmountOfUsersConnected : UInt64) (s : Admission) :
    AdmissionEvent → Option (Admission × Option ServerResponse)
  | .opened => some ({ s with handlers := s.handlers ++ [.readHello] }, none)
  | .turn conn turn => do
    let point ← s.handlers[conn]?
    let r ← point.step maxAmountOfUsersConnected s.usersConnected turn
    some ({ usersConnected := r.1, handlers := s.handlers.set conn r.2.1 }, r.2.2)

def inWindow (s : Admission) : ℕ := s.handlers.countP HandlerPoint.inWindow

def added (s : Admission) : ℕ := s.handlers.countP HandlerPoint.added

def live (s : Admission) : ℕ := s.handlers.countP HandlerPoint.live

/-- A handler is let in only while the users connected and the handlers on their way to be added
leave a place. -/
def HasRoom (maxAmountOfUsersConnected : UInt64) (s : Admission) : AdmissionEvent → Prop
  | .turn _ .load => s.usersConnected < maxAmountOfUsersConnected →
    s.usersConnected.toNat + s.inWindow < maxAmountOfUsersConnected.toNat
  | _ => True

instance decidableHasRoom (maxAmountOfUsersConnected : UInt64) (s : Admission) :
    ∀ e, Decidable (HasRoom maxAmountOfUsersConnected s e)
  | .turn _ .load => inferInstanceAs (Decidable (_ → _))
  | .opened | .turn _ (.read _) | .turn _ (.sendResponse _) | .turn _ .fetchAdd | .turn _ (.handled _)
  | .turn _ .fetchUpdate => .isTrue trivial

end Admission

def admissionMachine (maxAmountOfUsersConnected : UInt64) :
    Machine Admission AdmissionEvent (Option ServerResponse) where
  step := Admission.step maxAmountOfUsersConnected

/-! ## One step -/

theorem toNat_saturatingSub (n : UInt64) : (saturatingSub n).toNat = n.toNat - 1 := by
  unfold saturatingSub
  split
  · next h => rw [h]; rfl
  · next h =>
    have hpos : 1 ≤ n.toNat := Nat.pos_of_ne_zero fun h0 => h (UInt64.toNat_inj.mp h0)
    exact UInt64.toNat_sub_of_le n 1 (UInt64.le_iff_toNat_le.mpr hpos)

/-- What a step of a handler does to the number of users connected and to its place. -/
inductive HandlerPoint.Stepped (maxAmountOfUsersConnected n : UInt64) (p : HandlerPoint) (turn : HandlerTurn)
    (n' : UInt64) (p' : HandlerPoint) : Prop
  | on : n' = n → p'.inWindow.toNat ≤ p.inWindow.toNat → p'.added.toNat ≤ p.added.toNat →
      Stepped maxAmountOfUsersConnected n p turn n' p'
  | letIn : turn = .load → n < maxAmountOfUsersConnected → n' = n → p.inWindow.toNat = 0 →
    p'.added.toNat = 0 →
      Stepped maxAmountOfUsersConnected n p turn n' p'
  | counted : n' = n + 1 → p.inWindow.toNat = 1 → p'.inWindow.toNat = 0 →
      Stepped maxAmountOfUsersConnected n p turn n' p'
  | released : n' = saturatingSub n → p.added.toNat = 1 → p'.added.toNat = 0 → p'.inWindow.toNat = 0 →
      Stepped maxAmountOfUsersConnected n p turn n' p'

theorem HandlerPoint.stepped_of_step {maxAmountOfUsersConnected n n' : UInt64} {p p' : HandlerPoint}
    {turn : HandlerTurn}
    {response : Option ServerResponse} (h : p.step maxAmountOfUsersConnected n turn = some (n', p', response)) :
    Stepped maxAmountOfUsersConnected n p turn n' p' := by
  unfold step at h
  split at h
  · split at h <;> cases h <;> exact .on rfl (le_refl 0) (le_refl 0)
  · split at h
    · cases h
      exact .on rfl (le_refl 0) (le_refl 0)
    · next hfull =>
      cases h
      exact .letIn rfl (UInt64.not_le.mp hfull) rfl rfl rfl
  · cases h
    exact .on rfl (le_refl 0) (le_refl 0)
  · split at h
    · cases h
      exact .on rfl (le_refl 1) (le_refl 0)
    · cases h
      exact .on rfl (Nat.zero_le 1) (le_refl 0)
  · cases h
    exact .counted rfl rfl rfl
  · cases h
    exact .on rfl (le_refl 0) (le_refl 1)
  · split at h
    · cases h
      exact .released rfl rfl rfl rfl
    · cases h
      exact .released rfl rfl rfl rfl
    · cases h
      exact .on rfl (le_refl 0) (Nat.zero_le 1)
  · cases h

theorem countP_set_add {α : Type} (q : α → Bool) {l : List α} {i : ℕ} {a : α} (b : α) (h : l[i]? = some a) :
    (l.set i b).countP q + (q a).toNat = l.countP q + (q b).toNat := by
  obtain ⟨hi, rfl⟩ := List.getElem?_eq_some_iff.mp h
  rw [List.countP_set hi]
  cases hq : q l[i] with
  | false => cases q b <;> simp
  | true =>
    have hpos : 0 < l.countP q := List.countP_pos_iff.mpr ⟨l[i], List.getElem_mem hi, hq⟩
    cases q b <;> simp <;> omega

namespace Admission

variable {maxAmountOfUsersConnected : UInt64} {s s' : Admission}

theorem step_turn {conn : ℕ} {turn : HandlerTurn} {response : Option ServerResponse}
    (h : s.step maxAmountOfUsersConnected (.turn conn turn) = some (s', response)) :
    ∃ p p', s.handlers[conn]? = some p ∧
      HandlerPoint.Stepped maxAmountOfUsersConnected s.usersConnected p turn s'.usersConnected p' ∧
      s'.handlers = s.handlers.set conn p' := by
  obtain ⟨p, hp, h⟩ := Option.bind_eq_some_iff.mp h
  obtain ⟨⟨n', p', r⟩, hstep, h⟩ := Option.bind_eq_some_iff.mp h
  cases h
  exact ⟨p, p', hp, HandlerPoint.stepped_of_step hstep, rfl⟩

/-- The number of users connected covers everybody who was added, and leaves a place for everybody on
the way. -/
structure Within (maxAmountOfUsersConnected : UInt64) (s : Admission) : Prop where
  added : s.added ≤ s.usersConnected.toNat
  room : s.usersConnected.toNat + s.inWindow ≤ maxAmountOfUsersConnected.toNat

theorem within_start : Within maxAmountOfUsersConnected start := by
  constructor
  · exact le_refl 0
  · exact Nat.zero_le _

theorem within_step (h : Within maxAmountOfUsersConnected s) {e : AdmissionEvent} {response : Option ServerResponse}
    (hroom : HasRoom maxAmountOfUsersConnected s e)
    (hstep : s.step maxAmountOfUsersConnected e = some (s', response)) : Within maxAmountOfUsersConnected s' := by
  obtain ⟨hadded, hwithin⟩ := h
  cases e with
  | opened =>
    cases hstep
    constructor
    · rw [added, List.countP_append]
      exact hadded
    · rw [inWindow, List.countP_append]
      exact hwithin
  | turn conn turn =>
    obtain ⟨p, p', hp, hstepped, hhandlers⟩ := step_turn hstep
    have hw := countP_set_add HandlerPoint.inWindow p' hp
    have ha := countP_set_add HandlerPoint.added p' hp
    rw [← hhandlers] at hw ha
    change s'.inWindow + _ = s.inWindow + _ at hw
    change s'.added + _ = s.added + _ at ha
    have hone : p'.inWindow.toNat ≤ 1 := Bool.toNat_le _
    have hone' : p'.added.toNat ≤ 1 := Bool.toNat_le _
    cases hstepped with
    | on hn hless hless' =>
      constructor <;> rw [hn] <;> omega
    | letIn hload hlt hn hzero hzero' =>
      subst hload
      have hplace := hroom hlt
      constructor <;> rw [hn] <;> omega
    | counted hn hfrom hto =>
      -- one of those on the way has its place, so the number does not wrap
      have hbound := maxAmountOfUsersConnected.toNat_lt
      have hnat : s'.usersConnected.toNat = s.usersConnected.toNat + 1 := by
        rw [hn, UInt64.toNat_add]
        exact Nat.mod_eq_of_lt (show s.usersConnected.toNat + 1 < _ by omega)
      constructor <;> rw [hnat] <;> omega
    | released hn hfrom hto hzero =>
      have hnat : s'.usersConnected.toNat = s.usersConnected.toNat - 1 := by
        rw [hn, toNat_saturatingSub]
      constructor <;> rw [hnat] <;> omega

/-- Let in and not yet answered. -/
def unanswered (s : Admission) : ℕ := s.handlers.countP fun p => p = .sendWelcome

/-- Who was answered `Welcome` is added or about to be. -/
theorem live_add_unanswered (s : Admission) : s.live + s.unanswered = s.inWindow + s.added := by
  unfold live unanswered inWindow added
  induction s.handlers with
  | nil => rfl
  | cons p handlers ih =>
    simp only [List.countP_cons]
    cases p <;> simp [HandlerPoint.live, HandlerPoint.inWindow, HandlerPoint.added] <;> omega

end Admission

/-! ## Whole runs -/

open Admission

/-- **The limit, where nobody is let in into a place that is taken.** In every run in which each
handler that is let in finds the users connected and the handlers between their load and their
`fetch_add` below the limit, no more connections than the limit are answered `Welcome` and not yet
terminated. -/
theorem admission_limit_of_room {maxAmountOfUsersConnected : UInt64} {events : List AdmissionEvent} {s : Admission}
    {responses : List (Option ServerResponse)}
    (hg : (admissionMachine maxAmountOfUsersConnected).Guarded
      (HasRoom maxAmountOfUsersConnected) Admission.start events)
    (hr : (admissionMachine maxAmountOfUsersConnected).run Admission.start events = some (s, responses)) :
    s.live ≤ maxAmountOfUsersConnected.toNat := by
  have hwithin : Within maxAmountOfUsersConnected s :=
    (admissionMachine maxAmountOfUsersConnected).run_invariant (Within maxAmountOfUsersConnected)
      (fun _ _ _ _ h hroom hstep => within_step h hroom hstep) within_start hg hr
  have hlive := s.live_add_unanswered
  have hadded := hwithin.added
  have hroom := hwithin.room
  omega

/-- Whoever is let in can be answered before anything else happens. -/
theorem exceeds_of_overbooked {maxAmountOfUsersConnected : UInt64} {s : Admission}
    (h : maxAmountOfUsersConnected.toNat < s.live + s.unanswered) : ∃ sends s' responses,
    (∀ e ∈ sends, ∃ conn, e = .turn conn (.sendResponse true)) ∧
      (admissionMachine maxAmountOfUsersConnected).run s sends = some (s', responses) ∧
      maxAmountOfUsersConnected.toNat < s'.live := by
  induction hn : s.unanswered generalizing s with
  | zero => exact ⟨[], s, [], nofun, rfl, by omega⟩
  | succ n ih =>
    have hpos : 0 < s.unanswered := by omega
    obtain ⟨p, hp, hwelcome⟩ := List.countP_pos_iff.mp hpos
    obtain rfl : p = .sendWelcome := of_decide_eq_true hwelcome
    obtain ⟨conn, hconn⟩ := List.mem_iff_getElem?.mp hp
    have hlive := countP_set_add HandlerPoint.live .addUserConnected hconn
    have hless := countP_set_add (fun p => decide (p = .sendWelcome)) .addUserConnected hconn
    let next : Admission := { s with handlers := s.handlers.set conn .addUserConnected }
    have hstep : (admissionMachine maxAmountOfUsersConnected).step s (.turn conn (.sendResponse true)) =
        some (next, some .welcome) := by
      show Admission.step maxAmountOfUsersConnected s (.turn conn (.sendResponse true)) = _
      rw [Admission.step, hconn]
      rfl
    change next.live + 0 = s.live + 1 at hlive
    change next.unanswered + 1 = s.unanswered + 0 at hless
    obtain ⟨sends, s', responses, hsends, hr, hmore⟩ := @ih next (by omega) (by omega)
    refine ⟨_ :: sends, s', _, ?_, (admissionMachine maxAmountOfUsersConnected).run_cons hstep hr, hmore⟩
    intro e he
    obtain rfl | he := List.mem_cons.mp he
    · exact ⟨conn, rfl⟩
    · exact hsends e he

/-- **A load without room is enough.** Where everybody who left gave the place back, a handler that
is let in without room can be answered, with the others on their way, beyond the limit. -/
theorem exceeds_without_room {maxAmountOfUsersConnected : UInt64} {s s' : Admission} {conn : ℕ}
    {response : Option ServerResponse} (hexact : s.usersConnected.toNat = s.added)
    (hstep : s.step maxAmountOfUsersConnected (.turn conn .load) = some (s', response))
    (hroom : ¬HasRoom maxAmountOfUsersConnected s (.turn conn .load)) : ∃ sends t responses,
    (∀ e ∈ sends, ∃ conn, e = .turn conn (.sendResponse true)) ∧
      (admissionMachine maxAmountOfUsersConnected).run s' sends = some (t, responses) ∧
      maxAmountOfUsersConnected.toNat < t.live := by
  obtain ⟨hlt, hfull⟩ := Classical.not_imp.mp hroom
  obtain ⟨p, hp, hstep⟩ := Option.bind_eq_some_iff.mp hstep
  obtain ⟨r, hload, hstep⟩ := Option.bind_eq_some_iff.mp hstep
  cases p with
  | loadUsersConnected =>
    rw [HandlerPoint.step, if_neg (UInt64.not_le.mpr hlt)] at hload
    cases hload
    have hhandlers : s'.handlers = s.handlers.set conn .sendWelcome := by
      cases hstep
      rfl
    have hw := countP_set_add HandlerPoint.inWindow .sendWelcome hp
    have ha := countP_set_add HandlerPoint.added .sendWelcome hp
    rw [← hhandlers] at hw ha
    change s'.inWindow + 0 = s.inWindow + 1 at hw
    change s'.added + 0 = s.added + 0 at ha
    apply exceeds_of_overbooked
    rw [live_add_unanswered]
    omega
  | _ => cases hload

/-- The bytes of a first message, and a connection up to its load. -/
def helloBytes : Bytes := [72, 69, 76, 76, 79, 10]

def upToLoad (conn : ℕ) : List AdmissionEvent :=
  [.opened, .turn conn (.read (some helloBytes)), .turn conn .load]

/-- A second connection comes while the first one is between its load and its `fetch_add`, and there
is a place for it. -/
def roomForTwo : List AdmissionEvent :=
  upToLoad 0 ++ upToLoad 1 ++ [.turn 1 (.sendResponse true), .turn 0 (.sendResponse true)]

theorem two_within_limit : ∃ s responses,
    (admissionMachine 2).run Admission.start roomForTwo = some (s, responses) ∧
    (admissionMachine 2).Guarded (HasRoom 2) Admission.start roomForTwo ∧ s.live = 2 ∧
    s.live ≤ (2 : UInt64).toNat := by
  have hg : (admissionMachine 2).Guarded (HasRoom 2) Admission.start roomForTwo := by decide
  exact ⟨_, _, rfl, hg, by decide, admission_limit_of_room hg rfl⟩

/-- Two handlers load the same number, and both answer `Welcome` where there is one place. -/
theorem two_in_one_place : ∃ s responses, (admissionMachine 1).run Admission.start
      (upToLoad 0 ++ upToLoad 1 ++ [.turn 0 (.sendResponse true), .turn 1 (.sendResponse true)]) =
        some (s, responses) ∧
    ¬s.live ≤ (1 : UInt64).toNat := by
  exact ⟨_, _, rfl, by decide⟩

end RoomRtc
