import RoomRtc.Session.Checks
import RoomRtc.Transport.Handshake

/-! Two agents that check each other (`verify_candidate_pair` on both sides), with every interleaving of
their loops. A side that has its pong leaves the loop and answers no more pings; on a network that
loses nothing and keeps the order the other side's pong is on its way by then. -/
namespace RoomRtc.Session
open Transport (Peer)
set_option autoImplicit false

/-! ## One more turn -/

/-- What a turn sends to the target. -/
def turnSends (target : Str) : Attempt → List Bytes
  | .sendFailed => []
  | .timedOut => [ping]
  | .received src datagram =>
    if speaksFor target src && decide (message datagram = ping) then [ping, pong] else [ping]

section turns
variable {target : Str}

theorem verify_cons (attempt : Attempt) (attempts : List Attempt) :
    verifyCandidatePair target (attempt :: attempts) =
      if accepts target attempt then (true, turnSends target attempt)
      else ((verifyCandidatePair target attempts).1,
        turnSends target attempt ++ (verifyCandidatePair target attempts).2) := by
  cases attempt with
  | sendFailed => simp [verifyCandidatePair, accepts, turnSends]
  | timedOut => simp [verifyCandidatePair, accepts, turnSends]
  | received src datagram =>
    cases hs : speaksFor target src with
    | false => simp [verifyCandidatePair, accepts, turnSends, hs]
    | true =>
      by_cases hpong : message datagram = pong
      · have hne : pong ≠ ping := by decide
        simp [verifyCandidatePair, accepts, turnSends, hs, hpong, hne]
      · by_cases hping : message datagram = ping
        · have hne : ping ≠ pong := by decide
          simp [verifyCandidatePair, accepts, turnSends, hs, hping, hne]
        · simp [verifyCandidatePair, accepts, turnSends, hs, hpong, hping]

/-- A turn after turns that did not end the check. -/
theorem verify_concat {attempts : List Attempt} (h : (verifyCandidatePair target attempts).1 = false)
    (attempt : Attempt) : verifyCandidatePair target (attempts ++ [attempt]) =
      (accepts target attempt, (verifyCandidatePair target attempts).2 ++ turnSends target attempt) := by
  induction attempts with
  | nil =>
    rw [List.nil_append, verify_cons]
    cases accepts target attempt <;> simp [verifyCandidatePair]
  | cons a attempts ih =>
    rw [verify_cons] at h
    rw [List.cons_append, verify_cons, verify_cons]
    split at h
    · cases h
    · next ha =>
      rw [if_neg ha, if_neg ha, ih h, List.append_assoc]

end turns

/-! ## Two sides -/

structure SocketAddrV4 where
  ip : Ipv4Addr
  port : UInt16
deriving DecidableEq, Repr

/-- Where a side stands in its check: at the top of the loop, waiting for a datagram after its ping, or
back with the result. -/
inductive CheckPoint where
  | top
  | waiting
  | returned (valid : Bool)
deriving DecidableEq, Repr

structure Checker where
  point : CheckPoint
  /-- The turns it has taken. -/
  attempts : List Attempt
  sent : List Bytes
  /-- The datagrams on their way to it, oldest first. -/
  inFlight : List Bytes
deriving DecidableEq, Repr

inductive CheckAction where
  | sendFails
  | pings
  | timesOut
  | receives (k : ℕ)
  /-- The two seconds are over. -/
  | expires
  /-- The network loses a datagram on its way to the side, or delivers it once more. -/
  | lost (k : ℕ)
  | doubled (k : ℕ)
deriving DecidableEq, Repr

/-- A network that loses nothing, doubles nothing and keeps the order. -/
def CheckAction.Orderly : CheckAction → Prop
  | .receives k => k = 0
  | .lost _ => False
  | .doubled _ => False
  | _ => True

namespace Checker

def new : Checker := ⟨.top, [], [], []⟩

/-- The end of a turn: the loop goes round or is left. What the turn sends beyond its ping goes out now. -/
def endTurn (target : Str) (c : Checker) (attempt : Attempt) (datagrams : List Bytes) : Checker where
  point := if accepts target attempt then .returned true else .top
  attempts := c.attempts ++ [attempt]
  sent := c.sent ++ datagrams
  inFlight := c.inFlight

/-- One step of a side that checks `target` and whose datagrams come from `src`, with what it sends. -/
def act (target : Str) (src : Ipv4Addr) (c : Checker) : CheckAction → Option (Checker × List Bytes)
  | .sendFails => if c.point = .top then some (c.endTurn target .sendFailed [], []) else none
  | .pings => if c.point = .top then some ({ c with point := .waiting, sent := c.sent ++ [ping] }, [ping]) else none
  | .timesOut => if c.point = .waiting then some (c.endTurn target .timedOut [], []) else none
  | .receives k =>
    if c.point = .waiting then
      c.inFlight[k]?.map fun datagram =>
        let attempt := Attempt.received (.v4 src) datagram
        let replies := (turnSends target attempt).drop 1
        (({ c with inFlight := c.inFlight.eraseIdx k }).endTurn target attempt replies, replies)
    else none
  | .expires => if c.point = .top then some ({ c with point := .returned false }, []) else none
  | .lost k => c.inFlight[k]?.map fun _ => ({ c with inFlight := c.inFlight.eraseIdx k }, [])
  | .doubled k => c.inFlight[k]?.map fun datagram => ({ c with inFlight := c.inFlight ++ [datagram] }, [])

/-- The datagrams it has taken. -/
def taken (c : Checker) : List Bytes := c.attempts.filterMap fun
  | .received _ datagram => some datagram
  | _ => none

end Checker

abbrev MutualChecks := Peer → Checker

namespace MutualChecks

def start : MutualChecks := fun _ => .new

/-- What a peer checks. -/
def checked (ends : Peer → SocketAddrV4) (peer : Peer) : Str := targetOf (ends peer.other).ip (ends peer.other).port

/-- One side takes a step, and what it sends is on its way to the other one. -/
def step (ends : Peer → SocketAddrV4) (s : MutualChecks) (turn : Peer × CheckAction) : Option MutualChecks :=
  ((s turn.1).act (checked ends turn.1) (ends turn.1.other).ip turn.2).map fun (c, datagrams) =>
    Function.update (Function.update s turn.1 c) turn.1.other
      { s turn.1.other with inFlight := (s turn.1.other).inFlight ++ datagrams }

end MutualChecks

def mutualMachine (ends : Peer → SocketAddrV4) : Machine MutualChecks (Peer × CheckAction) Unit where
  step s turn := (s.step ends turn).map fun s' => (s', ())

/-! ## One side -/

namespace Checker

/-- A side does what the code does. -/
structure Runs (target : Str) (c : Checker) : Prop where
  verified : verifyCandidatePair target c.attempts =
    (decide (c.point = .returned true), c.attempts.flatMap (turnSends target))
  sent : c.sent = c.attempts.flatMap (turnSends target) ++ if c.point = .waiting then [ping] else []

theorem runs_new (target : Str) : new.Runs target := ⟨by simp [new, verifyCandidatePair], by simp [new]⟩

variable {target : Str} {src ip : Ipv4Addr} {port : UInt16} {c c' : Checker} {action : CheckAction}
  {datagrams : List Bytes}

theorem Runs.inFlight (h : c.Runs target) (inFlight : List Bytes) : Runs target { c with inFlight } :=
  ⟨h.verified, h.sent⟩

/-- A turn is over. -/
theorem Runs.endTurn (h : c.Runs target) (hpoint : c.point ≠ .returned true) {attempt : Attempt}
    {datagrams : List Bytes}
    (hsent : c.sent ++ datagrams = c.attempts.flatMap (turnSends target) ++ turnSends target attempt) :
    (c.endTurn target attempt datagrams).Runs target := by
  have hverified := h.verified
  rw [decide_eq_false hpoint] at hverified
  constructor
  · show verifyCandidatePair target (c.attempts ++ [attempt]) = _
    rw [verify_concat (by rw [hverified]), hverified]
    cases ha : accepts target attempt <;> simp [Checker.endTurn, ha]
  · show c.sent ++ datagrams = (c.attempts ++ [attempt]).flatMap (turnSends target) ++ _
    rw [hsent]
    cases ha : accepts target attempt <;> simp [Checker.endTurn, ha]

theorem turnSends_received (target : Str) (src : IpAddr) (datagram : Bytes) :
    turnSends target (.received src datagram) = ping :: (turnSends target (.received src datagram)).drop 1 := by
  rw [turnSends]
  split <;> rfl

theorem Runs.act (h : c.Runs target) (ha : c.act target src action = some (c', datagrams)) : c'.Runs target := by
  cases action with
  | sendFails =>
    obtain ⟨htop, heq⟩ := Option.ite_none_right_eq_some.mp ha
    cases heq
    refine h.endTurn (by simp [htop]) ?_
    simp [h.sent, htop, turnSends]
  | pings =>
    obtain ⟨htop, heq⟩ := Option.ite_none_right_eq_some.mp ha
    cases heq
    have hverified := h.verified
    rw [htop] at hverified
    exact ⟨by simpa using hverified, by simp [h.sent, htop]⟩
  | timesOut =>
    obtain ⟨hwaiting, heq⟩ := Option.ite_none_right_eq_some.mp ha
    cases heq
    refine h.endTurn (by simp [hwaiting]) ?_
    simp [h.sent, hwaiting, turnSends]
  | receives k =>
    obtain ⟨hwaiting, heq⟩ := Option.ite_none_right_eq_some.mp ha
    obtain ⟨datagram, _, hstate⟩ := Option.map_eq_some_iff.mp heq
    cases hstate
    refine (h.inFlight _).endTurn (by simp [hwaiting]) ?_
    have hturn := turnSends_received target (.v4 src) datagram
    dsimp only
    rw [h.sent, if_pos hwaiting, List.append_assoc, List.singleton_append, ← hturn]
  | expires =>
    obtain ⟨htop, heq⟩ := Option.ite_none_right_eq_some.mp ha
    cases heq
    have hverified := h.verified
    rw [htop] at hverified
    exact ⟨by simpa using hverified, by simp [h.sent, htop]⟩
  | lost k =>
    obtain ⟨_, _, hstate⟩ := Option.map_eq_some_iff.mp ha
    cases hstate
    exact h.inFlight _
  | doubled k =>
    obtain ⟨_, _, hstate⟩ := Option.map_eq_some_iff.mp ha
    cases hstate
    exact h.inFlight _

/-- What it has taken and what is on its way to it. -/
def received (c : Checker) : List Bytes := c.taken ++ c.inFlight

/-- What it has taken came from the other side. -/
def FromPeer (src : Ipv4Addr) (c : Checker) : Prop :=
  ∀ src' datagram, .received src' datagram ∈ c.attempts → src' = .v4 src

theorem taken_endTurn (c : Checker) (attempt : Attempt) (datagrams : List Bytes) :
    (c.endTurn target attempt datagrams).taken = c.taken ++ match attempt with
      | .received _ datagram => [datagram]
      | _ => [] := by
  rw [taken, endTurn, List.filterMap_append]
  cases attempt <;> rfl

theorem FromPeer.endTurn (h : c.FromPeer src) {attempt : Attempt} {datagrams : List Bytes}
    (ha : ∀ src' datagram, attempt = .received src' datagram → src' = .v4 src) :
    (c.endTurn target attempt datagrams).FromPeer src := by
  intro src' datagram hmem
  cases List.mem_append.mp hmem with
  | inl hold => exact h src' datagram hold
  | inr hnew => exact ha src' datagram (List.mem_singleton.mp hnew).symm

/-- What one step does to the books: nothing is received that was not, and what is sent is added. -/
structure Books (src : Ipv4Addr) (c : Checker) (action : CheckAction) (c' : Checker) (datagrams : List Bytes) :
    Prop where
  sent : c'.sent = c.sent ++ datagrams
  received : ∀ d ∈ c'.received, d ∈ c.received
  orderly : action.Orderly → c'.received = c.received
  fromPeer : c.FromPeer src → c'.FromPeer src

theorem act_books (ha : c.act target src action = some (c', datagrams)) : Books src c action c' datagrams := by
  cases action with
  | sendFails =>
    obtain ⟨_, heq⟩ := Option.ite_none_right_eq_some.mp ha
    cases heq
    have hsame : (c.endTurn target .sendFailed []).received = c.received := by
      rw [received, taken_endTurn, List.append_nil]
      rfl
    refine ⟨rfl, fun d hd => by rwa [hsame] at hd, fun _ => hsame, fun h => h.endTurn ?_⟩
    intro _ _ hattempt
    cases hattempt
  | pings =>
    obtain ⟨_, heq⟩ := Option.ite_none_right_eq_some.mp ha
    cases heq
    exact ⟨rfl, fun _ => id, fun _ => rfl, id⟩
  | timesOut =>
    obtain ⟨_, heq⟩ := Option.ite_none_right_eq_some.mp ha
    cases heq
    have hsame : (c.endTurn target .timedOut []).received = c.received := by
      rw [received, taken_endTurn, List.append_nil]
      rfl
    refine ⟨rfl, fun d hd => by rwa [hsame] at hd, fun _ => hsame, fun h => h.endTurn ?_⟩
    intro _ _ hattempt
    cases hattempt
  | receives k =>
    obtain ⟨_, heq⟩ := Option.ite_none_right_eq_some.mp ha
    obtain ⟨datagram, hget, hstate⟩ := Option.map_eq_some_iff.mp heq
    cases hstate
    refine ⟨rfl, fun d hd => ?_, fun hk => ?_, fun h => ?_⟩
    · rw [received, taken_endTurn, List.append_assoc] at hd
      obtain htaken | hd := List.mem_append.mp hd
      · exact List.mem_append_left _ htaken
      · refine List.mem_append_right _ ?_
        obtain hnew | hrest := List.mem_append.mp hd
        · rw [List.mem_singleton.mp hnew]
          exact List.mem_of_getElem? hget
        · exact List.mem_of_mem_eraseIdx hrest
    · obtain rfl : k = 0 := hk
      cases hflight : c.inFlight with
      | nil => simp [hflight] at hget
      | cons first rest =>
        obtain rfl : first = datagram := by simpa [hflight] using hget
        rw [received, taken_endTurn, received, hflight, List.append_assoc]
        rfl
    · refine FromPeer.endTurn (c := { c with inFlight := c.inFlight.eraseIdx k }) h ?_
      intro src' d hattempt
      cases hattempt
      rfl
  | expires =>
    obtain ⟨_, heq⟩ := Option.ite_none_right_eq_some.mp ha
    cases heq
    exact ⟨(List.append_nil _).symm, fun _ => id, fun _ => rfl, id⟩
  | lost k =>
    obtain ⟨_, _, hstate⟩ := Option.map_eq_some_iff.mp ha
    cases hstate
    refine ⟨(List.append_nil _).symm, fun d hd => ?_, False.elim, id⟩
    obtain htaken | hrest := List.mem_append.mp hd
    · exact List.mem_append_left _ htaken
    · exact List.mem_append_right _ (List.mem_of_mem_eraseIdx hrest)
  | doubled k =>
    obtain ⟨datagram, hget, hstate⟩ := Option.map_eq_some_iff.mp ha
    cases hstate
    refine ⟨(List.append_nil _).symm, fun d hd => ?_, False.elim, id⟩
    obtain htaken | hd := List.mem_append.mp hd
    · exact List.mem_append_left _ htaken
    · refine List.mem_append_right _ ?_
      obtain hrest | hnew := List.mem_append.mp hd
      · exact hrest
      · rw [List.mem_singleton.mp hnew]
        exact List.mem_of_getElem? hget

/-- A side whose check has succeeded has taken a pong. -/
theorem Runs.pong_taken (h : c.Runs (targetOf ip port)) (hfrom : c.FromPeer src) (hpoint : c.point = .returned true) :
    .received (.v4 src) pong ∈ c.attempts := by
  have hvalid : (verifyCandidatePair (targetOf ip port) c.attempts).1 = true := by
    rw [h.verified, hpoint]
    rfl
  obtain ⟨attempt, hmem, haccepts⟩ := (verify_iff_accepts _ _).mp hvalid
  obtain ⟨src', rfl, _⟩ := (accepts_iff ip port attempt).mp haccepts
  have hsrc := hfrom _ _ hmem
  rwa [hsrc] at hmem

theorem message_eq_ping {datagram : Bytes} (h : message datagram = ping) : datagram = ping := by
  have hlen := congrArg List.length h
  rw [message, List.length_take, show ping.length = 4 from rfl] at hlen
  rw [← h, message, List.take_of_length_le (by omega)]

/-- A side that has sent a pong has taken a ping. -/
theorem Runs.ping_taken (h : c.Runs target) (hfrom : c.FromPeer src) (hpong : pong ∈ c.sent) :
    .received (.v4 src) ping ∈ c.attempts := by
  have hne : pong ≠ ping := by decide
  rw [h.sent, List.mem_append] at hpong
  obtain hpong | hpong := hpong
  · obtain ⟨attempt, hmem, hsends⟩ := List.mem_flatMap.mp hpong
    cases attempt with
    | sendFailed => cases hsends
    | timedOut => exact absurd (List.mem_singleton.mp hsends) hne
    | received src' datagram =>
      rw [turnSends] at hsends
      split at hsends
      · next hping =>
        have hsrc := hfrom _ _ hmem
        rwa [hsrc, message_eq_ping (of_decide_eq_true (Bool.and_eq_true_iff.mp hping).2)] at hmem
      · exact absurd (List.mem_singleton.mp hsends) hne
  · split at hpong
    · exact absurd (List.mem_singleton.mp hpong) hne
    · cases hpong

theorem mem_taken {src : IpAddr} {datagram : Bytes} (h : .received src datagram ∈ c.attempts) :
    datagram ∈ c.taken :=
  List.mem_filterMap.mpr ⟨_, h, rfl⟩

/-- The first datagram of a side is a ping. -/
theorem Runs.sent_begins (h : c.Runs target) : c.sent = [] ∨ ∃ rest, c.sent = ping :: rest := by
  have key : ∀ (attempts : List Attempt) (last : List Bytes), last = [] ∨ last = [ping] →
      attempts.flatMap (turnSends target) ++ last = [] ∨
        ∃ rest, attempts.flatMap (turnSends target) ++ last = ping :: rest := by
    intro attempts last hlast
    induction attempts with
    | nil => exact hlast.imp id fun h => ⟨[], h⟩
    | cons attempt attempts ih =>
      rw [List.flatMap_cons, List.append_assoc]
      cases attempt with
      | sendFailed => exact ih
      | timedOut => exact .inr ⟨_, rfl⟩
      | received src datagram =>
        rw [turnSends_received]
        exact .inr ⟨_, rfl⟩
  rw [h.sent]
  apply key
  split
  · exact .inr rfl
  · exact .inl rfl

theorem act_returned {valid : Bool} (hpoint : c.point = .returned valid)
    (ha : c.act target src action = some (c', datagrams)) : c'.point = .returned valid ∧ datagrams = [] := by
  cases action with
  | lost k =>
    obtain ⟨_, _, hstate⟩ := Option.map_eq_some_iff.mp ha
    cases hstate
    exact ⟨hpoint, rfl⟩
  | doubled k =>
    obtain ⟨_, _, hstate⟩ := Option.map_eq_some_iff.mp ha
    cases hstate
    exact ⟨hpoint, rfl⟩
  | _ =>
    rw [act, hpoint, if_neg (by simp)] at ha
    cases ha

/-- A side with a pong on its way to it takes one step: it has the pong now, or it is one datagram nearer
to it if it has taken one. -/
theorem act_nearer (haccepts : accepts target (.received (.v4 src) pong) = true)
    (ha : c.act target src action = some (c', datagrams)) (horderly : action.Orderly) (hpatient : action ≠ .expires)
    (hpong : pong ∈ c.inFlight) :
    c'.point = .returned true ∨ ((∀ valid, c'.point ≠ .returned valid) ∧ pong ∈ c'.inFlight ∧
      c'.inFlight.idxOf pong + (if action = .receives 0 then 1 else 0) = c.inFlight.idxOf pong) := by
  cases action with
  | sendFails =>
    obtain ⟨_, heq⟩ := Option.ite_none_right_eq_some.mp ha
    cases heq
    exact .inr ⟨fun valid => by simp [endTurn, accepts], hpong, rfl⟩
  | pings =>
    obtain ⟨_, heq⟩ := Option.ite_none_right_eq_some.mp ha
    cases heq
    exact .inr ⟨by simp, hpong, rfl⟩
  | timesOut =>
    obtain ⟨_, heq⟩ := Option.ite_none_right_eq_some.mp ha
    cases heq
    exact .inr ⟨fun valid => by simp [endTurn, accepts], hpong, rfl⟩
  | receives k =>
    obtain ⟨_, heq⟩ := Option.ite_none_right_eq_some.mp ha
    obtain ⟨datagram, hget, hstate⟩ := Option.map_eq_some_iff.mp heq
    cases hstate
    obtain rfl : k = 0 := horderly
    cases hflight : c.inFlight with
    | nil => simp [hflight] at hget
    | cons first rest =>
      obtain rfl : first = datagram := by simpa [hflight] using hget
      by_cases hfirst : accepts target (.received (.v4 src) first) = true
      · exact .inl (by simp [endTurn, hfirst])
      · have hne : pong ≠ first := by
          rintro rfl
          exact hfirst haccepts
        rw [hflight] at hpong
        refine .inr ⟨fun valid => by simp [endTurn, hfirst], ?_, ?_⟩
        · simpa [endTurn] using (List.mem_cons.mp hpong).resolve_left hne
        · rw [List.idxOf_cons_ne _ hne.symm]
          rfl
  | expires => exact absurd rfl hpatient
  | lost k => exact absurd horderly id
  | doubled k => exact absurd horderly id

end Checker

/-! ## Both sides -/

namespace MutualChecks
variable {ends : Peer → SocketAddrV4} {s s' t : MutualChecks} {turn : Peer × CheckAction}

theorem step_cases (h : s.step ends turn = some s') : ∃ c datagrams,
    (s turn.1).act (checked ends turn.1) (ends turn.1.other).ip turn.2 = some (c, datagrams) ∧ s' turn.1 = c ∧
      s' turn.1.other = { s turn.1.other with inFlight := (s turn.1.other).inFlight ++ datagrams } := by
  obtain ⟨⟨c, datagrams⟩, hact, rfl⟩ := Option.map_eq_some_iff.mp h
  refine ⟨c, datagrams, hact, ?_, Function.update_self _ _ _⟩
  dsimp only
  rw [Function.update_of_ne turn.1.other_ne.symm, Function.update_self]

/-- Both sides do what the code does, and nothing is received that was not sent. -/
structure Genuine (ends : Peer → SocketAddrV4) (s : MutualChecks) : Prop where
  runs : ∀ p, (s p).Runs (checked ends p)
  received : ∀ p, ∀ d ∈ (s p).received, d ∈ (s p.other).sent
  fromPeer : ∀ p, (s p).FromPeer (ends p.other).ip

theorem genuine_start : Genuine ends start := by
  refine ⟨fun p => Checker.runs_new _, fun p d hd => ?_, fun p src d hd => ?_⟩
  · exact absurd hd (by simp [start, Checker.received, Checker.taken, Checker.new])
  · exact absurd hd (by simp [start, Checker.new])

theorem Genuine.step (h : Genuine ends s) (hstep : s.step ends turn = some s') : Genuine ends s' := by
  obtain ⟨c, datagrams, hact, hself, hother⟩ := step_cases hstep
  have hbooks := Checker.act_books hact
  constructor
  · rw [Transport.Handshake.forall_peer turn.1, hself, hother]
    exact ⟨(h.runs turn.1).act hact, (h.runs turn.1.other).inFlight _⟩
  · rw [Transport.Handshake.forall_peer turn.1, Peer.other_other, hself, hother]
    refine ⟨fun d hd => h.received turn.1 d (hbooks.received d hd), fun d hd => ?_⟩
    rw [hbooks.sent, List.mem_append]
    rw [Checker.received, ← List.append_assoc, List.mem_append] at hd
    refine hd.imp_left fun hold => ?_
    have := h.received turn.1.other d hold
    rwa [Peer.other_other] at this
  · rw [Transport.Handshake.forall_peer turn.1, hself, hother]
    exact ⟨hbooks.fromPeer (h.fromPeer turn.1), h.fromPeer turn.1.other⟩

/-- Each side has received, or will receive, all that the other one has sent, in its order. -/
def InOrder (s : MutualChecks) : Prop := ∀ p, (s p).received = (s p.other).sent

theorem InOrder.step (h : InOrder s) (hstep : s.step ends turn = some s') (horderly : turn.2.Orderly) :
    InOrder s' := by
  obtain ⟨c, datagrams, hact, hself, hother⟩ := step_cases hstep
  have hbooks := Checker.act_books hact
  rw [InOrder, Transport.Handshake.forall_peer turn.1, Peer.other_other, hself, hother]
  refine ⟨(hbooks.orderly horderly).trans (h turn.1), ?_⟩
  have := h turn.1.other
  rw [Peer.other_other] at this
  rw [hbooks.sent, ← this, Checker.received, Checker.received, List.append_assoc]
  rfl

theorem genuine_run {turns : List (Peer × CheckAction)} {os : List Unit}
    (hr : (mutualMachine ends).run start turns = some (s, os)) : Genuine ends s := by
  refine (mutualMachine ends).run_invariant (G := fun _ _ => True) (Genuine ends) ?_ genuine_start
    ((mutualMachine ends).guarded_of_forall fun _ _ _ => trivial) hr
  intro s turn s' o h _ hstep
  obtain ⟨_, hmoved, heq⟩ := Option.map_eq_some_iff.mp hstep
  cases heq
  exact h.step hmoved

theorem inOrder_run {turns : List (Peer × CheckAction)} {os : List Unit}
    (hr : (mutualMachine ends).run start turns = some (s, os)) (horderly : ∀ turn ∈ turns, turn.2.Orderly) :
    InOrder s := by
  refine (mutualMachine ends).run_invariant (G := fun _ turn => turn.2.Orderly) InOrder ?_ (fun _ => rfl)
    ((mutualMachine ends).guarded_of_forall fun turn hturn _ => horderly turn hturn) hr
  intro s turn s' o h horderly hstep
  obtain ⟨_, hmoved, heq⟩ := Option.map_eq_some_iff.mp hstep
  cases heq
  exact h.step hmoved horderly

/-- **A pair that one side has validated works both ways.** However the steps of the two sides come and
whatever the network loses, doubles or reorders, a side whose check succeeds has taken a pong that the
other one sent in its own check, for a ping that had come through to it. -/
theorem validated_works_both_ways {turns : List (Peer × CheckAction)} {os : List Unit}
    (hr : (mutualMachine ends).run start turns = some (s, os)) (p : Peer) (hp : (s p).point = .returned true) :
    (verifyCandidatePair (checked ends p) (s p).attempts).1 = true ∧
      .received (.v4 (ends p.other).ip) pong ∈ (s p).attempts ∧
      .received (.v4 (ends p).ip) ping ∈ (s p.other).attempts ∧
      pong ∈ (verifyCandidatePair (checked ends p.other) (s p.other).attempts).2 := by
  have h := genuine_run hr
  have hpong := (h.runs p).pong_taken (h.fromPeer p) hp
  have hsent := h.received p pong (List.mem_append_left _ (Checker.mem_taken hpong))
  have hfrom := h.fromPeer p.other
  rw [Peer.other_other] at hfrom
  have hping := (h.runs p.other).ping_taken hfrom hsent
  refine ⟨by rw [(h.runs p).verified, hp]; rfl, hpong, hping, ?_⟩
  rw [(h.runs p.other).verified]
  rw [(h.runs p.other).sent, List.mem_append] at hsent
  refine hsent.resolve_right fun hlast => ?_
  split at hlast
  · exact absurd (List.mem_singleton.mp hlast) (by decide)
  · cases hlast

/-! ## On an orderly network -/

theorem accepts_pong (ends : Peer → SocketAddrV4) (p : Peer) :
    accepts (checked ends p) (.received (.v4 (ends p.other).ip) pong) = true :=
  (accepts_iff _ _ _).mpr ⟨_, rfl, lookAlike_self _⟩

theorem answers_ping (ends : Peer → SocketAddrV4) (p : Peer) :
    pong ∈ turnSends (checked ends p) (.received (.v4 (ends p.other).ip) ping) := by
  have hspeaks : speaksFor (checked ends p) (.v4 (ends p.other).ip) = true :=
    (speaksFor_v4_iff _ _ _).mpr (lookAlike_self _)
  have hself : message ping = ping := by decide
  simp [turnSends, hspeaks, hself]

/-- Whatever a side has taken, it has taken in one of its turns from the other side. -/
theorem Genuine.turn_of_taken (h : Genuine ends s) {p : Peer} {datagram : Bytes} (hd : datagram ∈ (s p).taken) :
    .received (.v4 (ends p.other).ip) datagram ∈ (s p).attempts := by
  obtain ⟨attempt, hmem, hdatagram⟩ := List.mem_filterMap.mp hd
  cases attempt with
  | sendFailed => cases hdatagram
  | timedOut => cases hdatagram
  | received src d =>
    cases hdatagram
    have hsrc := h.fromPeer p src datagram hmem
    rwa [hsrc] at hmem

/-- A side that has validated the pair has answered a ping before, so the other one has its pong or will
get it. -/
theorem pong_underway (h : Genuine ends s) (horder : InOrder s) {p : Peer} (hp : (s p).point = .returned true) :
    (s p.other).point = .returned true ∨ pong ∈ (s p.other).inFlight := by
  have hpong := Checker.mem_taken ((h.runs p).pong_taken (h.fromPeer p) hp)
  -- the first thing it took is the other one's first ping
  have hping : ping ∈ (s p).taken := by
    have hall := horder p
    obtain hnil | ⟨rest, hrest⟩ := (h.runs p.other).sent_begins
    · rw [hnil, Checker.received, List.append_eq_nil_iff] at hall
      rw [hall.1] at hpong
      cases hpong
    · cases htaken : (s p).taken with
      | nil =>
        rw [htaken] at hpong
        cases hpong
      | cons first more =>
        rw [hrest, Checker.received, htaken, List.cons_append] at hall
        rw [(List.cons.inj hall).1]
        exact List.mem_cons_self ..
  have hsent : pong ∈ (s p).sent := by
    rw [(h.runs p).sent]
    exact List.mem_append_left _ (List.mem_flatMap.mpr ⟨_, h.turn_of_taken hping, answers_ping ends p⟩)
  have hothers := horder p.other
  rw [Peer.other_other] at hothers
  rw [← hothers, Checker.received, List.mem_append] at hsent
  refine hsent.imp_left fun htaken => ?_
  have hvalid := (verify_iff_accepts _ _).mpr ⟨_, h.turn_of_taken htaken, accepts_pong ends p.other⟩
  rw [(h.runs p.other).verified] at hvalid
  exact of_decide_eq_true hvalid

/-- The one side is back with a valid pair, and the other one too, or it is on its way there. -/
structure Agreeing (p : Peer) (s : MutualChecks) : Prop where
  valid : (s p).point = .returned true
  other : (s p.other).point = .returned true ∨
    ((∀ valid, (s p.other).point ≠ .returned valid) ∧ pong ∈ (s p.other).inFlight)

/-- How many datagrams the other one has to take. -/
def ahead (p : Peer) (s : MutualChecks) : ℕ :=
  if (s p.other).point = .returned true then 0 else (s p.other).inFlight.idxOf pong + 1

theorem Agreeing.step {p : Peer} (h : Agreeing p s) (hstep : s.step ends turn = some s') (horderly : turn.2.Orderly)
    (hpatient : turn ≠ (p.other, .expires)) :
    Agreeing p s' ∧ ahead p s' ≤ ahead p s - if decide (turn = (p.other, .receives 0)) then 1 else 0 := by
  obtain ⟨c, datagrams, hact, hself, hother⟩ := step_cases hstep
  obtain ⟨peer, action⟩ := turn
  dsimp only at hact hself hother horderly
  by_cases hpeer : peer = p
  · subst hpeer
    obtain ⟨hpoint, hnothing⟩ := Checker.act_returned h.valid hact
    subst hnothing
    rw [List.append_nil] at hother
    have hne : ¬(peer, action) = (peer.other, CheckAction.receives 0) := by
      intro heq
      exact peer.other_ne (congrArg Prod.fst heq).symm
    rw [decide_eq_false hne]
    refine ⟨⟨hself ▸ hpoint, hother ▸ h.other⟩, ?_⟩
    rw [ahead, hother]
    exact le_refl _
  · obtain rfl : peer = p.other := by
      cases peer <;> cases p <;> first | rfl | exact absurd rfl hpeer
    rw [Peer.other_other] at hother hact
    have hvalid : (s' p).point = .returned true := by
      rw [hother]
      exact h.valid
    obtain hdone | ⟨hpoint, hpong⟩ := h.other
    · obtain ⟨hpoint, _⟩ := Checker.act_returned hdone hact
      refine ⟨⟨hvalid, .inl (hself ▸ hpoint)⟩, ?_⟩
      rw [ahead, hself, if_pos hpoint]
      exact Nat.zero_le _
    · have haccepts := accepts_pong ends p.other
      rw [Peer.other_other] at haccepts
      have hunexpired : action ≠ .expires := by
        rintro rfl
        exact hpatient rfl
      obtain hdone | ⟨hpoint', hpong', hlen⟩ := Checker.act_nearer haccepts hact horderly hunexpired hpong
      · refine ⟨⟨hvalid, .inl (hself ▸ hdone)⟩, ?_⟩
        rw [ahead, hself, if_pos hdone]
        exact Nat.zero_le _
      · refine ⟨⟨hvalid, .inr (hself ▸ ⟨hpoint', hpong'⟩)⟩, ?_⟩
        rw [ahead, ahead, hself, if_neg (hpoint' true), if_neg (hpoint true), ← hlen]
        by_cases hreceives : action = .receives 0
        · simp [hreceives]
        · simp [hreceives]

/-- **Neither side is left behind on an orderly network.** When one side has validated the pair and the
two seconds of the other one are not over, the other one has validated it too, or a pong is on its way
to it; and it validates the pair as soon as it has taken the datagrams up to that pong. -/
theorem orderly_checks_agree {before after : List (Peer × CheckAction)} {os ps : List Unit}
    (hbefore : (mutualMachine ends).run start before = some (s, os))
    (hafter : (mutualMachine ends).run s after = some (t, ps))
    (horderly : ∀ turn ∈ before ++ after, turn.2.Orderly) (p : Peer) (hp : (s p).point = .returned true)
    (htime : (s p.other).point ≠ .returned false) (hpatient : (p.other, .expires) ∉ after) :
    ((s p.other).point = .returned true ∨ pong ∈ (s p.other).inFlight) ∧
      ((s p.other).inFlight.idxOf pong < after.countP (fun turn => decide (turn = (p.other, .receives 0))) →
        (t p.other).point = .returned true) := by
  rw [List.forall_mem_append] at horderly
  have hunderway := pong_underway (genuine_run hbefore) (inOrder_run hbefore horderly.1) hp
  refine ⟨hunderway, fun hcount => ?_⟩
  have hstart : Agreeing p s := by
    refine ⟨hp, ?_⟩
    by_cases hdone : (s p.other).point = .returned true
    · exact .inl hdone
    · refine .inr ⟨fun valid => ?_, hunderway.resolve_left hdone⟩
      cases valid with
      | false => exact htime
      | true => exact hdone
  have hguard : (mutualMachine ends).Guarded
    (fun _ turn => turn.2.Orderly ∧ turn ≠ (p.other, .expires)) s after := by
    refine (mutualMachine ends).guarded_of_forall fun turn hturn _ => ⟨horderly.2 turn hturn, ?_⟩
    rintro rfl
    exact hpatient hturn
  obtain ⟨hend, hle⟩ := (mutualMachine ends).run_measure (Agreeing p) (ahead p)
    (fun turn => decide (turn = (p.other, .receives 0))) (by
      intro s turn s' o h hg hstep
      obtain ⟨_, hmoved, heq⟩ := Option.map_eq_some_iff.mp hstep
      cases heq
      exact h.step hmoved hg.1 hg.2) hstart hguard hafter
  refine hend.other.resolve_right fun ⟨hpoint, _⟩ => ?_
  have hahead : ahead p s ≤ (s p.other).inFlight.idxOf pong + 1 := by
    rw [ahead]
    split
    · exact Nat.zero_le _
    · exact le_refl _
  rw [ahead, if_neg (hpoint true)] at hle
  omega

/-! ## Two hosts on one network -/

def lanEnds : Peer → SocketAddrV4
  | .caller => ⟨⟨192, 168, 1, 5⟩, 40000⟩
  | .callee => ⟨⟨192, 168, 1, 9⟩, 50000⟩

/-- Each side takes the other one's ping, and the caller then the pong of the callee. -/
def callerFirst : List (Peer × CheckAction) :=
  [(.caller, .pings), (.callee, .pings), (.caller, .receives 0), (.callee, .receives 0), (.caller, .pings),
    (.caller, .receives 0)]

def afterTurns (turns : List (Peer × CheckAction)) : MutualChecks :=
  (((mutualMachine lanEnds).run start turns).map Prod.fst).getD start

theorem callerFirst_run : (mutualMachine lanEnds).run start callerFirst =
    some (afterTurns callerFirst, List.replicate 6 ()) := rfl

theorem caller_validated_both_ways :
    (afterTurns callerFirst .caller).point = .returned true ∧
      .received (.v4 ⟨192, 168, 1, 5⟩) ping ∈ (afterTurns callerFirst .callee).attempts := by
  have hp : (afterTurns callerFirst .caller).point = .returned true := by decide
  exact ⟨hp, (validated_works_both_ways callerFirst_run .caller hp).2.2.1⟩

/-- The callee has still to take the pong that the caller sent for its ping. -/
theorem callee_follows : (afterTurns (callerFirst ++ [(.callee, .pings), (.callee, .receives 0)]) .callee).point =
    .returned true := by
  have hafter : (mutualMachine lanEnds).run (afterTurns callerFirst) [(.callee, .pings), (.callee, .receives 0)] =
      some (afterTurns (callerFirst ++ [(.callee, .pings), (.callee, .receives 0)]), [(), ()]) := rfl
  refine (orderly_checks_agree callerFirst_run hafter ?_ .caller (by decide) (by decide) (by decide)).2 (by decide)
  simp [callerFirst, CheckAction.Orderly]

/-- With that pong lost the callee waits in vain: the caller answers no more. -/
example : (afterTurns (callerFirst ++ [(.callee, .lost 0), (.callee, .pings), (.callee, .receives 0),
    (.callee, .expires)]) .callee).point = .returned false := by decide

end MutualChecks
end RoomRtc.Session
