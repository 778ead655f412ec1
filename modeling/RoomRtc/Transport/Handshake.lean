import RoomRtc.Foundations.Machine
import RoomRtc.Transport.RtcpPacket

/-! The RTCP handshake of two peers (`connection_handshake` of `transport/rtcp/report_handler.rs`)
over sockets that deliver every datagram once and in any order. A peer returns at its second
`Ready`; whether the other one can then still come to its own depends on whether the `Hello` of the
other one was answered before. -/
namespace RoomRtc.Transport
set_option autoImplicit false

/-! ## The two loops -/

inductive Peer where
  | caller
  | callee
deriving DecidableEq, Repr

def Peer.other : Peer → Peer
  | caller => callee
  | callee => caller

/-- Where a peer stands in `connection_handshake`. -/
inductive HandshakePoint where
  | sendHello
  | loop (ready : Bool)
  | returned (result : Except RtcpError Unit)
deriving DecidableEq

structure HandshakePeer where
  point : HandshakePoint
  connected : Bool
  /-- The datagrams on their way to the peer. -/
  inFlight : List (List UInt8)
deriving DecidableEq

/-- What the loop makes of a datagram: where it goes on, the flag, and what it sends. -/
def handleDatagram (ready connected : Bool) (datagram : List UInt8) : HandshakePoint × Bool × List (List UInt8) :=
  match RtcpPacket.fromBytes (datagram.take 1024) with
  | some .hello => (.loop ready, connected, [RtcpPacket.ready.toBytes])
  | some .ready =>
    if ready then (.returned (.ok ()), connected, []) else (.loop true, true, [RtcpPacket.ready.toBytes])
  | some _ => (.returned (.error .unexpectedMessage), connected, [])
  | none => (.loop ready, connected, [])

abbrev Handshake := Peer → HandshakePeer

inductive HandshakeTurn where
  | begins (peer : Peer)
  | receives (peer : Peer) (datagram : List UInt8)
deriving DecidableEq, Repr

namespace Handshake

def start : Handshake := fun _ => { point := .sendHello, connected := false, inFlight := [] }

/-- What one peer sends is on its way to the other one. -/
def send (s : Handshake) (peer : Peer) (datagrams : List (List UInt8)) : Handshake :=
  Function.update s peer.other { s peer.other with inFlight := (s peer.other).inFlight ++ datagrams }

def step (s : Handshake) : HandshakeTurn → Option Handshake
  | .begins peer =>
    match (s peer).point with
    | .sendHello =>
      some (send (Function.update s peer { s peer with point := .loop false }) peer [RtcpPacket.hello.toBytes])
    | _ => none
  | .receives peer datagram =>
    match (s peer).point with
    | .loop ready =>
      if datagram ∈ (s peer).inFlight then
        let r := handleDatagram ready (s peer).connected datagram
        some (send (Function.update s peer
          { point := r.1, connected := r.2.1, inFlight := (s peer).inFlight.erase datagram }) peer r.2.2)
      else none
    | _ => none

/-- Both peers have begun, and nothing is on its way to one that has not returned. -/
def Quiet (s : Handshake) : Prop :=
  ∀ peer, (s peer).point ≠ .sendHello ∧
    ((∀ result, (s peer).point ≠ .returned result) → (s peer).inFlight = [])

def BothReturned (s : Handshake) : Prop := ∀ peer, (s peer).point = .returned (.ok ())

end Handshake

def handshakeMachine : Machine Handshake HandshakeTurn Unit where
  step s turn := (s.step turn).map fun s' => (s', ())

/-! ## One step -/

theorem Peer.other_ne (p : Peer) : p.other ≠ p := by
  cases p <;> simp [Peer.other]

@[simp] theorem Peer.other_other (p : Peer) : p.other.other = p := by
  cases p <;> rfl

theorem handleDatagram_hello (ready connected : Bool) :
    handleDatagram ready connected RtcpPacket.hello.toBytes = (.loop ready, connected, [RtcpPacket.ready.toBytes]) := by
  rw [handleDatagram, List.take_of_length_le (by decide), RtcpPacket.fromBytes_toBytes]

theorem handleDatagram_ready (ready connected : Bool) :
    handleDatagram ready connected RtcpPacket.ready.toBytes =
      if ready then (.returned (.ok ()), connected, []) else (.loop true, true, [RtcpPacket.ready.toBytes]) := by
  rw [handleDatagram, List.take_of_length_le (by decide), RtcpPacket.fromBytes_toBytes]

namespace Handshake

variable {s s' : Handshake} {peer : Peer}

theorem send_self (s : Handshake) (peer : Peer) (datagrams : List (List UInt8)) : send s peer datagrams peer = s peer :=
  Function.update_of_ne peer.other_ne.symm _ _

theorem send_other (s : Handshake) (peer : Peer) (datagrams : List (List UInt8)) :
    send s peer datagrams peer.other =
      { s peer.other with inFlight := (s peer.other).inFlight ++ datagrams } :=
  Function.update_self _ _ _

/-- A peer with what it sends to the other one. -/
structure Moved (s : Handshake) (peer : Peer) (state : HandshakePeer) (sent : List (List UInt8)) (s' : Handshake) :
    Prop where
  self : s' peer = state
  other : s' peer.other = { s peer.other with inFlight := (s peer.other).inFlight ++ sent }

theorem moved_send (s : Handshake) (peer : Peer) (state : HandshakePeer) (sent : List (List UInt8)) :
    Moved s peer state sent (send (Function.update s peer state) peer sent) := by
  constructor
  · rw [send_self, Function.update_self]
  · rw [send_other, Function.update_of_ne peer.other_ne]

theorem step_begins (h : s.step (.begins peer) = some s') : (s peer).point = .sendHello ∧
    Moved s peer { s peer with point := .loop false } [RtcpPacket.hello.toBytes] s' := by
  unfold step at h
  dsimp only at h
  split at h
  · next hpoint =>
    obtain rfl := Option.some.inj h
    exact ⟨hpoint, moved_send ..⟩
  · cases h

theorem step_receives {datagram : List UInt8} (h : s.step (.receives peer datagram) = some s') :
    ∃ ready, (s peer).point = .loop ready ∧ datagram ∈ (s peer).inFlight ∧
      Moved s peer
        { point := (handleDatagram ready (s peer).connected datagram).1
          connected := (handleDatagram ready (s peer).connected datagram).2.1
          inFlight := (s peer).inFlight.erase datagram }
        (handleDatagram ready (s peer).connected datagram).2.2 s' := by
  unfold step at h
  dsimp only at h
  split at h
  · next ready hpoint =>
    split at h
    · next hmem =>
      obtain rfl := Option.some.inj h
      exact ⟨ready, hpoint, hmem, moved_send ..⟩
    · cases h
  · cases h

end Handshake

/-! ## What is on its way -/

/-- How many `Hello`s were sent. -/
def HandshakePoint.begun : HandshakePoint → ℕ
  | .sendHello => 0
  | _ => 1

/-- How many `Ready`s were taken. -/
def HandshakePoint.taken : HandshakePoint → ℕ
  | .sendHello => 0
  | .loop ready => if ready then 1 else 0
  | .returned _ => 2

def HandshakePeer.hellos (p : HandshakePeer) : ℕ := p.inFlight.count RtcpPacket.hello.toBytes

def HandshakePeer.readys (p : HandshakePeer) : ℕ := p.inFlight.count RtcpPacket.ready.toBytes

theorem hello_ne_ready : RtcpPacket.hello.toBytes ≠ RtcpPacket.ready.toBytes := by decide

namespace Handshake

/-- The books of the handshake. A peer sends one `Ready` for the `Hello` it takes and one for the
first `Ready` it takes. -/
structure Accounted (s : Handshake) : Prop where
  only : ∀ p, ∀ d ∈ (s p).inFlight, d = RtcpPacket.hello.toBytes ∨ d = RtcpPacket.ready.toBytes
  hellos : ∀ p, (s p).hellos ≤ (s p.other).point.begun
  unread : ∀ p, (s p).point = .sendHello → (s p).hellos = (s p.other).point.begun
  readys : ∀ p, (s p).point.taken + (s p).readys + (s p.other).hellos =
    (s p).point.begun + min (s p.other).point.taken 1
  result : ∀ p result, (s p).point = .returned result → result = .ok ()

theorem accounted_start : Accounted start := by
  constructor
  · intro p d hd
    cases hd
  · intro p
    exact Nat.zero_le _
  · intro p _
    rfl
  · intro p
    rfl
  · intro p result h
    cases h

variable {s s' : Handshake} {peer : Peer}

/-- A statement about both peers is one about a peer and the other one. -/
theorem forall_peer {P : Peer → Prop} (peer : Peer) : (∀ p, P p) ↔ P peer ∧ P peer.other := by
  refine ⟨fun h => ⟨h peer, h peer.other⟩, ?_⟩
  rintro ⟨h, h'⟩ p
  cases p <;> cases peer <;> assumption

theorem accounted_begins (h : Accounted s) (hpoint : (s peer).point = .sendHello)
    (hm : Moved s peer { s peer with point := .loop false } [RtcpPacket.hello.toBytes] s') : Accounted s' := by
  have hzero : (s peer.other).hellos = 0 := by
    have := h.hellos peer.other
    rw [Peer.other_other, hpoint] at this
    exact Nat.le_zero.mp this
  have hself : (s' peer).hellos = (s peer).hellos ∧ (s' peer).readys = (s peer).readys := by
    rw [hm.self]
    exact ⟨rfl, rfl⟩
  have hother : (s' peer.other).hellos = 1 ∧ (s' peer.other).readys = (s peer.other).readys := by
    rw [hm.other]
    simp only [HandshakePeer.hellos, HandshakePeer.readys, List.count_append] at hzero ⊢
    rw [hzero]
    exact ⟨rfl, rfl⟩
  have hpoint' : (s' peer).point = .loop false ∧ (s' peer.other).point = (s peer.other).point := by
    rw [hm.self, hm.other]
    exact ⟨rfl, rfl⟩
  constructor
  · rw [forall_peer peer, hm.self, hm.other]
    refine ⟨h.only peer, ?_⟩
    intro d hd
    obtain hd | hd := List.mem_append.mp hd
    · exact h.only peer.other d hd
    · exact .inl (List.mem_singleton.mp hd)
  · rw [forall_peer peer, Peer.other_other, hself.1, hother.1, hpoint'.1, hpoint'.2]
    exact ⟨h.hellos peer, le_refl 1⟩
  · rw [forall_peer peer, Peer.other_other, hpoint'.1, hother.1]
    exact ⟨nofun, fun _ => rfl⟩
  · have h1 := h.readys peer
    have h2 := h.readys peer.other
    rw [forall_peer peer, Peer.other_other, hself.1, hself.2, hother.1, hother.2, hpoint'.1, hpoint'.2]
    rw [Peer.other_other] at h2
    rw [hpoint] at h1 h2
    simp only [HandshakePoint.taken, HandshakePoint.begun, Bool.false_eq_true, if_false] at h1 h2 ⊢
    omega
  · rw [forall_peer peer, hpoint'.1, hpoint'.2]
    exact ⟨nofun, h.result peer.other⟩

/-- A peer that takes a datagram keeps to the protocol as long as what it takes is accounted for. -/
theorem accounted_receives_of (h : Accounted s) {point : HandshakePoint} {connected ready : Bool}
    {datagram : List UInt8} {sent : List (List UInt8)}
    (hm : Moved s peer { point, connected, inFlight := (s peer).inFlight.erase datagram } sent s')
    (hpoint : (s peer).point = .loop ready) (hbegun : point.begun = 1)
    (hresult : ∀ result, point = .returned result → result = .ok ())
    (hsent : ∀ d ∈ sent, d = RtcpPacket.ready.toBytes)
    (hhello : (s' peer).hellos + sent.length + min (HandshakePoint.loop ready).taken 1 =
      (s peer).hellos + min point.taken 1)
    (hready : point.taken + (s' peer).readys = (HandshakePoint.loop ready).taken + (s peer).readys) : Accounted s' := by
  have hpoint' : (s' peer).point = point ∧ (s' peer.other).point = (s peer.other).point := by
    rw [hm.self, hm.other]
    exact ⟨rfl, rfl⟩
  have hcount : sent.count RtcpPacket.hello.toBytes = 0 ∧ sent.count RtcpPacket.ready.toBytes = sent.length := by
    constructor
    · rw [List.count_eq_zero]
      intro hmem
      exact hello_ne_ready (hsent _ hmem)
    · rw [List.count_eq_length]
      exact fun d hd => (hsent d hd).symm
  have hother : (s' peer.other).hellos = (s peer.other).hellos ∧
      (s' peer.other).readys = (s peer.other).readys + sent.length := by
    rw [hm.other]
    simp [HandshakePeer.hellos, HandshakePeer.readys, List.count_append, hcount]
  have hless : (s' peer).hellos ≤ (s peer).hellos := by
    rw [hm.self]
    exact List.erase_sublist.count_le _
  have hbegun' : ∀ r : Bool, (HandshakePoint.loop r).begun = 1 := fun _ => rfl
  constructor
  · rw [forall_peer peer, hm.self, hm.other]
    refine ⟨fun d hd => h.only peer d (List.mem_of_mem_erase hd), ?_⟩
    intro d hd
    obtain hd | hd := List.mem_append.mp hd
    · exact h.only peer.other d hd
    · exact .inr (hsent d hd)
  · have h2 := h.hellos peer.other
    rw [Peer.other_other, hpoint] at h2
    rw [forall_peer peer, Peer.other_other, hpoint'.1, hpoint'.2, hother.1, hbegun]
    exact ⟨hless.trans (h.hellos peer), h2⟩
  · have h2 := h.unread peer.other
    rw [Peer.other_other, hpoint] at h2
    rw [forall_peer peer, Peer.other_other, hpoint'.1, hpoint'.2, hother.1, hbegun]
    refine ⟨?_, h2⟩
    rintro rfl
    cases hbegun
  · have h1 := h.readys peer
    have h2 := h.readys peer.other
    rw [Peer.other_other] at h2
    rw [hpoint] at h1 h2
    rw [hbegun'] at h1
    rw [forall_peer peer, Peer.other_other, hpoint'.1, hpoint'.2, hother.1, hother.2, hbegun]
    omega
  · rw [forall_peer peer, hpoint'.1, hpoint'.2]
    exact ⟨hresult, h.result peer.other⟩

theorem accounted_receives {datagram : List UInt8} (h : Accounted s) {ready : Bool}
    (hpoint : (s peer).point = .loop ready) (hmem : datagram ∈ (s peer).inFlight)
    (hm : Moved s peer
      { point := (handleDatagram ready (s peer).connected datagram).1
        connected := (handleDatagram ready (s peer).connected datagram).2.1
        inFlight := (s peer).inFlight.erase datagram }
      (handleDatagram ready (s peer).connected datagram).2.2 s') : Accounted s' := by
  have hpos := List.count_pos_iff.mpr hmem
  have hcounts : (s' peer).hellos = ((s peer).inFlight.erase datagram).count RtcpPacket.hello.toBytes ∧
      (s' peer).readys = ((s peer).inFlight.erase datagram).count RtcpPacket.ready.toBytes := by
    rw [hm.self]
    exact ⟨rfl, rfl⟩
  obtain rfl | rfl := h.only peer datagram hmem
  · rw [handleDatagram_hello] at hm
    rw [List.count_erase_self, List.count_erase_of_ne hello_ne_ready.symm] at hcounts
    refine accounted_receives_of h hm hpoint rfl nofun (by simp) ?_ ?_
    · rw [hcounts.1]
      show (s peer).inFlight.count RtcpPacket.hello.toBytes - 1 + 1 + min (HandshakePoint.loop ready).taken 1 =
        (s peer).inFlight.count RtcpPacket.hello.toBytes + min (HandshakePoint.loop ready).taken 1
      omega
    · rw [hcounts.2]
      rfl
  · rw [handleDatagram_ready] at hm
    rw [List.count_erase_self, List.count_erase_of_ne hello_ne_ready] at hcounts
    have hready : (s peer).readys = (s peer).inFlight.count RtcpPacket.ready.toBytes := rfl
    have hhello : (s peer).hellos = (s peer).inFlight.count RtcpPacket.hello.toBytes := rfl
    cases ready with
    | false =>
      refine accounted_receives_of h hm hpoint rfl nofun (by simp) ?_ ?_
      · simp [HandshakePoint.taken, hcounts.1, hhello]
      · simp [HandshakePoint.taken, hcounts.2, hready]
        omega
    | true =>
      refine accounted_receives_of h hm hpoint rfl ?_ (by simp) ?_ ?_
      · rintro result ⟨⟩
        rfl
      · simp [HandshakePoint.taken, hcounts.1, hhello]
      · simp [HandshakePoint.taken, hcounts.2, hready]
        omega

theorem accounted_step (h : Accounted s) {turn : HandshakeTurn} (hstep : s.step turn = some s') : Accounted s' := by
  cases turn with
  | begins peer =>
    obtain ⟨hpoint, hm⟩ := step_begins hstep
    exact accounted_begins h hpoint hm
  | receives peer datagram =>
    obtain ⟨ready, hpoint, hmem, hm⟩ := step_receives hstep
    exact accounted_receives h hpoint hmem hm

/-! ## Who is left behind -/

/-- A peer takes its second `Ready` only when the `Hello` of the other one is no longer on its way
to it. -/
def HelloFirst (s : Handshake) : HandshakeTurn → Prop
  | .begins _ => True
  | .receives peer datagram =>
    (s peer).point = .loop true → datagram = RtcpPacket.ready.toBytes →
    RtcpPacket.hello.toBytes ∉ (s peer).inFlight

/-- No peer has returned before it answered the `Hello`. -/
def Answered (s : Handshake) : Prop := ∀ p result, (s p).point = .returned result → (s p).hellos = 0

/-- The peer has returned with the `Hello` of the other one unread. -/
def LeftUnread (s : Handshake) (p : Peer) : Prop := (∃ result, (s p).point = .returned result) ∧ 0 < (s p).hellos

/-- What a peer sends leaves the other one where it is. -/
theorem Moved.other_point {state : HandshakePeer} {sent : List (List UInt8)} (hm : Moved s peer state sent s') :
    (s' peer.other).point = (s peer.other).point := by
  rw [hm.other]

theorem Moved.other_hellos {state : HandshakePeer} {sent : List (List UInt8)} (hm : Moved s peer state sent s') :
    (s' peer.other).hellos = (s peer.other).hellos + sent.count RtcpPacket.hello.toBytes := by
  rw [hm.other]
  exact List.count_append

/-- A peer returns at its second `Ready` and in no other way. -/
theorem returned_of_receives {datagram : List UInt8} (h : Accounted s) {ready connected : Bool}
    (hmem : datagram ∈ (s peer).inFlight) :
    (handleDatagram ready connected datagram).2.2.count RtcpPacket.hello.toBytes = 0 ∧
      ∀ result, (handleDatagram ready connected datagram).1 = .returned result →
        ready = true ∧ datagram = RtcpPacket.ready.toBytes := by
  have hnone : [RtcpPacket.ready.toBytes].count RtcpPacket.hello.toBytes = 0 := rfl
  obtain rfl | rfl := h.only peer datagram hmem
  · rw [handleDatagram_hello]
    exact ⟨hnone, nofun⟩
  · rw [handleDatagram_ready]
    cases ready with
    | false => exact ⟨hnone, nofun⟩
    | true => exact ⟨rfl, fun _ _ => ⟨rfl, rfl⟩⟩

theorem answered_step (hacc : Accounted s) (h : Answered s) {turn : HandshakeTurn} (hg : HelloFirst s turn)
    (hstep : s.step turn = some s') : Answered s' := by
  cases turn with
  | begins peer =>
    obtain ⟨hpoint, hm⟩ := step_begins hstep
    show ∀ p result, _
    rw [forall_peer peer, hm.self, hm.other_point]
    refine ⟨nofun, ?_⟩
    -- nobody returns before the other peer has begun
    intro result hresult
    have hbooks := hacc.readys peer.other
    rw [Peer.other_other, hpoint, hresult] at hbooks
    simp only [HandshakePoint.taken, HandshakePoint.begun] at hbooks
    omega
  | receives peer datagram =>
    obtain ⟨ready, hpoint, hmem, hm⟩ := step_receives hstep
    obtain ⟨hnohello, hreturned⟩ := @returned_of_receives s peer datagram hacc ready (s peer).connected hmem
    show ∀ p result, _
    rw [forall_peer peer, hm.other_point, hm.other_hellos, hnohello]
    refine ⟨?_, h peer.other⟩
    intro result hresult
    rw [hm.self] at hresult
    obtain ⟨rfl, rfl⟩ := hreturned result hresult
    rw [hm.self]
    exact List.count_eq_zero.mpr fun hin => hg hpoint rfl (List.mem_of_mem_erase hin)

theorem leftUnread_step {p : Peer} (h : LeftUnread s p) {turn : HandshakeTurn} (hstep : s.step turn = some s') :
    LeftUnread s' p := by
  obtain ⟨⟨result, hresult⟩, hpos⟩ := h
  have hother : ∀ peer state sent, Moved s peer state sent s' → (∀ r, (s peer).point ≠ .returned r) →
    LeftUnread s' p := by
    intro peer state sent hm hnot
    have hp : p = peer.other := by
      cases p <;> cases peer <;> first | rfl | exact absurd hresult (hnot result)
    subst hp
    refine ⟨⟨result, hm.other_point.trans hresult⟩, ?_⟩
    rw [hm.other_hellos]
    omega
  cases turn with
  | begins peer =>
    obtain ⟨hpoint, hm⟩ := step_begins hstep
    exact hother peer _ _ hm (by rw [hpoint]; exact nofun)
  | receives peer datagram =>
    obtain ⟨ready, hpoint, _, hm⟩ := step_receives hstep
    exact hother peer _ _ hm (by rw [hpoint]; exact nofun)

/-- With one peer gone before it answered, the other one gets a single `Ready`. -/
theorem not_bothReturned (hacc : Accounted s) {p : Peer} (h : LeftUnread s p) : ¬s.BothReturned := by
  intro hboth
  have hbooks := hacc.readys p.other
  have hpos := h.2
  rw [Peer.other_other, hboth p, hboth p.other] at hbooks
  simp only [HandshakePoint.taken, HandshakePoint.begun] at hbooks
  omega

/-- With every `Hello` answered, nobody waits in vain. -/
theorem bothReturned_of_answered (hacc : Accounted s) (h : Answered s) (hquiet : s.Quiet) : s.BothReturned := by
  have hbegun : ∀ p, (s p).point.begun = 1 := by
    intro p
    have hp := (hquiet p).1
    cases hpoint : (s p).point with
    | sendHello => exact absurd hpoint hp
    | loop ready => rfl
    | returned result => rfl
  have hempty : ∀ p ready, (s p).point = .loop ready → (s p).hellos = 0 ∧ (s p).readys = 0 := by
    intro p ready hpoint
    have hnone := (hquiet p).2 (by rw [hpoint]; exact nofun)
    rw [HandshakePeer.hellos, HandshakePeer.readys, hnone]
    exact ⟨rfl, rfl⟩
  have hzero : ∀ p, (s p).hellos = 0 := by
    intro p
    cases hpoint : (s p).point with
    | sendHello => exact absurd hpoint (hquiet p).1
    | loop ready => exact (hempty p ready hpoint).1
    | returned result => exact h p result hpoint
  intro p
  cases hpoint : (s p).point with
  | sendHello => exact absurd hpoint (hquiet p).1
  | returned result => rw [hacc.result p result hpoint]
  | loop ready =>
    -- the books of both peers do not allow this one to wait
    have hp := hacc.readys p
    have hq := hacc.readys p.other
    have hone : (s p).point.taken ≤ 1 := by
      rw [hpoint]
      cases ready <;> decide
    rw [(hempty p ready hpoint).2, hzero p.other, hbegun p] at hp
    rw [Peer.other_other, hzero p, hbegun p.other] at hq
    cases hother : (s p.other).point with
    | sendHello => exact absurd hother (hquiet p.other).1
    | loop ready' =>
      have hone' : (s p.other).point.taken ≤ 1 := by
        rw [hother]
        cases ready' <;> decide
      rw [(hempty p.other ready' hother).2] at hq
      omega
    | returned result =>
      have htwo : (s p.other).point.taken = 2 := by rw [hother]; rfl
      omega

end Handshake

/-! ## Whole handshakes -/

open Handshake

theorem handshake_step {s s' : Handshake} {turn : HandshakeTurn} {o : Unit}
    (h : handshakeMachine.step s turn = some (s', o)) : s.step turn = some s' := by
  obtain ⟨s'', hstep, heq⟩ := Option.map_eq_some_iff.mp h
  rw [hstep, (Prod.mk.inj heq).1]

theorem accounted_run {s t : Handshake} {turns : List HandshakeTurn} {os : List Unit} (hs : Accounted s)
    (hr : handshakeMachine.run s turns = some (t, os)) : Accounted t :=
  handshakeMachine.run_invariant (G := fun _ _ => True) Accounted
    (fun _ _ _ _ h _ hstep => accounted_step h (handshake_step hstep)) hs
    (handshakeMachine.guarded_of_forall fun _ _ _ => trivial) hr

theorem answered_run {s t : Handshake} {turns : List HandshakeTurn} {os : List Unit} (hs : Accounted s)
    (h : Answered s) (hg : handshakeMachine.Guarded HelloFirst s turns)
    (hr : handshakeMachine.run s turns = some (t, os)) : Answered t := by
  have hboth := handshakeMachine.run_invariant (fun s => Accounted s ∧ Answered s) ?_ ⟨hs, h⟩ hg hr
  · exact hboth.2
  · rintro s turn s' o ⟨hacc, hans⟩ hguard hstep
    exact ⟨accounted_step hacc (handshake_step hstep), answered_step hacc hans hguard (handshake_step hstep)⟩

theorem leftUnread_run {s t : Handshake} {p : Peer} {turns : List HandshakeTurn} {os : List Unit}
    (h : LeftUnread s p) (hr : handshakeMachine.run s turns = some (t, os)) : LeftUnread t p :=
  handshakeMachine.run_invariant (G := fun _ _ => True) (fun s => LeftUnread s p)
    (fun _ _ _ _ h _ hstep => leftUnread_step h (handshake_step hstep)) h
    (handshakeMachine.guarded_of_forall fun _ _ _ => trivial) hr

/-- When both peers have come to their end, every second `Ready` was taken after the `Hello`. -/
theorem helloFirst_of_bothReturned {s t : Handshake} {turns : List HandshakeTurn} {os : List Unit} (hs : Accounted s)
    (hr : handshakeMachine.run s turns = some (t, os)) (hboth : t.BothReturned) :
    handshakeMachine.Guarded HelloFirst s turns := by
  induction turns generalizing s os with
  | nil => trivial
  | cons turn turns ih =>
    obtain ⟨s', o, os', hstep, hrest, rfl⟩ := handshakeMachine.run_cons_some hr
    have hacc' := accounted_step hs (handshake_step hstep)
    refine ⟨?_, ?_⟩
    · cases turn with
      | begins peer => trivial
      | receives peer datagram =>
        rintro hpoint rfl hin
        obtain ⟨ready, hpoint', _, hm⟩ := step_receives (handshake_step hstep)
        rw [hpoint] at hpoint'
        cases hpoint'
        rw [handleDatagram_ready, if_pos rfl] at hm
        have hleft : LeftUnread s' peer := by
          rw [LeftUnread, hm.self]
          refine ⟨⟨_, rfl⟩, List.count_pos_iff.mpr ?_⟩
          exact (List.mem_erase_of_ne hello_ne_ready).mpr hin
        exact not_bothReturned (accounted_run hacc' hrest) (leftUnread_run hleft hrest) hboth
    · intro s'' o'' hstep'
      cases hstep.symm.trans hstep'
      exact ih hacc' hrest

/-- **When the handshake leaves nobody behind.** In every run no peer returns `UnexpectedMessage`.
Where both have begun and nothing is on its way to a peer that has not returned, both have returned
`Ok` if and only if each of them took its second `Ready` after the `Hello` of the other one. -/
theorem handshake_completes_iff {turns : List HandshakeTurn} {s : Handshake} {os : List Unit}
    (hr : handshakeMachine.run Handshake.start turns = some (s, os)) :
    (∀ peer, (s peer).point ≠ .returned (.error .unexpectedMessage)) ∧
      (s.Quiet → (s.BothReturned ↔ handshakeMachine.Guarded HelloFirst Handshake.start turns)) := by
  have hacc := accounted_run accounted_start hr
  refine ⟨?_, ?_⟩
  · intro peer hpoint
    cases hacc.result peer _ hpoint
  · intro hquiet
    constructor
    · exact helloFirst_of_bothReturned accounted_start hr
    · intro hg
      exact bothReturned_of_answered hacc (answered_run accounted_start nofun hg hr) hquiet

/-- Both `Hello`s are answered first, then the two `Ready`s of each side arrive. -/
def helloFirstRun : List HandshakeTurn :=
  [.begins .caller, .begins .callee, .receives .caller RtcpPacket.hello.toBytes,
    .receives .callee RtcpPacket.hello.toBytes, .receives .caller RtcpPacket.ready.toBytes,
    .receives .callee RtcpPacket.ready.toBytes, .receives .caller RtcpPacket.ready.toBytes,
    .receives .callee RtcpPacket.ready.toBytes]

theorem hello_first_completes :
    ∃ s os, handshakeMachine.run Handshake.start helloFirstRun = some (s, os) ∧ s.Quiet ∧
    s.BothReturned ∧ handshakeMachine.Guarded HelloFirst Handshake.start helloFirstRun := by
  obtain ⟨s, os, hr, hboth⟩ : ∃ s os, handshakeMachine.run Handshake.start helloFirstRun = some (s, os) ∧
      s.BothReturned := by
    refine ⟨_, _, rfl, ?_⟩
    intro peer
    cases peer <;> rfl
  have hquiet : s.Quiet := by
    intro peer
    rw [hboth peer]
    exact ⟨nofun, fun h => absurd rfl (h (.ok ()))⟩
  exact ⟨s, os, hr, hquiet, hboth, ((handshake_completes_iff hr).2 hquiet).mp hboth⟩

/-- The `Ready` the caller answers with overtakes its answer to the `Hello`: the caller is gone with
the `Hello` unread and the callee waits for a second `Ready`. -/
theorem caller_gone_callee_waits : ∃ s os, handshakeMachine.run Handshake.start
      [.begins .caller, .begins .callee, .receives .callee RtcpPacket.hello.toBytes,
        .receives .caller RtcpPacket.ready.toBytes, .receives .callee RtcpPacket.ready.toBytes,
        .receives .caller RtcpPacket.ready.toBytes] = some (s, os) ∧
    s.Quiet ∧ ¬s.BothReturned := by
  refine ⟨_, _, rfl, ?_, ?_⟩
  · intro peer
    cases peer
    · exact ⟨by decide, fun h => absurd rfl (h (.ok ()))⟩
    · exact ⟨by decide, fun _ => rfl⟩
  · intro h
    exact absurd (h .callee) (by decide)

end RoomRtc.Transport
