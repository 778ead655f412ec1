import RoomRtc.Foundations.Machine
import RoomRtc.Transport.Dcep

/-! Opening data channels (`sctp_transport/transport.rs`, `sctp_transport/data_channel/channel.rs`). A
channel is opened on the stream with the transport's next id: the stream is opened and configured,
`DataChannelOpen` is sent, and the acknowledgement is waited for. Only behind all of this is the id
counted up, so that an attempt that fails after its stream was opened leaves its id to the next one. -/
namespace RoomRtc.Transport
open Access Text
set_option autoImplicit false

/-! ## Errors -/

inductive DataChannelError where
  | openError (details : Str)
  | readStreamError (details : Str)
  | openTimeout
  | sendError (details : Str)
  | lockError (details : Str)
  | getStreamError (details : Str)
  | readChunksError (details : Str)
deriving DecidableEq, Repr

def DataChannelError.display : DataChannelError → Str
  | openError e => "Error: \"Failed to open data channel\". Details: ".toList ++ e
  | openTimeout => "Error: \"Failed to open data channel\". Details: Timed out waiting for acknowledgement".toList
  | readStreamError e => "Error: \"Failed to read from data channel\". Details: ".toList ++ e
  | sendError e => "Error: \"Failed to send to data channel\". Details: ".toList ++ e
  | lockError e => "Error: \"Lock error\". Details: ".toList ++ e
  | getStreamError e => "Error: \"Failed to get stream\". Details: ".toList ++ e
  | readChunksError e => "Error: \"Failed to read from chunks\". Details: ".toList ++ e

/-- The errors of `open_data_channel`. -/
inductive SctpTransportError where
  | openStreamError (details : Str)
  | openDataChannelError (details : Str)
  | poisonedLock (details : Str)
deriving DecidableEq, Repr

/-! ## The handshake of a channel -/

/-- How the steps of `configure_stream` go, each with the text of its error. -/
structure ConfigureSteps where
  lock : Except Str Unit
  stream : Except Str Unit
  payloadType : Except Str Unit
  reliability : Except Str Unit

/-- How the steps of `write_with_ppi` go. -/
structure WriteSteps where
  lock : Except Str Unit
  stream : Except Str Unit
  write : Except Str Unit

/-- What one turn of `wait_for_ack` finds: no access to the stream, nothing to read, or chunks of some
protocol, which are read into the buffer. -/
inductive AckPoll where
  | failed (e : DataChannelError)
  | nothing
  | chunks (dcep : Bool) (read : Except Str Bytes)

def configureStream (steps : ConfigureSteps) : Except DataChannelError Unit := do
  steps.lock.mapError .lockError
  steps.stream.mapError .getStreamError
  steps.payloadType.mapError .openError
  steps.reliability.mapError .openError

def writeWithPpi (steps : WriteSteps) : Except DataChannelError Unit := do
  steps.lock.mapError .lockError
  steps.stream.mapError .getStreamError
  steps.write.mapError .sendError

def writeDcep (steps : WriteSteps) : Except DataChannelError Unit :=
  (writeWithPpi steps).mapError fun e => .sendError e.display

/-- The time is over at the end of the list. -/
def waitForAck : List AckPoll → Except DataChannelError Unit
  | [] => .error .openTimeout
  | .failed e :: _ => .error e
  | .nothing :: polls => waitForAck polls
  | .chunks false _ :: polls => waitForAck polls
  | .chunks true (.error e) :: _ => .error (.readChunksError e)
  | .chunks true (.ok bytes) :: polls =>
    if DcepMessage.fromBytes bytes = .ok (some .dataChannelAck) then .ok () else waitForAck polls

/-- What a call of `open_data_channel` meets: the association's lock, what `open_stream` answers, and the
handshake. -/
structure OpenCall where
  lock : Except Str Unit
  openStream : Except Str Unit
  configure : ConfigureSteps
  write : WriteSteps
  polls : List AckPoll

/-- `DataChannel::open` -/
def OpenCall.handshake (c : OpenCall) : Except DataChannelError Unit := do
  configureStream c.configure
  writeDcep c.write
  waitForAck c.polls

/-! ## The transport -/

structure SctpTransport where
  nextStreamId : UInt16
  deriving DecidableEq, Repr

/-- The id passed to `open_stream`, if it was called, with whether it succeeded; and what the call gives,
the stream id of the new channel. -/
structure Attempt where
  asked : Option (UInt16 × Bool)
  result : Except SctpTransportError UInt16

namespace SctpTransport

def new : SctpTransport := ⟨0⟩

/-- What `connect` does to the stream ids. -/
def connect (s : SctpTransport) (isClient : Bool) : SctpTransport :=
  if isClient then { s with nextStreamId := 1 } else s

/-- The addition is in `u16`, which a release build lets wrap. -/
def openDataChannel (s : SctpTransport) (c : OpenCall) : SctpTransport × Attempt :=
  match c.lock with
  | .error e => (s, ⟨none, .error (.poisonedLock e)⟩)
  | .ok () =>
    match c.openStream with
    | .error e => (s, ⟨some (s.nextStreamId, false), .error (.openStreamError e)⟩)
    | .ok () =>
      match c.handshake with
      | .error e => (s, ⟨some (s.nextStreamId, true), .error (.openDataChannelError e.display)⟩)
      | .ok () => ({ s with nextStreamId := s.nextStreamId + 2 }, ⟨some (s.nextStreamId, true), .ok s.nextStreamId⟩)

end SctpTransport

def transportMachine : Machine SctpTransport OpenCall Attempt where
  step s c := some (s.openDataChannel c)

/-- The calls of `open_stream`, in order. -/
def asked (attempts : List Attempt) : List (UInt16 × Bool) := attempts.filterMap Attempt.asked

/-- No id for which `open_stream` succeeded is passed to it again. -/
def NeverReused (attempts : List Attempt) : Prop :=
  (asked attempts).Pairwise fun a b => a.2 = true → b.1 ≠ a.1

/-- Odd on the client's side, even on the server's. -/
def OwnParity (isClient : Bool) (attempts : List Attempt) : Prop :=
  ∀ a ∈ asked attempts, a.1.toNat % 2 = if isClient then 1 else 0

/-! ## What a call meets -/

namespace OpenCall

/-- The call gets as far as `open_stream`. -/
def Reaches (c : OpenCall) : Prop := c.lock = .ok ()

/-- An acknowledgement comes in time, and before the first failed read. -/
def Acknowledged (polls : List AckPoll) : Prop :=
  ∃ before bytes after, polls = before ++ .chunks true (.ok bytes) :: after ∧
    DcepMessage.fromBytes bytes = .ok (some .dataChannelAck) ∧
    ∀ poll ∈ before, poll = .nothing ∨ (∃ read, poll = .chunks false read) ∨
      ∃ bytes, poll = .chunks true (.ok bytes)

/-- The stream can be configured and written to, and the acknowledgement comes. -/
structure Completes (c : OpenCall) : Prop where
  configure : c.configure = ⟨.ok (), .ok (), .ok (), .ok ()⟩
  write : c.write = ⟨.ok (), .ok (), .ok ()⟩
  acknowledged : Acknowledged c.polls

/-- The stream is opened and a later step fails. -/
def Stuck (c : OpenCall) : Prop := c.Reaches ∧ c.openStream = .ok () ∧ ¬c.Completes

end OpenCall

/-! ## One call -/

theorem configureStream_ok_iff (steps : ConfigureSteps) :
    configureStream steps = .ok () ↔ steps = ⟨.ok (), .ok (), .ok (), .ok ()⟩ := by
  obtain ⟨_ | ⟨⟩, _ | ⟨⟩, _ | ⟨⟩, _ | ⟨⟩⟩ :=
    steps <;> simp [configureStream, Except.mapError, bind, Except.bind]

theorem writeDcep_ok_iff (steps : WriteSteps) : writeDcep steps = .ok () ↔ steps = ⟨.ok (), .ok (), .ok ()⟩ := by
  obtain ⟨_ | ⟨⟩, _ | ⟨⟩, _ | ⟨⟩⟩ :=
    steps <;> simp [writeDcep, writeWithPpi, Except.mapError, bind, Except.bind]

/-- What is no acknowledgement and no failed read in front is passed over. -/
theorem acknowledged_cons {poll : AckPoll} (h : poll = .nothing ∨ (∃ read, poll = .chunks false read) ∨
    ∃ bytes, poll = .chunks true (.ok bytes)) {polls : List AckPoll} (hp : OpenCall.Acknowledged polls) :
    OpenCall.Acknowledged (poll :: polls) := by
  obtain ⟨before, bytes, after, rfl, hack, hbefore⟩ := hp
  exact ⟨poll :: before, bytes, after, rfl, hack, List.forall_mem_cons.mpr ⟨h, hbefore⟩⟩

theorem acknowledged_tail {poll : AckPoll} (h : ∀ bytes, poll = .chunks true (.ok bytes) →
    DcepMessage.fromBytes bytes ≠ .ok (some .dataChannelAck)) {polls : List AckPoll}
    (hp : OpenCall.Acknowledged (poll :: polls)) : OpenCall.Acknowledged polls ∧
      (poll = .nothing ∨ (∃ read, poll = .chunks false read) ∨ ∃ bytes, poll = .chunks true (.ok bytes)) := by
  obtain ⟨before, bytes, after, heq, hack, hbefore⟩ := hp
  cases before with
  | nil =>
    obtain ⟨rfl, _⟩ := List.cons.inj heq
    exact absurd hack (h bytes rfl)
  | cons first before =>
    obtain ⟨rfl, rfl⟩ := List.cons.inj heq
    rw [List.forall_mem_cons] at hbefore
    exact ⟨⟨before, bytes, after, rfl, hack, hbefore.2⟩, hbefore.1⟩

theorem waitForAck_ok_iff (polls : List AckPoll) : waitForAck polls = .ok () ↔ OpenCall.Acknowledged polls := by
  induction polls with
  | nil => exact iff_of_false (fun h => nomatch h) (fun ⟨before, _, _, heq, _⟩ => by cases before <;> cases heq)
  | cons poll polls ih =>
    cases poll with
    | failed e =>
      refine iff_of_false (fun h => nomatch h) fun h => ?_
      have := (acknowledged_tail (by simp) h).2
      simp at this
    | nothing =>
      rw [waitForAck, ih]
      exact ⟨acknowledged_cons (.inl rfl), fun h => (acknowledged_tail (by simp) h).1⟩
    | chunks dcep read =>
      cases dcep with
      | false =>
        rw [waitForAck, ih]
        exact ⟨acknowledged_cons (.inr (.inl ⟨read, rfl⟩)), fun h => (acknowledged_tail (by simp) h).1⟩
      | true =>
        cases read with
        | error e =>
          refine iff_of_false (fun h => nomatch h) fun h => ?_
          have := (acknowledged_tail (by simp) h).2
          simp at this
        | ok bytes =>
          rw [waitForAck]
          by_cases hack : DcepMessage.fromBytes bytes = .ok (some .dataChannelAck)
          · rw [if_pos hack]
            exact iff_of_true rfl ⟨[], bytes, polls, rfl, hack, fun _ h => nomatch h⟩
          · rw [if_neg hack, ih]
            refine ⟨acknowledged_cons (.inr (.inr ⟨bytes, rfl⟩)), fun h => (acknowledged_tail ?_ h).1⟩
            intro bytes' he
            cases he
            exact hack

theorem handshake_ok_iff (c : OpenCall) : c.handshake = .ok () ↔ c.Completes := by
  have hconfigure := configureStream_ok_iff c.configure
  have hwrite := writeDcep_ok_iff c.write
  have hwait := waitForAck_ok_iff c.polls
  unfold OpenCall.handshake
  constructor
  · intro h
    cases hc : configureStream c.configure with
    | error e => simp [hc, bind, Except.bind] at h
    | ok =>
      cases hw : writeDcep c.write with
      | error e => simp [hc, hw, bind, Except.bind] at h
      | ok =>
        simp only [hc, hw, bind, Except.bind] at h
        exact ⟨hconfigure.mp hc, hwrite.mp hw, hwait.mp h⟩
  · rintro ⟨hc, hw, hack⟩
    simp only [hconfigure.mpr hc, hwrite.mpr hw, bind, Except.bind, hwait.mpr hack]

/-- The four ways a call goes. -/
theorem openDataChannel_cases (s : SctpTransport) (c : OpenCall) :
    (¬c.Reaches ∧ (s.openDataChannel c).1 = s ∧ (s.openDataChannel c).2.asked = none) ∨
    (c.Reaches ∧ ¬c.Stuck ∧ (s.openDataChannel c).1 = s ∧
      (s.openDataChannel c).2.asked = some (s.nextStreamId, false)) ∨
    (c.Stuck ∧ (s.openDataChannel c).1 = s ∧ (s.openDataChannel c).2.asked = some (s.nextStreamId, true)) ∨
    (c.Reaches ∧ ¬c.Stuck ∧ (s.openDataChannel c).1 = ⟨s.nextStreamId + 2⟩ ∧
      (s.openDataChannel c).2.asked = some (s.nextStreamId, true)) := by
  unfold SctpTransport.openDataChannel
  cases hlock : c.lock with
  | error e => exact .inl ⟨by simp [OpenCall.Reaches, hlock], rfl, rfl⟩
  | ok =>
    refine .inr ?_
    cases hopen : c.openStream with
    | error e => exact .inl ⟨hlock, fun h => by simp [OpenCall.Stuck, hopen] at h, rfl, rfl⟩
    | ok =>
      refine .inr ?_
      cases hdc : c.handshake with
      | error e => exact .inl ⟨⟨hlock, hopen, fun h => by simp [(handshake_ok_iff c).mpr h] at hdc⟩, rfl, rfl⟩
      | ok => exact .inr ⟨hlock, fun h => h.2.2 ((handshake_ok_iff c).mp hdc), rfl, rfl⟩

/-! ## The calls of a connection -/

theorem asked_cons_none {a : Attempt} (h : a.asked = none) (attempts : List Attempt) :
    asked (a :: attempts) = asked attempts := List.filterMap_cons_none h

theorem asked_cons_some {a : Attempt} {id : UInt16 × Bool} (h : a.asked = some id) (attempts : List Attempt) :
    asked (a :: attempts) = id :: asked attempts := List.filterMap_cons_some h

theorem transport_run_cons {s t : SctpTransport} {c : OpenCall} {calls : List OpenCall} {attempts : List Attempt}
    (hrun : transportMachine.run s (c :: calls) = some (t, attempts)) :
    ∃ rest, transportMachine.run (s.openDataChannel c).1 calls = some (t, rest) ∧
      attempts = (s.openDataChannel c).2 :: rest := by
  obtain ⟨s', a, rest, hstep, hrest, rfl⟩ := transportMachine.run_cons_some hrun
  have hpair : s.openDataChannel c = (s', a) := Option.some.inj hstep
  rw [hpair]
  exact ⟨rest, hrest, rfl⟩

theorem next_toNat {s : SctpTransport} (h : s.nextStreamId.toNat + 2 < 65536) :
    (s.nextStreamId + 2).toNat = s.nextStreamId.toNat + 2 := by
  rw [UInt16.toNat_add]
  exact Nat.mod_eq_of_lt h

/-- The ids count up from the next one, in steps of two. -/
theorem asked_from {s t : SctpTransport} {calls : List OpenCall} {attempts : List Attempt}
    (hrun : transportMachine.run s calls = some (t, attempts))
    (hroom : s.nextStreamId.toNat + 2 * calls.length < 65536) :
    ∀ a ∈ asked attempts, s.nextStreamId.toNat ≤ a.1.toNat ∧ a.1.toNat % 2 = s.nextStreamId.toNat % 2 := by
  induction calls generalizing s attempts with
  | nil =>
    cases hrun
    exact fun a h => nomatch h
  | cons c calls ih =>
    obtain ⟨rest, hrest, rfl⟩ := transport_run_cons hrun
    rw [List.length_cons] at hroom
    obtain ⟨_, hsame, hasked⟩ | ⟨_, _, hsame, hasked⟩ | ⟨_, hsame, hasked⟩ | ⟨_, _, hnext, hasked⟩ :=
      openDataChannel_cases s c
    · rw [hsame] at hrest
      rw [asked_cons_none hasked]
      exact ih hrest (by omega)
    · rw [hsame] at hrest
      rw [asked_cons_some hasked, List.forall_mem_cons]
      exact ⟨⟨Nat.le_refl _, rfl⟩, ih hrest (by omega)⟩
    · rw [hsame] at hrest
      rw [asked_cons_some hasked, List.forall_mem_cons]
      exact ⟨⟨Nat.le_refl _, rfl⟩, ih hrest (by omega)⟩
    · rw [hnext] at hrest
      have hcount := next_toNat (s := s) (by omega)
      have hlater := ih hrest (by rw [hcount]; omega)
      rw [asked_cons_some hasked, List.forall_mem_cons]
      refine ⟨⟨Nat.le_refl _, rfl⟩, fun a ha => ?_⟩
      have := hlater a ha
      rw [hcount] at this
      omega

/-- The next id is passed on as soon as a call gets as far as that. -/
theorem asked_next {s t : SctpTransport} {calls : List OpenCall} {attempts : List Attempt}
    (hrun : transportMachine.run s calls = some (t, attempts)) :
    (∀ a ∈ asked attempts, a.1 ≠ s.nextStreamId) → ∀ c ∈ calls, ¬c.Reaches := by
  induction calls generalizing s attempts with
  | nil => exact fun _ c h => nomatch h
  | cons c calls ih =>
    obtain ⟨rest, hrest, rfl⟩ := transport_run_cons hrun
    intro hnone
    obtain ⟨hc, hsame, hasked⟩ | ⟨_, _, _, hasked⟩ | ⟨_, _, hasked⟩ | ⟨_, _, _, hasked⟩ :=
      openDataChannel_cases s c
    · rw [hsame] at hrest
      rw [asked_cons_none hasked] at hnone
      exact List.forall_mem_cons.mpr ⟨hc, ih hrest hnone⟩
    all_goals
      rw [asked_cons_some hasked] at hnone
      exact absurd rfl (hnone _ (List.mem_cons_self ..))

/-- Calls that do not get as far as `open_stream` pass no id on. -/
theorem asked_nil {s t : SctpTransport} {calls : List OpenCall} {attempts : List Attempt}
    (hrun : transportMachine.run s calls = some (t, attempts)) (hcalls : ∀ c ∈ calls, ¬c.Reaches) :
    asked attempts = [] := by
  induction calls generalizing s attempts with
  | nil =>
    cases hrun
    rfl
  | cons c calls ih =>
    obtain ⟨rest, hrest, rfl⟩ := transport_run_cons hrun
    rw [List.forall_mem_cons] at hcalls
    obtain ⟨_, hsame, hasked⟩ | ⟨hc, _⟩ | ⟨hc, _⟩ | ⟨hc, _⟩ := openDataChannel_cases s c
    · rw [asked_cons_none hasked]
      exact ih hrest hcalls.2
    · exact absurd hc hcalls.1
    · exact absurd hc.1 hcalls.1
    · exact absurd hc hcalls.1

theorem neverReused_iff {s t : SctpTransport} {calls : List OpenCall} {attempts : List Attempt}
    (hrun : transportMachine.run s calls = some (t, attempts))
    (hroom : s.nextStreamId.toNat + 2 * calls.length < 65536) :
    NeverReused attempts ↔ calls.Pairwise fun a b => ¬(a.Stuck ∧ b.Reaches) := by
  induction calls generalizing s attempts with
  | nil =>
    cases hrun
    exact iff_of_true .nil .nil
  | cons c calls ih =>
    obtain ⟨rest, hrest, rfl⟩ := transport_run_cons hrun
    rw [List.length_cons] at hroom
    rw [List.pairwise_cons]
    obtain ⟨hc, hsame, hasked⟩ | ⟨_, hc, hsame, hasked⟩ | ⟨hc, hsame, hasked⟩
      | ⟨_, hc, hnext, hasked⟩ :=
      openDataChannel_cases s c
    · rw [hsame] at hrest
      rw [NeverReused, asked_cons_none hasked, ← NeverReused, ih hrest (by omega)]
      exact ⟨fun h => ⟨fun b _ hb => hc hb.1.1, h⟩, And.right⟩
    · rw [hsame] at hrest
      rw [NeverReused, asked_cons_some hasked, List.pairwise_cons, ← NeverReused, ih hrest (by omega)]
      exact ⟨fun h => ⟨fun b _ hb => hc hb.1, h.2⟩, fun h => ⟨fun _ _ hopened => (nomatch hopened), h.2⟩⟩
    · rw [hsame] at hrest
      rw [NeverReused, asked_cons_some hasked, List.pairwise_cons, ← NeverReused, ih hrest (by omega)]
      -- The id is left to the calls behind, and the first that gets there takes it.
      refine and_congr_left fun _ => ⟨fun h b hb hboth => ?_, fun h => ?_⟩
      · exact asked_next hrest (fun a ha => h a ha rfl) b hb hboth.2
      · rw [asked_nil hrest fun b hb hreach => h b hb ⟨hc, hreach⟩]
        exact fun _ ha => nomatch ha
    · rw [hnext] at hrest
      have hcount := next_toNat (s := s) (by omega)
      have hlater := asked_from hrest (by rw [hcount]; omega)
      rw [NeverReused, asked_cons_some hasked, List.pairwise_cons, ← NeverReused, ih hrest (by rw [hcount]; omega)]
      refine ⟨fun h => ⟨fun b _ hb => hc hb.1, h.2⟩, fun h => ⟨fun a ha _ he => ?_, h.2⟩⟩
      have hle := (hlater a ha).1
      have hsame : a.1.toNat = s.nextStreamId.toNat := congrArg UInt16.toNat he
      rw [hcount] at hle
      omega

theorem connect_toNat (isClient : Bool) :
    (SctpTransport.new.connect isClient).nextStreamId.toNat = if isClient then 1 else 0 := by
  cases isClient <;> rfl

/-- **When stream ids are never reused**, by either side and with its own parity: no call is left stuck
behind an opened stream, but for calls after which none gets as far as opening a stream. -/
theorem streamIds_iff (isClient : Bool) {calls : List OpenCall} (hcalls : calls.length < 32768) {t : SctpTransport}
    {attempts : List Attempt}
    (hrun : transportMachine.run (SctpTransport.new.connect isClient) calls = some (t, attempts)) :
    (NeverReused attempts ∧ OwnParity isClient attempts) ↔ calls.Pairwise fun a b => ¬(a.Stuck ∧ b.Reaches) := by
  have hstart := connect_toNat isClient
  have hroom : (SctpTransport.new.connect isClient).nextStreamId.toNat + 2 * calls.length < 65536 := by
    cases isClient <;> simp at hstart <;> omega
  have hparity : OwnParity isClient attempts := by
    intro a ha
    rw [(asked_from hrun hroom a ha).2, hstart]
    cases isClient <;> rfl
  rw [← neverReused_iff hrun hroom]
  exact and_iff_left hparity

/-- A call on which nothing fails but perhaps `open_stream`, and the acknowledgement. -/
def OpenCall.smooth (openStream : Except Str Unit) (polls : List AckPoll) : OpenCall :=
  ⟨.ok (), openStream, ⟨.ok (), .ok (), .ok (), .ok ()⟩, ⟨.ok (), .ok (), .ok ()⟩, polls⟩

/-- Two channels of a client, each acknowledged. -/
theorem streamIds_two_channels :
    ∃ t attempts, transportMachine.run (SctpTransport.new.connect true)
        [.smooth (.ok ()) [.nothing, .chunks true (.ok [2, 0])], .smooth (.ok ()) [.chunks true (.ok [2])]] =
          some (t, attempts) ∧ asked attempts = [(1, true), (3, true)] ∧ NeverReused attempts ∧
          OwnParity true attempts := by
  have hrun : transportMachine.run (SctpTransport.new.connect true)
      [.smooth (.ok ()) [.nothing, .chunks true (.ok [2, 0])], .smooth (.ok ()) [.chunks true (.ok [2])]] =
        some (⟨5⟩, [⟨some (1, true), .ok 1⟩, ⟨some (3, true), .ok 3⟩]) := rfl
  refine ⟨_, _, hrun, by decide, ?_⟩
  apply (streamIds_iff true (by decide) hrun).mpr
  have hfirst : ¬(OpenCall.smooth (.ok ()) [.nothing, .chunks true (.ok [2, 0])]).Stuck :=
    fun h => h.2.2 ((handshake_ok_iff _).mp rfl)
  exact .cons (fun _ _ hb => hfirst hb.1) (.cons (fun _ h => nomatch h) .nil)

/-- The first channel is not acknowledged in time; the next one asks for the same stream, which exists. -/
theorem streamIds_reused :
    ∃ t attempts, transportMachine.run (SctpTransport.new.connect true)
        [.smooth (.ok ()) [.nothing, .nothing], .smooth (.error "stream already exists".toList) []] =
          some (t, attempts) ∧ asked attempts = [(1, true), (1, false)] ∧ ¬NeverReused attempts := by
  refine ⟨_, _, rfl, by decide, fun h => ?_⟩
  cases h with
  | cons hfirst _ => exact hfirst _ (List.mem_cons_self ..) rfl rfl

end RoomRtc.Transport
