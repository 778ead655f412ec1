import RoomRtc.Foundations.Machine
import RoomRtc.Media.Sender

/-! The jitter buffer (`transport/jitter_buffer/jitter.rs`) with capacity `N`. Slots are a
function of the index, of which the code uses `0 .. N-1`. Sequence numbers are compared as
numbers; timestamps and clock readings are milliseconds. `add` and `pop` stop with a `Fault` where
the code panics. A `pop` looks at the time several times: `clk k` is the clock at its `k`-th check
(each `valid_playout_time`, then `synchronize_playout`).

Overflow. Every `u128` sum and difference is checked (`addU128`, `subU128`) and stops with a `Fault`
when it leaves the type, as it does with overflow checks. What is taken modulo a power of two is
what the code asks for (`wrapping_sub`, `as u64`) and the two `u32` counters of `update_stats`:
nothing but `update_stats` reads them, and so they do not end a run. -/
namespace RoomRtc.Jitter
open Transport
set_option autoImplicit false

def toleranceMillis : ℕ := 120

/-- What ends the thread instead of a result. -/
inductive Fault
  /-- a slot index that is not below `N` (only `N = 0` gets there) -/
  | indexOutOfBounds
  /-- `frame_timestamp - last_frame_completed_timestamp` below zero -/
  | subtractOverflow
  /-- a playout time or deadline beyond `u128` -/
  | addOverflow
  /-- a loop without an exit -/
  | endlessLoop
  deriving DecidableEq, Repr

def subU128 (a b : ℕ) : Except Fault ℕ := if a < b then .error .subtractOverflow else .ok (a - b)

def addU128 (a b : ℕ) : Except Fault ℕ := if a + b < 2 ^ 128 then .ok (a + b) else .error .addOverflow

structure ReceiverStats where
  packetsReceived : ℕ
  packetsLost : ℕ
  deriving DecidableEq, Repr

structure JitterBuffer where
  packets : ℕ → Option RtpPacket
  readIdx : ℕ
  writeIdx : ℕ
  readSeq : Option ℕ
  writeSeq : Option ℕ
  iFrameNeeded : Bool
  lastFrameCompletedTimestamp : ℕ
  lastDeliverTimestamp : ℕ
  metrics : ReceiverStats
  maxSeqSeen : ℕ

/-- A frame handed out by `pop`: the bytes it returns, the frame's timestamp (by then in
`last_frame_completed_timestamp`) and the milliseconds it slept before. -/
structure Delivery where
  timestamp : ℕ
  data : List UInt8
  sleepMillis : ℕ
  deriving DecidableEq, Repr

namespace JitterBuffer

def new : JitterBuffer where
  packets := fun _ => none
  readIdx := 0
  writeIdx := 0
  readSeq := none
  writeSeq := none
  iFrameNeeded := true
  lastFrameCompletedTimestamp := 0
  lastDeliverTimestamp := 0
  metrics := ⟨0, 0⟩
  maxSeqSeen := 0

/-! ## Slots -/

def setSlot (s : JitterBuffer) (i : ℕ) (p : Option RtpPacket) : JitterBuffer :=
  { s with packets := fun j => if j = i then p else s.packets j }

/-- One turn of a clearing loop: empty the read slot and go to the next one. -/
def dropRead (N : ℕ) (s : JitterBuffer) : JitterBuffer :=
  { s.setSlot s.readIdx none with readIdx := (s.readIdx + 1) % N }

/-! ## Resynchronisation -/

/-- Pointers back to the start, nothing read or written, an I-frame required. -/
def reset (s : JitterBuffer) : JitterBuffer :=
  { s with readIdx := 0, writeIdx := 0, readSeq := none, writeSeq := none, iFrameNeeded := true }

/-- The packet in the read slot if it is of an I-frame other than the one at `readTimestamp`. -/
def nextIFrame (s : JitterBuffer) (readTimestamp : ℕ) : Option RtpPacket :=
  (s.packets s.readIdx).filter fun pkt => pkt.isIFrame && pkt.ts != readTimestamp

/-- The `for _ in 0..N` loop of `resync_or_clear`. -/
def resyncLoop (N readTimestamp : ℕ) : ℕ → JitterBuffer → JitterBuffer
  | 0, s => s.reset
  | turns + 1, s =>
    match s.nextIFrame readTimestamp with
    | some pkt => { s with readSeq := some pkt.seq, iFrameNeeded := false }
    | none =>
      if s.readIdx = s.writeIdx then (s.setSlot s.readIdx none).reset
      else resyncLoop N readTimestamp turns (s.dropRead N)

def resyncOrClear (N : ℕ) (s : JitterBuffer) : JitterBuffer :=
  match s.packets s.readIdx with
  | none => s.reset
  | some pkt => resyncLoop N pkt.ts N s

/-! ## Acceptance -/

def wrappingSub (a b : ℕ) : ℕ := (a + 2 ^ 64 - b % 2 ^ 64) % 2 ^ 64

def window (N : ℕ) (s : JitterBuffer) : ℕ := s.readIdx + N - s.writeIdx

def validPacketSeqNum (N : ℕ) (s : JitterBuffer) (seqNum : ℕ) : Bool :=
  match s.packets s.readIdx with
  | some readPacket =>
    if s.window N > seqNum then true
    else decide (seqNum > wrappingSub readPacket.seq (s.window N))
  | none => true

def validPlayoutTime (s : JitterBuffer) (frameTimestamp now : ℕ) : Except Fault Bool :=
  if s.lastDeliverTimestamp = 0 then .ok true
  else do
    let deltaRtp ← subU128 frameTimestamp s.lastFrameCompletedTimestamp
    let expectedPlayoutTimeLocal ← addU128 s.lastDeliverTimestamp deltaRtp
    let expirationDeadline ← addU128 expectedPlayoutTimeLocal toleranceMillis
    return decide (now ≤ expirationDeadline)

/-- The counters of `update_stats`, as they wrap in `u32`; the floating-point jitter estimate is
left out. -/
def updateStats (s : JitterBuffer) (packet : RtpPacket) : JitterBuffer :=
  let received := (s.metrics.packetsReceived + 1) % 2 ^ 32
  if received = 1 then
    { s with metrics := ⟨received, s.metrics.packetsLost⟩, maxSeqSeen := packet.seq }
  else if packet.seq > s.maxSeqSeen then
    let gap := packet.seq - s.maxSeqSeen - 1
    let lost :=
      if gap > 0 ∧ gap < 1000 then (s.metrics.packetsLost + gap) % 2 ^ 32 else s.metrics.packetsLost
    { s with metrics := ⟨received, lost⟩, maxSeqSeen := packet.seq }
  else { s with metrics := ⟨received, s.metrics.packetsLost - 1⟩ }

def shouldDiscardPacket (N : ℕ) (s : JitterBuffer) (packet : RtpPacket) :
    Except Fault (Bool × JitterBuffer) :=
  let s := s.updateStats packet
  if s.iFrameNeeded && !packet.isIFrame then .ok (true, s)
  else if packet.ts < s.lastFrameCompletedTimestamp then .ok (true, s)
  else if N = 0 then .error .indexOutOfBounds
  else .ok (!s.validPacketSeqNum N packet.seq, s)

/-! ## Adding a packet -/

/-- The slot `pos` lies between the read slot and the old write slot, on the ring. -/
def collided (s : JitterBuffer) (oldWriteIdx pos : ℕ) : Bool :=
  if s.readIdx ≤ oldWriteIdx then decide (s.readIdx ≤ pos ∧ pos ≤ oldWriteIdx)
  else decide (s.readIdx ≤ pos ∨ pos ≤ oldWriteIdx)

def handleNewWriteHead (N : ℕ) (s : JitterBuffer) (seq pos : ℕ) : JitterBuffer :=
  let oldWriteIdx := s.writeIdx
  let s := { s with writeIdx := pos, writeSeq := some seq }
  if s.collided oldWriteIdx pos then s.resyncOrClear N else s

def initializeBuffer (s : JitterBuffer) (packet : RtpPacket) (pos : ℕ) : JitterBuffer :=
  { s.setSlot pos (some packet) with
    readSeq := some packet.seq, writeSeq := some packet.seq,
    readIdx := pos, writeIdx := pos, iFrameNeeded := false }

/-- The part of `add` behind the discard test. -/
def store (N : ℕ) (s : JitterBuffer) (packet : RtpPacket) : JitterBuffer :=
  let seq := packet.seq
  let pos := seq % N
  match s.readSeq, s.writeSeq with
  | some read, some write =>
    let s :=
      if seq < read then { s with readIdx := pos, readSeq := some seq }
      else if seq > write then s.handleNewWriteHead N seq pos
      else s
    s.setSlot pos (some packet)
  | _, _ => s.initializeBuffer packet pos

def add (N : ℕ) (s : JitterBuffer) (packet : RtpPacket) : Except Fault JitterBuffer := do
  let (discard, s) ← s.shouldDiscardPacket N packet
  if discard then return s else return s.store N packet

/-! ## Taking a frame out -/

/-- The loop of `prepare_next_frame_ts` for at most `turns` turns. Gives the timestamp, the
number of the next clock check and the state. -/
def prepareNextFrameTs (N : ℕ) (clk : ℕ → ℕ) :
    ℕ → ℕ → JitterBuffer → Except Fault (Option ℕ × ℕ × JitterBuffer)
  | 0, _, _ => .error .endlessLoop
  | turns + 1, k, s =>
    match s.packets s.readIdx with
    | none => .ok (none, k, s)
    | some pkt =>
      match s.validPlayoutTime pkt.ts (clk k) with
      | .error e => .error e
      | .ok true => .ok (some pkt.ts, k + 1, s)
      | .ok false =>
        let s := s.resyncOrClear N
        if s.writeSeq.isNone || s.readSeq.isNone then .ok (none, k + 1, s)
        else prepareNextFrameTs N clk turns (k + 1) s

/-- The chunk loop of `pop`: the last packet of the frame, the bytes and the slot behind it. -/
def collectFrame (N ts : ℕ) (s : JitterBuffer) :
    ℕ → ℕ → List UInt8 → ℕ → Option (RtpPacket × List UInt8 × ℕ)
  | 0, _, _, _ => none
  | turns + 1, idx, frameData, chunksProcessed =>
    match s.packets idx with
    | none => none
    | some packet =>
      if packet.ts ≠ ts then none
      else
        let frameData := frameData ++ packet.payload
        let chunksProcessed := chunksProcessed + 1
        let idx := (idx + 1) % N
        if packet.marker = 1 then
          if chunksProcessed = packet.totalChunks.toNat then some (packet, frameData, idx) else none
        else collectFrame N ts s turns idx frameData chunksProcessed

/-- `while self.read_idx != target_idx` -/
def clearTo (N targetIdx : ℕ) : ℕ → JitterBuffer → Except Fault JitterBuffer
  | 0, s => if s.readIdx = targetIdx then .ok s else .error .endlessLoop
  | turns + 1, s => if s.readIdx = targetIdx then .ok s else clearTo N targetIdx turns (s.dropRead N)

/-- The search for the next occupied slot. -/
def findNext (N : ℕ) : ℕ → JitterBuffer → JitterBuffer
  | 0, s => { s with readSeq := none, writeSeq := none }
  | turns + 1, s =>
    match s.packets s.readIdx with
    | some nextP => { s with readSeq := some nextP.seq }
    | none => findNext N turns { s with readIdx := (s.readIdx + 1) % N }

def advanceReadPointers (N : ℕ) (s : JitterBuffer) (targetIdx : ℕ) : Except Fault JitterBuffer := do
  let s ← clearTo N targetIdx N s
  return findNext N N s

/-- The new state and the milliseconds slept. -/
def synchronizePlayout (s : JitterBuffer) (packet : RtpPacket) (now : ℕ) : Except Fault (ℕ × JitterBuffer) :=
  if s.lastDeliverTimestamp ≠ 0 then do
    -- `saturating_sub`, here and for the time to sleep
    let deltaRtp := packet.ts - s.lastFrameCompletedTimestamp
    let expectedPlayoutTimeLocal ← addU128 s.lastDeliverTimestamp deltaRtp
    -- `sleep_time as u64`
    let sleepMillis := (expectedPlayoutTimeLocal - now) % 2 ^ 64
    return (sleepMillis, { s with lastDeliverTimestamp := expectedPlayoutTimeLocal })
  else return (0, { s with lastDeliverTimestamp := now })

/-- What `pop` does once a frame is complete. -/
def deliver (N : ℕ) (s : JitterBuffer) (packet : RtpPacket) (frameData : List UInt8) (idx now : ℕ) :
    Except Fault (Option Delivery × JitterBuffer) := do
  let s ← s.advanceReadPointers N idx
  let (sleepMillis, s) ← s.synchronizePlayout packet now
  let s := { s with lastFrameCompletedTimestamp := packet.ts }
  let s := if packet.isIFrame then { s with iFrameNeeded := false } else s
  return (some ⟨packet.ts, frameData, sleepMillis⟩, s)

def pop (N : ℕ) (clk : ℕ → ℕ) (s : JitterBuffer) : Except Fault (Option Delivery × JitterBuffer) := do
  if N = 0 then throw .indexOutOfBounds
  let (ts, k, s) ← prepareNextFrameTs N clk (N + 1) 0 s
  match ts with
  | none => return (none, s)
  | some ts =>
    match s.collectFrame N ts N s.readIdx [] 0 with
    | none => return (none, s)
    | some (packet, frameData, idx) => s.deliver N packet frameData idx (clk k)

end JitterBuffer

/-! ## Runs -/

inductive Op
  | add (packet : RtpPacket)
  | pop (clk : ℕ → ℕ)

/-- The buffer as a machine: an `add` gives no output, a `pop` what it returns. -/
def machine (N : ℕ) : Machine JitterBuffer Op (Option Delivery) where
  step s op :=
    match op with
    | .add packet => (s.add N packet).toOption.map fun s => (s, none)
    | .pop clk => (s.pop N clk).toOption.map fun r => (r.2, r.1)

/-- Packets as `run_frame_pipeline_loop` gives them to the buffer: a `pop` after each `add`. -/
def feed (plan : List (RtpPacket × (ℕ → ℕ))) : List Op := plan.flatMap fun x => [.add x.1, .pop x.2]

/-- The frames a run delivers, in order. -/
def deliveries (outputs : List (Option Delivery)) : List Delivery := outputs.filterMap id

end RoomRtc.Jitter
