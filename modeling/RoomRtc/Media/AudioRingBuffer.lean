import RoomRtc.Foundations.Machine
import RoomRtc.Foundations.RingQueue
import Mathlib.Algebra.Group.Nat.Defs

/-! The sample buffer of `media/audio/ring_buffer.rs`: `push` writes samples round a fixed
vector and overwrites the oldest ones when it is full, `pop_chunk` reads an exact number of
samples or none. Samples are only copied, so their type stays open; `0` is the silent sample.
An index past the end of the vector and a remainder by zero stop the program.

The buffer stands for a queue that keeps its last `capacity` elements (`queueMachine`). -/
namespace RoomRtc.Media
open RingQueue
set_option autoImplicit false

structure AudioRingBuffer (α : Type) where
  buffer : List α
  size : ℕ
  writePos : ℕ
  readPos : ℕ
  count : ℕ
  deriving DecidableEq, Repr

/-- `a % b` of the source, which panics for `b = 0`. -/
def remainder (a b : ℕ) : Option ℕ := if b = 0 then none else some (a % b)

namespace AudioRingBuffer
variable {α : Type}

def new [Zero α] (capacity : ℕ) : AudioRingBuffer α where
  buffer := List.replicate capacity 0
  size := capacity
  writePos := 0
  readPos := 0
  count := 0

/-- One turn of the loop of `push`. -/
def pushSample (b : AudioRingBuffer α) (sample : α) : Option (AudioRingBuffer α) :=
  if b.writePos < b.buffer.length then
    (remainder (b.writePos + 1) b.size).bind fun writePos =>
      let b := { b with buffer := b.buffer.set b.writePos sample, writePos := writePos }
      if b.count < b.size then some { b with count := b.count + 1 }
      else (remainder (b.readPos + 1) b.size).map fun readPos => { b with readPos := readPos }
  else none

def push (b : AudioRingBuffer α) (data : List α) : Option (AudioRingBuffer α) :=
  data.foldlM pushSample b

/-- `n` turns of the loop of `pop_chunk`: the samples read and the read position after them. -/
def readSamples (b : AudioRingBuffer α) : ℕ → Option (List α × AudioRingBuffer α)
  | 0 => some ([], b)
  | n + 1 =>
    b.buffer[b.readPos]?.bind fun sample =>
      (remainder (b.readPos + 1) b.size).bind fun readPos =>
        (readSamples { b with readPos := readPos } n).map fun r => (sample :: r.1, r.2)

def popChunk (b : AudioRingBuffer α) (chunkSize : ℕ) : Option (Option (List α) × AudioRingBuffer α) :=
  if b.count < chunkSize then some (none, b)
  else (b.readSamples chunkSize).map fun r => (some r.1, { r.2 with count := r.2.count - chunkSize })

end AudioRingBuffer

/-! ## Calls -/

inductive AudioCall (α : Type)
  | push (data : List α)
  | popChunk (chunkSize : ℕ)
  deriving DecidableEq, Repr

inductive AudioResult (α : Type)
  | pushed
  | popped (chunk : Option (List α))
  deriving DecidableEq, Repr

def ringMachine (α : Type) : Machine (AudioRingBuffer α) (AudioCall α) (AudioResult α) where
  step b
    | .push data => (b.push data).map fun b => (b, .pushed)
    | .popChunk chunkSize => (b.popChunk chunkSize).map fun r => (r.2, .popped r.1)

/-- What the buffer is for: a first-in first-out queue that forgets all but its last `capacity`
elements. -/
def queueMachine (α : Type) (capacity : ℕ) : Machine (List α) (AudioCall α) (AudioResult α) where
  step q
    | .push data => some ((q ++ data).rtake capacity, .pushed)
    | .popChunk chunkSize =>
      if chunkSize ≤ q.length then some (q.drop chunkSize, .popped (some (q.take chunkSize)))
      else some (q, .popped none)

/-! ## What the buffer stands for -/

variable {α : Type}

/-- A buffer of `capacity` slots that stands for the queue `q`. -/
structure Holds (capacity : ℕ) (q : List α) (b : AudioRingBuffer α) : Prop where
  size : b.size = capacity
  length : b.buffer.length = capacity
  readPos : b.readPos < capacity
  writePos : b.writePos = (b.readPos + q.length) % capacity
  count : b.count = q.length
  bound : q.length ≤ capacity
  laid : Laid b.buffer b.readPos q

theorem holds_new [Zero α] {capacity : ℕ} (hc : 1 ≤ capacity) :
    Holds capacity [] (AudioRingBuffer.new (α := α) capacity) where
  size := rfl
  length := List.length_replicate
  readPos := hc
  writePos := (Nat.zero_mod capacity).symm
  count := rfl
  bound := Nat.zero_le _
  laid := laid_nil _ _

theorem remainder_pos {a b : ℕ} (hb : 0 < b) : remainder a b = some (a % b) := if_neg (by omega)

variable {capacity : ℕ} {q : List α} {b : AudioRingBuffer α}

theorem pushSample_free (hw : b.writePos < b.buffer.length) (hc : b.count < b.size) (sample : α) :
    b.pushSample sample = some { b with
      buffer := b.buffer.set b.writePos sample
      writePos := (b.writePos + 1) % b.size
      count := b.count + 1 } := by
  rw [AudioRingBuffer.pushSample, if_pos hw, remainder_pos (Nat.zero_lt_of_lt hc)]
  exact if_pos hc

theorem pushSample_full (hw : b.writePos < b.buffer.length) (hpos : 0 < b.size)
    (hc : b.size ≤ b.count) (sample : α) :
    b.pushSample sample = some { b with
      buffer := b.buffer.set b.writePos sample
      writePos := (b.writePos + 1) % b.size
      readPos := (b.readPos + 1) % b.size } := by
  rw [AudioRingBuffer.pushSample, if_pos hw, remainder_pos hpos]
  show (if b.count < b.size then _ else _) = _
  rw [if_neg (by omega), remainder_pos hpos]
  rfl

theorem pushSample_append (h : Holds capacity q b) (hq : q.length < capacity) (sample : α) :
    ∃ b', b.pushSample sample = some b' ∧ Holds capacity (q ++ [sample]) b' := by
  obtain ⟨rfl, hlen, hread, hwrite, hcount, hbound, hlaid⟩ := h
  have hpos : 0 < b.size := by omega
  have hw : b.writePos < b.buffer.length := by
    rw [hwrite, hlen]
    exact Nat.mod_lt _ hpos
  refine ⟨_, pushSample_free hw (by omega) sample, rfl, (List.length_set ..).trans hlen, hread, ?writePos, ?count,
    ?bound, ?laid⟩
  case writePos =>
    show (b.writePos + 1) % b.size = _
    rw [hwrite, Nat.mod_add_mod, List.length_append]
    rfl
  case count =>
    show b.count + 1 = _
    rw [hcount, List.length_append, List.length_singleton]
  case bound =>
    rw [List.length_append, List.length_singleton]
    omega
  case laid =>
    have := hlaid.set_append (by omega) sample
    rwa [hlen, ← hwrite] at this

theorem pushSample_replace {y : α} (h : Holds capacity (y :: q) b) (hq : q.length + 1 = capacity) (sample : α) :
    ∃ b', b.pushSample sample = some b' ∧ Holds capacity (q ++ [sample]) b' := by
  obtain ⟨rfl, hlen, hread, hwrite, hcount, hbound, hlaid⟩ := h
  rw [List.length_cons] at hwrite hcount
  have hpos : 0 < b.size := by omega
  have hw : b.writePos < b.buffer.length := by
    rw [hwrite, hlen]
    exact Nat.mod_lt _ hpos
  refine ⟨_, pushSample_full hw hpos (by omega) sample, rfl, (List.length_set ..).trans hlen, Nat.mod_lt _ hpos,
    ?writePos, ?count, ?bound, ?laid⟩
  case writePos =>
    show (b.writePos + 1) % b.size = ((b.readPos + 1) % b.size + _) % b.size
    rw [hwrite, Nat.mod_add_mod, List.length_append, List.length_singleton, Nat.mod_add_mod]
    congr 1
    omega
  case count =>
    rw [List.length_append, List.length_singleton]
    exact hcount
  case bound =>
    rw [List.length_append, List.length_singleton]
    omega
  case laid =>
    have := hlaid.set_replace (by omega) sample
    rwa [hlen, ← hwrite] at this

/-- Both cases of one sample: the queue takes it and keeps its last `capacity` elements. -/
theorem pushSample_holds (h : Holds capacity q b) (sample : α) :
    ∃ b', b.pushSample sample = some b' ∧ Holds capacity ((q ++ [sample]).rtake capacity) b' := by
  by_cases hq : q.length < capacity
  · rw [rtake_of_length_le (by rw [List.length_append, List.length_singleton]; omega)]
    exact pushSample_append h hq sample
  · have hfull : q.length = capacity := by
      have := h.bound
      omega
    cases q with
    | nil =>
      have := h.readPos
      rw [List.length_nil] at hfull
      omega
    | cons y q =>
      rw [List.length_cons] at hfull
      have hdrop : (y :: q ++ [sample]).rtake capacity = q ++ [sample] := by
        rw [List.rtake, List.length_append, List.length_cons, List.length_singleton, hfull, Nat.add_sub_cancel_left]
        rfl
      rw [hdrop]
      exact pushSample_replace h hfull sample

/-- **`push`.** The queue takes all samples and keeps its last `capacity` elements. -/
theorem push_holds (h : Holds capacity q b) (data : List α) :
    ∃ b', b.push data = some b' ∧ Holds capacity ((q ++ data).rtake capacity) b' := by
  induction data generalizing q b with
  | nil =>
    rw [List.append_nil, rtake_of_length_le h.bound]
    exact ⟨b, rfl, h⟩
  | cons sample data ih =>
    obtain ⟨b₁, hone, h₁⟩ := pushSample_holds h sample
    obtain ⟨b', hrest, h'⟩ := ih h₁
    rw [rtake_rtake_append, List.append_assoc] at h'
    refine ⟨b', ?_, h'⟩
    rw [AudioRingBuffer.push, List.foldlM_cons, hone]
    exact hrest

/-- The loop of `pop_chunk` reads the first elements and leaves the others laid out from the new
read position on. -/
theorem readSamples_laid {q : List α} {b : AudioRingBuffer α} (hsize : b.buffer.length = b.size)
    (hread : b.readPos < b.size) (h : Laid b.buffer b.readPos q) {n : ℕ} (hn : n ≤ q.length) :
    b.readSamples n = some (q.take n, { b with readPos := (b.readPos + n) % b.size }) ∧
      Laid b.buffer ((b.readPos + n) % b.size) (q.drop n) := by
  induction n generalizing q b with
  | zero =>
    rw [Nat.add_zero, Nat.mod_eq_of_lt hread]
    exact ⟨rfl, h⟩
  | succ n ih =>
    cases q with
    | nil => exact absurd hn (Nat.not_succ_le_zero n)
    | cons x q =>
      have hpos : 0 < b.size := by omega
      have hx : b.buffer[b.readPos]? = some x := by
        have := h.head
        rwa [hsize, Nat.mod_eq_of_lt hread] at this
      have htail := h.tail
      rw [hsize] at htail
      obtain ⟨hrun, hrest⟩ := ih (b := { b with readPos := (b.readPos + 1) % b.size }) hsize
        (Nat.mod_lt _ hpos) htail (Nat.le_of_succ_le_succ hn)
      have hend : ((b.readPos + 1) % b.size + n) % b.size = (b.readPos + (n + 1)) % b.size := by
        rw [Nat.mod_add_mod]
        congr 1
        omega
      simp only [hend] at hrun hrest
      refine ⟨?_, hrest⟩
      rw [AudioRingBuffer.readSamples, hx, remainder_pos hpos]
      simp [hrun]

/-- **`pop_chunk`.** With enough samples it gives the first ones and takes them off; else it changes
nothing. -/
theorem popChunk_holds (h : Holds capacity q b) (n : ℕ) :
    ∃ b', b.popChunk n = some (if n ≤ q.length then some (q.take n) else none, b') ∧
      Holds capacity (if n ≤ q.length then q.drop n else q) b' := by
  have hcount := h.count
  by_cases hn : n ≤ q.length
  · obtain ⟨rfl, hlen, hread, hwrite, _, hbound, hlaid⟩ := h
    obtain ⟨hrun, hrest⟩ := readSamples_laid hlen hread hlaid hn
    rw [if_pos hn, if_pos hn, AudioRingBuffer.popChunk, if_neg (by omega), hrun]
    have hleft : (q.drop n).length = q.length - n := List.length_drop
    refine ⟨_, rfl, rfl, hlen, Nat.mod_lt _ (by omega), ?writePos, ?count, ?bound, hrest⟩
    case writePos =>
      show b.writePos = ((b.readPos + n) % b.size + (q.drop n).length) % b.size
      rw [hwrite, hleft, Nat.mod_add_mod]
      congr 1
      omega
    case count => rw [hleft, ← hcount]
    case bound => omega
  · rw [if_neg hn, if_neg hn, AudioRingBuffer.popChunk, if_pos (by omega)]
    exact ⟨b, rfl, h⟩

/-- One call on the buffer answers as the queue does. -/
theorem ringMachine_simulates (h : Holds capacity q b) {call : AudioCall α} {q' : List α} {r : AudioResult α}
    (hstep : (queueMachine α capacity).step q call = some (q', r)) :
    ∃ b', (ringMachine α).step b call = some (b', r) ∧ Holds capacity q' b' := by
  cases call with
  | push data =>
    cases hstep
    obtain ⟨b', hpush, h'⟩ := push_holds h data
    exact ⟨b', by simp [ringMachine, hpush], h'⟩
  | popChunk n =>
    obtain ⟨b', hpop, h'⟩ := popChunk_holds h n
    refine ⟨b', ?_⟩
    simp only [queueMachine] at hstep
    simp only [ringMachine, hpop]
    split at hstep
    · next hn =>
      cases hstep
      rw [if_pos hn] at h' ⊢
      exact ⟨rfl, h'⟩
    · next hn =>
      cases hstep
      rw [if_neg hn] at h' ⊢
      exact ⟨rfl, h'⟩

theorem queueMachine_steps (capacity : ℕ) (q : List α) (call : AudioCall α) :
    ∃ q' r, (queueMachine α capacity).step q call = some (q', r) := by
  cases call with
  | push data => exact ⟨_, _, rfl⟩
  | popChunk n =>
    simp only [queueMachine]
    split
    · exact ⟨_, _, rfl⟩
    · exact ⟨_, _, rfl⟩

/-- **The sample buffer is a bounded queue.** Every list of calls on a new buffer runs through, with
the results that the queue gives, and leaves the queue's elements in the buffer. -/
theorem audioRingBuffer_refines_queue (α : Type) [Zero α] (capacity : ℕ) (hc : 1 ≤ capacity)
    (calls : List (AudioCall α)) :
    ∃ q results b, (queueMachine α capacity).run [] calls = some (q, results) ∧
      (ringMachine α).run (AudioRingBuffer.new capacity) calls = some (b, results) ∧ Holds capacity q b := by
  obtain ⟨q, results, hq⟩ := (queueMachine α capacity).exists_run (queueMachine_steps capacity) [] calls
  obtain ⟨b, hb, h⟩ := (queueMachine α capacity).run_simulation (ringMachine α) (fun q b => Holds capacity q b)
    (fun _ _ _ _ _ h hs => ringMachine_simulates h hs) (holds_new hc) hq
  exact ⟨q, results, b, hq, hb, h⟩

/-- A push of more samples than there are slots, then one that wraps round and overwrites. -/
theorem audioRingBuffer_refines_queue_four :
    (((ringMachine ℕ).run (AudioRingBuffer.new 4)
      [.push [1, 2, 3, 4, 5, 6], .popChunk 2, .push [7, 8, 9], .popChunk 5, .popChunk 4]).map Prod.snd =
        some [.pushed, .popped (some [3, 4]), .pushed, .popped none, .popped (some [6, 7, 8, 9])]) ∧
      ∃ q results b, (queueMachine ℕ 4).run []
          [.push [1, 2, 3, 4, 5, 6], .popChunk 2, .push [7, 8, 9], .popChunk 5, .popChunk 4] = some (q, results) ∧
        (ringMachine ℕ).run (AudioRingBuffer.new 4)
          [.push [1, 2, 3, 4, 5, 6], .popChunk 2, .push [7, 8, 9], .popChunk 5, .popChunk 4] = some (b, results) ∧
        Holds 4 q b :=
  ⟨by decide, audioRingBuffer_refines_queue ℕ 4 (by decide) _⟩

end RoomRtc.Media
