import RoomRtc.Foundations.Machine
import RoomRtc.Media.AudioRingBuffer
import Mathlib.Algebra.BigOperators.Group.List.Basic
import Mathlib.Algebra.GroupWithZero.Nat
import Mathlib.Data.Rat.Floor
import Mathlib.Tactic.Linarith

/-! The microphone (`media/audio/microphone.rs`): what its stream hears is resampled, goes through the
sample buffer and leaves in frames of equal length. The callback of the stream runs in a thread of its
own, turn by turn, while the user mutes and the encoder may hang up. When no sample is lost on the way.
The arithmetic on samples stays open, and what is proved of exact arithmetic is said so. -/
namespace RoomRtc.Media
set_option autoImplicit false

/-! ## The switches -/

structure Microphone where
  muted : Bool
  /-- There is an input stream. -/
  stream : Bool
deriving DecidableEq, Repr

namespace Microphone

def new : Microphone where
  muted := false
  stream := false

def toggleMute (m : Microphone) : Microphone := { m with muted := !m.muted }

def isMuted (m : Microphone) : Bool := m.muted

/-- `device` says whether the stream can be opened and played. -/
def start (m : Microphone) (device : Bool) : Microphone × Bool :=
  if device then ({ m with stream := true }, true) else (m, false)

def stop (_ : Microphone) : Microphone where
  muted := false
  stream := false

end Microphone

/-! ## Arithmetic on samples -/

/-- The operations of `f32` that the microphone uses. No law is asked of them: those of the machine
round. -/
class Sample (α : Type) extends Zero α, One α, Add α, Sub α, Mul α, Div α, LT α where
  /-- `0.5` -/
  half : α
  /-- `as f32`, from an unsigned integer. -/
  ofNat : ℕ → α
  /-- `as usize` -/
  toUsize : α → ℕ
  decidableLT : DecidableLT α

instance (priority := low) decidableLTSample (α : Type) [Sample α] : DecidableLT α := Sample.decidableLT

/-- Without rounding. -/
instance exactSample : Sample ℚ where
  half := 1 / 2
  ofNat n := n
  toUsize x := ⌊x⌋₊
  decidableLT := inferInstance

variable {α : Type}

/-- The averages of the pairs; an odd sample at the end stops the program. -/
def averagePairs [Sample α] : List α → Option (List α)
  | [] => some []
  | [_] => none
  | a :: b :: rest => (averagePairs rest).map ((a + b) * Sample.half :: ·)

/-- The first sample of every chunk. -/
def firstOfChunks (channels : ℕ) : ℕ → List α → List α
  | _, [] => []
  | 0, a :: rest => a :: firstOfChunks channels (channels - 1) rest
  | skip + 1, _ :: rest => firstOfChunks channels skip rest

/-- `chunks(0)` stops the program. -/
def convertToMono [Sample α] (data : List α) (channels : ℕ) : Option (List α) :=
  match channels with
  | 0 => none
  | 1 => some data
  | 2 => averagePairs data
  | _ => some (firstOfChunks channels 0 data)

/-- How many samples of four bytes a `Vec` can hold. The `push` behind them stops the program. -/
def vecCapacity : ℕ := 2 ^ 61 - 1

/-- The `while` loop of `resample_linear`, when the vector still has room for so many samples. -/
def resampleLoop [Sample α] (source : List α) (step : α) : ℕ → α → List α → Option (List α × α)
  | 0, phase, resampled => if phase < Sample.ofNat source.length - 1 then none else some (resampled, phase)
  | room + 1, phase, resampled =>
    if phase < Sample.ofNat source.length - 1 then
      let idx := Sample.toUsize phase
      let frac := phase - Sample.ofNat idx
      source[idx]?.bind fun sampleA =>
        source[idx + 1]?.bind fun sampleB =>
          resampleLoop source step room (phase + step) (resampled ++ [sampleA * (1 - frac) + sampleB * frac])
    else some (resampled, phase)

/-- The samples and the phase for the next block. -/
def resampleLinear [Sample α] (source : List α) (phase step : α) : Option (List α × α) :=
  (resampleLoop source step vecCapacity phase []).map fun (resampled, phase) =>
    let phase := phase - Sample.ofNat source.length
    (resampled, if phase < 0 then 0 else phase)

/-! ### Exact arithmetic -/

/-- The slots of a turn are there, and every turn brings the phase nearer to the end. -/
theorem resampleLoop_exact (source : List ℚ) {step : ℚ} (hstep : 0 < step) (room : ℕ) {phase : ℚ}
    (hphase : 0 ≤ phase)
    (hroom : (source.length : ℚ) ≤ phase + room * step + 1) (resampled : List ℚ) :
    ∃ samples phase', resampleLoop source step room phase resampled = some (samples, phase') := by
  induction room generalizing phase resampled with
  | zero =>
    refine ⟨resampled, phase, if_neg ?_⟩
    change ¬phase < (source.length : ℚ) - 1
    push_cast at hroom
    linarith
  | succ room ih =>
    rw [resampleLoop]
    split
    · next hlt =>
      change phase < (source.length : ℚ) - 1 at hlt
      have hidx : ⌊phase⌋₊ + 1 < source.length := by
        have hfloor := Nat.floor_le hphase
        have : ((⌊phase⌋₊ + 1 : ℕ) : ℚ) < source.length := by
          push_cast
          linarith
        exact_mod_cast this
      have hnext : (source.length : ℚ) ≤ phase + step + room * step + 1 := by
        push_cast at hroom
        linarith
      change ∃ samples phase', source[⌊phase⌋₊]?.bind (fun sampleA =>
        source[⌊phase⌋₊ + 1]?.bind fun sampleB => resampleLoop source step room (phase + step) _) =
          some (samples, phase')
      rw [List.getElem?_eq_getElem (Nat.lt_of_succ_lt hidx), List.getElem?_eq_getElem hidx]
      exact ih (by linarith) hnext _
    · exact ⟨resampled, phase, rfl⟩

theorem resampleLinear_phase {source samples : List ℚ} {phase phase' step : ℚ}
    (h : resampleLinear source phase step = some (samples, phase')) : 0 ≤ phase' := by
  obtain ⟨⟨_, last⟩, _, hphase⟩ := Option.map_eq_some_iff.mp h
  cases hphase
  split
  · exact le_rfl
  · next hneg => exact not_lt.mp hneg

/-- With a positive step and a block that the vector has room for, `resample_linear` returns. -/
theorem resampleLinear_exact {source : List ℚ} {phase step : ℚ} (hphase : 0 ≤ phase) (hstep : 0 < step)
    (hroom : (source.length : ℚ) ≤ vecCapacity * step) : resampleLinear source phase step ≠ none := by
  obtain ⟨samples, phase', hloop⟩ := resampleLoop_exact source hstep vecCapacity hphase (by linarith) []
  rw [resampleLinear, hloop]
  exact Option.some_ne_none _

example : resampleLinear [(0 : ℚ), 1] 0 (1 / 2) = some ([0, 1 / 2], 0) := by decide +kernel

theorem resampleLoop_sameRate (source : List ℚ) (room k : ℕ) (hk : k < source.length)
    (hroom : source.length ≤ k + room + 1) (resampled : List ℚ) : resampleLoop source 1 room (k : ℚ) resampled =
      some (resampled ++ (source.drop k).dropLast, ((source.length - 1 : ℕ) : ℚ)) := by
  have hend (k : ℕ) : (k : ℚ) < Sample.ofNat source.length - 1 ↔ k + 1 < source.length := by
    change (k : ℚ) < (source.length : ℚ) - 1 ↔ _
    rw [lt_sub_iff_add_lt]
    exact_mod_cast Iff.rfl
  have hlast {k : ℕ} (he : k + 1 = source.length) : (source.drop k).dropLast = [] := by
    rw [List.dropLast_eq_take, List.length_drop, show source.length - k - 1 = 0 by omega, List.take_zero]
  induction room generalizing k resampled with
  | zero =>
    have he : k + 1 = source.length := by omega
    rw [resampleLoop, if_neg (by rw [hend]; omega), hlast he, List.append_nil, show source.length - 1 = k by omega]
  | succ room ih =>
    rw [resampleLoop]
    split
    · next hlt =>
      rw [hend] at hlt
      have hfloor : Sample.toUsize (k : ℚ) = k := Nat.floor_natCast k
      have hsample : source[k] * (1 - ((k : ℚ) - Sample.ofNat k)) + source[k + 1] * ((k : ℚ) - Sample.ofNat k) =
          source[k] := by
        change source[k] * (1 - ((k : ℚ) - k)) + source[k + 1] * ((k : ℚ) - k) = source[k]
        ring
      have hdrop : (source.drop k).dropLast = source[k] :: (source.drop (k + 1)).dropLast := by
        rw [List.drop_eq_getElem_cons hk, List.dropLast_cons_of_ne_nil]
        exact List.ne_nil_of_length_pos (by rw [List.length_drop]; omega)
      simp only [hfloor, List.getElem?_eq_getElem hk, List.getElem?_eq_getElem hlt, Option.bind_some, hsample]
      have hnext := ih (k + 1) hlt (by omega) (resampled ++ [source[k]])
      push_cast at hnext
      rw [hnext, hdrop, List.append_assoc]
      rfl
    · next hge =>
      rw [hend] at hge
      have he : k + 1 = source.length := by omega
      rw [hlast he, List.append_nil, show source.length - 1 = k by omega]

/-- At equal rates every block loses its last sample. -/
theorem resampleLinear_sameRate {source : List ℚ} (hroom : source.length ≤ vecCapacity) :
    resampleLinear source 0 1 = some (source.dropLast, 0) := by
  cases source with
  | nil => decide +kernel
  | cons sample rest =>
    have hloop := resampleLoop_sameRate (sample :: rest) vecCapacity 0 (Nat.zero_lt_succ _) (by omega) []
    rw [Nat.cast_zero] at hloop
    rw [resampleLinear, hloop]
    change some ((sample :: rest).dropLast,
      if ((rest.length : ℕ) : ℚ) - ((rest.length + 1 : ℕ) : ℚ) < 0 then (0 : ℚ) else _) = _
    rw [if_pos (by push_cast; linarith)]

/-! ## The callback -/

structure AudioFrame (α : Type) where
  data : List α
  timestamp : ℕ
deriving DecidableEq, Repr

/-- The input stream as the device and the configuration have it. -/
structure InputStream where
  inputChannels : ℕ
  inputRate : ℕ
  audioSampleRate : ℕ
  audioFrameSize : ℕ
deriving DecidableEq, Repr

/-- The resampling step. -/
def InputStream.step [Sample α] (d : InputStream) : α := Sample.ofNat d.inputRate / Sample.ofNat d.audioSampleRate

/-- The closure of the callback and the channel to the encoder. -/
structure Capture (α : Type) where
  muted : Bool
  ringBuffer : AudioRingBuffer α
  phase : α
  /-- The callback is in its loop over the chunks. -/
  draining : Bool
  /-- The encoder still holds its end of the channel. -/
  listening : Bool
  sent : List (AudioFrame α)

inductive CaptureMove (α : Type) where
  | heard (data : List α)
  | chunk (now : ℕ)
  | toggleMute
  | hungUp
deriving DecidableEq, Repr

namespace Capture

def new [Sample α] (d : InputStream) : Capture α where
  muted := false
  ringBuffer := .new (d.audioFrameSize * 10)
  phase := 0
  draining := false
  listening := true
  sent := []

/-- What the callback makes of its data: the samples that it pushes and the phase after them. -/
def resampled [Sample α] (d : InputStream) (c : Capture α) (data : List α) : Option (List α × α) :=
  (convertToMono data d.inputChannels).bind fun mono => resampleLinear mono c.phase d.step

/-- A step gives out the samples that go into the buffer with it. -/
def step [Sample α] (d : InputStream) (c : Capture α) : CaptureMove α → Option (Capture α × List α)
  | .heard data =>
    if c.draining then none
    else if c.muted then some (c, [])
    else
      (c.resampled d data).bind fun (samples, phase) =>
        (c.ringBuffer.push samples).map fun ringBuffer => ({ c with ringBuffer, phase, draining := true }, samples)
  | .chunk now =>
    if c.draining then
      (c.ringBuffer.popChunk d.audioFrameSize).map fun (chunk, ringBuffer) =>
        match chunk with
        | none => ({ c with ringBuffer, draining := false }, [])
        | some data =>
          -- a send that fails ends the callback, and the chunk is gone
          if c.listening then ({ c with ringBuffer, sent := c.sent ++ [⟨data, now⟩] }, [])
          else ({ c with ringBuffer, draining := false }, [])
    else none
  | .toggleMute => some ({ c with muted := !c.muted }, [])
  | .hungUp => some ({ c with listening := false }, [])

end Capture

def captureMachine [Sample α] (d : InputStream) : Machine (Capture α) (CaptureMove α) (List α) where
  step := Capture.step d

theorem phase_step {d : InputStream} {c c' : Capture ℚ} {move : CaptureMove ℚ} {samples : List ℚ}
    (h : 0 ≤ c.phase) (hstep : c.step d move = some (c', samples)) : 0 ≤ c'.phase := by
  cases move with
  | toggleMute | hungUp =>
    cases hstep
    exact h
  | heard data =>
    rw [Capture.step] at hstep
    split at hstep
    · cases hstep
    · split at hstep
      · cases hstep
        exact h
      · obtain ⟨⟨out, phase⟩, hout, hstep⟩ := Option.bind_eq_some_iff.mp hstep
        obtain ⟨ring, _, hnew⟩ := Option.map_eq_some_iff.mp hstep
        obtain ⟨_, _, hlinear⟩ := Option.bind_eq_some_iff.mp hout
        cases hnew
        exact resampleLinear_phase hlinear
  | chunk now =>
    rw [Capture.step] at hstep
    split at hstep
    · obtain ⟨⟨popped, ring⟩, _, hnew⟩ := Option.map_eq_some_iff.mp hstep
      dsimp only at hnew
      split at hnew
      · cases hnew
        exact h
      · split at hnew <;> cases hnew <;> exact h
    · cases hstep

theorem phase_run {d : InputStream} {moves : List (CaptureMove ℚ)} {c : Capture ℚ} {heard : List (List ℚ)}
    (hr : (captureMachine d).run (.new d) moves = some (c, heard)) : 0 ≤ c.phase :=
  (captureMachine d).run_invariant (G := fun _ _ => True) (fun c => 0 ≤ c.phase)
    (fun _ _ _ _ h _ hstep => phase_step h hstep) le_rfl
    ((captureMachine d).guarded_of_forall fun _ _ _ => trivial) hr

/-- In exact arithmetic no block stops the callback that is made of whole frames of the device and of no
more samples than a vector can hold. -/
theorem resampled_exact {d : InputStream} (hinput : 0 < d.inputRate) (haudio : 0 < d.audioSampleRate)
    {moves : List (CaptureMove ℚ)} {c : Capture ℚ} {heard : List (List ℚ)}
    (hr : (captureMachine d).run (.new d) moves = some (c, heard)) {data mono : List ℚ}
    (hmono : convertToMono data d.inputChannels = some mono)
    (hroom : mono.length * d.audioSampleRate ≤ vecCapacity * d.inputRate) : c.resampled d data ≠ none := by
  have haudio : (0 : ℚ) < d.audioSampleRate := by exact_mod_cast haudio
  have hstep : (d.step : ℚ) = d.inputRate / d.audioSampleRate := rfl
  have hroom : (mono.length : ℚ) * d.audioSampleRate ≤ vecCapacity * d.inputRate := by exact_mod_cast hroom
  rw [Capture.resampled, hmono]
  refine resampleLinear_exact (phase_run hr) ?_ ?_
  · rw [hstep]
    exact div_pos (by exact_mod_cast hinput) haudio
  · rwa [hstep, mul_div_assoc', le_div_iff₀ haudio]

/-! ## What is sent and what waits -/

/-- What is pushed finds room in the buffer. -/
def Capture.HasRoom [Sample α] (d : InputStream) (c : Capture α) : CaptureMove α → Prop
  | .heard data => c.muted = false → ∀ samples phase, c.resampled d data = some (samples, phase) →
    c.ringBuffer.count + samples.length ≤ c.ringBuffer.size
  | _ => True

/-- The samples of the frames that were sent, in their order. -/
def Capture.played (c : Capture α) : List α := c.sent.flatMap AudioFrame.data

/-- The buffer holds `q`, at most a part of a frame between two callbacks, and all frames are of full length. -/
structure Capture.Framed (size : ℕ) (c : Capture α) (q : List α) : Prop where
  holds : Holds (size * 10) q c.ringBuffer
  rest : c.draining = false → c.listening = true → q.length < size
  full : ∀ frame ∈ c.sent, frame.data.length = size

theorem framed_new [Sample α] {d : InputStream} (hsize : 1 ≤ d.audioFrameSize) :
    (Capture.new d : Capture α).Framed d.audioFrameSize [] where
  holds := holds_new (by omega)
  rest := fun _ _ => hsize
  full := nofun

variable [Sample α] {d : InputStream} {c c' : Capture α} {q samples : List α}

/-- One step: what was there and what comes in is afterwards sent or waits, unless the buffer overflows. -/
theorem framed_step (h : c.Framed d.audioFrameSize q) {move : CaptureMove α}
    (hstep : c.step d move = some (c', samples)) :
    ∃ q', c'.Framed d.audioFrameSize q' ∧ (c'.listening = true → c.listening = true) ∧
      (c'.listening = true → c.HasRoom d move → c'.played ++ q' = c.played ++ q ++ samples) ∧
      (¬c.HasRoom d move → (c'.played ++ q').length < (c.played ++ q ++ samples).length) ∧
      (c'.played ++ q').length ≤ (c.played ++ q ++ samples).length := by
  cases move with
  | toggleMute =>
    cases hstep
    refine ⟨q, ⟨h.holds, h.rest, h.full⟩, id, fun _ _ => (List.append_nil _).symm,
      fun hroom => absurd trivial hroom, ?_⟩
    simp [Capture.played]
  | hungUp =>
    cases hstep
    refine ⟨q, ⟨h.holds, nofun, h.full⟩, nofun, nofun, fun hroom => absurd trivial hroom, ?_⟩
    simp [Capture.played]
  | heard data =>
    rw [Capture.step] at hstep
    split at hstep
    · cases hstep
    · next hidle =>
      split at hstep
      · next hmuted =>
        cases hstep
        refine ⟨q, h, id, fun _ _ => (List.append_nil _).symm, fun hroom => ?_, by simp⟩
        exact absurd (fun hopen => absurd (hmuted.symm.trans hopen) (by decide)) hroom
      · next hmuted =>
        obtain ⟨⟨out, phase⟩, hout, hstep⟩ := Option.bind_eq_some_iff.mp hstep
        obtain ⟨ring, hpush, hnew⟩ := Option.map_eq_some_iff.mp hstep
        cases hnew
        obtain ⟨ring', hring, hholds⟩ := push_holds h.holds samples
        cases hpush.symm.trans hring
        have hroom : c.HasRoom d (.heard data) ↔ (q ++ samples).length ≤ d.audioFrameSize * 10 := by
          rw [List.length_append, ← h.holds.count, ← h.holds.size]
          refine ⟨fun hroom => hroom (by simpa using hmuted) _ _ hout, fun hroom _ out' phase' hout' => ?_⟩
          cases hout.symm.trans hout'
          exact hroom
        refine ⟨_, ⟨hholds, nofun, h.full⟩, id, fun _ hfits => ?_, fun hover => ?_, ?_⟩
        · rw [RingQueue.rtake_of_length_le (hroom.mp hfits)]
          exact (List.append_assoc ..).symm
        · rw [hroom, Nat.not_le] at hover
          have hkept : ((q ++ samples).rtake (d.audioFrameSize * 10)).length = d.audioFrameSize * 10 := by
            rw [List.rtake, List.length_drop]
            omega
          rw [List.append_assoc, List.length_append, @List.length_append _ c.played, hkept]
          exact Nat.add_lt_add_left hover _
        · rw [List.append_assoc, List.length_append, @List.length_append _ c.played]
          refine Nat.add_le_add_left ?_ _
          rw [List.rtake, List.length_drop]
          omega
  | chunk now =>
    rw [Capture.step] at hstep
    split at hstep
    · obtain ⟨⟨popped, ring⟩, hpop, hnew⟩ := Option.map_eq_some_iff.mp hstep
      obtain ⟨ring', hring, hholds⟩ := popChunk_holds h.holds d.audioFrameSize
      cases hpop.symm.trans hring
      by_cases hq : d.audioFrameSize ≤ q.length
      · rw [if_pos hq] at hholds
        have hsplit : q.take d.audioFrameSize ++ q.drop d.audioFrameSize = q := List.take_append_drop ..
        simp only [if_pos hq] at hnew
        split at hnew
        · cases hnew
          have hall : Capture.played { c with
              ringBuffer := ring
              sent := c.sent ++ [⟨q.take d.audioFrameSize, now⟩] } ++ q.drop d.audioFrameSize =
              c.played ++ q ++ [] := by
            rw [Capture.played, List.flatMap_append, List.flatMap_singleton, List.append_assoc, hsplit, List.append_nil]
            rfl
          refine ⟨q.drop d.audioFrameSize, ⟨hholds, ?_, ?_⟩, id, fun _ _ => hall,
            fun hroom => absurd trivial hroom, hall ▸ le_rfl⟩
          · intro hidle
            exact absurd hidle (by simp_all)
          · intro frame hframe
            obtain hframe | hframe := List.mem_append.mp hframe
            · exact h.full frame hframe
            · rw [List.mem_singleton.mp hframe]
              exact List.length_take_of_le hq
        · next hdeaf =>
          cases hnew
          refine ⟨q.drop d.audioFrameSize, ⟨hholds, fun _ hopen => absurd hopen hdeaf, h.full⟩, id,
            fun hopen => absurd hopen hdeaf,
            fun hroom => absurd trivial hroom, ?_⟩
          rw [List.append_nil, List.length_append, List.length_append, List.length_drop]
          exact Nat.add_le_add_left (Nat.sub_le _ _) _
      · rw [if_neg hq] at hholds
        simp only [if_neg hq] at hnew
        cases hnew
        refine ⟨q, ⟨hholds, fun _ _ => Nat.lt_of_not_le hq, h.full⟩, id, fun _ _ => (List.append_nil _).symm,
          fun hroom => absurd trivial hroom, ?_⟩
        simp [Capture.played]
    · cases hstep

/-- The move is not the callback's next one, or its data are no whole frames of the device, or
resampling them stops the program. -/
def Capture.Refuses (d : InputStream) (c : Capture α) : CaptureMove α → Prop
  | .heard data => c.draining = true ∨ c.muted = false ∧ (convertToMono data d.inputChannels = none ∨
    ∃ mono, convertToMono data d.inputChannels = some mono ∧ resampleLinear mono c.phase d.step = none)
  | .chunk _ => c.draining = false
  | _ => False

theorem Capture.Framed.refuses (h : c.Framed d.audioFrameSize q) (move : CaptureMove α)
    (hstep : c.step d move = none) : c.Refuses d move := by
  cases move with
  | toggleMute | hungUp => cases hstep
  | heard data =>
    rw [Capture.step] at hstep
    split at hstep
    · next hdraining => exact .inl hdraining
    · split at hstep
      · cases hstep
      · next hmuted =>
        refine .inr ⟨by simpa using hmuted, ?_⟩
        cases hmono : convertToMono data d.inputChannels with
        | none => exact .inl rfl
        | some mono =>
          refine .inr ⟨mono, rfl, ?_⟩
          cases hsamples : resampleLinear mono c.phase d.step with
          | none => rfl
          | some resampled =>
            obtain ⟨ring, hring, _⟩ := push_holds h.holds resampled.1
            simp [Capture.resampled, hmono, hsamples, hring] at hstep
  | chunk now =>
    rw [Capture.step] at hstep
    split at hstep
    · obtain ⟨ring, hring, _⟩ := popChunk_holds h.holds d.audioFrameSize
      simp [hring] at hstep
    · next hidle =>
      rw [Bool.not_eq_true] at hidle
      exact hidle

/-- **When no resampled sample is lost.** The frames have their full length; together with what waits in
the buffer, less than a frame between two callbacks, they are all samples of the callbacks that were
not muted, in their order, just when what each callback brings finds room behind what waits.
Nothing stops the callback but data that are no whole frames of the device, or their resampling. -/
theorem heard_whole_iff (d : InputStream) (hsize : 1 ≤ d.audioFrameSize)
    {moves : List (CaptureMove α)} {c : Capture α} {heard : List (List α)}
    (hr : (captureMachine d).run (.new d) moves = some (c, heard)) (hopen : c.listening = true) :
    ∃ waits, c.Framed d.audioFrameSize waits ∧
      (c.played ++ waits = heard.flatten ↔
        (captureMachine d).Guarded (Capture.HasRoom d) (.new d) moves) ∧
      ∀ move, c.step d move = none → c.Refuses d move := by
  have key := (captureMachine d).run_induction
    (fun is os c => (captureMachine d).run (.new d) is = some (c, os) ∧ ∃ q, c.Framed d.audioFrameSize q ∧
      (c.played ++ q).length ≤ os.flatten.length ∧ (c.listening = true → (c.played ++ q = os.flatten ↔
        (captureMachine d).Guarded (Capture.HasRoom d) (.new d) is)))
    ?step ⟨rfl, [], framed_new hsize, le_rfl, fun _ => iff_of_true rfl trivial⟩
    ((captureMachine d).guarded_of_forall (G := fun _ _ => True) fun _ _ _ => trivial) hr
  case step =>
    rintro is os c move c' samples ⟨hrun, q, hframed, hle, hiff⟩ - hstep
    obtain ⟨q', hframed', hlisten, hkeeps, hloses, hle'⟩ := framed_step hframed hstep
    have hrun' := (captureMachine d).run_append hrun ((captureMachine d).run_cons hstep (Machine.run_nil _ c'))
    refine ⟨hrun', q', hframed', ?_, fun hopen => ?_⟩
    · rw [@List.length_append _ (c.played ++ q)] at hle'
      rw [List.flatten_concat, @List.length_append _ os.flatten]
      omega
    · rw [List.flatten_concat]
      constructor
      · intro hall
        have hroom : c.HasRoom d move := by
          by_contra hover
          have hlt := hloses hover
          rw [hall, List.length_append, @List.length_append _ _ samples] at hlt
          omega
        rw [hkeeps hopen hroom, List.append_left_inj] at hall
        exact ((captureMachine d).guarded_concat hrun).mpr ⟨(hiff (hlisten hopen)).mp hall, hroom⟩
      · intro hguarded
        obtain ⟨hbefore, hroom⟩ := ((captureMachine d).guarded_concat hrun).mp hguarded
        rw [hkeeps hopen hroom, (hiff (hlisten hopen)).mpr hbefore]
  obtain ⟨_, q, hframed, _, hiff⟩ := key
  exact ⟨q, hframed, hiff hopen, hframed.refuses⟩

/-- Two channels at the rate of the frames. -/
def stereo : InputStream := ⟨2, 48000, 48000, 2⟩

/-- The last sample of each block is dropped. One is left over from the first block, the next
callback is muted, and the one after it completes the frame. -/
def mutedBetween : List (CaptureMove ℚ) :=
  [.heard [1, 3, 5, 7, 9, 9, 3, 3], .chunk 10, .chunk 11, .toggleMute, .heard [8, 8, 8, 8], .toggleMute,
    .heard [4, 4, 8, 8], .chunk 30, .chunk 31]

theorem muted_between_whole : ∃ c heard, (captureMachine stereo).run (.new stereo) mutedBetween = some (c, heard) ∧
    c.sent = [⟨[2, 6], 10⟩, ⟨[9, 4], 30⟩] ∧
    (captureMachine stereo).Guarded (Capture.HasRoom stereo) (.new stereo) mutedBetween := by
  have hrun : ((captureMachine stereo).run (.new stereo) mutedBetween).map (fun r =>
      (r.1.sent, r.1.listening, r.1.ringBuffer.count, r.2.flatten)) =
        some ([⟨[2, 6], 10⟩, ⟨[9, 4], 30⟩], true, 0, [2, 6, 9, 4]) := by decide +kernel
  obtain ⟨⟨c, heard⟩, hrun, hfacts⟩ := Option.map_eq_some_iff.mp hrun
  obtain ⟨hsent, hopen, hcount, hheard⟩ : c.sent = [⟨[2, 6], 10⟩, ⟨[9, 4], 30⟩] ∧ c.listening = true ∧
      c.ringBuffer.count = 0 ∧ heard.flatten = [2, 6, 9, 4] := by simpa using hfacts
  obtain ⟨waits, hframed, hiff, _⟩ := heard_whole_iff stereo (by decide) hrun hopen
  have hwaits : waits = [] := List.length_eq_zero_iff.mp (hframed.holds.count.symm.trans hcount)
  refine ⟨c, heard, hrun, hsent, hiff.mp ?_⟩
  rw [hwaits, hheard, Capture.played, hsent]
  rfl

end RoomRtc.Media
