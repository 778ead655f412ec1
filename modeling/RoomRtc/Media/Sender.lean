import RoomRtc.Transport.RtpPacket
import Mathlib.Data.List.GetD

/-! The sending side of the video pipeline: `generate_chunks_from_bitstream`
(`media/frame_handler/encoder.rs`) cuts an encoded frame into chunks, `send_encoded_frame`
(`media/media_pipeline.rs`) gives each chunk a packet, and the sender thread runs it over the
encoded frames with one sequence counter that starts at 0. -/
namespace RoomRtc.Media
open Transport
set_option autoImplicit false

/-! ## Frames and packets -/

structure EncodedFrame where
  chunks : List (List UInt8)
  frameTime : BitVec 128
  isIFrame : Bool
  deriving DecidableEq, Repr

/-- The fields of `MediaConfig` that end up in a packet. -/
structure MediaConfig where
  rtpVersion : UInt8
  videoPayloadType : UInt8
  frameSsrc : UInt32
  deriving DecidableEq, Repr

/-- `nalu_units.chunks(max_chunk_size)` for a chunk size of at least 1. -/
def generateChunksFromBitstream (nalus : List UInt8) (maxChunkSize : ℕ) : List (List UInt8) :=
  go nalus.length nalus
where
  go : ℕ → List UInt8 → List (List UInt8)
    | 0, _ => []
    | fuel + 1, rest =>
      if rest = [] then [] else rest.take maxChunkSize :: go fuel (rest.drop maxChunkSize)

/-- What the codec gives for one picture: bytes, capture time and frame type. -/
structure Encoded where
  bitstream : List UInt8
  frameTime : BitVec 128
  isIFrame : Bool
  maxChunkSize : ℕ
  deriving DecidableEq, Repr

/-- `Encoder::encode` behind the codec call. -/
def Encoded.frame (e : Encoded) : EncodedFrame :=
  ⟨generateChunksFromBitstream e.bitstream e.maxChunkSize, e.frameTime, e.isIFrame⟩

/-- `u64::saturating_add(1)` -/
def saturatingSucc (n : ℕ) : ℕ := min (n + 1) (2 ^ 64 - 1)

inductive MediaPipelineError
  | sendError (message : String)
  deriving DecidableEq, Repr

def framePacket (config : MediaConfig) (frame : EncodedFrame) (i : ℕ) (payload : List UInt8)
    (sequenceNumber : ℕ) : RtpPacket where
  version := config.rtpVersion
  marker := if i = frame.chunks.length - 1 then 1 else 0
  totalChunks := UInt8.ofNat frame.chunks.length
  isIFrame := frame.isIFrame
  payloadType := config.videoPayloadType
  sequenceNumber := UInt64.ofNat sequenceNumber
  timestamp := frame.frameTime
  ssrc := config.frameSsrc
  payload := payload

/-- The chunk loop of `send_encoded_frame`. `accepts` tells whether the channel still takes
a packet; the loop ends at the first one it refuses. Gives the packets sent, the counter
afterwards and whether all were taken. -/
def sendChunks (config : MediaConfig) (accepts : RtpPacket → Bool) (frame : EncodedFrame) :
    ℕ → List (List UInt8) → ℕ → List RtpPacket × ℕ × Bool
  | _, [], sequenceNumber => ([], sequenceNumber, true)
  | i, payload :: rest, sequenceNumber =>
    let packet := framePacket config frame i payload sequenceNumber
    let sequenceNumber := saturatingSucc sequenceNumber
    if accepts packet then
      let (sent, next, ok) := sendChunks config accepts frame (i + 1) rest sequenceNumber
      (packet :: sent, next, ok)
    else ([], sequenceNumber, false)

def sendEncodedFrame (config : MediaConfig) (connected : Bool) (accepts : RtpPacket → Bool)
    (frame : EncodedFrame) (sequenceNumber : ℕ) :
    List RtpPacket × ℕ × Except MediaPipelineError Unit :=
  if connected then
    let (sent, next, ok) := sendChunks config accepts frame 0 frame.chunks sequenceNumber
    (sent, next, if ok then .ok () else .error (.sendError "sending on a closed channel"))
  else ([], sequenceNumber, .error (.sendError "Media pipeline turned off"))

/-- The packets of a list of frames sent one after the other while the call is up. -/
def packetStream (config : MediaConfig) : List EncodedFrame → ℕ → List RtpPacket
  | [], _ => []
  | frame :: frames, sequenceNumber =>
    let (sent, next, _) := sendEncodedFrame config true (fun _ => true) frame sequenceNumber
    sent ++ packetStream config frames next

/-! ## Chunks -/

theorem go_flatten (m : ℕ) (hm : 1 ≤ m) (fuel : ℕ) (rest : List UInt8) (hf : rest.length ≤ fuel) :
    (generateChunksFromBitstream.go m fuel rest).flatten = rest := by
  induction fuel generalizing rest with
  | zero =>
    have hr : rest = [] := List.eq_nil_of_length_eq_zero (by omega)
    simp [generateChunksFromBitstream.go, hr]
  | succ fuel ih =>
    unfold generateChunksFromBitstream.go
    split
    · next h => simp [h]
    · next h =>
      have hpos : 0 < rest.length := List.length_pos_of_ne_nil h
      rw [List.flatten_cons, ih _ (by rw [List.length_drop]; omega), List.take_append_drop]

theorem generateChunks_flatten (nalus : List UInt8) (m : ℕ) (hm : 1 ≤ m) :
    (generateChunksFromBitstream nalus m).flatten = nalus :=
  go_flatten m hm nalus.length nalus le_rfl

/-! ## Sequence numbers -/

/-- The counter after `n` packets from 0. -/
def satSeq (n : ℕ) : ℕ := min n (2 ^ 64 - 1)

theorem satSeq_lt (n : ℕ) : satSeq n < 2 ^ 64 := by
  unfold satSeq
  omega

theorem saturatingSucc_satSeq (n : ℕ) : saturatingSucc (satSeq n) = satSeq (n + 1) := by
  unfold saturatingSucc satSeq
  omega

@[simp] theorem framePacket_seq (config : MediaConfig) (frame : EncodedFrame) (i : ℕ)
    (payload : List UInt8) (n : ℕ) : (framePacket config frame i payload (satSeq n)).seq = satSeq n := by
  have h : satSeq n % 2 ^ 64 = satSeq n := Nat.mod_eq_of_lt (satSeq_lt n)
  simpa [RtpPacket.seq, framePacket, UInt64.toNat_ofNat'] using h

/-- The packets of the chunks from number `i` on. -/
theorem sendChunks_all (config : MediaConfig) (frame : EncodedFrame) (cs : List (List UInt8)) (i n : ℕ) :
    sendChunks config (fun _ => true) frame i cs (satSeq n) =
      (cs.mapIdx fun k c => framePacket config frame (i + k) c (satSeq (n + k)),
        satSeq (n + cs.length), true) := by
  induction cs generalizing i n with
  | nil => simp [sendChunks]
  | cons c cs ih =>
    have hi : ∀ k, i + 1 + k = i + (k + 1) := by intro k; omega
    have hn : ∀ k, n + 1 + k = n + (k + 1) := by intro k; omega
    simp only [sendChunks, saturatingSucc_satSeq, ih, if_true, List.mapIdx_cons, List.length_cons,
      Nat.add_zero, hi, hn]

/-- The number of packets sent before frame `j`. -/
def startOf (frames : List EncodedFrame) (j : ℕ) : ℕ :=
  ((frames.take j).map fun f => f.chunks.length).sum

@[simp] theorem startOf_zero (frames : List EncodedFrame) : startOf frames 0 = 0 := by
  simp [startOf]

@[simp] theorem startOf_cons_succ (f : EncodedFrame) (frames : List EncodedFrame) (j : ℕ) :
    startOf (f :: frames) (j + 1) = f.chunks.length + startOf frames j := by
  simp [startOf]

theorem startOf_succ {frames : List EncodedFrame} {j : ℕ} {f : EncodedFrame}
    (hf : frames[j]? = some f) : startOf frames (j + 1) = startOf frames j + f.chunks.length := by
  unfold startOf
  rw [List.take_add_one, hf]
  simp

theorem startOf_le {frames : List EncodedFrame} {j k : ℕ} {f : EncodedFrame}
    (hf : frames[j]? = some f) (hjk : j < k) : startOf frames j + f.chunks.length ≤ startOf frames k := by
  induction k, hjk using Nat.le_induction with
  | base => exact (startOf_succ hf).ge
  | succ k hjk ih =>
    refine ih.trans ?_
    unfold startOf
    rw [List.take_add_one]
    simp

/-- `p` carries chunk `i` of frame `j`. -/
structure IsChunk (config : MediaConfig) (frames : List EncodedFrame) (j i : ℕ) (p : RtpPacket) : Prop where
  exists_chunk : ∃ f c, frames[j]? = some f ∧ f.chunks[i]? = some c ∧
    p = framePacket config f i c (satSeq (startOf frames j + i))

theorem packetStream_mem_aux (config : MediaConfig) (frames : List EncodedFrame) (n : ℕ) (p : RtpPacket) :
    p ∈ packetStream config frames (satSeq n) ↔ ∃ j i f c, frames[j]? = some f ∧ f.chunks[i]? = some c ∧
      p = framePacket config f i c (satSeq (n + (startOf frames j + i))) := by
  induction frames generalizing n with
  | nil => simp [packetStream]
  | cons g frames ih =>
    simp only [packetStream, sendEncodedFrame, if_true, sendChunks_all, List.mem_append, ih,
      List.mem_mapIdx, Nat.zero_add]
    constructor
    · rintro (⟨i, hi, rfl⟩ | ⟨j, i, f, c, hf, hc, rfl⟩)
      · exact ⟨0, i, g, g.chunks[i], rfl, List.getElem?_eq_getElem hi, by simp⟩
      · refine ⟨j + 1, i, f, c, hf, hc, ?_⟩
        rw [startOf_cons_succ, Nat.add_assoc n, Nat.add_assoc g.chunks.length]
    · rintro ⟨j, i, f, c, hf, hc, rfl⟩
      cases j with
      | zero =>
        simp only [List.getElem?_cons_zero, Option.some.injEq] at hf
        subst hf
        obtain ⟨hi, hc⟩ := List.getElem?_eq_some_iff.mp hc
        exact Or.inl ⟨i, hi, by rw [hc]; simp⟩
      | succ j =>
        refine Or.inr ⟨j, i, f, c, hf, hc, ?_⟩
        rw [startOf_cons_succ, Nat.add_assoc n, Nat.add_assoc g.chunks.length]

theorem mem_packetStream {config : MediaConfig} {frames : List EncodedFrame} {p : RtpPacket} :
    p ∈ packetStream config frames 0 ↔ ∃ j i, IsChunk config frames j i p := by
  have h := packetStream_mem_aux config frames 0 p
  rw [show satSeq 0 = 0 from rfl] at h
  rw [h]
  simp only [Nat.zero_add]
  exact ⟨fun ⟨j, i, f, c, hf, hc, he⟩ => ⟨j, i, ⟨f, c, hf, hc, he⟩⟩,
    fun ⟨j, i, ⟨f, c, hf, hc, he⟩⟩ => ⟨j, i, f, c, hf, hc, he⟩⟩

/-! ## Packets of one sender -/

/-- Every frame was captured after the one before. -/
def Increasing (frames : List EncodedFrame) : Prop :=
  frames.Pairwise fun f g => f.frameTime.toNat < g.frameTime.toNat

theorem Increasing.time_lt {frames : List EncodedFrame} (h : Increasing frames) {j k : ℕ}
    {f g : EncodedFrame} (hf : frames[j]? = some f) (hg : frames[k]? = some g) (hjk : j < k) :
    f.frameTime.toNat < g.frameTime.toNat := by
  obtain ⟨hj, rfl⟩ := List.getElem?_eq_some_iff.mp hf
  obtain ⟨hk, rfl⟩ := List.getElem?_eq_some_iff.mp hg
  exact List.pairwise_iff_getElem.mp h j k hj hk hjk

theorem Increasing.index_eq {frames : List EncodedFrame} (h : Increasing frames) {j k : ℕ}
    {f g : EncodedFrame} (hf : frames[j]? = some f) (hg : frames[k]? = some g)
    (ht : f.frameTime.toNat = g.frameTime.toNat) : j = k := by
  rcases Nat.lt_trichotomy j k with hlt | heq | hgt
  · exact absurd ht (Nat.ne_of_lt (h.time_lt hf hg hlt))
  · exact heq
  · exact absurd ht.symm (Nat.ne_of_lt (h.time_lt hg hf hgt))

/-- Chunk `i` of frame `f`, where `start` packets were sent before. -/
def chunkPacket (config : MediaConfig) (f : EncodedFrame) (start i : ℕ) : RtpPacket :=
  framePacket config f i (f.chunks.getD i []) (satSeq (start + i))

/-- All packets of one frame. -/
def framePackets (config : MediaConfig) (f : EncodedFrame) (start : ℕ) : List RtpPacket :=
  (List.range f.chunks.length).map (chunkPacket config f start)

theorem isChunk_iff {config : MediaConfig} {frames : List EncodedFrame} {j i : ℕ} {p : RtpPacket} :
    IsChunk config frames j i p ↔ ∃ f, frames[j]? = some f ∧ i < f.chunks.length ∧
      p = chunkPacket config f (startOf frames j) i := by
  constructor
  · rintro ⟨f, c, hf, hc, rfl⟩
    obtain ⟨hi, rfl⟩ := List.getElem?_eq_some_iff.mp hc
    exact ⟨f, hf, hi, by rw [chunkPacket, List.getD_eq_getElem _ _ hi]⟩
  · rintro ⟨f, hf, hi, rfl⟩
    exact ⟨f, f.chunks[i], hf, List.getElem?_eq_getElem hi, by rw [chunkPacket, List.getD_eq_getElem _ _ hi]⟩

@[simp] theorem chunkPacket_seq (config : MediaConfig) (f : EncodedFrame) (start i : ℕ) :
    (chunkPacket config f start i).seq = satSeq (start + i) :=
  framePacket_seq config f i _ _

@[simp] theorem chunkPacket_ts (config : MediaConfig) (f : EncodedFrame) (start i : ℕ) :
    (chunkPacket config f start i).ts = f.frameTime.toNat := rfl

theorem chunkPacket_total (config : MediaConfig) (f : EncodedFrame) (start i : ℕ)
    (hf : f.chunks.length ≤ 255) : (chunkPacket config f start i).totalChunks.toNat = f.chunks.length := by
  have h : f.chunks.length % 2 ^ 8 = f.chunks.length := Nat.mod_eq_of_lt (by omega)
  simpa [chunkPacket, framePacket, UInt8.toNat_ofNat'] using h

theorem chunkPacket_marker (config : MediaConfig) (f : EncodedFrame) (start i : ℕ) :
    (chunkPacket config f start i).marker = 1 ↔ i = f.chunks.length - 1 := by
  simp only [chunkPacket, framePacket]
  split
  · next h => simp [h]
  · next h => simp [h]

theorem framePackets_payload (config : MediaConfig) (f : EncodedFrame) (start : ℕ) :
    (framePackets config f start).flatMap RtpPacket.payload = f.chunks.flatten := by
  have h : (List.range f.chunks.length).map (fun i => f.chunks.getD i []) = f.chunks := by
    apply List.ext_getElem
    · simp
    · intro i h1 h2
      simp [h2]
  rw [framePackets, List.flatMap_map]
  change ((List.range f.chunks.length).flatMap fun i => f.chunks.getD i []) = _
  rw [List.flatMap_def, h]

/-! ## Streams -/

theorem startOf_append (frames more : List EncodedFrame) (k : ℕ) :
    startOf (frames ++ more) (frames.length + k) = startOf frames frames.length + startOf more k := by
  unfold startOf
  rw [List.take_length_add_append, List.map_append, List.sum_append, List.take_length]

theorem packetStream_cons (config : MediaConfig) (f : EncodedFrame) (frames : List EncodedFrame) (n : ℕ) :
    packetStream config (f :: frames) (satSeq n) =
      framePackets config f n ++ packetStream config frames (satSeq (n + f.chunks.length)) := by
  have hpackets : (f.chunks.mapIdx fun k c => framePacket config f k c (satSeq (n + k))) =
      framePackets config f n := by
    apply List.ext_getElem
    · simp [framePackets]
    · intro i h1 h2
      rw [List.length_mapIdx] at h1
      simp [framePackets, chunkPacket, h1]
  simp only [packetStream, sendEncodedFrame, if_true, sendChunks_all, Nat.zero_add]
  rw [hpackets]

theorem packetStream_append (config : MediaConfig) (frames more : List EncodedFrame) (n : ℕ) :
    packetStream config (frames ++ more) (satSeq n) = packetStream config frames (satSeq n) ++
      packetStream config more (satSeq (n + startOf frames frames.length)) := by
  induction frames generalizing n with
  | nil => simp [packetStream]
  | cons f frames ih =>
    rw [List.cons_append, packetStream_cons, packetStream_cons, ih, List.append_assoc, List.length_cons,
      startOf_cons_succ, Nat.add_assoc n]

end RoomRtc.Media
