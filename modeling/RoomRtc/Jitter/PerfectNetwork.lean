import RoomRtc.Jitter.Markers
import RoomRtc.Jitter.Playout

/-! A network without loss or reordering. Between frames the buffer is empty; while a frame
comes in, the window is the chunks so far (`Assembling`). Whether the next chunk is taken is a
matter of where the frame starts (`accepts_next_iff`), so the frames that get through are known
beforehand. -/
namespace RoomRtc.Jitter
open Transport Media
set_option autoImplicit false

namespace JitterBuffer

/-! ## Assembling -/

theorem Reads.congr {N : ℕ} {s t : JitterBuffer} {run : List RtpPacket} :
    ∀ {idx : ℕ}, idx < N → (∀ k < run.length, t.packets ((idx + k) % N) = s.packets ((idx + k) % N)) →
      s.Reads N idx run → t.Reads N idx run := by
  induction run with
  | nil => exact fun _ _ _ => trivial
  | cons p run ih =>
    intro idx hidx hsame hr
    refine ⟨?_, ih (Nat.mod_lt _ (by omega)) ?_ hr.2⟩
    · have := hsame 0 (by simp)
      rw [Nat.add_zero, Nat.mod_eq_of_lt hidx] at this
      rw [this]
      exact hr.1
    · intro k hk
      have := hsame (k + 1) (by simpa using hk)
      rw [Nat.mod_add_mod, Nat.add_assoc, Nat.add_comm 1 k]
      exact this

theorem reads_snoc {N : ℕ} {s : JitterBuffer} {run : List RtpPacket} {p : RtpPacket} :
    ∀ {idx : ℕ}, idx < N → s.Reads N idx run → s.packets ((idx + run.length) % N) = some p →
      s.Reads N idx (run ++ [p]) := by
  induction run with
  | nil =>
    intro idx hidx _ hp
    rw [List.length_nil, Nat.add_zero, Nat.mod_eq_of_lt hidx] at hp
    exact ⟨hp, trivial⟩
  | cons q run ih =>
    intro idx hidx hr hp
    refine ⟨hr.1, ih (Nat.mod_lt _ (by omega)) hr.2 ?_⟩
    rw [Nat.mod_add_mod, Nat.add_assoc, Nat.add_comm 1]
    exact hp

/-- The buffer holds the packets of `run`, numbered from `q` on, and nothing else. -/
structure Assembling (N : ℕ) (run : List RtpPacket) (q : ℕ) (s : JitterBuffer) : Prop where
  placed : s.Placed N fun _ => True
  read : s.readSeq = some q
  write : s.writeSeq = some (q + run.length - 1)
  spans : Spans N s q (q + run.length - 1)
  reads : s.Reads N s.readIdx run
  nonempty : 0 < run.length
  started : s.iFrameNeeded = false

/-- The buffer is empty. -/
structure Waiting (s : JitterBuffer) : Prop where
  write : s.writeSeq = none
  empty : ∀ i, s.packets i = none

theorem Waiting.placed {N : ℕ} {s : JitterBuffer} (h : Waiting s) (P : RtpPacket → Prop) : s.Placed N P := by
  intro i p hp
  cases (h.empty i).symm.trans hp

theorem Waiting.accepts {N : ℕ} {s : JitterBuffer} (h : Waiting s) (q : ℕ) : s.validPacketSeqNum N q = true := by
  simp [validPacketSeqNum, h.empty]

theorem Waiting.store {N : ℕ} (hN : 0 < N) {s : JitterBuffer} (h : Waiting s) (p : RtpPacket) :
    Assembling N [p] p.seq (s.store N p) := by
  have hring := (store_idle_iff (p := p) hN h.write).mpr fun i q hq => by
    cases (h.empty i).symm.trans hq
  have hplaced := (h.placed (N := N) fun _ => True).store (p := p) trivial
  have hstore := store_of_idle (N := N) p (Or.inr h.write)
  refine ⟨hplaced, ?_, ?_, ?_, ?_, Nat.one_pos, ?_⟩
  · rw [hstore]
    rfl
  · rw [hstore]
    rfl
  · exact hring.1 p.seq p.seq (by rw [hstore]; rfl) (by rw [hstore]; rfl)
  · rw [hstore]
    exact ⟨initialize_slot N s p, trivial⟩
  · rw [hstore]
    rfl

theorem Assembling.store {N q : ℕ} (hN : 0 < N) {s : JitterBuffer} {run : List RtpPacket} (h : Assembling N run q s)
    {p : RtpPacket} (hp : p.seq = q + run.length) (hlen : run.length < N) :
    Assembling N (run ++ [p]) q (s.store N p) := by
  have hpos := h.nonempty
  have hlast : (run ++ [p]).length = run.length + 1 := by simp
  have hmax : max (q + run.length - 1) p.seq = q + (run ++ [p]).length - 1 := by omega
  have hmin : min q p.seq = q := by omega
  obtain ⟨hr, hw, hs⟩ := store_fits (p := p) hN h.spans h.read h.write (by omega)
  obtain ⟨hslots, hneeded⟩ := store_fits_slots (p := p) hN h.spans h.read h.write (by omega) (by omega)
  rw [hmin] at hr hs
  rw [hmax] at hw hs
  have hidx : (s.store N p).readIdx = s.readIdx := hs.readIdx.trans h.spans.readIdx.symm
  have hlt : s.readIdx < N := by
    rw [h.spans.readIdx]
    exact Nat.mod_lt _ hN
  -- The slot of `p` is the one behind the run.
  have hpos' : (s.readIdx + run.length) % N = p.seq % N := by
    rw [h.spans.readIdx, Nat.mod_add_mod, hp]
  refine ⟨h.placed.store trivial, hr, hw, hs, ?_, by omega, hneeded.trans h.started⟩
  rw [hidx]
  apply reads_snoc hlt
  · refine h.reads.congr hlt fun k hk => ?_
    have hne : (s.readIdx + k) % N ≠ p.seq % N := by
      rw [h.spans.readIdx, Nat.mod_add_mod, hp]
      exact Ring.mod_ne_of_lt (by omega) (by omega)
    rw [hslots]
    simp [JitterBuffer.setSlot, hne]
  · rw [hslots, hpos']
    simp [JitterBuffer.setSlot]

theorem findNext_iFrameNeeded (N turns : ℕ) (s : JitterBuffer) :
    (findNext N turns s).iFrameNeeded = s.iFrameNeeded := by
  induction turns generalizing s with
  | zero => rfl
  | succ turns ih =>
    unfold JitterBuffer.findNext
    split
    · rfl
    · exact ih _

theorem iterate_iFrameNeeded (N n : ℕ) (s : JitterBuffer) :
    ((JitterBuffer.dropRead N)^[n] s).iFrameNeeded = s.iFrameNeeded := by
  induction n generalizing s with
  | zero => rfl
  | succ n ih =>
    rw [Function.iterate_succ_apply]
    exact ih (s.dropRead N)

/-- Which next number the buffer takes while it assembles: any after the first round of the
ring, in the first round only those on the near side of the middle. -/
theorem accepts_next_iff {N q : ℕ} (hN : 0 < N) (hcap : N < 2 ^ 63) {s : JitterBuffer} {run : List RtpPacket}
    (h : Assembling N run q s) (hlen : run.length < N) (hq : N ≤ q ∨ q + run.length ≤ N) :
    s.validPacketSeqNum N (q + run.length) = true ↔ N ≤ q ∨ q + 2 * run.length ≤ N := by
  have hpos := h.nonempty
  obtain ⟨z, hz, hzq⟩ := h.spans.head
  have hzlt := z.seq_lt
  have hwin : s.window N = q % N + N - (q + run.length - 1) % N := by
    unfold window
    rw [h.spans.readIdx, h.spans.writeIdx]
  have hmod := Ring.mod_window hN h.spans.le h.spans.lt
  have hqlt := Nat.mod_lt q hN
  unfold validPacketSeqNum
  rw [hz]
  dsimp only
  rw [hzq]
  by_cases hround : N ≤ q
  · have hfar : q % N + N ≤ q := by
      rw [Nat.mod_eq_sub_mod hround]
      have := Nat.mod_le (q - N) N
      omega
    rw [wrappingSub_of_le (by omega) (by omega)]
    refine ⟨fun _ => Or.inl hround, fun _ => ?_⟩
    split
    · rfl
    · simp only [decide_eq_true_eq]
      omega
  · have hqN : q % N = q := Nat.mod_eq_of_lt (by omega)
    have hwlt := Nat.mod_lt (q + run.length - 1) hN
    have hw : s.window N = N - run.length + 1 := by omega
    rw [hw, wrappingSub_of_lt (by omega) (by omega)]
    constructor
    · intro hacc
      split at hacc
      · omega
      · simp only [decide_eq_true_eq] at hacc
        omega
    · intro hnear
      rw [if_pos (by omega)]

end JitterBuffer

/-! ## One frame -/

/-- The clock of a `pop` is not past the deadline of the frame at the read slot. -/
def Timely (s : JitterBuffer) : Op → Prop
  | .add _ => True
  | .pop clk => ∀ p, s.packets s.readIdx = some p → s.InTime p.ts (clk 0)

/-- The frame at the read slot has a deadline that a `u128` can hold. -/
def DeadlineFits (s : JitterBuffer) : Op → Prop
  | .add _ => True
  | .pop _ => ∀ p, s.packets s.readIdx = some p → s.InRange p.ts

instance decidableInTime (s : JitterBuffer) (ts now : ℕ) : Decidable (s.InTime ts now) :=
  inferInstanceAs (Decidable (s.lastDeliverTimestamp = 0 ∨ now ≤ s.deadline ts))

instance decidableTimely (s : JitterBuffer) : (op : Op) → Decidable (Timely s op)
  | .add _ => inferInstanceAs (Decidable True)
  | .pop clk => inferInstanceAs (Decidable (∀ p ∈ s.packets s.readIdx, s.InTime p.ts (clk 0)))

instance decidableInRange (s : JitterBuffer) (ts : ℕ) : Decidable (s.InRange ts) :=
  inferInstanceAs (Decidable (s.lastDeliverTimestamp = 0 ∨ s.deadline ts < 2 ^ 128))

instance decidableDeadlineFits (s : JitterBuffer) : (op : Op) → Decidable (DeadlineFits s op)
  | .add _ => inferInstanceAs (Decidable True)
  | .pop _ => inferInstanceAs (Decidable (∀ p ∈ s.packets s.readIdx, s.InRange p.ts))

def Playable (s : JitterBuffer) (op : Op) : Prop := Timely s op ∧ DeadlineFits s op

/-- A `pop` that comes to an end computed its first deadline. -/
theorem deadlineFits_of_step {N : ℕ} {s s' : JitterBuffer} {op : Op} {o : Option Delivery}
    (h : (machine N).step s op = some (s', o)) : DeadlineFits s op := by
  cases op with
  | add p => trivial
  | pop clk =>
    intro p hp
    have hN : N ≠ 0 := by
      have := (JitterBuffer.pop_prepared (step_pop.mp h)).1
      omega
    cases hv : s.validPlayoutTime p.ts (clk 0) with
    | ok b => exact JitterBuffer.inRange_of_valid hv
    | error e =>
      have hfail := JitterBuffer.pop_fails (Nat.pos_of_ne_zero hN) hp hv
      cases (step_pop.mp h).symm.trans hfail

theorem deadlineFits_of_run {N : ℕ} {s t : JitterBuffer} {ops : List Op} {outputs : List (Option Delivery)}
    (h : (machine N).run s ops = some (t, outputs)) : (machine N).Guarded DeadlineFits s ops :=
  (machine N).guarded_of_run (fun _ _ _ _ hs => deadlineFits_of_step hs) h

/-- The first `d` packets of a frame, `n` packets having been sent before. -/
def front (config : MediaConfig) (f : EncodedFrame) (n d : ℕ) : List RtpPacket :=
  (List.range d).map (chunkPacket config f n)

theorem front_succ (config : MediaConfig) (f : EncodedFrame) (n d : ℕ) :
    front config f n (d + 1) = front config f n d ++ [chunkPacket config f n d] := by
  unfold front
  rw [List.range_succ, List.map_append]
  rfl

/-- The buffer when `d` packets of the frame are in. -/
def Collected (N : ℕ) (config : MediaConfig) (f : EncodedFrame) (n : ℕ) : ℕ → JitterBuffer → Prop
  | 0, s => s.Waiting ∧ (s.iFrameNeeded = true → f.isIFrame = true)
  | d + 1, s => s.Assembling N (front config f n (d + 1)) (satSeq n)

/-- Where the next chunk is taken: the frame starts after the first round of the ring, or the
chunk lies on the near side of the middle. -/
def Near (N q d : ℕ) : Prop := d = 0 ∨ N ≤ q ∨ q + 2 * d ≤ N

section Frame
variable {N n : ℕ} {config : MediaConfig} {f : EncodedFrame} {s : JitterBuffer}

theorem collected_accepts_iff (hN : 256 ≤ N) (hcap : N < 2 ^ 63) {d : ℕ} (h : Collected N config f n d s)
    (hd : d < 255) (hrecent : s.lastFrameCompletedTimestamp ≤ f.frameTime.toNat)
    (hseq : satSeq (n + d) = satSeq n + d) (hq : Near N (satSeq n) (d - 1)) :
    s.Accepted N (chunkPacket config f n d) ↔ Near N (satSeq n) d := by
  cases d with
  | zero =>
    refine ⟨fun _ => Or.inl rfl, fun _ => ⟨h.2, hrecent, ?_⟩⟩
    exact h.1.accepts _
  | succ d =>
    have hlen : (front config f n (d + 1)).length = d + 1 := by simp [front]
    have hiff := JitterBuffer.accepts_next_iff (by omega) hcap h (by omega) (by unfold Near at hq; omega)
    rw [hlen] at hiff
    constructor
    · intro hacc
      have := hacc.seqNum
      rw [chunkPacket_seq, hseq] at this
      exact Or.inr (hiff.mp this)
    · intro hnear
      refine ⟨fun hn => ?_, hrecent, ?_⟩
      · rw [h.started] at hn
        cases hn
      · rw [chunkPacket_seq, hseq]
        exact hiff.mpr (hnear.resolve_left (by omega))

theorem collected_add (hN : 256 ≤ N) {d : ℕ} (h : Collected N config f n d s) (hd : d < 255)
    (hseq : satSeq (n + d) = satSeq n + d) (hacc : s.Accepted N (chunkPacket config f n d)) :
    ∃ t, s.add N (chunkPacket config f n d) = .ok t ∧ Collected N config f n (d + 1) t ∧
      JitterBuffer.SameClock s t := by
  obtain ⟨m, x, hadd⟩ := JitterBuffer.add_of_accepted (by omega) hacc
  have hclock := JitterBuffer.sameClock_store N { s with metrics := m, maxSeqSeen := x } (chunkPacket config f n d)
  refine ⟨_, hadd, ?_, ⟨hclock.completed, hclock.deliver⟩⟩
  cases d with
  | zero =>
    have hw : JitterBuffer.Waiting { s with metrics := m, maxSeqSeen := x } := ⟨h.1.write, h.1.empty⟩
    have := hw.store (N := N) (by omega) (chunkPacket config f n 0)
    rwa [chunkPacket_seq, Nat.add_zero] at this
  | succ d =>
    have hlen : (front config f n (d + 1)).length = d + 1 := by simp [front]
    have hw : JitterBuffer.Assembling N (front config f n (d + 1)) (satSeq n)
        { s with metrics := m, maxSeqSeen := x } :=
      ⟨h.placed, h.read, h.write, h.spans.congr rfl rfl rfl, JitterBuffer.Reads.congr (s := s)
        (by rw [h.spans.readIdx]; exact Nat.mod_lt _ (by omega)) (fun _ _ => rfl) h.reads, h.nonempty, h.started⟩
    have := hw.store (by omega) (p := chunkPacket config f n (d + 1)) (by rw [chunkPacket_seq, hseq, hlen]) (by omega)
    rwa [← front_succ] at this

/-- The packet at the read slot is of the frame, and so the deadline is that of the frame. -/
theorem collected_head {d : ℕ} (h : Collected N config f n (d + 1) s) :
    s.packets s.readIdx = some (chunkPacket config f n 0) := by
  have hr := h.reads
  unfold front at hr
  rw [List.range_succ_eq_map, List.map_cons] at hr
  exact hr.1

theorem collected_waits (hN : 256 ≤ N) {d : ℕ} (h : Collected N config f n (d + 1) s) (hd : d + 1 < f.chunks.length)
    (hlen : f.chunks.length ≤ 255) (hrecent : s.lastFrameCompletedTimestamp ≤ f.frameTime.toNat) {clk : ℕ → ℕ}
    (ht : Playable s (.pop clk)) : s.pop N clk = .ok (none, s) := by
  have hhead := collected_head h
  have hfl : (front config f n (d + 1)).length = d + 1 := by simp [front]
  have hidx : s.readIdx < N := by
    rw [h.spans.readIdx]
    exact Nat.mod_lt _ (by omega)
  refine JitterBuffer.pop_waits (by omega) hhead
    ((JitterBuffer.validPlayoutTime_iff hrecent).mpr ⟨ht.2 _ hhead, ht.1 _ hhead⟩) ?_
  refine JitterBuffer.collectFrame_of_gap (front config f n (d + 1)) N s.readIdx 0 [] h.reads ?_ hidx ?_
  · intro p hp
    obtain ⟨i, hi, rfl⟩ := List.mem_map.mp hp
    rw [List.mem_range] at hi
    intro hm
    rw [chunkPacket_marker] at hm
    omega
  · -- No stored number shares the slot behind the run.
    rw [Option.eq_none_iff_forall_ne_some]
    intro p hp
    have hb := h.spans.between _ p hp
    have hslot := (h.placed _ p hp).1
    rw [h.spans.readIdx, Nat.mod_add_mod] at hslot
    have := Ring.eq_of_mod_eq hslot (by omega) (by omega)
    omega

theorem isFrameRun_front (hpos : 1 ≤ f.chunks.length) (hlen : f.chunks.length ≤ 255) :
    JitterBuffer.IsFrameRun f.frameTime.toNat (front config f n f.chunks.length)
      (chunkPacket config f n (f.chunks.length - 1)) := by
  obtain ⟨k, hk⟩ : ∃ k, f.chunks.length = k + 1 := ⟨f.chunks.length - 1, by omega⟩
  have hlast : front config f n f.chunks.length = front config f n k ++ [chunkPacket config f n k] := by
    rw [hk, front_succ]
  have hk' : f.chunks.length - 1 = k := by omega
  rw [hlast, hk']
  refine ⟨?_, by simp, ?_, ?_, ?_⟩
  · intro p hp
    rw [← hlast] at hp
    obtain ⟨i, _, rfl⟩ := List.mem_map.mp hp
    rfl
  · rw [chunkPacket_marker, hk']
  · intro p hp
    rw [List.dropLast_concat] at hp
    obtain ⟨i, hi, rfl⟩ := List.mem_map.mp hp
    rw [List.mem_range] at hi
    intro hm
    rw [chunkPacket_marker] at hm
    omega
  · rw [chunkPacket_total _ _ _ _ hlen, hk]
    simp [front]

theorem collected_plays (hN : 256 ≤ N) (hpos : 1 ≤ f.chunks.length) (hlen : f.chunks.length ≤ 255)
    (hseq : satSeq (n + (f.chunks.length - 1)) = satSeq n + (f.chunks.length - 1))
    (h : Collected N config f n f.chunks.length s)
    (hrecent : s.lastFrameCompletedTimestamp ≤ f.frameTime.toNat) {clk : ℕ → ℕ} (ht : Playable s (.pop clk)) :
    ∃ d t, s.pop N clk = .ok (some d, t) ∧ d.data = f.chunks.flatten ∧ t.Waiting ∧ t.iFrameNeeded = false ∧
      t.lastFrameCompletedTimestamp = f.frameTime.toNat := by
  have hfl : (front config f n f.chunks.length).length = f.chunks.length := by simp [front]
  have h' : s.Assembling N (front config f n f.chunks.length) (satSeq n) := by
    obtain ⟨k, hk⟩ : ∃ k, f.chunks.length = k + 1 := ⟨f.chunks.length - 1, by omega⟩
    rw [hk] at h ⊢
    exact h
  have hhead : s.packets s.readIdx = some (chunkPacket config f n 0) := by
    obtain ⟨k, hk⟩ : ∃ k, f.chunks.length = k + 1 := ⟨f.chunks.length - 1, by omega⟩
    rw [hk] at h
    exact collected_head h
  have hidx : s.readIdx < N := by
    rw [h'.spans.readIdx]
    exact Nat.mod_lt _ (by omega)
  have hrun : JitterBuffer.IsFrameRun f.frameTime.toNat (front config f n f.chunks.length)
      (chunkPacket config f n (f.chunks.length - 1)) := isFrameRun_front hpos hlen
  obtain ⟨slept, t, hpop, hd⟩ := JitterBuffer.pop_plays (by omega) hidx hhead
    ((JitterBuffer.validPlayoutTime_iff hrecent).mpr ⟨ht.2 _ hhead, ht.1 _ hhead⟩) h'.reads hrun (by omega)
  obtain ⟨htight, hlater⟩ := JitterBuffer.deliver_window h'.placed h'.spans h'.write h'.reads hrun.last_eq
    (by omega) hd
  have hclears := JitterBuffer.clears_deliver hd
  -- Behind the last number of the frame nothing is stored.
  have hempty : ∀ i, t.packets i = none := by
    intro i
    rw [Option.eq_none_iff_forall_ne_some]
    intro p hp
    have h1 := hlater i p hp
    have h2 := h'.spans.between i p (hclears i p hp)
    rw [chunkPacket_seq, hseq] at h1
    omega
  obtain ⟨u, x, b, slept', hclear, hteq, _, hiframe, hother, _⟩ := JitterBuffer.deliver_ok hd
  refine ⟨_, t, hpop, ?_, ⟨?_, hempty⟩, ?_, by rw [hteq]; rfl⟩
  · exact framePackets_payload config f n
  · rcases htight with ⟨_, hw, _⟩ | ⟨r, w, _, _, hs⟩
    · exact hw
    · obtain ⟨p, hp, _⟩ := hs.head
      cases (hempty _).symm.trans hp
  · rw [hteq]
    change b = false
    cases hi : (chunkPacket config f n (f.chunks.length - 1)).isIFrame with
    | true => exact hiframe hi
    | false =>
      rw [hother hi, JitterBuffer.findNext_iFrameNeeded]
      obtain ⟨k, _, rfl, _⟩ := JitterBuffer.clearTo_ok hclear
      rw [JitterBuffer.iterate_iFrameNeeded]
      exact h'.started

/-! ## The chunks of a frame -/

theorem feed_append (a b : List (RtpPacket × (ℕ → ℕ))) : feed (a ++ b) = feed a ++ feed b :=
  List.flatMap_append

/-- The first `d` chunks of a frame come in, and all of them are taken. -/
theorem assemble (hN : 256 ≤ N) (hcap : N < 2 ^ 63) (hlen : f.chunks.length ≤ 255) (h : Collected N config f n 0 s)
    (hrecent : s.lastFrameCompletedTimestamp ≤ f.frameTime.toNat) (d : ℕ) (hd : d < f.chunks.length)
    (hseq : ∀ i ≤ d, satSeq (n + i) = satSeq n + i) (hnear : ∀ i < d, Near N (satSeq n) i)
    (pre : List (RtpPacket × (ℕ → ℕ))) (hpre : pre.map Prod.fst = front config f n d)
    (ht : (machine N).Guarded Playable s (feed pre)) :
    ∃ t outputs, (machine N).run s (feed pre) = some (t, outputs) ∧ deliveries outputs = [] ∧
      Collected N config f n d t ∧ JitterBuffer.SameClock s t := by
  induction d generalizing pre with
  | zero =>
    have hnil : pre = [] := List.map_eq_nil_iff.mp hpre
    subst hnil
    exact ⟨s, [], rfl, rfl, h, JitterBuffer.SameClock.refl s⟩
  | succ d ih =>
    rw [front_succ] at hpre
    obtain ⟨pre', last, rfl, hpre', hlast⟩ := List.map_eq_append_iff.mp hpre
    obtain ⟨x, rfl, hx⟩ := List.map_eq_singleton_iff.mp hlast
    rw [feed_append] at ht ⊢
    obtain ⟨t, outputs, hrun, hnone, hcol, hclock⟩ := ih (by omega) (fun i hi => hseq i (by omega))
      (fun i hi => hnear i (by omega)) pre' hpre' ((machine N).guarded_left ht)
    have htt := (machine N).guarded_append ht hrun
    have hrec : t.lastFrameCompletedTimestamp ≤ f.frameTime.toNat := by rw [hclock.completed]; exact hrecent
    have hsd := hseq d (by omega)
    have hacc := (collected_accepts_iff hN hcap hcol (by omega) hrec hsd (by
      cases d with
      | zero => exact Or.inl rfl
      | succ d => exact hnear d (by omega))).mpr (hnear d (by omega))
    obtain ⟨u, hadd, hcol', hclock'⟩ := collected_add hN hcol (by omega) hsd hacc
    have hstep : (machine N).step t (.add x.1) = some (u, none) := by
      rw [hx]
      exact step_add.mpr ⟨hadd, rfl⟩
    have hpop := collected_waits hN hcol' (by omega) hlen (by rw [hclock'.completed]; exact hrec)
      (htt.2 u none hstep).1
    refine ⟨u, outputs ++ [none, none], (machine N).run_append hrun ((machine N).run_cons hstep
      ((machine N).run_cons (step_pop.mpr hpop) ((machine N).run_nil u))), ?_, hcol', hclock.trans hclock'⟩
    rw [deliveries, List.filterMap_append]
    simpa [deliveries] using hnone

/-- Where a frame of `k` chunks, sent after `n` packets, gets through: it starts after the first
round of the ring or ends before about the middle of it, and its numbers do not run out. -/
def Fits (N n k : ℕ) : Prop := (N ≤ n ∨ n + 2 * k ≤ N + 2) ∧ (k = 1 ∨ n + k ≤ 2 ^ 64)

theorem Fits.seq {k i : ℕ} (h : Fits N n k) (hi : i < k) : satSeq (n + i) = satSeq n + i := by
  have := h.2
  unfold satSeq
  omega

theorem Fits.near (hcap : N < 2 ^ 63) {k i : ℕ} (h : Fits N n k) (hi : i < k) : Near N (satSeq n) i := by
  have := h.1
  unfold Near satSeq
  omega

theorem frame_plays (hN : 256 ≤ N) (hcap : N < 2 ^ 63) (hpos : 1 ≤ f.chunks.length) (hlen : f.chunks.length ≤ 255)
    (h : Collected N config f n 0 s) (hrecent : s.lastFrameCompletedTimestamp ≤ f.frameTime.toNat)
    (hfits : Fits N n f.chunks.length) (part : List (RtpPacket × (ℕ → ℕ)))
    (hpart : part.map Prod.fst = framePackets config f n) (ht : (machine N).Guarded Playable s (feed part)) :
    ∃ t outputs, (machine N).run s (feed part) = some (t, outputs) ∧
      (deliveries outputs).map Delivery.data = [f.chunks.flatten] ∧ t.Waiting ∧ t.iFrameNeeded = false ∧
      t.lastFrameCompletedTimestamp = f.frameTime.toNat := by
  obtain ⟨k, hk⟩ : ∃ k, f.chunks.length = k + 1 := ⟨f.chunks.length - 1, by omega⟩
  have hfront : framePackets config f n = front config f n k ++ [chunkPacket config f n k] := by
    rw [← front_succ, ← hk]
    rfl
  rw [hfront] at hpart
  obtain ⟨pre, last, rfl, hpre, hlast⟩ := List.map_eq_append_iff.mp hpart
  obtain ⟨x, rfl, hx⟩ := List.map_eq_singleton_iff.mp hlast
  rw [feed_append] at ht ⊢
  obtain ⟨t, outputs, hrun, hnone, hcol, hclock⟩ := assemble hN hcap hlen h hrecent k (by omega)
    (fun i hi => hfits.seq (by omega)) (fun i hi => hfits.near hcap (by omega)) pre hpre
    ((machine N).guarded_left ht)
  have htt := (machine N).guarded_append ht hrun
  have hrec : t.lastFrameCompletedTimestamp ≤ f.frameTime.toNat := by rw [hclock.completed]; exact hrecent
  have hsk := hfits.seq (i := k) (by omega)
  have hacc := (collected_accepts_iff hN hcap hcol (by omega) hrec hsk (hfits.near hcap (by omega))).mpr
    (hfits.near hcap (by omega))
  obtain ⟨u, hadd, hcol', hclock'⟩ := collected_add hN hcol (by omega) hsk hacc
  have hstep : (machine N).step t (.add x.1) = some (u, none) := by
    rw [hx]
    exact step_add.mpr ⟨hadd, rfl⟩
  rw [← hk] at hcol'
  obtain ⟨d, v, hpop, hdata, hwait, hneeded, hcomp⟩ := collected_plays hN hpos hlen
    (hfits.seq (by omega)) hcol' (by rw [hclock'.completed]; exact hrec) (htt.2 u none hstep).1
  refine ⟨v, outputs ++ [none, some d], (machine N).run_append hrun ((machine N).run_cons hstep
    ((machine N).run_cons (step_pop.mpr hpop) ((machine N).run_nil v))), ?_, hwait, hneeded, hcomp⟩
  have hds : deliveries (outputs ++ [none, some d]) = deliveries outputs ++ [d] := by
    rw [deliveries, List.filterMap_append]
    rfl
  rw [hds, hnone, List.nil_append, List.map_singleton, hdata]

end Frame

theorem frames_play {N : ℕ} (hN : 256 ≤ N) (hcap : N < 2 ^ 63) {config : MediaConfig} (frames : List EncodedFrame) :
    ∀ (n : ℕ) (s : JitterBuffer) (plan : List (RtpPacket × (ℕ → ℕ))), s.Waiting →
      (s.iFrameNeeded = true → ∀ f, frames.head? = some f → f.isIFrame = true) →
      (∀ f ∈ frames, s.lastFrameCompletedTimestamp ≤ f.frameTime.toNat) → Increasing frames →
      (∀ f ∈ frames, 1 ≤ f.chunks.length ∧ f.chunks.length ≤ 255) →
      (∀ j f, frames[j]? = some f → Fits N (n + startOf frames j) f.chunks.length) →
      plan.map Prod.fst = packetStream config frames (satSeq n) → (machine N).Guarded Playable s (feed plan) →
      ∃ t outputs, (machine N).run s (feed plan) = some (t, outputs) ∧
        (deliveries outputs).map Delivery.data = frames.map (fun f => f.chunks.flatten) ∧ t.Waiting ∧
        (t.iFrameNeeded = true → frames = []) ∧
        ∀ b, s.lastFrameCompletedTimestamp ≤ b → (∀ f ∈ frames, f.frameTime.toNat ≤ b) →
          t.lastFrameCompletedTimestamp ≤ b := by
  induction frames with
  | nil =>
    intro n s plan hwait _ _ _ _ _ hplan _
    have hnil : plan = [] := List.map_eq_nil_iff.mp hplan
    subst hnil
    exact ⟨s, [], rfl, rfl, hwait, fun _ => rfl, fun b hb _ => hb⟩
  | cons f frames ih =>
    intro n s plan hwait hneeded hrecent hinc hcount hfits hplan ht
    obtain ⟨hlater, hinc'⟩ := List.pairwise_cons.mp hinc
    obtain ⟨hpos, hlen⟩ := hcount f (List.mem_cons_self ..)
    rw [packetStream_cons] at hplan
    obtain ⟨part, rest, rfl, hpart, hrest⟩ := List.map_eq_append_iff.mp hplan
    rw [feed_append] at ht ⊢
    obtain ⟨t, outputs, hrun, hdata, hwait', hneeded', hcomp⟩ := frame_plays hN hcap hpos hlen
      ⟨hwait, fun hn => hneeded hn f rfl⟩ (hrecent f (List.mem_cons_self ..)) (by simpa using hfits 0 f rfl)
      part hpart ((machine N).guarded_left ht)
    obtain ⟨u, outputs', hrun', hdata', hwait'', hneeded'', hbound⟩ := ih (n + f.chunks.length) t rest hwait'
      (fun hn => by rw [hneeded'] at hn; cases hn) (fun g hg => by rw [hcomp]; exact (hlater g hg).le) hinc'
      (fun g hg => hcount g (List.mem_cons_of_mem f hg))
      (fun j g hg => by simpa [Nat.add_assoc] using hfits (j + 1) g hg) hrest
      ((machine N).guarded_append ht hrun)
    refine ⟨u, outputs ++ outputs', (machine N).run_append hrun hrun', ?_, hwait'', ?_, ?_⟩
    · rw [deliveries, List.filterMap_append, List.map_append]
      change (deliveries outputs).map Delivery.data ++ (deliveries outputs').map Delivery.data = _
      rw [hdata, hdata']
      rfl
    · intro hn
      have hnil := hneeded'' hn
      subst hnil
      cases (hrun'.symm.trans (by rw [List.map_eq_nil_iff.mp hrest]; rfl : _ = some (t, [])))
      rw [hneeded'] at hn
      cases hn
    · intro b hb hall
      refine hbound b ?_ fun g hg => hall g (List.mem_cons_of_mem f hg)
      rw [hcomp]
      exact hall f (List.mem_cons_self ..)

/-! ## A frame that does not fit -/

section Unfit
variable {N : ℕ} {config : MediaConfig} {good rest : List EncodedFrame} {f : EncodedFrame}

end Unfit

end RoomRtc.Jitter
