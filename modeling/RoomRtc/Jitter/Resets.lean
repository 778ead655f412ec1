import RoomRtc.Jitter.Recovery

/-! What a reset leaves in the slots. The clearing walk goes from the read slot to the write slot,
and on a collision the write slot is already that of the colliding packet: what lies behind it
stays. -/
namespace RoomRtc.Jitter
open Transport
set_option autoImplicit false

namespace JitterBuffer

/-! ## Calls -/

/-- The state in which `handle_new_write_head` calls `resync_or_clear`, if it does. -/
def storeCalls (N : ℕ) (s : JitterBuffer) (p : RtpPacket) : List JitterBuffer :=
  match s.readSeq, s.writeSeq with
  | some read, some write =>
    if ¬p.seq < read ∧ p.seq > write ∧ s.collided s.writeIdx (p.seq % N) = true then
      [{ s with writeIdx := p.seq % N, writeSeq := some p.seq }]
    else []
  | _, _ => []

def addCalls (N : ℕ) (s : JitterBuffer) (p : RtpPacket) : List JitterBuffer :=
  match s.shouldDiscardPacket N p with
  | .ok (false, s) => s.storeCalls N p
  | _ => []

/-- The states in which the loop of `prepare_next_frame_ts` calls `resync_or_clear`. -/
def prepareCalls (N : ℕ) (clk : ℕ → ℕ) : ℕ → ℕ → JitterBuffer → List JitterBuffer
  | 0, _, _ => []
  | turns + 1, k, s =>
    match s.packets s.readIdx with
    | none => []
    | some pkt =>
      match s.validPlayoutTime pkt.ts (clk k) with
      | .ok false =>
        let t := s.resyncOrClear N
        if t.writeSeq.isNone || t.readSeq.isNone then [s] else s :: prepareCalls N clk turns (k + 1) t
      | _ => []

def resyncCalls (N : ℕ) (s : JitterBuffer) : Op → List JitterBuffer
  | .add p => s.addCalls N p
  | .pop clk => s.prepareCalls N clk (N + 1) 0

end JitterBuffer

/-- The states in which a run calls `resync_or_clear`, those before a panic included. -/
def callsIn (N : ℕ) : JitterBuffer → List Op → List JitterBuffer
  | _, [] => []
  | s, op :: ops => s.resyncCalls N op ++
    match (machine N).step s op with
    | none => []
    | some (s', _) => callsIn N s' ops

namespace JitterBuffer

/-! ## One call -/

/-- The call ends with nothing read or written. -/
def Resets (N : ℕ) (c : JitterBuffer) : Prop :=
  (c.resyncOrClear N).readSeq = none ∧ (c.resyncOrClear N).writeSeq = none

def Emptied (N : ℕ) (s : JitterBuffer) : Prop := ∀ i < N, s.packets i = none

instance decidableResets (N : ℕ) (c : JitterBuffer) : Decidable (Resets N c) :=
  inferInstanceAs (Decidable ((c.resyncOrClear N).readSeq = none ∧ (c.resyncOrClear N).writeSeq = none))

instance decidableEmptied (N : ℕ) (s : JitterBuffer) : Decidable (Emptied N s) :=
  inferInstanceAs (Decidable (∀ i < N, s.packets i = none))

/-- Slot `i` lies between the read and the write slot and holds an I-frame other than the frame being read. -/
def IFrameAt (c : JitterBuffer) (i : ℕ) : Prop :=
  c.collided c.writeIdx i = true ∧ ∃ p head, c.packets i = some p ∧ c.packets c.readIdx = some head ∧
    p.isIFrame = true ∧ p.ts ≠ head.ts

/-- Every packet lies between the read and the write slot. -/
def WalkCovers (N : ℕ) (c : JitterBuffer) : Prop :=
  ∀ i < N, ∀ p, c.packets i = some p → c.collided c.writeIdx i = true

/-- What a caller of `resync_or_clear` hands over. -/
structure Callable (N : ℕ) (c : JitterBuffer) : Prop where
  readIdx : c.readIdx < N
  writeIdx : c.writeIdx < N
  head : ∃ p, c.packets c.readIdx = some p

theorem Callable.on_walk {N : ℕ} {c : JitterBuffer} (h : Callable N c) :
    ∃ d < N, c.writeIdx = (c.readIdx + d) % N ∧
      ∀ i < N, (c.collided c.writeIdx i = true ↔ ∃ j ≤ d, (c.readIdx + j) % N = i) := by
  obtain ⟨d, hd, hwrite⟩ := Ring.exists_add_mod h.writeIdx c.readIdx
  refine ⟨d, hd, hwrite.symm, fun i hi => ?_⟩
  have harc := Ring.mem_arc_iff hi (Nat.le_add_right c.readIdx d) (by omega)
  rw [Nat.mod_eq_of_lt h.readIdx, hwrite] at harc
  have hcol : c.collided c.writeIdx i = true ↔ ∃ y, c.readIdx ≤ y ∧ y ≤ c.readIdx + d ∧ y % N = i := by
    rw [← harc, collided]
    split <;> simp
  refine hcol.trans ⟨?_, ?_⟩
  · rintro ⟨y, h1, h2, hy⟩
    exact ⟨y - c.readIdx, by omega, by rwa [Nat.add_sub_cancel' h1]⟩
  · rintro ⟨j, hj, hy⟩
    exact ⟨c.readIdx + j, by omega, by omega, hy⟩

/-- A jump to the first I-frame on the walk, or a reset that empties the slots of the walk and no other. -/
theorem resync_outcome {N : ℕ} {c : JitterBuffer} (h : Callable N c) :
    (∃ k < N, ∃ p, IFrameAt c ((c.readIdx + k) % N) ∧ c.packets ((c.readIdx + k) % N) = some p ∧
      p.isIFrame = true ∧
      (∀ i < N, IFrameAt c i → i ≠ c.writeIdx → (c.readIdx + k) % N ≠ c.writeIdx) ∧
      c.resyncOrClear N =
        { (JitterBuffer.dropRead N)^[k] c with readSeq := some p.seq, iFrameNeeded := false }) ∨
    ((∀ i < N, ¬IFrameAt c i) ∧ ∃ t : JitterBuffer, c.resyncOrClear N = t.reset ∧
      ∀ i < N, ∀ p, t.packets i = some p ↔ c.packets i = some p ∧ ¬c.collided c.writeIdx i = true) := by
  obtain ⟨d, hd, hwrite, hwalk⟩ := h.on_walk
  obtain ⟨head, hhead⟩ := h.head
  have hlt : ∀ j, (c.readIdx + j) % N < N := fun j => Nat.mod_lt _ (by have := h.readIdx; omega)
  have hat : ∀ j ≤ d, StopsAt N head.ts c j ↔ IFrameAt c ((c.readIdx + j) % N) := by
    intro j hj
    have hon : c.collided c.writeIdx ((c.readIdx + j) % N) = true := (hwalk _ (hlt j)).mpr ⟨j, hj, rfl⟩
    simp [StopsAt, IFrameAt, hon, hhead]
  rw [resyncOrClear_of_some hhead]
  rcases resyncLoop_walk head.ts N d h.readIdx hwrite hd
    hd with ⟨k, hk, p, hp, hi, hts, hbefore, heq⟩ | ⟨hall, heq⟩
  · refine Or.inl ⟨k, by omega, p, (hat k hk).mp ⟨p, hp, hi, hts⟩, hp, hi,
      fun i hi' hframe hne hlast => ?_, heq⟩
    -- An I-frame in another slot of the walk comes before the last one.
    obtain ⟨j, hj, rfl⟩ := (hwalk i hi').mp hframe.1
    rw [hwrite] at hlast hne
    have hkd := Ring.eq_of_mod_eq hlast (by omega) (by omega)
    have hjd : j ≠ d := by
      rintro rfl
      exact hne rfl
    exact hbefore j (by omega) ((hat j hj).mpr hframe)
  · refine Or.inr ⟨fun i hi hframe => ?_, _, heq, fun i hi p => ?_⟩
    · obtain ⟨j, hj, rfl⟩ := (hwalk i hi).mp hframe.1
      exact hall j hj ((hat j hj).mpr hframe)
    · rw [iterate_dropRead_slots (d + 1) h.readIdx, hwalk i hi]
      refine and_congr_right fun _ => ⟨fun hoff ⟨j, hj, hji⟩ => hoff j (by omega) hji, fun hoff j hj hji => ?_⟩
      exact hoff ⟨j, by omega, hji⟩

/-- **A reset empties the buffer** exactly when every packet lies between the read and the write slot,
unless an I-frame there makes it no reset. -/
theorem reset_empties_iff {N : ℕ} {c : JitterBuffer} (h : Callable N c) :
    (Resets N c → Emptied N (c.resyncOrClear N)) ↔ (∃ i < N, IFrameAt c i) ∨ WalkCovers N c := by
  unfold Resets
  rcases resync_outcome h with ⟨k, hk, p, hframe, _, _, _, heq⟩ | ⟨hnone, t, heq, hslots⟩
  · rw [heq]
    refine ⟨fun _ => Or.inl ⟨_, Nat.mod_lt _ (by omega), hframe⟩, fun _ hreset => ?_⟩
    cases hreset.1
  · rw [heq]
    constructor
    · intro hempty
      refine Or.inr fun i hi p hp => ?_
      by_contra hoff
      have hkept := (hslots i hi p).mpr ⟨hp, hoff⟩
      rw [show t.packets i = none from hempty ⟨rfl, rfl⟩ i hi] at hkept
      cases hkept
    · rintro (⟨j, hj, hframe⟩ | hcovers) _ i hi
      · exact absurd hframe (hnone j hj)
      · change t.packets i = none
        rw [Option.eq_none_iff_forall_ne_some]
        intro p hp
        obtain ⟨hp, hoff⟩ := (hslots i hi p).mp hp
        exact hoff (hcovers i hi p hp)

/-! ## Runs -/

section Runs
variable {N : ℕ} {P : RtpPacket → Prop}

theorem findNext_writeIdx (turns : ℕ) (s : JitterBuffer) : (findNext N turns s).writeIdx = s.writeIdx := by
  induction turns generalizing s with
  | zero => rfl
  | succ turns ih =>
    unfold findNext
    split
    · rfl
    · exact ih _

theorem resync_writeIdx (hN : 0 < N) {s : JitterBuffer} (h : s.writeIdx < N) : (s.resyncOrClear N).writeIdx < N := by
  rcases settled_resync N s with ⟨_, _, _, hw⟩ | ⟨_, _, _, _, hw⟩
  · rw [hw]
    exact hN
  · rw [hw]
    exact h

theorem store_writeIdx (hN : 0 < N) {s : JitterBuffer} (h : s.writeIdx < N) (p : RtpPacket) :
    (s.store N p).writeIdx < N := by
  have hpos : p.seq % N < N := Nat.mod_lt _ hN
  unfold store
  dsimp only
  split
  · split
    · exact h
    · split
      · by_cases hc : s.collided s.writeIdx (p.seq % N) = true
        · rw [newHead_collided hc]
          exact resync_writeIdx (s := { s with writeIdx := p.seq % N, writeSeq := some p.seq }) hN hpos
        · rw [newHead_free hc]
          exact hpos
      · exact h
  · exact hpos

theorem writeIdx_step {s s' : JitterBuffer} {op : Op} {o : Option Delivery} (h : s.writeIdx < N)
    (hs : (machine N).step s op = some (s', o)) : s'.writeIdx < N := by
  have hN : 0 < N := by omega
  cases op with
  | add p =>
    obtain ⟨m, q, ⟨rfl, _⟩ | ⟨_, _, rfl⟩⟩ := add_cases (step_add.mp hs).1
    · exact h
    · exact store_writeIdx (s := { s with metrics := m, maxSeqSeen := q }) hN h p
  | pop clk =>
    obtain ⟨_, t, hres, hcase⟩ := pop_cases (step_pop.mp hs)
    have ht : t.writeIdx < N := hres.preserves (P := fun u => u.writeIdx < N) (fun u hu => resync_writeIdx hN hu) h
    rcases hcase with ⟨_, rfl⟩ | ⟨run, last, now, _, _, _, _, hd⟩
    · exact ht
    · obtain ⟨_, _, _, _, hc, rfl, _⟩ := deliver_ok hd
      obtain ⟨n, _, rfl, _⟩ := clearTo_ok hc
      change (findNext N N ((JitterBuffer.dropRead N)^[n] t)).writeIdx < N
      rw [findNext_writeIdx, (iterate_dropRead_fields N n t).1]
      exact ht

theorem Placed.callable {s : JitterBuffer} {p : RtpPacket} (h : s.Placed N P) (hw : s.writeIdx < N)
    (hp : s.packets s.readIdx = some p) : Callable N s := by
  refine ⟨?_, hw, p, hp⟩
  rw [(h _ p hp).1]
  exact Nat.mod_lt _ (by omega)

theorem prepareCalls_callable (hN : 0 < N) (clk : ℕ → ℕ) (turns k : ℕ) {s : JitterBuffer} (h : s.Placed N P)
    (hw : s.writeIdx < N) : ∀ c ∈ s.prepareCalls N clk turns k, Callable N c := by
  induction turns generalizing s k with
  | zero => exact nofun
  | succ turns ih =>
    intro c hc
    simp only [prepareCalls] at hc
    split at hc
    · cases hc
    · next pkt hpkt =>
      have hs := h.callable hw hpkt
      split at hc
      · split at hc
        · rw [List.mem_singleton.mp hc]
          exact hs
        · cases List.mem_cons.mp hc with
          | inl hc =>
            rw [hc]
            exact hs
          | inr hc => exact ih (k + 1) (h.clears (clears_resync N s)) (resync_writeIdx hN hw) c hc
      · cases hc

theorem Anchored.resyncCalls (hN : 0 < N) {s : JitterBuffer} (h : Anchored N P s) (hw : s.writeIdx < N) (op : Op) :
    ∀ c ∈ s.resyncCalls N op, Callable N c := by
  cases op with
  | pop clk => exact prepareCalls_callable hN clk (N + 1) 0 h.placed hw
  | add p =>
    intro c hc
    simp only [JitterBuffer.resyncCalls, addCalls] at hc
    split at hc
    · next t ht =>
      obtain ⟨m, q, rfl, _, _⟩ := discard_cases ht
      simp only [storeCalls] at hc
      split at hc
      · next r w hr _ =>
        split at hc
        · rw [List.mem_singleton.mp hc]
          obtain ⟨z, hz⟩ := h.occupied r hr
          have hs := h.placed.callable hw hz
          exact ⟨hs.readIdx, Nat.mod_lt _ hN, hs.head⟩
        · cases hc
      · cases hc
    · cases hc

end Runs
end JitterBuffer

theorem callsIn_callable {N : ℕ} {s : JitterBuffer} (h : s.Anchored N fun _ => True) (hw : s.writeIdx < N)
    (ops : List Op) : ∀ c ∈ callsIn N s ops, c.Callable N := by
  induction ops generalizing s with
  | nil => exact nofun
  | cons op ops ih =>
    intro c hc
    simp only [callsIn, List.mem_append] at hc
    cases hc with
    | inl hc => exact h.resyncCalls (by omega) hw op c hc
    | inr hc =>
      split at hc
      · cases hc
      · next s' o hs =>
        exact ih (JitterBuffer.anchored_step h (fun _ _ => trivial) hs) (JitterBuffer.writeIdx_step hw hs) c hc

/-- **Every reset of a run empties the buffer** exactly when at every call an I-frame lies on the walk
or all packets stored do. -/
theorem every_reset_empties_iff (N : ℕ) (hN : 2 ≤ N) (ops : List Op) :
    (∀ c ∈ callsIn N JitterBuffer.new ops, c.Resets N → (c.resyncOrClear N).Emptied N) ↔
      ∀ c ∈ callsIn N JitterBuffer.new ops, (∃ i < N, c.IFrameAt i) ∨ c.WalkCovers N := by
  have hcall := callsIn_callable (JitterBuffer.anchored_new N fun _ => True) (show 0 < N by omega) ops
  exact forall₂_congr fun c hc => JitterBuffer.reset_empties_iff (hcall c hc)

/-- A key frame that expires unplayed is the only packet. -/
theorem expired_frame_emptied :
    (callsIn 2 JitterBuffer.new expiredRun).length = 1 ∧
      ∀ c ∈ callsIn 2 JitterBuffer.new expiredRun, c.Resets 2 → (c.resyncOrClear 2).Emptied 2 := by
  refine ⟨by decide +kernel, (every_reset_empties_iff 2 (by decide) expiredRun).mpr fun c hc => Or.inr ?_⟩
  cases List.mem_singleton.mp hc
  intro i hi p hp
  rcases (show i = 0 ∨ i = 1 by omega) with rfl | rfl
  · cases hp
  · rfl

/-- The key frame of number 2 and the two frames behind it reach a buffer of two slots. The third
collides with the first, and the walk ends before the second. -/
theorem collision_leaves_packet :
    let frames := (List.range 5).map fun i =>
      (⟨[[1]], BitVec.ofNat 128 (40 * (i + 1)), i == 2⟩ : Media.EncodedFrame)
    let packet := fun j => Media.chunkPacket ⟨2, 96, 7⟩ (frames.getD j ⟨[], 0, true⟩) j 0
    let ops := [2, 3, 4].map fun j => Op.add (packet j)
    Media.Increasing frames ∧ (∀ j ∈ [2, 3, 4], packet j ∈ Media.packetStream ⟨2, 96, 7⟩ frames 0) ∧
      ∃ c ∈ callsIn 2 JitterBuffer.new ops, c.Resets 2 ∧ ¬(c.resyncOrClear 2).Emptied 2 := by
  intro frames packet ops
  exact ⟨by unfold Media.Increasing; decide, by decide, by decide +kernel⟩

end RoomRtc.Jitter
