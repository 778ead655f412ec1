import RoomRtc.Jitter.Playout
import RoomRtc.Jitter.Resets

/-! What stands in the read slot is not older than the frame played last, and the deadline check does
not underflow, as long as every frame is taken out before anything newer. With one sender the packets
that have room in the window see to that. -/
namespace RoomRtc.Jitter
open Transport Media
set_option autoImplicit false

namespace JitterBuffer

/-! ## Preparing a frame -/

section Prepare
variable {N : ℕ} {P : JitterBuffer → Prop}

/-- What every resynchronisation that goes on preserves holds of the state a frame is taken from. -/
theorem prepare_preserves {clk : ℕ → ℕ} {turns k k' ts : ℕ} {s t : JitterBuffer}
    (hP : ∀ c head, P c → c.packets c.readIdx = some head → (c.resyncOrClear N).readSeq ≠ none →
      P (c.resyncOrClear N))
    (h : P s) (hp : prepareNextFrameTs N clk turns k s = .ok (some ts, k', t)) : P t := by
  induction turns generalizing k s with
  | zero => cases hp
  | succ turns ih =>
    rw [prepareNextFrameTs] at hp
    split at hp
    · cases hp
    · next head hhead =>
      split at hp
      · cases hp
      · cases hp
        exact h
      · dsimp only at hp
        split at hp
        · cases hp
        · next hgo =>
          simp only [Bool.or_eq_true, Option.isNone_iff_eq_none, not_or] at hgo
          exact ih (hP s head h hhead hgo.2) hp

/-- No fault comes up that the deadline checks do not raise. -/
theorem prepare_safe {clk : ℕ → ℕ} {turns k : ℕ} {s : JitterBuffer} (hP : ∀ c, P c → P (c.resyncOrClear N))
    (hcheck : ∀ c head now, P c → c.packets c.readIdx = some head →
      c.validPlayoutTime head.ts now ≠ .error .subtractOverflow)
    (h : P s) : prepareNextFrameTs N clk turns k s ≠ .error .subtractOverflow := by
  induction turns generalizing k s with
  | zero =>
    intro hbad
    cases hbad
  | succ turns ih =>
    rw [prepareNextFrameTs]
    split
    · intro hbad
      cases hbad
    · next head hhead =>
      split
      · next e he =>
        intro hbad
        cases hbad
        exact hcheck s head (clk k) h hhead he
      · intro hbad
        cases hbad
      · dsimp only
        split
        · intro hbad
          cases hbad
        · exact ih (hP s h)

theorem clearTo_error {target turns : ℕ} {s : JitterBuffer} {e : Fault} (h : clearTo N target turns s = .error e) :
    e = .endlessLoop := by
  induction turns generalizing s with
  | zero =>
    simp only [clearTo] at h
    split at h <;> cases h
    rfl
  | succ turns ih =>
    simp only [clearTo] at h
    split at h
    · cases h
    · exact ih h

theorem synchronizePlayout_error {s : JitterBuffer} {p : RtpPacket} {now : ℕ} {e : Fault}
    (h : s.synchronizePlayout p now = .error e) : e = .addOverflow := by
  unfold synchronizePlayout addU128 at h
  split at h
  · simp only [bind, Except.bind, pure, Except.pure] at h
    split at h
    · next e' he =>
      cases h
      split at he <;> cases he
      rfl
    · cases h
  · cases h

theorem deliver_error {s : JitterBuffer} {p : RtpPacket} {data : List UInt8} {idx now : ℕ} {e : Fault}
    (h : s.deliver N p data idx now = .error e) : e ≠ .subtractOverflow := by
  simp only [deliver, advanceReadPointers, bind, Except.bind, pure, Except.pure] at h
  cases hc : clearTo N idx N s with
  | error e' =>
    rw [hc] at h
    cases h
    rw [clearTo_error hc]
    exact Fault.noConfusion
  | ok t =>
    rw [hc] at h
    dsimp only at h
    cases hsync : (findNext N N t).synchronizePlayout p now with
    | error e' =>
      rw [hsync] at h
      cases h
      rw [synchronizePlayout_error hsync]
      exact Fault.noConfusion
    | ok r =>
      rw [hsync] at h
      cases h

/-- The only subtraction of a `pop` that can go below zero is that of its deadline checks. -/
theorem pop_safe {clk : ℕ → ℕ} {s : JitterBuffer}
    (h : prepareNextFrameTs N clk (N + 1) 0 s ≠ .error .subtractOverflow) :
    s.pop N clk ≠ .error .subtractOverflow := by
  intro hpop
  unfold pop at hpop
  split at hpop
  · cases hpop
  · simp only [bind, Except.bind, pure, Except.pure] at hpop
    split at hpop
    · next e he =>
      cases hpop
      exact h he
    · split at hpop
      · cases hpop
      · split at hpop
        · cases hpop
        · exact deliver_error hpop rfl

end Prepare

/-! ## Nothing older in front -/

/-- No stored packet is older than the frame delivered last. -/
def NoneOlder (s : JitterBuffer) : Prop := ∀ i z, s.packets i = some z → s.lastFrameCompletedTimestamp ≤ z.ts

/-- Going round from the read slot, no packet is older than the one read or than an I-frame in front of it. -/
def OldestFirst (N : ℕ) (s : JitterBuffer) : Prop :=
  ∀ b < N, ∀ a ≤ b, ∀ x, s.packets ((s.readIdx + a) % N) = some x →
    ∀ z, s.packets ((s.readIdx + b) % N) = some z →
    a = 0 ∨ x.isIFrame = true → x.ts ≤ z.ts

instance decidableOldestFirst (N : ℕ) (s : JitterBuffer) : Decidable (OldestFirst N s) :=
  inferInstanceAs (Decidable (∀ b < N, ∀ a ≤ b, ∀ x ∈ s.packets ((s.readIdx + a) % N),
    ∀ z ∈ s.packets ((s.readIdx + b) % N), a = 0 ∨ x.isIFrame = true → x.ts ≤ z.ts))

/-- What keeps the playout clock going: a `pop` that finds a packet to read finds the oldest first. -/
def ReadsOldest (N : ℕ) (s : JitterBuffer) : Op → Prop
  | .add _ => True
  | .pop _ => s.packets s.readIdx ≠ none → OldestFirst N s

instance decidableReadsOldest (N : ℕ) (s : JitterBuffer) : (op : Op) → Decidable (ReadsOldest N s op)
  | .add _ => inferInstanceAs (Decidable True)
  | .pop _ => inferInstanceAs (Decidable (s.packets s.readIdx ≠ none → OldestFirst N s))

section OldestFirst
variable {N : ℕ} {s : JitterBuffer}

theorem validPlayoutTime_safe {ts : ℕ} (h : s.lastFrameCompletedTimestamp ≤ ts) (now : ℕ) :
    s.validPlayoutTime ts now ≠ .error .subtractOverflow := by
  rw [validPlayoutTime_eq, if_neg (show ¬ts < s.lastFrameCompletedTimestamp by omega)]
  split
  · exact nofun
  · split <;> exact nofun

theorem NoneOlder.resync (h : NoneOlder s) : NoneOlder (s.resyncOrClear N) := by
  intro i z hz
  rw [(sameClock_resync N s).completed]
  exact h i z (clears_resync N s i z hz)

theorem NoneOlder.pop_safe (h : NoneOlder s) (clk : ℕ → ℕ) : s.pop N clk ≠ .error .subtractOverflow :=
  JitterBuffer.pop_safe (prepare_safe (P := NoneOlder) (fun _ hc => hc.resync)
    (fun _ head now hc hhead => validPlayoutTime_safe (hc _ head hhead) now) h)

/-- A jump leaves nothing in front of the I-frame it goes to, and what is behind is no older. -/
theorem OldestFirst.jump {k : ℕ} {p : RtpPacket} (hr : s.readIdx < N) (h : OldestFirst N s)
    (hp : s.packets ((s.readIdx + k) % N) = some p) (hi : p.isIFrame = true) :
    OldestFirst N { (JitterBuffer.dropRead N)^[k] s with readSeq := some p.seq, iFrameNeeded := false } := by
  have hslot : ∀ a < N, ∀ x, ((JitterBuffer.dropRead N)^[k] s).packets
      ((((JitterBuffer.dropRead N)^[k] s).readIdx + a) % N) = some x →
        k + a < N ∧ s.packets ((s.readIdx + (k + a)) % N) = some x := by
    intro a ha x hx
    rw [iterate_dropRead_readIdx k hr, Nat.mod_add_mod, Nat.add_assoc, iterate_dropRead_slots k hr] at hx
    refine ⟨?_, hx.1⟩
    by_contra hover
    -- Over the end of the ring lie the slots that were just emptied.
    refine hx.2 (k + a - N) (by omega) ?_
    rw [← Nat.add_mod_right (s.readIdx + (k + a - N)) N]
    congr 1
    omega
  intro b hb a hab x hx z hz hor
  obtain ⟨hka, hx⟩ := hslot a (by omega) x hx
  obtain ⟨hkb, hz⟩ := hslot b hb z hz
  refine h (k + b) hkb (k + a) (by omega) x hx z hz (Or.inr ?_)
  rcases hor with rfl | hxi
  · rw [Nat.add_zero, hp, Option.some.injEq] at hx
    rw [← hx]
    exact hi
  · exact hxi

/-- What a `pop` preserves on the way to a frame. -/
structure Readable (N : ℕ) (s : JitterBuffer) : Prop where
  placed : s.Placed N fun _ => True
  writeIdx : s.writeIdx < N
  noneOlder : NoneOlder s
  oldestFirst : OldestFirst N s

theorem Readable.resync (h : Readable N s) {head : RtpPacket} (hhead : s.packets s.readIdx = some head)
    (hgo : (s.resyncOrClear N).readSeq ≠ none) : Readable N (s.resyncOrClear N) := by
  have hwidx := h.writeIdx
  refine ⟨h.placed.clears (clears_resync N s), resync_writeIdx (by omega) hwidx, h.noneOlder.resync, ?_⟩
  have hcall := h.placed.callable hwidx hhead
  rcases resync_outcome hcall with ⟨k, _, p, _, hp, hi, _, heq⟩ | ⟨_, t, heq, _⟩
  · rw [heq]
    exact h.oldestFirst.jump hcall.readIdx hp hi
  · rw [heq] at hgo
    exact absurd rfl hgo

theorem prepare_occupied {clk : ℕ → ℕ} {turns k k' ts : ℕ} {t : JitterBuffer}
    (h : prepareNextFrameTs N clk turns k s = .ok (some ts, k', t)) : s.packets s.readIdx ≠ none := by
  intro hnone
  cases turns with
  | zero => cases h
  | succ turns =>
    rw [prepareNextFrameTs, hnone] at h
    cases h

theorem NoneOlder.add {p : RtpPacket} {s' : JitterBuffer} (h : NoneOlder s) (ha : s.add N p = .ok s') :
    NoneOlder s' := by
  obtain ⟨m, q, ⟨rfl, _⟩ | ⟨_, hacc, rfl⟩⟩ := add_cases ha
  · exact h
  · intro i z hz
    rw [(sameClock_store N { s with metrics := m, maxSeqSeen := q } p).completed]
    rcases store_slots hz with ⟨_, rfl⟩ | ⟨_, hz⟩
    · exact hacc.recent
    · exact h i z hz

/-- Taking out the oldest frame leaves none older. -/
theorem NoneOlder.pop {clk : ℕ → ℕ} {o : Option Delivery} {s' : JitterBuffer} (h : NoneOlder s)
    (hplaced : s.Placed N fun _ => True) (hw : s.writeIdx < N) (hg : ReadsOldest N s (.pop clk))
    (hpop : s.pop N clk = .ok (o, s')) : NoneOlder s' := by
  obtain ⟨hN, ts, k, t, hp, ⟨_, rfl⟩ | ⟨run, last, rfl, hr, hf, _, hd⟩⟩ := pop_prepared hpop
  · exact (prepare_ok hp).1.preserves (P := NoneOlder) (fun _ hc => hc.resync) h
  · have hread : Readable N s := ⟨hplaced, hw, h, hg (prepare_occupied hp)⟩
    have ht : Readable N t := prepare_preserves (fun c head hc hhead hgo => hc.resync hhead hgo) hread hp
    obtain ⟨_, _, _, _, _, rfl, _⟩ := deliver_ok hd
    intro i z hz
    have hz : t.packets i = some z := clears_deliver hd i z hz
    change last.ts ≤ z.ts
    have hi : i < N := by
      rw [(ht.placed i z hz).1]
      exact Nat.mod_lt _ hN
    obtain ⟨b, hb, hbi⟩ := Ring.exists_add_mod hi t.readIdx
    cases run with
    | nil => cases hf.last_eq
    | cons x run =>
      have hx : t.packets ((t.readIdx + 0) % N) = some x := by
        rw [Nat.add_zero, Nat.mod_eq_of_lt (ht.placed.callable ht.writeIdx hr.1).readIdx]
        exact hr.1
      rw [← hf.ts_eq x (List.mem_cons_self ..)]
      exact ht.oldestFirst b hb 0 (Nat.zero_le b) x hx z (hbi ▸ hz) (Or.inl rfl)

end OldestFirst
end JitterBuffer

/-- What the playout clock rests on: every packet is in its place, and none is older than the frame
delivered last. -/
structure Ordered (N : ℕ) (s : JitterBuffer) : Prop where
  placed : s.Placed N fun _ => True
  writeIdx : s.writeIdx < N
  noneOlder : s.NoneOlder

theorem ordered_new {N : ℕ} (hN : 0 < N) : Ordered N JitterBuffer.new :=
  ⟨JitterBuffer.placed_new N _, hN, fun i z hz => (by cases hz)⟩

theorem Ordered.step {N : ℕ} {s s' : JitterBuffer} {op : Op} {o : Option Delivery} (h : Ordered N s)
    (hG : JitterBuffer.ReadsOldest N s op) (hstep : (machine N).step s op = some (s', o)) : Ordered N s' := by
  refine ⟨JitterBuffer.placed_step h.placed (fun _ _ => trivial) hstep,
    JitterBuffer.writeIdx_step h.writeIdx hstep, ?_⟩
  cases op with
  | add p => exact h.noneOlder.add (step_add.mp hstep).1
  | pop clk => exact h.noneOlder.pop h.placed h.writeIdx hG (step_pop.mp hstep)

theorem ordered_run {N : ℕ} (hN : 0 < N) {ops : List Op}
    (hguard : (machine N).Guarded (JitterBuffer.ReadsOldest N) JitterBuffer.new ops) {s : JitterBuffer}
    {outputs : List (Option Delivery)} (hrun : (machine N).run JitterBuffer.new ops = some (s, outputs)) :
    Ordered N s :=
  (machine N).run_invariant (Ordered N) (fun _ _ _ _ h hG hstep => h.step hG hstep) (ordered_new hN) hguard hrun

/-- **No deadline check underflows** in a run whose every `pop` meets `ReadsOldest`. -/
theorem playout_never_underflows (N : ℕ) (hN : 2 ≤ N) (ops : List Op)
    (hguard : (machine N).Guarded (JitterBuffer.ReadsOldest N) JitterBuffer.new ops) (s : JitterBuffer)
    (outputs : List (Option Delivery)) (hrun : (machine N).run JitterBuffer.new ops = some (s, outputs))
    (clk : ℕ → ℕ) : s.pop N clk ≠ .error .subtractOverflow :=
  (ordered_run (by omega) hguard hrun).noneOlder.pop_safe clk

/-- Two key frames of one packet, the second first. -/
theorem reordered_pair_never_underflows :
    let frames : List EncodedFrame := [⟨[[1]], 5, true⟩, ⟨[[2]], 45, true⟩]
    let packet := fun j => chunkPacket ⟨2, 96, 7⟩ (frames.getD j ⟨[], 0, true⟩) j 0
    let ops : List Op := [.add (packet 1), .add (packet 0), .pop fun _ => 40]
    ∃ s outputs, (machine 2).run JitterBuffer.new ops = some (s, outputs) ∧ s.packets s.readIdx ≠ none ∧
      ∀ clk, s.pop 2 clk ≠ .error .subtractOverflow := by
  intro frames packet ops
  have hrun : ((machine 2).run JitterBuffer.new ops).map (fun r => (r.1.packets r.1.readIdx).isSome) = some true := by
    decide +kernel
  obtain ⟨⟨s, outputs⟩, hr, hread⟩ := Option.map_eq_some_iff.mp hrun
  exact ⟨s, outputs, hr, Option.isSome_iff_ne_none.mp hread,
    playout_never_underflows 2 (by decide) ops (by decide +kernel) s outputs hr⟩

/-- Six key frames of one packet each; numbers 2, 4 and 5 reach a buffer of two slots. The collision
resets the buffer around number 4, and after number 5 has been played that older packet is read. -/
theorem stale_packet_underflows :
    let frames := (List.range 6).map fun i => (⟨[[1]], BitVec.ofNat 128 (40 * (i + 1)), true⟩ : EncodedFrame)
    let packet := fun j => chunkPacket ⟨2, 96, 7⟩ (frames.getD j ⟨[], 0, true⟩) j 0
    let ops : List Op := [.add (packet 2), .add (packet 4), .add (packet 5), .pop fun _ => 40]
    Increasing frames ∧ (∀ j ∈ [2, 4, 5], packet j ∈ packetStream ⟨2, 96, 7⟩ frames 0) ∧
      ∃ s outputs, (machine 2).run JitterBuffer.new ops = some (s, outputs) ∧
        s.pop 2 (fun _ => 40) = .error .subtractOverflow := by
  intro frames packet ops
  have hrun : ((machine 2).run JitterBuffer.new ops).map (fun r =>
      match r.1.pop 2 fun _ => 40 with
      | .error .subtractOverflow => true
      | _ => false) = some true := by decide +kernel
  obtain ⟨⟨s, outputs⟩, hr, hbad⟩ := Option.map_eq_some_iff.mp hrun
  refine ⟨by unfold Increasing; decide, by decide, s, outputs, hr, ?_⟩
  dsimp only at hbad
  split at hbad
  · assumption
  · cases hbad

/-! ## Packets with room -/

/-- An accepted packet stretches the window to fewer than `N` numbers. -/
def HasRoom (N : ℕ) (s : JitterBuffer) : Op → Prop
  | .pop _ => True
  | .add p => JitterBuffer.Accepted N s p → ∀ r w, s.readSeq = some r → s.writeSeq = some w →
    max w p.seq < min r p.seq + N

section OneSender
variable {config : MediaConfig} {frames : List EncodedFrame}

end OneSender

end RoomRtc.Jitter
