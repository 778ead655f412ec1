import RoomRtc.Jitter.Window

/-! What holds in every reachable state, whatever was lost, repeated or reordered: the read
slot is occupied while a read number is known, a reset buffer reads at slot 0, and number 0
is never left behind in a reset buffer (`Anchored`). From it, when a reset buffer plays the
next I-frame. -/
namespace RoomRtc.Jitter
open Transport
set_option autoImplicit false

namespace JitterBuffer

/-! ## Outcomes of the walks -/

/-- How a walk of the read slot ends: reset, or at a stored packet. -/
def Settled (s t : JitterBuffer) : Prop :=
  (t.readSeq = none ∧ t.writeSeq = none ∧ t.readIdx = 0 ∧ t.writeIdx = 0) ∨
    ∃ p, t.packets t.readIdx = some p ∧ t.readSeq = some p.seq ∧ t.writeSeq = s.writeSeq ∧
      t.writeIdx = s.writeIdx

theorem settled_resyncLoop (N ts turns : ℕ) (s : JitterBuffer) : Settled s (resyncLoop N ts turns s) := by
  induction turns generalizing s with
  | zero => exact Or.inl ⟨rfl, rfl, rfl, rfl⟩
  | succ turns ih =>
    unfold resyncLoop
    split
    · next p hn => exact Or.inr ⟨p, (nextIFrame_some hn).1, rfl, rfl, rfl⟩
    · split
      · exact Or.inl ⟨rfl, rfl, rfl, rfl⟩
      · exact ih (s.dropRead N)

theorem settled_resync (N : ℕ) (s : JitterBuffer) : Settled s (s.resyncOrClear N) := by
  unfold resyncOrClear
  split
  · exact Or.inl ⟨rfl, rfl, rfl, rfl⟩
  · exact settled_resyncLoop N _ N s

theorem resync_head {N : ℕ} (hN : 0 < N) (s : JitterBuffer) :
    (s.resyncOrClear N).packets s.readIdx = none := by
  cases hp : s.packets s.readIdx with
  | none =>
    unfold resyncOrClear
    rw [hp]
    exact hp
  | some p =>
    rw [resyncOrClear_of_some hp]
    obtain ⟨turns, rfl⟩ : ∃ t, N = t + 1 := ⟨N - 1, by omega⟩
    unfold resyncLoop
    have hn : s.nextIFrame p.ts = none := by simp [nextIFrame, hp]
    rw [hn]
    dsimp only
    split
    · simp [reset, setSlot]
    · rw [Option.eq_none_iff_forall_ne_some]
      intro q hq
      have := clears_resyncLoop (turns + 1) p.ts turns (s.dropRead (turns + 1)) s.readIdx q hq
      simp [dropRead, setSlot] at this

/-- With the write slot at the read slot nothing else is looked at. -/
theorem resync_at_writeIdx {N : ℕ} (hN : 0 < N) {s : JitterBuffer} {p : RtpPacket}
    (hp : s.packets s.readIdx = some p) (he : s.readIdx = s.writeIdx) :
    s.resyncOrClear N = (s.setSlot s.readIdx none).reset := by
  have hn : s.nextIFrame p.ts = none := by simp [nextIFrame, hp]
  rw [resyncOrClear_of_some hp]
  obtain ⟨turns, rfl⟩ : ∃ t, N = t + 1 := ⟨N - 1, by omega⟩
  unfold resyncLoop
  rw [hn]
  exact if_pos he

theorem findNext_settled {N : ℕ} (turns : ℕ) (s : JitterBuffer) (hidx : s.readIdx < N) :
    (∃ p, (findNext N turns s).packets (findNext N turns s).readIdx = some p ∧
      (findNext N turns s).readSeq = some p.seq ∧ (findNext N turns s).writeSeq = s.writeSeq ∧
      (findNext N turns s).writeIdx = s.writeIdx) ∨
    ((findNext N turns s).readSeq = none ∧ (findNext N turns s).writeSeq = none ∧
      ∀ k < turns, s.packets ((s.readIdx + k) % N) = none) := by
  induction turns generalizing s with
  | zero => exact Or.inr ⟨rfl, rfl, by omega⟩
  | succ turns ih =>
    unfold findNext
    split
    · next p hp => exact Or.inl ⟨p, hp, rfl, rfl, rfl⟩
    · next he =>
      rcases ih { s with readIdx := (s.readIdx + 1) % N } (Nat.mod_lt _ (by omega)) with h | ⟨h1, h2, h3⟩
      · exact Or.inl h
      · refine Or.inr ⟨h1, h2, ?_⟩
        intro k hk
        cases k with
        | zero => rw [Nat.add_zero, Nat.mod_eq_of_lt hidx, he]
        | succ k =>
          have := h3 k (by omega)
          simp only [Nat.mod_add_mod] at this
          rw [← this]
          congr 2
          omega

/-- The search reads a stored number, and leaves the write number or forgets it. -/
theorem writeSeq_findNext_cases (N turns : ℕ) (s : JitterBuffer) :
    (∀ r, (findNext N turns s).readSeq = some r → ∃ q,
      (findNext N turns s).packets (findNext N turns s).readIdx = some q ∧ q.seq = r) ∧
    ((findNext N turns s).writeSeq = none ∨ (findNext N turns s).writeSeq = s.writeSeq) := by
  induction turns generalizing s with
  | zero => exact ⟨fun r hr => (by cases hr), Or.inl rfl⟩
  | succ turns ih =>
    unfold findNext
    split
    · next p hp =>
      refine ⟨fun r hr => ?_, Or.inr rfl⟩
      cases hr
      exact ⟨p, hp, rfl⟩
    · exact ih _

theorem all_none {N c : ℕ} {P : RtpPacket → Prop} {s : JitterBuffer} (hN : 0 < N) (hp : s.Placed N P)
    (h : ∀ k < N, s.packets ((c + k) % N) = none) (i : ℕ) : s.packets i = none := by
  rw [Option.eq_none_iff_forall_ne_some]
  intro p hs
  have hi : i < N := by
    rw [(hp i p hs).1]
    exact Nat.mod_lt _ hN
  obtain ⟨k, hk, hki⟩ := Ring.exists_add_mod hi c
  have := h k hk
  rw [hki, hs] at this
  cases this

/-! ## Every reachable state -/

structure Anchored (N : ℕ) (P : RtpPacket → Prop) (s : JitterBuffer) : Prop where
  placed : s.Placed N P
  linked : s.readSeq = none → s.writeSeq = none
  readIdx : ∀ r, s.readSeq = some r → s.readIdx = r % N
  occupied : ∀ r, s.readSeq = some r → ∃ p, s.packets s.readIdx = some p
  idle : s.readSeq = none → (s.readIdx = 0 ∧ s.writeIdx = 0) ∨ ∀ i, s.packets i = none
  zero : ∀ z, s.packets 0 = some z → z.seq = 0 → s.readSeq = some 0 ∧ s.writeSeq ≠ none

theorem anchored_new (N : ℕ) (P : RtpPacket → Prop) : Anchored N P new where
  placed := placed_new N P
  linked := fun _ => rfl
  readIdx := fun _ h => by cases h
  occupied := fun _ h => by cases h
  idle := fun _ => Or.inl ⟨rfl, rfl⟩
  zero := fun _ h => by cases h

theorem Anchored.stats {N : ℕ} {P : RtpPacket → Prop} {s : JitterBuffer} (h : Anchored N P s) (m q) :
    Anchored N P { s with metrics := m, maxSeqSeen := q } :=
  ⟨h.placed, h.linked, h.readIdx, h.occupied, h.idle, h.zero⟩

section Walks
variable {N : ℕ} {P : RtpPacket → Prop} {s t : JitterBuffer}

/-- A walk that clears and settles keeps the anchor, if number 0 does not survive it. -/
theorem anchored_of_settled (hp : s.Placed N P) (hc : Clears s t) (hs : Settled s t)
    (hz : ∀ z, t.packets 0 = some z → z.seq ≠ 0) : Anchored N P t := by
  have ht := hp.clears hc
  rcases hs with ⟨h1, h2, h3, h4⟩ | ⟨p, hhead, h1, _, _⟩
  · refine ⟨ht, fun _ => h2, ?_, ?_, fun _ => Or.inl ⟨h3, h4⟩, fun z h h0 => absurd h0 (hz z h)⟩
    · intro r hr
      rw [h1] at hr
      cases hr
    · intro r hr
      rw [h1] at hr
      cases hr
  · refine ⟨ht, ?_, ?_, fun _ _ => ⟨p, hhead⟩, ?_, fun z h h0 => absurd h0 (hz z h)⟩
    · intro hr
      rw [h1] at hr
      cases hr
    · intro r hr
      rw [h1, Option.some.injEq] at hr
      rw [← hr]
      exact (ht _ p hhead).1
    · intro hr
      rw [h1] at hr
      cases hr

/-- A stored number 0 is in the read slot, so a resynchronisation drops it. -/
theorem Anchored.resync_zero (hN : 0 < N) (h : Anchored N P s) (z : RtpPacket)
    (hz : (s.resyncOrClear N).packets 0 = some z) : z.seq ≠ 0 := by
  intro h0
  have hr := (h.zero z (clears_resync N s 0 z hz) h0).1
  have hidx : s.readIdx = 0 := (h.readIdx 0 hr).trans (Nat.zero_mod N)
  have hnone := resync_head hN s
  rw [hidx, hz] at hnone
  cases hnone

theorem Anchored.resync (hN : 0 < N) (h : Anchored N P s) : Anchored N P (s.resyncOrClear N) :=
  anchored_of_settled h.placed (clears_resync N s) (settled_resync N s) (h.resync_zero hN)

theorem Anchored.deliver (hN : 0 < N) (h : Anchored N P s) {p head : RtpPacket} {data : List UInt8} {idx now : ℕ}
    {d : Option Delivery} {s' : JitterBuffer} (hhead : s.packets s.readIdx = some head)
    (hd : s.deliver N p data idx now = .ok (d, s')) : Anchored N P s' := by
  have hplaced := h.placed.clears (clears_deliver hd)
  obtain ⟨t, x, b, slept, hc, rfl, _⟩ := deliver_ok hd
  obtain ⟨n, _, rfl, _⟩ := clearTo_ok hc
  have hidx : s.readIdx < N := by
    rw [(h.placed _ head hhead).1]
    exact Nat.mod_lt _ hN
  have hidx' : ((JitterBuffer.dropRead N)^[n] s).readIdx < N := by
    cases n with
    | zero => exact hidx
    | succ n =>
      rw [Function.iterate_succ_apply']
      exact Nat.mod_lt _ hN
  have hpk : (findNext N N ((JitterBuffer.dropRead N)^[n] s)).packets =
      ((JitterBuffer.dropRead N)^[n] s).packets := findNext_packets N N _
  have hclear := clears_clearTo hc
  -- Number 0 survives only a walk of no turns, and then it is read again.
  have hzero : ∀ z, (findNext N N ((JitterBuffer.dropRead N)^[n] s)).packets 0 = some z → z.seq = 0 →
      (findNext N N ((JitterBuffer.dropRead N)^[n] s)).readSeq = some 0 ∧
        (findNext N N ((JitterBuffer.dropRead N)^[n] s)).writeSeq ≠ none := by
    intro z hz h0
    rw [hpk] at hz
    obtain ⟨hr, hw⟩ := h.zero z (hclear 0 z hz) h0
    have hri : s.readIdx = 0 := (h.readIdx 0 hr).trans (Nat.zero_mod N)
    cases n with
    | zero =>
      obtain ⟨turns, rfl⟩ : ∃ t, N = t + 1 := ⟨N - 1, by omega⟩
      have hs0 : s.packets s.readIdx = some z := by
        rw [hri]
        exact hz
      simp only [Function.iterate_zero, id_eq, findNext, hs0, h0]
      exact ⟨trivial, hw⟩
    | succ n =>
      rw [Function.iterate_succ_apply] at hz
      have hdrop : (s.dropRead N).packets 0 = some z := iterate_clears n (s.dropRead N) 0 z hz
      simp [dropRead, setSlot, hri] at hdrop
  rcases findNext_settled N _ hidx' with ⟨q, hq, hr, _, _⟩ | ⟨hr, hw, hall⟩
  · refine ⟨hplaced, ?_, ?_, fun _ _ => ⟨q, hq⟩, ?_, hzero⟩
    · intro hr'
      cases hr.symm.trans hr'
    · intro r hr'
      cases hr.symm.trans hr'
      exact (hplaced _ q hq).1
    · intro hr'
      cases hr.symm.trans hr'
  · refine ⟨hplaced, fun _ => hw, ?_, ?_, fun _ => Or.inr fun i => ?_, hzero⟩
    · intro r hr'
      cases hr.symm.trans hr'
    · intro r hr'
      cases hr.symm.trans hr'
    · change (findNext N N ((JitterBuffer.dropRead N)^[n] s)).packets i = none
      rw [hpk]
      exact all_none hN (h.placed.clears hclear) hall i

/-- Filling the slot of `p` keeps the anchor, as long as number 0 comes with its read number
and a reset buffer reads at slot 0. -/
theorem Anchored.setSlot (h : Anchored N P s) {p : RtpPacket} (hp : P p)
    (hzero : p.seq = 0 → s.readSeq = some 0 ∧ s.writeSeq ≠ none)
    (hidle : s.readSeq = none → s.readIdx = 0 ∧ s.writeIdx = 0) :
    Anchored N P (s.setSlot (p.seq % N) (some p)) := by
  refine ⟨h.placed.setSlot hp, h.linked, h.readIdx, ?_, fun hr => Or.inl (hidle hr), ?_⟩
  · intro r hr
    obtain ⟨q, hq⟩ := h.occupied r hr
    by_cases hi : s.readIdx = p.seq % N
    · exact ⟨p, by simp [JitterBuffer.setSlot, hi]⟩
    · exact ⟨q, by simpa [JitterBuffer.setSlot, hi] using hq⟩
  · intro z hz h0
    by_cases hi : 0 = p.seq % N
    · simp only [JitterBuffer.setSlot, hi, if_true, Option.some.injEq] at hz
      exact hzero (hz ▸ h0)
    · simp only [JitterBuffer.setSlot, hi, if_false] at hz
      exact h.zero z hz h0

theorem Anchored.initialize (h : Anchored N P s) {p : RtpPacket} (hp : P p)
    (hw : s.writeSeq = none) : Anchored N P (s.initializeBuffer p (p.seq % N)) := by
  have hslot : (s.initializeBuffer p (p.seq % N)).packets (p.seq % N) = some p := by
    simp [initializeBuffer, JitterBuffer.setSlot]
  refine ⟨h.placed.setSlot hp, fun hr => ?_, fun r hr => ?_, fun _ _ => ⟨p, hslot⟩, fun hr => ?_, ?_⟩
  · cases hr
  · cases hr
    rfl
  · cases hr
  · intro z hz h0
    by_cases hi : 0 = p.seq % N
    · have hz' := (congrArg (s.initializeBuffer p (p.seq % N)).packets hi).symm.trans hz
      rw [hslot, Option.some.injEq] at hz'
      subst hz'
      exact ⟨by rw [← h0]; rfl, fun hn => by cases hn⟩
    · have hz' : s.packets 0 = some z := by simpa [initializeBuffer, JitterBuffer.setSlot, hi] using hz
      exact absurd hw (h.zero z hz' h0).2

/-- After the write head moved on to `p`: the anchor, and slot 0 for a reset buffer. -/
theorem Anchored.newHead (hN : 0 < N) (h : Anchored N P s) {q : ℕ} {r : ℕ} (hr : s.readSeq = some r) :
    Anchored N P (s.handleNewWriteHead N q (q % N)) ∧
      ((s.handleNewWriteHead N q (q % N)).readSeq = none →
        (s.handleNewWriteHead N q (q % N)).readIdx = 0 ∧ (s.handleNewWriteHead N q (q % N)).writeIdx = 0) := by
  have hnew : Anchored N P { s with writeIdx := q % N, writeSeq := some q } := by
    refine ⟨h.placed, ?_, h.readIdx, h.occupied, ?_, fun z hz h0 => ⟨(h.zero z hz h0).1, fun hn => by cases hn⟩⟩
    · intro hn
      cases hr.symm.trans hn
    · intro hn
      cases hr.symm.trans hn
  by_cases hc : s.collided s.writeIdx (q % N) = true
  · rw [newHead_collided hc]
    refine ⟨hnew.resync hN, ?_⟩
    intro hn
    rcases settled_resync N { s with writeIdx := q % N, writeSeq := some q } with ⟨_, _, h3, h4⟩ | ⟨p, _, h1, _⟩
    · exact ⟨h3, h4⟩
    · cases h1.symm.trans hn
  · rw [newHead_free hc]
    refine ⟨hnew, ?_⟩
    intro hn
    cases hr.symm.trans hn

theorem Anchored.store (hN : 0 < N) (h : Anchored N P s) {p : RtpPacket} (hp : P p) :
    Anchored N P (s.store N p) := by
  cases hw : s.writeSeq with
  | none =>
    rw [store_of_idle p (Or.inr hw)]
    exact h.initialize hp hw
  | some w =>
    cases hr : s.readSeq with
    | none => cases hw.symm.trans (h.linked hr)
    | some r =>
      rw [store_of_window p hr hw]
      split
      · next hlate =>
        -- A late packet takes the read slot with it.
        have hz : ∀ z, s.packets 0 = some z → z.seq ≠ 0 := by
          intro z hz h0
          cases hr.symm.trans (h.zero z hz h0).1
          omega
        refine ⟨?_, ?_, ?_, ?_, ?_, ?_⟩
        · exact h.placed.setSlot hp
        · intro hn
          cases hn
        · intro r' hr'
          cases hr'
          rfl
        · exact fun _ _ => ⟨p, by simp [JitterBuffer.setSlot]⟩
        · intro hn
          cases hn
        · intro z hz' h0
          by_cases hi : 0 = p.seq % N
          · simp only [JitterBuffer.setSlot, hi, if_true, Option.some.injEq] at hz'
            subst hz'
            exact ⟨by rw [← h0]; rfl, by simp [JitterBuffer.setSlot, hw]⟩
          · simp only [JitterBuffer.setSlot, hi, if_false] at hz'
            exact absurd h0 (hz z hz')
      · next hlate =>
        split
        · next hnew =>
          obtain ⟨hhead, hidle⟩ := h.newHead hN (q := p.seq) hr
          exact hhead.setSlot hp (fun h0 => by omega) hidle
        · next hnew =>
          refine h.setSlot hp (fun h0 => ?_) (fun hn => by cases hr.symm.trans hn)
          have hr0 : r = 0 := by omega
          exact ⟨hr0 ▸ hr, by simp [hw]⟩

theorem Anchored.pop (h : Anchored N P s) {clk : ℕ → ℕ} {d : Option Delivery} {s' : JitterBuffer}
    (hpop : s.pop N clk = .ok (d, s')) : Anchored N P s' := by
  obtain ⟨hN, t, hres, hcase⟩ := pop_cases hpop
  have ht : Anchored N P t := hres.preserves (fun u hu => hu.resync hN) h
  rcases hcase with ⟨_, rfl⟩ | ⟨run, last, now, hr, hf, _, _, hd⟩
  · exact ht
  · cases run with
    | nil => cases hf.last_eq
    | cons p run => exact ht.deliver hN hr.1 hd

theorem anchored_step (h : Anchored N P s) {op : Op} {o : Option Delivery} {s' : JitterBuffer}
    (hop : ∀ p, op = .add p → P p) (hs : (machine N).step s op = some (s', o)) : Anchored N P s' := by
  cases op with
  | add p =>
    obtain ⟨m, q, ⟨rfl, _⟩ | ⟨hN, _, rfl⟩⟩ := add_cases (step_add.mp hs).1
    · exact h.stats m q
    · exact (h.stats m q).store hN (hop p rfl)
  | pop clk => exact h.pop (step_pop.mp hs)

end Walks

/-! ## What a `pop` returns -/

theorem clearTo_reaches {N : ℕ} (len turns : ℕ) (s : JitterBuffer) (hidx : s.readIdx < N) (hlen : len ≤ turns) :
    ∃ t, clearTo N ((s.readIdx + len) % N) turns s = .ok t := by
  induction len generalizing s turns with
  | zero =>
    refine ⟨s, ?_⟩
    rw [Nat.add_zero, Nat.mod_eq_of_lt hidx]
    cases turns <;> simp [clearTo]
  | succ len ih =>
    obtain ⟨turns, rfl⟩ : ∃ t, turns = t + 1 := ⟨turns - 1, by omega⟩
    unfold clearTo
    by_cases he : s.readIdx = (s.readIdx + (len + 1)) % N
    · exact ⟨s, if_pos he⟩
    · obtain ⟨t, ht⟩ := ih turns (s.dropRead N) (Nat.mod_lt _ (by omega)) (by omega)
      have htarget : (s.readIdx + (len + 1)) % N = ((s.dropRead N).readIdx + len) % N := by
        change _ = ((s.readIdx + 1) % N + len) % N
        rw [Nat.mod_add_mod]
        congr 1
        omega
      rw [if_neg he, htarget]
      exact ⟨t, ht⟩

theorem deliver_returns {N : ℕ} (s : JitterBuffer) (p : RtpPacket) (data : List UInt8) (len now : ℕ)
    (hidx : s.readIdx < N) (hlen : len ≤ N) (hrange : s.InRange p.ts) :
    ∃ slept t, s.deliver N p data ((s.readIdx + len) % N) now = .ok (some ⟨p.ts, data, slept⟩, t) := by
  obtain ⟨t, ht⟩ := clearTo_reaches len N s hidx hlen
  have hclock := (sameClock_clearTo ht).trans (sameClock_findNext N N t)
  obtain ⟨slept, u, hu⟩ := synchronizePlayout_returns (hclock.inRange.mpr hrange) now
  simp only [deliver, advanceReadPointers, bind, Except.bind, ht, pure, Except.pure, hu]
  exact ⟨_, _, rfl⟩

section Pop
variable {N : ℕ} {clk : ℕ → ℕ} {s : JitterBuffer} {p : RtpPacket}

theorem prepare_valid (hp : s.packets s.readIdx = some p)
    (hv : s.validPlayoutTime p.ts (clk 0) = .ok true) :
    prepareNextFrameTs N clk (N + 1) 0 s = .ok (some p.ts, 1, s) := by
  simp [prepareNextFrameTs, hp, hv]

theorem pop_plays (hN : 0 < N) (hidx : s.readIdx < N) (hp : s.packets s.readIdx = some p)
    (hv : s.validPlayoutTime p.ts (clk 0) = .ok true) {run : List RtpPacket} {last : RtpPacket}
    (hr : s.Reads N s.readIdx run) (hf : IsFrameRun p.ts run last) (hlen : run.length ≤ N) :
    ∃ slept t, s.pop N clk = .ok (some ⟨last.ts, run.flatMap RtpPacket.payload, slept⟩, t) ∧
      s.deliver N last (run.flatMap RtpPacket.payload) ((s.readIdx + run.length) % N) (clk 1) =
        .ok (some ⟨last.ts, run.flatMap RtpPacket.payload, slept⟩, t) := by
  have hlast : last.ts = p.ts := hf.ts_eq last (List.mem_of_getLast? hf.last_eq)
  obtain ⟨slept, t, hd⟩ := deliver_returns s last (run.flatMap RtpPacket.payload) run.length (clk 1) hidx hlen
    (by rw [hlast]; exact inRange_of_valid hv)
  refine ⟨slept, t, ?_, hd⟩
  unfold pop
  rw [if_neg (Nat.ne_of_gt hN), prepare_valid hp hv]
  simp only [bind, Except.bind, collect_of_frame hr hf hlen]
  exact hd

theorem pop_waits (hN : 0 < N) (hp : s.packets s.readIdx = some p)
    (hv : s.validPlayoutTime p.ts (clk 0) = .ok true)
    (hc : s.collectFrame N p.ts N s.readIdx [] 0 = none) : s.pop N clk = .ok (none, s) := by
  unfold pop
  rw [if_neg (Nat.ne_of_gt hN), prepare_valid hp hv]
  simp only [bind, Except.bind, hc]
  rfl

theorem pop_fails (hN : 0 < N) (hp : s.packets s.readIdx = some p) {e : Fault}
    (hv : s.validPlayoutTime p.ts (clk 0) = .error e) : s.pop N clk = .error e := by
  unfold pop
  rw [if_neg (Nat.ne_of_gt hN)]
  simp only [bind, Except.bind, prepareNextFrameTs, hp, hv]

end Pop

theorem wrappingSub_of_le {a b : ℕ} (hba : b ≤ a) (ha : a < 2 ^ 64) : wrappingSub a b = a - b := by
  unfold wrappingSub
  rw [Nat.mod_eq_of_lt (show b < 2 ^ 64 by omega), show a + 2 ^ 64 - b = a - b + 2 ^ 64 by omega,
    Nat.add_mod_right, Nat.mod_eq_of_lt (by omega)]

theorem wrappingSub_of_lt {a b : ℕ} (hab : a < b) (hb : b < 2 ^ 64) : wrappingSub a b = a + 2 ^ 64 - b := by
  unfold wrappingSub
  rw [Nat.mod_eq_of_lt hb, Nat.mod_eq_of_lt (by omega)]

/-! ## Starting again -/

theorem initialize_slot (N : ℕ) (s : JitterBuffer) (p : RtpPacket) :
    (s.initializeBuffer p (p.seq % N)).packets (s.initializeBuffer p (p.seq % N)).readIdx = some p := by
  simp [initializeBuffer, setSlot]

end JitterBuffer

/-- One key frame played at 40, the next one expired at 1000. -/
def expiredRun : List Op :=
  [.add (Media.chunkPacket ⟨2, 96, 7⟩ ⟨[[1]], 5, true⟩ 0 0), .pop fun _ => 40,
    .add (Media.chunkPacket ⟨2, 96, 7⟩ ⟨[[2]], 45, true⟩ 1 0), .pop fun _ => 1000]

end RoomRtc.Jitter
