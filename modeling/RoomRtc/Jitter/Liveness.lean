import RoomRtc.Jitter.ReadSlot
import Mathlib.Data.Finset.Card

/-! Ways out of every state. The sender goes on with one-packet key frames; which of them the
buffer needs to play something again depends on the state it is in (`Recoverable`). -/
namespace RoomRtc.Jitter
open Transport Media
set_option autoImplicit false

namespace JitterBuffer

/-! ## Known numbers -/

/-- The read and the write number were once the number of an added packet. -/
structure Known (P : RtpPacket → Prop) (s : JitterBuffer) : Prop where
  read : ∀ r, s.readSeq = some r → ∃ q, P q ∧ q.seq = r
  write : ∀ w, s.writeSeq = some w → ∃ q, P q ∧ q.seq = w

theorem known_of_settled {N : ℕ} {P : RtpPacket → Prop} {s t : JitterBuffer} (h : Known P s)
    (ht : t.Placed N P) (hs : Settled s t) : Known P t := by
  rcases hs with ⟨h1, h2, _⟩ | ⟨p, hp, h1, h2, _⟩
  · refine ⟨fun r hr => ?_, fun w hw => ?_⟩
    · cases h1.symm.trans hr
    · cases h2.symm.trans hw
  · refine ⟨fun r hr => ?_, fun w hw => h.write w (h2.symm.trans hw)⟩
    cases h1.symm.trans hr
    exact ⟨p, (ht _ p hp).2, rfl⟩

theorem Known.store {N : ℕ} {P : RtpPacket → Prop} {s : JitterBuffer} {p : RtpPacket} (h : Known P s)
    (hplaced : s.Placed N P) (hp : P p) : Known P (s.store N p) := by
  unfold JitterBuffer.store
  dsimp only
  split
  · split
    · refine ⟨fun r hr => ?_, h.write⟩
      cases hr
      exact ⟨p, hp, rfl⟩
    · split
      · have hnew : Known P { s with writeIdx := p.seq % N, writeSeq := some p.seq } := by
          refine ⟨h.read, fun w hw => ?_⟩
          cases hw
          exact ⟨p, hp, rfl⟩
        have hhead : Known P (s.handleNewWriteHead N p.seq (p.seq % N)) := by
          by_cases hcol : s.collided s.writeIdx (p.seq % N) = true
          · rw [newHead_collided hcol]
            have hc := clears_resync N { s with writeIdx := p.seq % N, writeSeq := some p.seq }
            exact known_of_settled hnew (Placed.clears hplaced hc) (settled_resync N _)
          · rw [newHead_free hcol]
            exact hnew
        exact ⟨hhead.read, hhead.write⟩
      · exact ⟨h.read, h.write⟩
  · refine ⟨fun r hr => ?_, fun w hw => ?_⟩
    · cases hr
      exact ⟨p, hp, rfl⟩
    · cases hw
      exact ⟨p, hp, rfl⟩

theorem Known.pop {N : ℕ} {P : RtpPacket → Prop} {s s' : JitterBuffer} {clk : ℕ → ℕ} {d : Option Delivery}
    (h : Known P s) (hanch : Anchored N P s) (hpop : s.pop N clk = .ok (d, s')) : Known P s' := by
  obtain ⟨hN, t, hres, hcase⟩ := pop_cases hpop
  have ht : Anchored N P t ∧ Known P t := hres.preserves (P := fun u => Anchored N P u ∧ Known P u)
    (fun u hu => ⟨hu.1.resync hN, known_of_settled hu.2 (hu.1.resync hN).placed (settled_resync N u)⟩)
    ⟨hanch, h⟩
  rcases hcase with ⟨_, rfl⟩ | ⟨run, last, now, _, _, _, _, hd⟩
  · exact ht.2
  · have hplaced := ht.1.placed.clears (clears_deliver hd)
    obtain ⟨u, x, b, slept, hc, rfl, _⟩ := deliver_ok hd
    obtain ⟨n, _, rfl, _⟩ := clearTo_ok hc
    have hw := (iterate_dropRead_fields N n t).2
    have hfind := writeSeq_findNext_cases N N ((JitterBuffer.dropRead N)^[n] t)
    refine ⟨fun r hr => ?_, fun w hw' => ?_⟩
    · obtain ⟨q, hq, hqr⟩ := hfind.1 r hr
      exact ⟨q, (hplaced _ q hq).2, hqr⟩
    · cases hfind.2 with
      | inl hnone => cases hnone.symm.trans hw'
      | inr hsame => exact ht.2.write w (hw.symm.trans (hsame.symm.trans hw'))

theorem known_step {N : ℕ} {P : RtpPacket → Prop} {s s' : JitterBuffer} {op : Op} {o : Option Delivery}
    (h : Known P s) (hanch : Anchored N P s) (hop : ∀ p, op = .add p → P p)
    (hs : (machine N).step s op = some (s', o)) : Known P s' := by
  cases op with
  | add p =>
    obtain ⟨m, q, ⟨rfl, _⟩ | ⟨_, _, rfl⟩⟩ := add_cases (step_add.mp hs).1
    · exact ⟨h.read, h.write⟩
    · have hk : Known P { s with metrics := m, maxSeqSeen := q } := ⟨h.read, h.write⟩
      exact hk.store (hanch.stats m q).placed (hop p rfl)
  | pop clk => exact h.pop hanch (step_pop.mp hs)

end JitterBuffer

/-! ## Fresh key frames -/

/-- The number of packets sent for `frames`, which is the sender's next number. -/
def sentCount (frames : List EncodedFrame) : ℕ := startOf frames frames.length

def lastTime (frames : List EncodedFrame) : ℕ := (frames.map fun f => f.frameTime.toNat).foldr max 0

/-- Numbers are left for a few rounds of the ring, and from `base` on timestamps that are not late at
`now` and have deadlines. -/
structure Room (N : ℕ) (frames : List EncodedFrame) (now base : ℕ) (s : JitterBuffer) : Prop where
  numbers : sentCount frames + 4 * N + 4 ≤ 2 ^ 64
  after : lastTime frames ≤ base
  current : s.lastFrameCompletedTimestamp + now ≤ base
  times : s.lastDeliverTimestamp + base + 2 * N + 124 ≤ 2 ^ 128

/-- Readings of one clock from `now` on: they never decrease, within a `pop` or from one to the next. -/
def ClockFrom (now : ℕ) (clocks : List (ℕ → ℕ)) : Prop :=
  (∀ clk ∈ clocks, Monotone clk ∧ ∀ k, now ≤ clk k) ∧ clocks.Pairwise fun a b => ∀ j k, a j ≤ b k

/-- Packets of the sender with numbers above every one sent for `frames` and below `limit`, each with
the clock of the `pop` behind it. -/
structure Continuation (config : MediaConfig) (frames : List EncodedFrame) (now limit : ℕ)
    (plan : List (RtpPacket × (ℕ → ℕ))) : Prop where
  sent : ∃ more, Increasing (frames ++ more) ∧ ∀ x ∈ plan, x.1 ∈ packetStream config (frames ++ more) 0
  fresh : ∀ x ∈ plan, x.1.seq < limit ∧ ∀ q ∈ packetStream config frames 0, q.seq < x.1.seq
  clock : ClockFrom now (plan.map Prod.snd)

section Fresh
variable {N now base : ℕ} {config : MediaConfig} {frames : List EncodedFrame} {s : JitterBuffer}

/-- Whatever is not younger than the last key frame has a deadline. -/
theorem Room.inRange (hroom : Room N frames now base s) {ts : ℕ} (hts : ts ≤ base + 2 * N + 3) : s.InRange ts := by
  have := hroom.times
  refine Or.inr ?_
  unfold JitterBuffer.deadline toleranceMillis
  omega

end Fresh

/-! ## Ways out -/

/-- Numbers below `F` and times up to `T`. -/
def Before (F T : ℕ) (q : RtpPacket) : Prop := q.seq < F ∧ q.ts ≤ T

/-- What is known of a reachable state when `F` numbers were used and the time is `T`. -/
structure Reach (N F T : ℕ) (s : JitterBuffer) : Prop where
  anchored : s.Anchored N (Before F T)
  known : s.Known (Before F T)
  completed : s.lastFrameCompletedTimestamp ≤ T

section WaysOut
variable {N F T : ℕ} {s : JitterBuffer}

theorem Reach.mono (h : Reach N F T s) {F' T' : ℕ} (hF : F ≤ F') (hT : T ≤ T') : Reach N F' T' s := by
  have hb : ∀ q, Before F T q → Before F' T' q := fun q hq => ⟨hq.1.trans_le hF, hq.2.trans hT⟩
  refine ⟨⟨fun i p hp => ⟨(h.anchored.placed i p hp).1, hb p (h.anchored.placed i p hp).2⟩, h.anchored.linked,
    h.anchored.readIdx, h.anchored.occupied, h.anchored.idle, h.anchored.zero⟩, ⟨?_, ?_⟩, h.completed.trans hT⟩
  · intro r hr
    obtain ⟨q, hq, he⟩ := h.known.read r hr
    exact ⟨q, hb q hq, he⟩
  · intro w hw
    obtain ⟨q, hq, he⟩ := h.known.write w hw
    exact ⟨q, hb q hq, he⟩

theorem Reach.step (h : Reach N F T s) {op : Op} {o : Option Delivery} {s' : JitterBuffer}
    (hop : ∀ p, op = .add p → Before F T p) (hs : (machine N).step s op = some (s', o)) : Reach N F T s' := by
  refine ⟨JitterBuffer.anchored_step h.anchored hop hs, JitterBuffer.known_step h.known h.anchored hop hs, ?_⟩
  cases op with
  | add p =>
    obtain ⟨m, q, ⟨rfl, _⟩ | ⟨_, _, rfl⟩⟩ := JitterBuffer.add_cases (step_add.mp hs).1
    · exact h.completed
    · rw [(JitterBuffer.sameClock_store N { s with metrics := m, maxSeqSeen := q } p).completed]
      exact h.completed
  | pop clk =>
    obtain ⟨_, t, hres, ⟨_, rfl⟩ | ⟨run, last, now, hr, hf, _, _, hd⟩⟩ :=
      JitterBuffer.pop_cases (step_pop.mp hs)
    · rw [hres.sameClock.completed]
      exact h.completed
    · obtain ⟨i, hi⟩ := JitterBuffer.reads_mem hr (List.mem_of_getLast? hf.last_eq)
      obtain ⟨_, _, _, _, _, rfl, _⟩ := JitterBuffer.deliver_ok hd
      exact ((h.anchored.placed i last (hres.clears i last hi)).2).2

/-- The number of occupied slots. -/
def occupancy (N : ℕ) (s : JitterBuffer) : ℕ :=
  ((Finset.range N).filter fun i => (s.packets i).isSome = true).card

theorem occupancy_le (N : ℕ) (s : JitterBuffer) : occupancy N s ≤ N :=
  (Finset.card_filter_le _ _).trans (Finset.card_range N).le

theorem occupancy_resync (hN : 0 < N) (hidx : s.readIdx < N) {p : RtpPacket} (hp : s.packets s.readIdx = some p) :
    occupancy N (s.resyncOrClear N) < occupancy N s := by
  apply Finset.card_lt_card
  refine ⟨?_, ?_⟩
  · intro i hi
    rw [Finset.mem_filter] at hi ⊢
    obtain ⟨q, hq⟩ := Option.isSome_iff_exists.mp hi.2
    exact ⟨hi.1, by rw [JitterBuffer.clears_resync N s i q hq]; rfl⟩
  · intro hsub
    have hmem : s.readIdx ∈ (Finset.range N).filter fun i => (s.packets i).isSome = true := by
      rw [Finset.mem_filter, Finset.mem_range, hp]
      exact ⟨hidx, rfl⟩
    have := (Finset.mem_filter.mp (hsub hmem)).2
    rw [JitterBuffer.resync_head hN s] at this
    cases this

/-- Every stored packet is recent enough for the deadline test, has a deadline and is past it. -/
def AllExpired (s : JitterBuffer) (clk : ℕ → ℕ) : Prop :=
  ∀ i z, s.packets i = some z →
    s.lastFrameCompletedTimestamp ≤ z.ts ∧ s.InRange z.ts ∧ ∀ k, ¬ s.InTime z.ts (clk k)

theorem AllExpired.resync {clk : ℕ → ℕ} (h : AllExpired s clk) : AllExpired (s.resyncOrClear N) clk := by
  intro i z hz
  obtain ⟨hrecent, hrange, hlate⟩ := h i z (JitterBuffer.clears_resync N s i z hz)
  have hclock := JitterBuffer.sameClock_resync N s
  exact ⟨by rw [hclock.completed]; exact hrecent, hclock.inRange.mpr hrange,
    fun k hin => hlate k (hclock.inTime.mp hin)⟩

end WaysOut

section Recovery
variable {N now base limit : ℕ} {config : MediaConfig} {frames : List EncodedFrame} {s : JitterBuffer}

end Recovery

/-! ## No way out -/

/-- Nothing was played, and the window starts in the first round of the ring with a frame that is
not complete. -/
structure Stuck (N r ts : ℕ) (s : JitterBuffer) : Prop where
  nothing : s.lastDeliverTimestamp = 0
  low : r < N
  read : s.readSeq = some r
  window : ∃ w, s.writeSeq = some w ∧ s.Spans N r w
  head : ∀ z, s.packets s.readIdx = some z → z.ts = ts
  incomplete : ∀ run last, s.Reads N s.readIdx run → run.length ≤ N → ¬ JitterBuffer.IsFrameRun ts run last

section Stuck
variable {N r ts : ℕ} {s : JitterBuffer}

/-- Only numbers that have room in the window are taken, until the very last ones. -/
theorem Stuck.accepts_below (h : Stuck N r ts s) {q : ℕ} (hlimit : q + 2 * N < 2 ^ 64)
    (hv : s.validPacketSeqNum N q = true) : q < r + N := by
  obtain ⟨w, _, hspans⟩ := h.window
  obtain ⟨z, hz, hzr⟩ := hspans.head
  have hlow := h.low
  have hwlt := Nat.mod_lt w (show 0 < N by omega)
  have hwin : s.window N = r + N - w % N := by
    rw [JitterBuffer.window, hspans.readIdx, hspans.writeIdx, Nat.mod_eq_of_lt hlow]
  unfold JitterBuffer.validPacketSeqNum at hv
  rw [hz] at hv
  dsimp only at hv
  rw [hzr, hwin] at hv
  split at hv
  · omega
  · rw [JitterBuffer.wrappingSub_of_lt (by omega) (by omega), decide_eq_true_eq] at hv
    omega

theorem Stuck.store (h : Stuck N r ts s) {p : RtpPacket} (hfresh : r < p.seq) (hts : p.ts ≠ ts)
    (hbelow : p.seq < r + N) : Stuck N r ts (s.store N p) := by
  obtain ⟨w, hw, hspans⟩ := h.window
  have hlow := h.low
  have hlt := hspans.lt
  obtain ⟨hr', hw', hspans'⟩ := JitterBuffer.store_fits (p := p) (show 0 < N by omega) hspans h.read hw (by omega)
  rw [Nat.min_eq_left hfresh.le] at hr' hspans'
  have hidx : (s.store N p).readIdx = s.readIdx := hspans'.readIdx.trans hspans.readIdx.symm
  have hslots : ∀ i q, (s.store N p).packets i = some q → q = p ∨ s.packets i = some q :=
    fun i q hq => (JitterBuffer.store_slots hq).imp And.right And.right
  refine ⟨?_, hlow, hr', ⟨_, hw', hspans'⟩, fun z hz => ?_, fun run last hr hlen hf => ?_⟩
  · rw [(JitterBuffer.sameClock_store N s p).deliver]
    exact h.nothing
  · obtain ⟨z', hz', hzr⟩ := hspans'.head
    cases hz'.symm.trans hz
    rcases hslots _ z hz with rfl | hold
    · omega
    · rw [hidx] at hold
      exact h.head z hold
  · rw [hidx] at hr
    refine h.incomplete run last (JitterBuffer.Reads.of_slots run _ hr fun i q hq hslot => ?_) hlen hf
    refine (hslots i q hslot).resolve_left ?_
    rintro rfl
    exact hts (hf.ts_eq q hq)

theorem Stuck.add (h : Stuck N r ts s) {p : RtpPacket} {s' : JitterBuffer} (hfresh : r < p.seq) (hts : p.ts ≠ ts)
    (hlimit : p.seq + 2 * N < 2 ^ 64) (ha : s.add N p = .ok s') : Stuck N r ts s' := by
  have hstats : ∀ m q, Stuck N r ts { s with metrics := m, maxSeqSeen := q } := by
    intro m q
    obtain ⟨w, hw, hspans⟩ := h.window
    refine ⟨h.nothing, h.low, h.read, ⟨w, hw, hspans.congr rfl rfl rfl⟩, h.head, fun run last hr => ?_⟩
    exact h.incomplete run last (JitterBuffer.Reads.of_slots run _ hr fun _ _ _ hslot => hslot)
  obtain ⟨m, q, ⟨rfl, _⟩ | ⟨_, hacc, rfl⟩⟩ := JitterBuffer.add_cases ha
  · exact hstats m q
  · exact (hstats m q).store hfresh hts (h.accepts_below hlimit hacc.seqNum)

theorem Stuck.pop (h : Stuck N r ts s) (clk : ℕ → ℕ) : s.pop N clk = .ok (none, s) := by
  obtain ⟨w, _, hspans⟩ := h.window
  obtain ⟨z, hz, _⟩ := hspans.head
  have hlow := h.low
  have hv : s.validPlayoutTime z.ts (clk 0) = .ok true := by
    rw [JitterBuffer.validPlayoutTime_eq]
    exact if_pos h.nothing
  refine JitterBuffer.pop_waits (by omega) hz hv ?_
  cases hc : s.collectFrame N z.ts N s.readIdx [] 0 with
  | none => rfl
  | some x =>
    obtain ⟨last, data, idx⟩ := x
    obtain ⟨run, hr, hf, hlen, _⟩ := JitterBuffer.frame_of_collect hc
    rw [h.head z hz] at hf
    exact absurd hf (h.incomplete run last hr hlen)

end Stuck

/-- What follows the packets of `frames` has higher numbers and later timestamps. -/
theorem Continuation.after {config : MediaConfig} {frames : List EncodedFrame} {now limit : ℕ}
    {plan : List (RtpPacket × (ℕ → ℕ))} (h : Continuation config frames now limit plan) {z : RtpPacket}
    (hz : z ∈ packetStream config frames 0) {x : RtpPacket × (ℕ → ℕ)} (hx : x ∈ plan) :
    z.seq < x.1.seq ∧ z.ts < x.1.ts := by
  have hfresh := (h.fresh x hx).2
  refine ⟨hfresh z hz, ?_⟩
  obtain ⟨more, hinc, hsent⟩ := h.sent
  obtain ⟨j, f, i, hj, hi, hxe⟩ := sent_iff.mp (hsent x hx)
  obtain ⟨j', g, i', hj', _, rfl⟩ := sent_iff.mp hz
  have hlt : j' < frames.length := (List.getElem?_eq_some_iff.mp hj').1
  have hjf : frames.length ≤ j := by
    by_contra hold
    rw [List.getElem?_append_left (by omega)] at hj
    have hstart : startOf (frames ++ more) j = startOf frames j := by
      unfold startOf
      rw [List.take_append_of_le_length (by omega)]
    rw [hstart] at hxe
    exact Nat.lt_irrefl _ (hfresh x.1 (sent_iff.mpr ⟨j, f, i, hj, hi, hxe⟩))
  rw [hxe, chunkPacket_ts, chunkPacket_ts]
  exact hinc.time_lt (by rw [List.getElem?_append_left hlt]; exact hj') hj (by omega)

/-- The first chunk of a two-chunk key frame in slot 0 of two, its second chunk missing, and
nothing delivered. -/
structure Wedged (first : RtpPacket) (s : JitterBuffer) : Prop where
  readIdx : s.readIdx = 0
  head : s.packets 0 = some first
  other : ∀ z, s.packets 1 = some z → z.ts ≠ first.ts
  nothing : s.lastDeliverTimestamp = 0
  read : s.readSeq = some 0
  write : (s.writeIdx = 0 ∧ s.writeSeq = some 0) ∨ (s.writeIdx = 1 ∧ s.writeSeq ≠ none)

theorem Wedged.add {first p : RtpPacket} {s s' : JitterBuffer} (h : Wedged first s) (hhead : first.seq = 0)
    (hseq : 2 ≤ p.seq) (hts : p.ts ≠ first.ts) (ha : s.add 2 p = .ok s') : Wedged first s' := by
  obtain ⟨m, q, ⟨rfl, _⟩ | ⟨_, hacc, rfl⟩⟩ := JitterBuffer.add_cases ha
  · exact ⟨h.readIdx, h.head, h.other, h.nothing, h.read, h.write⟩
  · have hlt := p.seq_lt
    have hv := hacc.seqNum
    unfold JitterBuffer.validPacketSeqNum JitterBuffer.window at hv
    rw [h.readIdx, h.head] at hv
    dsimp only at hv
    rw [if_neg (by omega), hhead, decide_eq_true_eq] at hv
    rcases h.write with ⟨hwi, hws⟩ | ⟨hwi, _⟩
    · -- Only the very last number gets past the wrapped bound, and it goes to slot 1.
      rw [hwi, JitterBuffer.wrappingSub_of_lt (by omega) (by omega)] at hv
      have hpos : p.seq % 2 = 1 := by omega
      have hfree :
          ¬ ({ s with metrics := m, maxSeqSeen := q } : JitterBuffer).collided s.writeIdx (p.seq % 2) = true := by
        simp [JitterBuffer.collided, h.readIdx, hwi, hpos]
      rw [JitterBuffer.store_of_window (s := { s with metrics := m, maxSeqSeen := q }) p h.read hws,
        if_neg (by omega), if_pos (by omega),
        JitterBuffer.newHead_free (s := { s with metrics := m, maxSeqSeen := q }) hfree, hpos]
      refine ⟨h.readIdx, by simpa [JitterBuffer.setSlot] using h.head, ?_, h.nothing, h.read,
        Or.inr ⟨rfl, fun hn => by cases hn⟩⟩
      intro z hz
      simp only [JitterBuffer.setSlot, if_true, Option.some.injEq] at hz
      rw [← hz]
      exact hts
    · rw [hwi, JitterBuffer.wrappingSub_of_lt (by omega) (by omega)] at hv
      omega

theorem Wedged.pop {first : RtpPacket} {s : JitterBuffer} (h : Wedged first s) (hm : first.marker ≠ 1)
    (clk : ℕ → ℕ) : s.pop 2 clk = .ok (none, s) := by
  have hp : s.packets s.readIdx = some first := by rw [h.readIdx]; exact h.head
  refine JitterBuffer.pop_waits (by decide) hp (by simp [JitterBuffer.validPlayoutTime, h.nothing]) ?_
  cases h1 : s.packets 1 with
  | none => simp [JitterBuffer.collectFrame, h.readIdx, h.head, hm, h1]
  | some z => simp [JitterBuffer.collectFrame, h.readIdx, h.head, hm, h1, h.other z h1]

end RoomRtc.Jitter
