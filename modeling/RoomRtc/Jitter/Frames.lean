import RoomRtc.Foundations.Ring
import RoomRtc.Jitter.Steps

/-! Only whole frames leave the buffer. A packet sits in the slot of its sequence number
(`Placed`), whatever was lost, repeated or cleared; so a run of neighbouring slots with one
timestamp holds chunks of one frame in ascending order, and when it is as long as the frame
it is the frame. -/
namespace RoomRtc.Jitter
open Transport Media
set_option autoImplicit false

/-! ## Machine steps -/

theorem step_add {N : ℕ} {s s' : JitterBuffer} {p : RtpPacket} {o : Option Delivery} :
    (machine N).step s (.add p) = some (s', o) ↔ s.add N p = .ok s' ∧ o = none := by
  simp only [machine]
  cases h : s.add N p with
  | error e => simp [Except.toOption]
  | ok t =>
    simp only [Except.toOption, Option.map_some, Option.some.injEq, Prod.mk.injEq, Except.ok.injEq]
    exact ⟨fun ⟨h1, h2⟩ => ⟨h1, h2.symm⟩, fun ⟨h1, h2⟩ => ⟨h1, h2.symm⟩⟩

theorem step_pop {N : ℕ} {s s' : JitterBuffer} {clk : ℕ → ℕ} {o : Option Delivery} :
    (machine N).step s (.pop clk) = some (s', o) ↔ s.pop N clk = .ok (o, s') := by
  simp only [machine]
  cases h : s.pop N clk with
  | error e => simp [Except.toOption]
  | ok r =>
    simp only [Except.toOption, Option.map_some, Option.some.injEq, Except.ok.injEq, Prod.ext_iff]
    exact ⟨fun ⟨h1, h2⟩ => ⟨h2, h1⟩, fun ⟨h1, h2⟩ => ⟨h2, h1⟩⟩

theorem mem_feed {plan : List (RtpPacket × (ℕ → ℕ))} {p : RtpPacket} (h : Op.add p ∈ feed plan) :
    p ∈ plan.map Prod.fst := by
  obtain ⟨x, hx, hmem⟩ := List.mem_flatMap.mp h
  rw [List.mem_cons, List.mem_singleton, Op.add.injEq] at hmem
  rcases hmem with rfl | hmem
  · exact List.mem_map_of_mem hx
  · cases hmem

namespace JitterBuffer

/-! ## Every packet in its slot -/

/-- Each stored packet is one of `P` and sits in the slot of its sequence number. -/
def Placed (N : ℕ) (P : RtpPacket → Prop) (s : JitterBuffer) : Prop :=
  ∀ i p, s.packets i = some p → i = p.seq % N ∧ P p

theorem Placed.clears {N : ℕ} {P : RtpPacket → Prop} {s s' : JitterBuffer} (h : Placed N P s)
    (hc : Clears s s') : Placed N P s' :=
  fun i p hp => h i p (hc i p hp)

theorem placed_new (N : ℕ) (P : RtpPacket → Prop) : Placed N P new := by
  intro i p h
  cases h

/-- Storing a packet fills its own slot and at most clears others. -/
theorem store_slots {N : ℕ} {s : JitterBuffer} {p q : RtpPacket} {i : ℕ}
    (h : (s.store N p).packets i = some q) :
    (i = p.seq % N ∧ q = p) ∨ (i ≠ p.seq % N ∧ s.packets i = some q) := by
  have hset : ∀ t : JitterBuffer, Clears s t → (t.setSlot (p.seq % N) (some p)).packets i = some q →
      (i = p.seq % N ∧ q = p) ∨ (i ≠ p.seq % N ∧ s.packets i = some q) := by
    intro t hc ht
    by_cases hi : i = p.seq % N
    · simp only [setSlot, hi, if_true, Option.some.injEq] at ht
      exact Or.inl ⟨hi, ht.symm⟩
    · simp only [setSlot, hi, if_false] at ht
      exact Or.inr ⟨hi, hc i q ht⟩
  unfold store at h
  dsimp only at h
  split at h
  · split at h
    · exact hset { s with readIdx := p.seq % N, readSeq := some p.seq } (Clears.refl s) h
    · split at h
      · refine hset (s.handleNewWriteHead N p.seq (p.seq % N)) ?_ h
        by_cases hc : s.collided s.writeIdx (p.seq % N) = true
        · rw [newHead_collided hc]
          exact clears_resync N { s with writeIdx := p.seq % N, writeSeq := some p.seq }
        · rw [newHead_free hc]
          exact Clears.refl s
      · exact hset s (Clears.refl s) h
  · exact hset s (Clears.refl s) h

theorem Placed.setSlot {N : ℕ} {P : RtpPacket → Prop} {s : JitterBuffer} {p : RtpPacket}
    (h : Placed N P s) (hp : P p) : Placed N P (s.setSlot (p.seq % N) (some p)) := by
  intro i q hq
  by_cases hi : i = p.seq % N
  · simp only [JitterBuffer.setSlot, hi, if_true, Option.some.injEq] at hq
    rw [← hq]
    exact ⟨hi, hp⟩
  · simp only [JitterBuffer.setSlot, hi, if_false] at hq
    exact h i q hq

theorem reads_mem {N : ℕ} {s : JitterBuffer} {run : List RtpPacket} {idx : ℕ} (h : s.Reads N idx run)
    {p : RtpPacket} (hp : p ∈ run) : ∃ i, s.packets i = some p := by
  induction run generalizing idx with
  | nil => cases hp
  | cons q run ih =>
    rcases List.mem_cons.mp hp with rfl | hp
    · exact ⟨idx, h.1⟩
    · exact ih h.2 hp

theorem sameClock_store (N : ℕ) (s : JitterBuffer) (p : RtpPacket) : SameClock s (s.store N p) := by
  unfold store
  dsimp only
  split
  · split
    · exact ⟨rfl, rfl⟩
    · split
      · by_cases hc : s.collided s.writeIdx (p.seq % N) = true
        · rw [newHead_collided hc]
          obtain ⟨h1, h2⟩ := sameClock_resync N { s with writeIdx := p.seq % N, writeSeq := some p.seq }
          exact ⟨h1, h2⟩
        · rw [newHead_free hc]
          exact ⟨rfl, rfl⟩
      · exact ⟨rfl, rfl⟩
  · exact ⟨rfl, rfl⟩

theorem Placed.store {N : ℕ} {P : RtpPacket → Prop} {s : JitterBuffer} {p : RtpPacket}
    (h : Placed N P s) (hp : P p) : Placed N P (s.store N p) := by
  intro i q hq
  rcases store_slots hq with ⟨rfl, rfl⟩ | ⟨_, hs⟩
  · exact ⟨rfl, hp⟩
  · exact h i q hs

theorem Placed.add {N : ℕ} {P : RtpPacket → Prop} {s s' : JitterBuffer} {p : RtpPacket}
    (h : Placed N P s) (hp : P p) (ha : s.add N p = .ok s') : Placed N P s' := by
  obtain ⟨m, q, ⟨rfl, _⟩ | ⟨_, _, rfl⟩⟩ := add_cases ha
  · exact h
  · have h' : Placed N P { s with metrics := m, maxSeqSeen := q } := h
    exact h'.store hp

theorem clears_deliver {N : ℕ} {s s' : JitterBuffer} {p : RtpPacket} {data : List UInt8} {idx now : ℕ}
    {d : Option Delivery} (h : s.deliver N p data idx now = .ok (d, s')) : Clears s s' := by
  obtain ⟨t, x, b, slept, hc, rfl, _⟩ := deliver_ok h
  intro i q hq
  have hq' : (findNext N N t).packets i = some q := hq
  rw [findNext_packets] at hq'
  exact clears_clearTo hc i q hq'

theorem clears_pop {N : ℕ} {clk : ℕ → ℕ} {s s' : JitterBuffer} {d : Option Delivery}
    (h : s.pop N clk = .ok (d, s')) : Clears s s' := by
  obtain ⟨_, t, hres, ⟨_, rfl⟩ | ⟨run, last, now, _, _, _, _, hd⟩⟩ := pop_cases h
  · exact hres.clears
  · exact hres.clears.trans (clears_deliver hd)

/-- Only a playout moves the clock. -/
theorem clock_step {N : ℕ} {s s' : JitterBuffer} {op : Op} (h : (machine N).step s op = some (s', none)) :
    SameClock s s' := by
  cases op with
  | add p =>
    obtain ⟨m, q, ⟨rfl, _⟩ | ⟨_, _, rfl⟩⟩ := add_cases (step_add.mp h).1
    · exact ⟨rfl, rfl⟩
    · obtain ⟨h1, h2⟩ := sameClock_store N { s with metrics := m, maxSeqSeen := q } p
      exact ⟨h1, h2⟩
  | pop clk =>
    obtain ⟨_, t, hres, ⟨_, rfl⟩ | ⟨run, last, now, _, _, _, _, hd⟩⟩ := pop_cases (step_pop.mp h)
    · exact hres.sameClock
    · obtain ⟨_, _, _, _, _, _, hsome, _⟩ := deliver_ok hd
      cases hsome

theorem placed_step {N : ℕ} {P : RtpPacket → Prop} {s s' : JitterBuffer} {op : Op} {o : Option Delivery}
    (h : Placed N P s) (hop : ∀ p, op = .add p → P p) (hs : (machine N).step s op = some (s', o)) :
    Placed N P s' := by
  cases op with
  | add p => exact h.add (hop p rfl) (step_add.mp hs).1
  | pop clk => exact h.clears (clears_pop (step_pop.mp hs))

end JitterBuffer

/-! ## The anchor of the playout -/

/-- The timestamp of the frame delivered last, 0 before any. -/
def lastDelivered (outputs : List (Option Delivery)) : ℕ :=
  ((deliveries outputs).getLast?.map Delivery.timestamp).getD 0

theorem deliveries_snoc (outputs : List (Option Delivery)) (o : Option Delivery) :
    deliveries (outputs ++ [o]) = deliveries outputs ++ o.toList := by
  cases o <;> simp [deliveries]

theorem lastDelivered_none (outputs : List (Option Delivery)) :
    lastDelivered (outputs ++ [none]) = lastDelivered outputs := by
  simp [lastDelivered, deliveries_snoc]

theorem lastDelivered_some (outputs : List (Option Delivery)) (d : Delivery) :
    lastDelivered (outputs ++ [some d]) = d.timestamp := by
  simp [lastDelivered, deliveries_snoc]

theorem completed_step {N : ℕ} {outputs : List (Option Delivery)} {s s' : JitterBuffer} {op : Op}
    {o : Option Delivery} (h : s.lastFrameCompletedTimestamp = lastDelivered outputs)
    (hs : (machine N).step s op = some (s', o)) :
    s'.lastFrameCompletedTimestamp = lastDelivered (outputs ++ [o]) := by
  cases op with
  | add p =>
    obtain ⟨ha, rfl⟩ := step_add.mp hs
    rw [lastDelivered_none, ← h]
    obtain ⟨m, q, ⟨rfl, _⟩ | ⟨_, _, rfl⟩⟩ := JitterBuffer.add_cases ha
    · rfl
    · exact (JitterBuffer.sameClock_store N { s with metrics := m, maxSeqSeen := q } p).completed
  | pop clk =>
    obtain ⟨_, t, hres, ⟨rfl, rfl⟩ | ⟨run, last, now, _, _, _, _, hd⟩⟩ :=
      JitterBuffer.pop_cases (step_pop.mp hs)
    · rw [lastDelivered_none, ← h]
      exact hres.sameClock.completed
    · obtain ⟨_, _, _, slept, _, rfl, rfl, _⟩ := JitterBuffer.deliver_ok hd
      rw [lastDelivered_some]

/-! ## A run of slots is a frame -/

theorem eq_range'_of_pairwise (is : List ℕ) (a : ℕ) (hp : is.Pairwise (· < ·)) (hlo : ∀ i ∈ is, a ≤ i)
    (hhi : ∀ i ∈ is, i < a + is.length) : is = List.range' a is.length := by
  induction is generalizing a with
  | nil => rfl
  | cons i is ih =>
    obtain ⟨hi, hp⟩ := List.pairwise_cons.mp hp
    have ha : a ≤ i := hlo i (List.mem_cons_self ..)
    have hrec := ih (i + 1) hp (fun k hk => hi k hk) (fun k hk => by
      have := hhi k (List.mem_cons_of_mem i hk)
      rw [List.length_cons] at this
      omega)
    -- The last of `length` ascending numbers from `i` on stays below `a + length`.
    have hia : i = a := by
      by_cases hz : is.length = 0
      · have := hhi i (List.mem_cons_self ..)
        rw [List.length_cons] at this
        omega
      · have hmem : i + is.length ∈ is := by
          rw [hrec, List.mem_range'_1, ← hrec]
          omega
        have := hhi _ (List.mem_cons_of_mem i hmem)
        rw [List.length_cons] at this
        omega
    subst hia
    rw [List.length_cons, List.range'_succ, ← hrec]

section OneSender
variable {config : MediaConfig} {frames : List EncodedFrame}

/-- The packets of a sender, as a predicate for `Placed`. -/
def Sent (config : MediaConfig) (frames : List EncodedFrame) (p : RtpPacket) : Prop :=
  p ∈ packetStream config frames 0

theorem sent_iff {p : RtpPacket} : Sent config frames p ↔ ∃ j f i, frames[j]? = some f ∧
    i < f.chunks.length ∧ p = chunkPacket config f (startOf frames j) i := by
  unfold Sent
  rw [mem_packetStream]
  simp only [isChunk_iff]
  exact ⟨fun ⟨j, i, f, hf, hi, he⟩ => ⟨j, f, i, hf, hi, he⟩,
    fun ⟨j, f, i, hf, hi, he⟩ => ⟨j, i, f, hf, hi, he⟩⟩

/-- Packets of frame `j` in neighbouring slots are chunks in ascending order. -/
theorem reads_ascending {N : ℕ} (hN : 256 ≤ N) {s : JitterBuffer} (hs : s.Placed N (Sent config frames))
    {j : ℕ} {f : EncodedFrame} (hlen : f.chunks.length ≤ 255) :
    ∀ {run : List RtpPacket} {idx : ℕ}, s.Reads N idx run →
      (∀ p ∈ run, ∃ i < f.chunks.length, p = chunkPacket config f (startOf frames j) i) →
      ∃ is : List ℕ, run = is.map (chunkPacket config f (startOf frames j)) ∧ is.Pairwise (· < ·) ∧
        ∀ i ∈ is, i < f.chunks.length := by
  intro run
  induction run with
  | nil =>
    intro idx _ _
    exact ⟨[], rfl, List.Pairwise.nil, by simp⟩
  | cons p run ih =>
    intro idx hr hall
    obtain ⟨i, hi, hp⟩ := hall p (List.mem_cons_self ..)
    obtain ⟨is, hrun, hpair, hlt⟩ := ih hr.2 fun q hq => hall q (List.mem_cons_of_mem p hq)
    refine ⟨i :: is, by rw [List.map_cons, hp, hrun], ?_, ?_⟩
    · refine List.pairwise_cons.mpr ⟨?_, hpair⟩
      cases is with
      | nil => simp
      | cons k is =>
        -- The next slot holds the next sequence number, so its chunk comes later.
        have hik : i < k := by
          have h1 := (hs _ _ hr.1).1
          rw [hrun] at hr
          have h2 := (hs _ _ hr.2.1).1
          rw [hp, chunkPacket_seq] at h1
          rw [chunkPacket_seq, h1, Ring.succ_mod] at h2
          have hk := hlt k (List.mem_cons_self ..)
          have heq := Ring.eq_of_mod_eq h2 (by unfold satSeq; omega) (by unfold satSeq; omega)
          unfold satSeq at heq
          omega
        intro x hx
        rcases List.mem_cons.mp hx with rfl | hx
        · exact hik
        · exact hik.trans ((List.pairwise_cons.mp hpair).1 x hx)
    · intro x hx
      rcases List.mem_cons.mp hx with rfl | hx
      · exact hi
      · exact hlt x hx

theorem frameRun_is_frame {N : ℕ} (hN : 256 ≤ N) (hinc : Increasing frames)
    (hlen : ∀ f ∈ frames, f.chunks.length ≤ 255) {s : JitterBuffer}
    (hs : s.Placed N (Sent config frames)) {idx ts : ℕ} {run : List RtpPacket} {last : RtpPacket}
    (hr : s.Reads N idx run) (hf : JitterBuffer.IsFrameRun ts run last) :
    ∃ j f, frames[j]? = some f ∧ f.frameTime.toNat = ts ∧
      run = framePackets config f (startOf frames j) := by
  have hsent : ∀ p ∈ run, Sent config frames p := by
    intro p hp
    obtain ⟨i, hi⟩ := JitterBuffer.reads_mem hr hp
    exact (hs i p hi).2
  have hlast : last ∈ run := List.mem_of_getLast? hf.last_eq
  obtain ⟨j, f, k, hj, hk, hlp⟩ := sent_iff.mp (hsent last hlast)
  have hft : f.frameTime.toNat = ts := by
    rw [← hf.ts_eq last hlast, hlp, chunkPacket_ts]
  have hfl : f.chunks.length ≤ 255 := hlen f (List.mem_of_getElem? hj)
  have hall : ∀ p ∈ run, ∃ i < f.chunks.length, p = chunkPacket config f (startOf frames j) i := by
    intro p hp
    obtain ⟨j', f', i, hj', hi, rfl⟩ := sent_iff.mp (hsent p hp)
    have ht : f'.frameTime.toNat = f.frameTime.toNat := by
      rw [hft, ← hf.ts_eq _ hp, chunkPacket_ts]
    have hjj := hinc.index_eq hj' hj ht
    subst hjj
    rw [hj, Option.some.injEq] at hj'
    subst hj'
    exact ⟨i, hi, rfl⟩
  obtain ⟨is, hrun, hpair, hlt⟩ := reads_ascending hN hs hfl hr hall
  have hcount : is.length = f.chunks.length := by
    have h := hf.count
    rw [hlp, chunkPacket_total _ _ _ _ hfl, hrun, List.length_map] at h
    exact h
  have his := eq_range'_of_pairwise is 0 hpair (by simp) (by rw [Nat.zero_add, hcount]; exact hlt)
  refine ⟨j, f, hj, hft, ?_⟩
  rw [hrun, his, hcount, framePackets, List.range_eq_range']

theorem pop_delivers_frame {N : ℕ} (hN : 256 ≤ N) (hinc : Increasing frames)
    (hlen : ∀ f ∈ frames, f.chunks.length ≤ 255) {s s' : JitterBuffer} {clk : ℕ → ℕ} {d : Delivery}
    (hs : s.Placed N (Sent config frames)) (h : s.pop N clk = .ok (some d, s')) :
    ∃ f ∈ frames, d.timestamp = f.frameTime.toNat ∧ d.data = f.chunks.flatten := by
  obtain ⟨_, t, hres, ⟨hnone, _⟩ | ⟨run, last, now, hr, hf, _, _, hd⟩⟩ := JitterBuffer.pop_cases h
  · cases hnone
  · obtain ⟨j, f, hj, ht, rfl⟩ := frameRun_is_frame hN hinc hlen (hs.clears hres.clears) hr hf
    obtain ⟨_, _, _, slept, _, _, hsome, _⟩ := JitterBuffer.deliver_ok hd
    cases hsome
    exact ⟨f, List.mem_of_getElem? hj, ht.symm, framePackets_payload config f _⟩

end OneSender

/-- Loss, repetition, reordering and any clock: what leaves the buffer is the complete
bitstream of a frame that was sent. -/
theorem delivered_is_sent (N : ℕ) (hN : 256 ≤ N) (config : MediaConfig) (sources : List Encoded)
    (hchunk : ∀ e ∈ sources, 1 ≤ e.maxChunkSize)
    (hcount : ∀ e ∈ sources, 1 ≤ e.frame.chunks.length ∧ e.frame.chunks.length ≤ 255)
    (hinc : Increasing (sources.map Encoded.frame)) (ops : List Op)
    (hops : ∀ p, Op.add p ∈ ops → p ∈ packetStream config (sources.map Encoded.frame) 0)
    (s : JitterBuffer) (outputs : List (Option Delivery))
    (hrun : (machine N).run JitterBuffer.new ops = some (s, outputs)) :
    ∀ d ∈ deliveries outputs, ∃ e ∈ sources, d.data = e.bitstream := by
  have hlen : ∀ f ∈ sources.map Encoded.frame, f.chunks.length ≤ 255 := by
    intro f hf
    obtain ⟨e, he, rfl⟩ := List.mem_map.mp hf
    exact (hcount e he).2
  have hg : (machine N).Guarded (fun _ op => ∀ p, op = .add p → Sent config (sources.map Encoded.frame) p)
      JitterBuffer.new ops :=
    (machine N).guarded_of_forall fun op hop _ p hp => hops p (hp ▸ hop)
  have hinv := (machine N).run_induction
    (fun _ os s => s.Placed N (Sent config (sources.map Encoded.frame)) ∧
      ∀ d ∈ deliveries os, ∃ e ∈ sources, d.data = e.bitstream)
    (fun is os s op s' o hP hop hstep => by
      obtain ⟨hplaced, hout⟩ := hP
      refine ⟨JitterBuffer.placed_step hplaced hop hstep, ?_⟩
      intro d hd
      simp only [deliveries, List.filterMap_append, List.mem_append] at hd
      cases hd with
      | inl hd => exact hout d hd
      | inr hd =>
        cases op with
        | add p =>
          rw [(step_add.mp hstep).2] at hd
          simp at hd
        | pop clk =>
          have ho : o = some d := by simpa [eq_comm] using hd
          obtain ⟨f, hf, _, hdata⟩ := pop_delivers_frame hN hinc hlen hplaced (ho ▸ step_pop.mp hstep)
          obtain ⟨e, he, rfl⟩ := List.mem_map.mp hf
          exact ⟨e, he, by rw [hdata, Encoded.frame, generateChunks_flatten _ _ (hchunk e he)]⟩)
    ⟨JitterBuffer.placed_new N _, by simp [deliveries]⟩ hg hrun
  exact hinv.2

/-- A frame of three bytes in two chunks, its second packet first and the clock at 40. -/
theorem two_chunks_reordered :
    let source : Encoded := ⟨[1, 2, 3], 5, true, 2⟩
    let packet := chunkPacket ⟨2, 96, 7⟩ source.frame 0
    let ops : List Op := [.add (packet 1), .pop fun _ => 40, .add (packet 0), .pop fun _ => 40]
    ∃ s outputs, (machine 256).run JitterBuffer.new ops = some (s, outputs) ∧
      (deliveries outputs).map Delivery.data = [[1, 2, 3]] ∧
      ∀ d ∈ deliveries outputs, ∃ e ∈ [source], d.data = e.bitstream := by
  intro source packet ops
  have hrun : ((machine 256).run JitterBuffer.new ops).map
      (fun r => (deliveries r.2).map Delivery.data) = some [[1, 2, 3]] := by decide +kernel
  obtain ⟨⟨s, outputs⟩, hr, hd⟩ := Option.map_eq_some_iff.mp hrun
  refine ⟨s, outputs, hr, hd, delivered_is_sent 256 (by decide) ⟨2, 96, 7⟩ [source] (by decide)
    (by decide) (List.pairwise_singleton _ _) ops ?_ s outputs hr⟩
  intro p hp
  simp only [ops, List.mem_cons, Op.add.injEq, reduceCtorEq, List.not_mem_nil, or_false, false_or] at hp
  rcases hp with rfl | rfl <;> decide

end RoomRtc.Jitter
