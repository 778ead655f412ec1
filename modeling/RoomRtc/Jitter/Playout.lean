import RoomRtc.Jitter.Window

/-! Playout in order. As long as the window holds and no packet of the frame delivered last
comes back, everything stored is later than everything delivered, and so the delivered
timestamps ascend. -/
namespace RoomRtc.Jitter
open Transport Media
set_option autoImplicit false

namespace JitterBuffer

/-! ## Windows without stale packets -/

/-- An empty buffer, or a window. -/
def Tight (N : ℕ) (s : JitterBuffer) : Prop :=
  (s.readSeq = none ∧ s.writeSeq = none ∧ ∀ i, s.packets i = none) ∨
    ∃ r w, s.readSeq = some r ∧ s.writeSeq = some w ∧ Spans N s r w

theorem Tight.ringInv {N : ℕ} {s : JitterBuffer} (h : Tight N s) : s.RingInv N := by
  intro r' w' hr' hw'
  rcases h with ⟨hr, _⟩ | ⟨r, w, hr, hw, hspans⟩
  · cases hr.symm.trans hr'
  · cases hr.symm.trans hr'
    cases hw.symm.trans hw'
    exact hspans

theorem Tight.congr {N : ℕ} {s t : JitterBuffer} (h : Tight N s) (hp : t.packets = s.packets)
    (hri : t.readIdx = s.readIdx) (hwi : t.writeIdx = s.writeIdx) (hr : t.readSeq = s.readSeq)
    (hw : t.writeSeq = s.writeSeq) : Tight N t := by
  rcases h with ⟨hread, hwrite, he⟩ | ⟨r, w, h1, h2, h⟩
  · exact Or.inl ⟨hr.trans hread, hw.trans hwrite, by rw [hp]; exact he⟩
  · exact Or.inr ⟨r, w, hr.trans h1, hw.trans h2, h.congr hp hri hwi⟩

theorem Tight.resync {N : ℕ} {s : JitterBuffer} (hp : s.Placed N fun _ => True) (h : Tight N s) :
    Tight N (s.resyncOrClear N) := by
  rcases h with ⟨_, _, he⟩ | ⟨r, w, _, hw, h⟩
  · refine Or.inl ?_
    unfold resyncOrClear
    rw [he]
    exact ⟨rfl, rfl, he⟩
  · obtain ⟨p, hhead, _⟩ := h.head
    have hlt := h.lt
    rw [resyncOrClear_of_some hhead]
    rcases resyncLoop_cases p.ts N (h.rest hp) h.le le_rfl h.writeIdx hlt with
      ⟨y, q, u, _, _, _, _, hu, huhead, hwi, hws, heq⟩ | ⟨u, heq, hnone, _⟩
    · rw [heq]
      exact Or.inr ⟨y, w, rfl, hws.trans hw, hu.spans huhead (hwi.trans h.writeIdx) rfl rfl⟩
    · rw [heq]
      refine Or.inl ⟨rfl, rfl, fun i => ?_⟩
      rw [Option.eq_none_iff_forall_ne_some]
      intro q hq
      have := hnone i q hq
      omega

theorem Rest.findNext_tight {N c w : ℕ} {s : JitterBuffer} (h : Rest N s c w) (hwi : s.writeIdx = w % N)
    (hws : s.writeSeq = some w) (turns : ℕ) (ht : w < c + turns) :
    Tight N (JitterBuffer.findNext N turns s) := by
  induction turns generalizing s c with
  | zero =>
    refine Or.inl ⟨rfl, rfl, fun i => ?_⟩
    rw [Option.eq_none_iff_forall_ne_some]
    intro p hp
    have := h.between i p hp
    omega
  | succ turns ih =>
    unfold JitterBuffer.findNext
    split
    · next p hp =>
      have hc : p.seq = c := h.seq_eq (h.readIdx ▸ hp)
      exact Or.inr ⟨c, w, by rw [hc], hws, h.spans hp hwi rfl rfl⟩
    · next he => exact ih (h.skip he) hwi hws (by omega)

/-! ## Delivering from a window -/

theorem reads_last {N r w : ℕ} {s : JitterBuffer} (h : Rest N s r w) {run : List RtpPacket}
    {last : RtpPacket} (hlast : run.getLast? = some last) :
    ∀ {c : ℕ}, r ≤ c → c + run.length ≤ r + N → s.Reads N (c % N) run →
    last.seq + 1 = c + run.length := by
  induction run with
  | nil => simp at hlast
  | cons p run ih =>
    intro c hrc hlen hr
    have hb := h.between _ p hr.1
    have hlt := h.lt
    rw [List.length_cons] at hlen
    have hc : p.seq = c := (Ring.eq_of_mod_eq (h.placed _ p hr.1).1 (by omega) (by omega)).symm
    cases run with
    | nil =>
      simp only [List.getLast?_singleton, Option.some.injEq] at hlast
      rw [← hlast, hc]
      rfl
    | cons q run =>
      rw [List.getLast?_cons_cons] at hlast
      have hnext : s.Reads N ((c + 1) % N) (q :: run) := by
        rw [← Ring.succ_mod]
        exact hr.2
      have := ih hlast (by omega) (by omega) hnext
      rw [List.length_cons]
      omega

/-- After a frame of fewer than `N` packets has left, the buffer holds only later numbers. -/
theorem deliver_window {N r w : ℕ} {s s' : JitterBuffer} {run : List RtpPacket} {last : RtpPacket}
    {data : List UInt8} {now : ℕ} {d : Option Delivery} (hp : s.Placed N fun _ => True) (h : Spans N s r w)
    (hw : s.writeSeq = some w) (hr : s.Reads N s.readIdx run) (hlast : run.getLast? = some last)
    (hlen : run.length < N)
    (hd : s.deliver N last data ((s.readIdx + run.length) % N) now = .ok (d, s')) :
    Tight N s' ∧ ∀ i z, s'.packets i = some z → last.seq < z.seq := by
  obtain ⟨t, x, b, slept, hc, rfl, _⟩ := deliver_ok hd
  obtain ⟨n, hn, rfl, hidx⟩ := clearTo_ok hc
  have hrest := h.rest hp
  have hiter := hrest.iterate n
  have hlt := h.lt
  -- The walk ends at the first slot behind the run, so it took one turn for each packet.
  have hpos : 0 < run.length := List.length_pos_of_ne_nil (by rintro rfl; simp at hlast)
  have hnl : n = run.length := by
    rw [hiter.readIdx, h.readIdx, Nat.mod_add_mod] at hidx
    have := Ring.eq_of_mod_eq hidx (by omega) (by omega)
    omega
  have hls := reads_last hrest hlast le_rfl (by omega) (h.readIdx ▸ hr)
  obtain ⟨hwi, hws⟩ := iterate_dropRead_fields N n s
  refine ⟨(hiter.findNext_tight (hwi.trans h.writeIdx) (hws.trans hw) N (by omega)).congr rfl rfl rfl rfl rfl, ?_⟩
  intro i z hz
  have hz' : (JitterBuffer.findNext N N ((JitterBuffer.dropRead N)^[n] s)).packets i = some z := hz
  rw [findNext_packets] at hz'
  have := hiter.between i z hz'
  omega

theorem tight_new (N : ℕ) : Tight N new := Or.inl ⟨rfl, rfl, fun _ => rfl⟩

theorem Tight.store {N : ℕ} (hN : 0 < N) {s : JitterBuffer} {p : RtpPacket} (h : Tight N s)
    (hf : ∀ r w, s.readSeq = some r → s.writeSeq = some w → max w p.seq < min r p.seq + N) :
    Tight N (s.store N p) := by
  rcases h with ⟨_, hw, he⟩ | ⟨r, w, hr, hw, h⟩
  · have hring := (store_idle_iff (p := p) hN hw).mpr fun i q hq => by
      rw [he] at hq
      cases hq
    have hstore := store_of_idle (N := N) p (Or.inr hw)
    have hs := hring.1 p.seq p.seq (by rw [hstore]; rfl) (by rw [hstore]; rfl)
    exact Or.inr ⟨p.seq, p.seq, by rw [hstore]; rfl, by rw [hstore]; rfl, hs⟩
  · exact Or.inr ⟨_, _, store_fits hN h hr hw (hf r w hr hw)⟩

/-- A frame that fills the ring leaves everything where it is. -/
theorem Tight.deliver_full {N : ℕ} {s s' : JitterBuffer} {p head : RtpPacket} {data : List UInt8} {now : ℕ}
    {d : Option Delivery} (hp : s.Placed N fun _ => True) (h : Tight N s) (hhead : s.packets s.readIdx = some head)
    (hd : s.deliver N p data ((s.readIdx + N) % N) now = .ok (d, s')) : Tight N s' := by
  obtain ⟨t, x, b, slept, hc, rfl, _⟩ := deliver_ok hd
  rcases h with ⟨_, _, he⟩ | ⟨r, w, hr, hw, h⟩
  · rw [he] at hhead
    cases hhead
  · have hN : 0 < N := by
      have := h.le
      have := h.lt
      omega
    obtain ⟨turns, rfl⟩ : ∃ n, N = n + 1 := ⟨N - 1, by omega⟩
    have hidx : (s.readIdx + (turns + 1)) % (turns + 1) = s.readIdx := by
      rw [Nat.add_mod_right, h.readIdx, Nat.mod_mod]
    simp only [clearTo, hidx, if_true] at hc
    cases hc
    have hfind : findNext (turns + 1) (turns + 1) s = { s with readSeq := some head.seq } := by
      unfold findNext
      rw [hhead]
    have hseq : head.seq = r := (h.rest hp).seq_eq (h.readIdx ▸ hhead)
    rw [hfind]
    exact Or.inr ⟨r, w, by rw [← hseq], hw, h.congr rfl rfl rfl⟩

theorem Tight.resyncs {N : ℕ} {s t : JitterBuffer} (hp : s.Placed N fun _ => True) (h : Tight N s)
    (hres : Resyncs N s t) : t.Placed N (fun _ => True) ∧ Tight N t :=
  hres.preserves (P := fun u => u.Placed N (fun _ => True) ∧ Tight N u)
    (fun u hu => ⟨hu.1.clears (clears_resync N u), hu.2.resync hu.1⟩) ⟨hp, h⟩

theorem Tight.pop {N : ℕ} {clk : ℕ → ℕ} {s s' : JitterBuffer} {d : Option Delivery}
    (hp : s.Placed N fun _ => True)
    (h : Tight N s) (hpop : s.pop N clk = .ok (d, s')) : Tight N s' := by
  obtain ⟨_, t, hres, hcase⟩ := pop_cases hpop
  obtain ⟨htp, ht⟩ := h.resyncs hp hres
  rcases hcase with ⟨_, rfl⟩ | ⟨run, last, now, hr, hf, hlen, _, hd⟩
  · exact ht
  · obtain ⟨head, hhead⟩ : ∃ head, t.packets t.readIdx = some head := by
      cases run with
      | nil => cases hf.last_eq
      | cons head run => exact ⟨head, hr.1⟩
    rcases Nat.lt_or_eq_of_le hlen with hlt | heq
    · rcases ht with ⟨_, _, he⟩ | ⟨r, w, _, hw, hspan⟩
      · rw [he] at hhead
        cases hhead
      · exact (deliver_window htp hspan hw hr hf.last_eq hlt hd).1
    · rw [heq] at hd
      exact ht.deliver_full htp hhead hd

end JitterBuffer

/-! ## One sender -/

section OneSender
variable {config : MediaConfig} {frames : List EncodedFrame}

/-- A higher number is of a later frame or a later chunk of the same frame. -/
theorem sent_order {p z : RtpPacket} (hp : Sent config frames p) (hz : Sent config frames z) (hlt : p.seq < z.seq) :
    ∃ j f i j' f' i', frames[j]? = some f ∧ i < f.chunks.length ∧
    p = chunkPacket config f (startOf frames j) i ∧
      frames[j']? = some f' ∧ i' < f'.chunks.length ∧ z = chunkPacket config f' (startOf frames j') i' ∧
      (j < j' ∨ (j = j' ∧ i < i')) := by
  obtain ⟨j, f, i, hj, hi, rfl⟩ := sent_iff.mp hp
  obtain ⟨j', f', i', hj', hi', rfl⟩ := sent_iff.mp hz
  refine ⟨j, f, i, j', f', i', hj, hi, rfl, hj', hi', rfl, ?_⟩
  have hs : startOf frames j + i < startOf frames j' + i' := by
    rw [chunkPacket_seq, chunkPacket_seq] at hlt
    unfold satSeq at hlt
    omega
  rcases Nat.lt_trichotomy j j' with hjj | rfl | hjj
  · exact Or.inl hjj
  · exact Or.inr ⟨rfl, by omega⟩
  · have := startOf_le hj' hjj
    omega

/-- Behind the last packet of a frame come later frames. -/
theorem sent_later (hinc : Increasing frames) {p z : RtpPacket} (hp : Sent config frames p)
    (hz : Sent config frames z) (hm : p.marker = 1) (hlt : p.seq < z.seq) : p.ts < z.ts := by
  obtain ⟨j, f, i, j', f', i', hj, hi, rfl, hj', hi', rfl, hjj | ⟨rfl, hii⟩⟩ := sent_order hp hz hlt
  · rw [chunkPacket_ts, chunkPacket_ts]
    exact hinc.time_lt hj hj' hjj
  · -- No chunk comes behind the last one.
    rw [chunkPacket_marker] at hm
    rw [hj, Option.some.injEq] at hj'
    subst hj'
    omega

/-- What keeps playout in order: an accepted packet is not of the frame delivered last, has
room in the window, and is not of a frame that fills the whole ring. -/
def Admissible (N : ℕ) (outputs : List (Option Delivery)) (s : JitterBuffer) : Op → Prop
  | .pop _ => True
  | .add p => JitterBuffer.Accepted N s p →
    (∀ d, (deliveries outputs).getLast? = some d → p.ts ≠ d.timestamp) ∧
    (∀ r w, s.readSeq = some r → s.writeSeq = some w → max w p.seq < min r p.seq + N) ∧
    p.totalChunks.toNat ≠ N

/-- Everything stored is later than everything delivered. -/
structure InOrder (N : ℕ) (config : MediaConfig) (frames : List EncodedFrame)
    (outputs : List (Option Delivery)) (s : JitterBuffer) : Prop where
  placed : s.Placed N fun p => Sent config frames p ∧ p.totalChunks.toNat ≠ N
  tight : JitterBuffer.Tight N s
  completed : s.lastFrameCompletedTimestamp = lastDelivered outputs
  later : ∀ d i z, d ∈ deliveries outputs → s.packets i = some z → d.timestamp < z.ts
  ascending : (deliveries outputs).Pairwise fun d e => d.timestamp < e.timestamp

theorem inOrder_new (N : ℕ) (config : MediaConfig) (frames : List EncodedFrame) :
    InOrder N config frames [] JitterBuffer.new where
  placed := JitterBuffer.placed_new N _
  tight := JitterBuffer.tight_new N
  completed := rfl
  later := by simp [deliveries]
  ascending := by simp [deliveries]

theorem le_getLast {ds : List Delivery} (h : ds.Pairwise fun d e => d.timestamp < e.timestamp)
    {d e : Delivery} (hd : d ∈ ds) (he : ds.getLast? = some e) : d.timestamp ≤ e.timestamp := by
  obtain ⟨l, rfl⟩ := List.getLast?_eq_some_iff.mp he
  cases List.mem_append.mp hd with
  | inl hd => exact le_of_lt ((List.pairwise_append.mp h).2.2 d hd e (List.mem_singleton_self e))
  | inr hd => rw [List.mem_singleton.mp hd]

theorem InOrder.add {N : ℕ} {outputs : List (Option Delivery)} {s s' : JitterBuffer} {p : RtpPacket}
    (h : InOrder N config frames outputs s) (hsent : Sent config frames p)
    (hadm : Admissible N outputs s (.add p)) (ha : s.add N p = .ok s') :
    InOrder N config frames (outputs ++ [none]) s' := by
  have hcompleted := completed_step h.completed (step_add.mpr ⟨ha, rfl⟩)
  have hds : deliveries (outputs ++ [none]) = deliveries outputs := by simp [deliveries_snoc]
  obtain ⟨m, q, ⟨rfl, _⟩ | ⟨hN, hacc, rfl⟩⟩ := JitterBuffer.add_cases ha
  · exact ⟨h.placed, h.tight.congr rfl rfl rfl rfl rfl, hcompleted, by rw [hds]; exact h.later,
      by rw [hds]; exact h.ascending⟩
  · obtain ⟨hts, hfit, htot⟩ := hadm hacc
    refine ⟨?_, ?_, hcompleted, ?_, by rw [hds]; exact h.ascending⟩
    · exact JitterBuffer.Placed.store (s := { s with metrics := m, maxSeqSeen := q }) h.placed ⟨hsent, htot⟩
    · exact (h.tight.congr (t := { s with metrics := m, maxSeqSeen := q }) rfl rfl rfl rfl rfl).store hN hfit
    · rw [hds]
      intro d i z hd hz
      rcases JitterBuffer.store_slots hz with ⟨_, rfl⟩ | ⟨_, hz⟩
      · -- The tests let no older timestamp through, and the last one is excluded.
        obtain ⟨e, he⟩ : ∃ e, (deliveries outputs).getLast? = some e :=
          ⟨_, List.getLast?_eq_some_getLast (List.ne_nil_of_mem hd)⟩
        have h1 := le_getLast h.ascending hd he
        have h2 := hacc.recent
        have h3 := hts e he
        rw [h.completed, lastDelivered, he] at h2
        change e.timestamp ≤ z.ts at h2
        omega
      · exact h.later d i z hd hz

theorem InOrder.pop {N : ℕ} (hinc : Increasing frames) {outputs : List (Option Delivery)}
    {s s' : JitterBuffer} {clk : ℕ → ℕ} {o : Option Delivery} (h : InOrder N config frames outputs s)
    (hpop : s.pop N clk = .ok (o, s')) : InOrder N config frames (outputs ++ [o]) s' := by
  have hcompleted := completed_step h.completed (step_pop.mpr hpop)
  obtain ⟨hN, t, hres, hcase⟩ := JitterBuffer.pop_cases hpop
  have ht := h.tight.resyncs (fun i p hp => ⟨(h.placed i p hp).1, trivial⟩) hres
  have hlater : ∀ d i z, d ∈ deliveries outputs → t.packets i = some z → d.timestamp < z.ts :=
    fun d i z hd hz => h.later d i z hd (hres.clears i z hz)
  rcases hcase with ⟨rfl, rfl⟩ | ⟨run, last, now, hr, hf, hlen, _, hd⟩
  · have hds : deliveries (outputs ++ [none]) = deliveries outputs := by simp [deliveries_snoc]
    exact ⟨h.placed.clears hres.clears, ht.2, hcompleted, by rw [hds]; exact hlater,
      by rw [hds]; exact h.ascending⟩
  · have hplaced := h.placed.clears hres.clears
    obtain ⟨i, hlast⟩ := JitterBuffer.reads_mem hr (List.mem_of_getLast? hf.last_eq)
    have hlastP := (hplaced i last hlast).2
    rcases ht.2 with ⟨_, _, he⟩ | ⟨r, w, _, hw, hspan⟩
    · rw [he] at hlast
      cases hlast
    · have hne : run.length < N := by
        have := hlastP.2
        have := hf.count
        omega
      obtain ⟨htight, hrest⟩ := JitterBuffer.deliver_window ht.1 hspan hw hr hf.last_eq hne hd
      have hclears := JitterBuffer.clears_deliver hd
      obtain ⟨_, _, _, slept, _, _, rfl, _⟩ := JitterBuffer.deliver_ok hd
      have hds : deliveries (outputs ++ [some ⟨last.ts, run.flatMap RtpPacket.payload, slept⟩]) =
          deliveries outputs ++ [⟨last.ts, run.flatMap RtpPacket.payload, slept⟩] := deliveries_snoc _ _
      have hnew : ∀ j z, s'.packets j = some z → last.ts < z.ts := fun j z hz =>
        sent_later hinc hlastP.1 (hplaced j z (hclears j z hz)).2.1 hf.marker (hrest j z hz)
      refine ⟨hplaced.clears hclears, htight, hcompleted, ?_, ?_⟩
      · rw [hds]
        intro d j z hd hz
        cases List.mem_append.mp hd with
        | inl hd => exact hlater d j z hd (hclears j z hz)
        | inr hd =>
          rw [List.mem_singleton.mp hd]
          exact hnew j z hz
      · rw [hds, List.pairwise_append]
        refine ⟨h.ascending, List.pairwise_singleton _ _, ?_⟩
        intro d hd e he
        rw [List.mem_singleton.mp he]
        exact hlater d i last hd hlast

end OneSender

/-- **Playout never goes back and never repeats** in a run whose every step is `Admissible`. -/
theorem playout_ascending (N : ℕ) (config : MediaConfig) (frames : List EncodedFrame)
    (hinc : Increasing frames) (ops : List Op)
    (hops : ∀ p, Op.add p ∈ ops → p ∈ packetStream config frames 0)
    (hadm : (machine N).GuardedBy (Admissible N) [] JitterBuffer.new ops)
    (s : JitterBuffer) (outputs : List (Option Delivery))
    (hrun : (machine N).run JitterBuffer.new ops = some (s, outputs)) :
    ((deliveries outputs).map Delivery.timestamp).Pairwise (· < ·) := by
  have hg := (machine N).guardedBy_and (H := fun op => ∀ p, op = .add p → Sent config frames p) hadm
    fun op hop p hp => hops p (hp ▸ hop)
  have hinv := (machine N).run_induction_by (fun _ outputs s => InOrder N config frames outputs s)
    (fun _ outputs s op s' o h hG hstep => by
      cases op with
      | add p =>
        obtain ⟨ha, rfl⟩ := step_add.mp hstep
        exact h.add (hG.2 p rfl) hG.1 ha
      | pop clk => exact h.pop hinc (step_pop.mp hstep))
    (inOrder_new N config frames) hg hrun
  exact List.pairwise_map.mpr hinv.ascending

/-- Two key frames through a buffer of four slots, the second first. -/
theorem two_frames_ascending :
    let frames : List EncodedFrame := [⟨[[1]], 5, true⟩, ⟨[[2]], 45, true⟩]
    let packet := fun j => chunkPacket ⟨2, 96, 7⟩ (frames.getD j ⟨[], 0, true⟩) j 0
    let ops : List Op := [.add (packet 1), .add (packet 0), .pop fun _ => 40, .pop fun _ => 80]
    ∃ s outputs, (machine 4).run JitterBuffer.new ops = some (s, outputs) ∧
      (deliveries outputs).map Delivery.timestamp = [5, 45] ∧
      ((deliveries outputs).map Delivery.timestamp).Pairwise (· < ·) := by
  intro frames packet ops
  have hrun : ((machine 4).run JitterBuffer.new ops).map
      (fun r => (deliveries r.2).map Delivery.timestamp) = some [5, 45] := by decide +kernel
  obtain ⟨⟨s, outputs⟩, hr, hd⟩ := Option.map_eq_some_iff.mp hrun
  refine ⟨s, outputs, hr, hd, playout_ascending 4 ⟨2, 96, 7⟩ frames (by unfold Increasing; decide) ops ?_ ?_ s
    outputs hr⟩
  · intro p hp
    simp only [ops, List.mem_cons, Op.add.injEq, reduceCtorEq, List.not_mem_nil, or_false] at hp
    rcases hp with rfl | rfl <;> decide
  · refine ⟨fun _ => ⟨fun d hd => (by cases hd), fun r w hr => (by cases hr), by decide⟩, fun s o hs => ?_⟩
    cases hs
    refine ⟨fun _ => ⟨fun d hd => (by cases hd), fun r w hr hw => ?_, by decide⟩,
      fun _ _ _ => ⟨trivial, fun _ _ _ => ⟨trivial, fun _ _ _ => trivial⟩⟩⟩
    cases hr
    cases hw
    decide

/-- The datagram of a key frame arrives twice, once before and once after its playout. -/
theorem repeated_datagram_played_twice :
    let frame : EncodedFrame := ⟨[[1]], 5, true⟩
    let p := chunkPacket ⟨2, 96, 7⟩ frame 0 0
    let ops : List Op := [.add p, .pop fun _ => 40, .add p, .pop fun _ => 40]
    p ∈ packetStream ⟨2, 96, 7⟩ [frame] 0 ∧ ∃ s outputs,
      (machine 4).run JitterBuffer.new ops = some (s, outputs) ∧
      ¬ ((deliveries outputs).map Delivery.timestamp).Pairwise (· < ·) := by
  intro frame p ops
  have hrun : ((machine 4).run JitterBuffer.new ops).map
      (fun r => (deliveries r.2).map Delivery.timestamp) = some [5, 5] := by decide +kernel
  obtain ⟨⟨s, outputs⟩, hr, hd⟩ := Option.map_eq_some_iff.mp hrun
  refine ⟨by decide, s, outputs, hr, ?_⟩
  rw [show (deliveries outputs).map Delivery.timestamp = [5, 5] from hd]
  decide

end RoomRtc.Jitter
