import RoomRtc.Jitter.Buffer

/-! What one call can do to the buffer, said once. `add_cases` and `pop_cases` list the
outcomes of the two calls; the loops behind `pop` are described by the run of packets they
read (`Reads`) and by the slots they may clear (`Clears`). -/
namespace RoomRtc.Jitter
open Transport
set_option autoImplicit false

namespace JitterBuffer

/-! ## Adding -/

/-- The statistics are the only thing `update_stats` writes. -/
theorem updateStats_eq (s : JitterBuffer) (p : RtpPacket) :
    ∃ m q, s.updateStats p = { s with metrics := m, maxSeqSeen := q } := by
  unfold updateStats
  dsimp only
  split
  · exact ⟨_, _, rfl⟩
  · split
    · exact ⟨_, _, rfl⟩
    · exact ⟨_, s.maxSeqSeen, rfl⟩

/-- The three tests a packet has to pass. -/
structure Accepted (N : ℕ) (s : JitterBuffer) (p : RtpPacket) : Prop where
  iFrame : s.iFrameNeeded = true → p.isIFrame = true
  recent : s.lastFrameCompletedTimestamp ≤ p.ts
  seqNum : s.validPacketSeqNum N p.seq = true

theorem discard_cases {N : ℕ} {s t : JitterBuffer} {p : RtpPacket} {discard : Bool}
    (h : s.shouldDiscardPacket N p = .ok (discard, t)) :
    ∃ m q, t = { s with metrics := m, maxSeqSeen := q } ∧ (discard = true → 0 < N → ¬ Accepted N s p) ∧
      (discard = false → 0 < N ∧ Accepted N s p) := by
  obtain ⟨m, q, hu⟩ := updateStats_eq s p
  refine ⟨m, q, ?_⟩
  simp only [shouldDiscardPacket, hu] at h
  split at h
  · next hi =>
    cases h
    refine ⟨rfl, fun _ _ ha => ?_, nofun⟩
    simp only [Bool.and_eq_true, Bool.not_eq_true'] at hi
    rw [ha.iFrame hi.1] at hi
    exact absurd hi.2 (by decide)
  · next hi =>
    split at h
    · next ht =>
      cases h
      exact ⟨rfl, fun _ _ ha => absurd ha.recent (by omega), nofun⟩
    · next ht =>
      split at h
      · cases h
      · next hN =>
        have hv : ({ s with metrics := m, maxSeqSeen := q } : JitterBuffer).validPacketSeqNum N p.seq =
            s.validPacketSeqNum N p.seq := rfl
        rw [hv] at h
        cases h
        refine ⟨rfl, fun hb _ ha => ?_, fun hb => ⟨by omega, fun hn => ?_, by omega, by simpa using hb⟩⟩
        · rw [ha.seqNum] at hb
          cases hb
        · by_contra hp
          exact hi (by simp [hn, hp])

theorem add_cases {N : ℕ} {s s' : JitterBuffer} {p : RtpPacket} (h : s.add N p = .ok s') :
    ∃ m q, (s' = { s with metrics := m, maxSeqSeen := q } ∧ (0 < N → ¬ Accepted N s p)) ∨
      (0 < N ∧ Accepted N s p ∧ s' = ({ s with metrics := m, maxSeqSeen := q } : JitterBuffer).store N p) := by
  simp only [add, bind, Except.bind] at h
  cases hd : s.shouldDiscardPacket N p with
  | error e =>
    rw [hd] at h
    cases h
  | ok r =>
    obtain ⟨discard, t⟩ := r
    obtain ⟨m, q, rfl, hno, hyes⟩ := discard_cases hd
    rw [hd] at h
    refine ⟨m, q, ?_⟩
    cases discard with
    | true =>
      cases h
      exact Or.inl ⟨rfl, hno rfl⟩
    | false =>
      cases h
      obtain ⟨hN, hacc⟩ := hyes rfl
      exact Or.inr ⟨hN, hacc, rfl⟩

theorem add_of_accepted {N : ℕ} {s : JitterBuffer} {p : RtpPacket} (hN : 0 < N) (h : Accepted N s p) :
    ∃ m q, s.add N p = .ok (({ s with metrics := m, maxSeqSeen := q } : JitterBuffer).store N p) := by
  obtain ⟨m, q, hu⟩ := updateStats_eq s p
  refine ⟨m, q, ?_⟩
  have hi : (s.iFrameNeeded && !p.isIFrame) = false := by
    cases hn : s.iFrameNeeded with
    | false => rfl
    | true => simp [h.iFrame hn]
  have hv : ({ s with metrics := m, maxSeqSeen := q } : JitterBuffer).validPacketSeqNum N p.seq = true :=
    h.seqNum
  have ht : ¬ p.ts < s.lastFrameCompletedTimestamp := by
    have := h.recent
    omega
  simp only [add, shouldDiscardPacket, hu, hi, hv, if_neg ht, if_neg (Nat.ne_of_gt hN), bind, Except.bind,
    Bool.not_true, Bool.false_eq_true, if_false]
  rfl

theorem add_of_not_accepted {N : ℕ} {s : JitterBuffer} {p : RtpPacket} (hN : 0 < N)
    (h : ¬ Accepted N s p) : ∃ m q, s.add N p = .ok { s with metrics := m, maxSeqSeen := q } := by
  cases ha : s.add N p with
  | error e =>
    exfalso
    obtain ⟨m, q, hu⟩ := updateStats_eq s p
    simp only [add, shouldDiscardPacket, hu, if_neg (Nat.ne_of_gt hN)] at ha
    split at ha
    · cases ha
    · split at ha
      · cases ha
      · simp only [bind, Except.bind] at ha
        split at ha <;> cases ha
  | ok s' =>
    obtain ⟨m, q, ⟨rfl, _⟩ | ⟨_, hacc, _⟩⟩ := add_cases ha
    · exact ⟨m, q, rfl⟩
    · exact absurd hacc h

/-! ## The write head -/

theorem newHead_collided {N seq pos : ℕ} {s : JitterBuffer} (h : s.collided s.writeIdx pos = true) :
    s.handleNewWriteHead N seq pos =
      ({ s with writeIdx := pos, writeSeq := some seq } : JitterBuffer).resyncOrClear N :=
  if_pos h

theorem newHead_free {N seq pos : ℕ} {s : JitterBuffer} (h : ¬ s.collided s.writeIdx pos = true) :
    s.handleNewWriteHead N seq pos = { s with writeIdx := pos, writeSeq := some seq } :=
  if_neg h

/-! ## Reading a frame -/

/-- The slots from `idx` on hold the packets of `run`. -/
def Reads (N : ℕ) (s : JitterBuffer) : ℕ → List RtpPacket → Prop
  | _, [] => True
  | idx, p :: run => s.packets idx = some p ∧ Reads N s ((idx + 1) % N) run

/-- A run that is read in `t` is read in every buffer that has its packets in the same slots. -/
theorem Reads.of_slots {N : ℕ} {s t : JitterBuffer} (run : List RtpPacket) :
    ∀ idx, t.Reads N idx run → (∀ i, ∀ q ∈ run, t.packets i = some q → s.packets i = some q) →
    s.Reads N idx run := by
  induction run with
  | nil => exact fun _ _ _ => trivial
  | cons q run ih =>
    intro idx hr hslots
    exact ⟨hslots idx q (List.mem_cons_self ..) hr.1,
      ih _ hr.2 fun i x hx => hslots i x (List.mem_cons_of_mem q hx)⟩

theorem collectFrame_some {N ts : ℕ} {s : JitterBuffer} {turns idx n idx' : ℕ} {data out : List UInt8}
    {last : RtpPacket} (h : s.collectFrame N ts turns idx data n = some (last, out, idx')) :
    ∃ run, s.Reads N idx run ∧ run.length ≤ turns ∧ (∀ p ∈ run, p.ts = ts) ∧
      run.getLast? = some last ∧ last.marker = 1 ∧ (∀ p ∈ run.dropLast, p.marker ≠ 1) ∧
      n + run.length = last.totalChunks.toNat ∧ out = data ++ run.flatMap RtpPacket.payload ∧
      idx' = (idx + run.length) % N := by
  induction turns generalizing idx data n with
  | zero => simp [collectFrame] at h
  | succ turns ih =>
    simp only [collectFrame] at h
    split at h
    · cases h
    · next p hp =>
      split at h
      · cases h
      · next hts =>
        have hts : p.ts = ts := by simpa using hts
        split at h
        · next hm =>
          split at h
          · next hc =>
            simp only [Option.some.injEq, Prod.mk.injEq] at h
            obtain ⟨rfl, rfl, rfl⟩ := h
            exact ⟨[p], ⟨hp, trivial⟩, by simp, by simpa using hts, rfl, hm, by simp, hc, by simp, rfl⟩
          · cases h
        · next hm =>
          obtain ⟨run, hr, hl, hall, hlast, hmark, hinner, hcount, hout, hidx⟩ := ih h
          have hne : run ≠ [] := by
            rintro rfl
            simp at hlast
          refine ⟨p :: run, ⟨hp, hr⟩, by simpa using hl, ?_, ?_, hmark, ?_, ?_, ?_, ?_⟩
          · intro q hq
            rcases List.mem_cons.mp hq with rfl | hq
            · exact hts
            · exact hall q hq
          · rw [List.getLast?_cons, hlast]
            rfl
          · intro q hq
            rw [List.dropLast_cons_of_ne_nil hne] at hq
            rcases List.mem_cons.mp hq with rfl | hq
            · exact hm
            · exact hinner q hq
          · rw [List.length_cons]
            omega
          · rw [hout, List.flatMap_cons, List.append_assoc]
          · rw [hidx, Nat.mod_add_mod, List.length_cons]
            congr 1
            omega

theorem collectFrame_of_reads {N ts : ℕ} {s : JitterBuffer} {last : RtpPacket} (run : List RtpPacket) :
    ∀ (turns idx n : ℕ) (data : List UInt8), s.Reads N idx run → run.length ≤ turns →
      (∀ p ∈ run, p.ts = ts) → run.getLast? = some last → last.marker = 1 →
      (∀ p ∈ run.dropLast, p.marker ≠ 1) → n + run.length = last.totalChunks.toNat →
      s.collectFrame N ts turns idx data n =
        some (last, data ++ run.flatMap RtpPacket.payload, (idx + run.length) % N) := by
  induction run with
  | nil =>
    intro turns idx n data _ _ _ hlast
    simp at hlast
  | cons p run ih =>
    intro turns idx n data hr hl hall hlast hm hinner hcount
    obtain ⟨turns, rfl⟩ : ∃ t, turns = t + 1 := ⟨turns - 1, by simp at hl; omega⟩
    have hts : p.ts = ts := hall p (List.mem_cons_self ..)
    simp only [collectFrame, hr.1, hts, ne_eq, not_true_eq_false, if_false]
    cases run with
    | nil =>
      simp only [List.getLast?_singleton, Option.some.injEq] at hlast
      subst hlast
      simp only [List.length_cons, List.length_nil, Nat.zero_add] at hcount
      simp [hm, hcount]
    | cons q run =>
      have hp : p.marker ≠ 1 := hinner p (by simp)
      rw [if_neg hp]
      have h := ih turns ((idx + 1) % N) (n + 1) (data ++ p.payload) hr.2 (by simpa using hl)
        (fun x hx => hall x (List.mem_cons_of_mem p hx))
        (by rw [List.getLast?_cons_cons] at hlast; exact hlast) hm
        (fun x hx => hinner x (by rw [List.dropLast_cons_of_ne_nil (by simp)]; exact List.mem_cons_of_mem p hx))
        (by simp only [List.length_cons] at hcount ⊢; omega)
      rw [h, Nat.mod_add_mod, List.flatMap_cons, List.append_assoc]
      congr 4
      simp only [List.length_cons]
      omega

/-- A run without marker that ends at an empty slot is no frame. -/
theorem collectFrame_of_gap {N ts : ℕ} {s : JitterBuffer} (run : List RtpPacket) :
    ∀ (turns idx n : ℕ) (data : List UInt8), s.Reads N idx run →
      (∀ p ∈ run, p.marker ≠ 1) → idx < N → s.packets ((idx + run.length) % N) = none →
      s.collectFrame N ts turns idx data n = none := by
  induction run with
  | nil =>
    intro turns idx n data _ _ hidx hgap
    rw [List.length_nil, Nat.add_zero, Nat.mod_eq_of_lt hidx] at hgap
    cases turns <;> simp [collectFrame, hgap]
  | cons p run ih =>
    intro turns idx n data hr hm hidx hgap
    cases turns with
    | zero => rfl
    | succ turns =>
      have hgap' : s.packets (((idx + 1) % N + run.length) % N) = none := by
        rw [Nat.mod_add_mod, ← hgap, List.length_cons]
        congr 2
        omega
      have h := ih turns ((idx + 1) % N) (n + 1) (data ++ p.payload) hr.2
        (fun x hx => hm x (List.mem_cons_of_mem p hx)) (Nat.mod_lt _ (by omega)) hgap'
      simp only [collectFrame, hr.1, if_neg (hm p (List.mem_cons_self ..)), h]
      split <;> rfl

/-- `run` is what `pop` takes for a whole frame: one timestamp, the marker on the last
packet only, and as many packets as that one announces. -/
structure IsFrameRun (ts : ℕ) (run : List RtpPacket) (last : RtpPacket) : Prop where
  ts_eq : ∀ p ∈ run, p.ts = ts
  last_eq : run.getLast? = some last
  marker : last.marker = 1
  inner : ∀ p ∈ run.dropLast, p.marker ≠ 1
  count : run.length = last.totalChunks.toNat

theorem frame_of_collect {N ts : ℕ} {s : JitterBuffer} {last : RtpPacket} {data : List UInt8} {idx : ℕ}
    (h : s.collectFrame N ts N s.readIdx [] 0 = some (last, data, idx)) :
    ∃ run, s.Reads N s.readIdx run ∧ IsFrameRun ts run last ∧ run.length ≤ N ∧
      data = run.flatMap RtpPacket.payload ∧ idx = (s.readIdx + run.length) % N := by
  obtain ⟨run, hr, hl, hts, hlast, hm, hinner, hcount, hout, hidx⟩ := collectFrame_some h
  exact ⟨run, hr, ⟨hts, hlast, hm, hinner, by omega⟩, hl, by simpa using hout, hidx⟩

theorem collect_of_frame {N ts : ℕ} {s : JitterBuffer} {run : List RtpPacket} {last : RtpPacket}
    (hr : s.Reads N s.readIdx run) (hf : IsFrameRun ts run last) (hl : run.length ≤ N) :
    s.collectFrame N ts N s.readIdx [] 0 =
      some (last, run.flatMap RtpPacket.payload, (s.readIdx + run.length) % N) := by
  have h := collectFrame_of_reads run N s.readIdx 0 [] hr hl hf.ts_eq hf.last_eq hf.marker hf.inner
    (by rw [Nat.zero_add, hf.count])
  simpa using h

/-! ## Clearing slots -/

/-- Slots are only emptied. -/
def Clears (s s' : JitterBuffer) : Prop := ∀ i p, s'.packets i = some p → s.packets i = some p

theorem Clears.refl (s : JitterBuffer) : Clears s s := fun _ _ h => h

theorem Clears.trans {s t u : JitterBuffer} (h1 : Clears s t) (h2 : Clears t u) : Clears s u :=
  fun i p h => h1 i p (h2 i p h)

theorem clears_setSlot_none (s : JitterBuffer) (i : ℕ) : Clears s (s.setSlot i none) := by
  intro j p h
  by_cases hj : j = i
  · simp [setSlot, hj] at h
  · simpa [setSlot, hj] using h

theorem clears_dropRead (N : ℕ) (s : JitterBuffer) : Clears s (s.dropRead N) :=
  clears_setSlot_none s s.readIdx

theorem clears_resyncLoop (N ts turns : ℕ) (s : JitterBuffer) : Clears s (resyncLoop N ts turns s) := by
  induction turns generalizing s with
  | zero => exact Clears.refl s
  | succ turns ih =>
    unfold resyncLoop
    split
    · exact Clears.refl s
    · split
      · exact clears_setSlot_none s s.readIdx
      · exact (clears_dropRead N s).trans (ih (s.dropRead N))

theorem clears_resync (N : ℕ) (s : JitterBuffer) : Clears s (s.resyncOrClear N) := by
  unfold resyncOrClear
  split
  · exact Clears.refl s
  · exact clears_resyncLoop N _ N s

theorem clears_clearTo {N target turns : ℕ} {s s' : JitterBuffer}
    (h : clearTo N target turns s = .ok s') : Clears s s' := by
  induction turns generalizing s with
  | zero =>
    simp only [clearTo] at h
    split at h
    · cases h; exact Clears.refl _
    · cases h
  | succ turns ih =>
    simp only [clearTo] at h
    split at h
    · cases h; exact Clears.refl _
    · exact (clears_dropRead N s).trans (ih h)

theorem findNext_packets (N turns : ℕ) (s : JitterBuffer) : (findNext N turns s).packets = s.packets := by
  induction turns generalizing s with
  | zero => rfl
  | succ turns ih =>
    unfold findNext
    split
    · rfl
    · exact ih _

/-! ## What the walks leave alone -/

/-- The fields no clearing loop writes. -/
structure SameClock (s s' : JitterBuffer) : Prop where
  completed : s'.lastFrameCompletedTimestamp = s.lastFrameCompletedTimestamp
  deliver : s'.lastDeliverTimestamp = s.lastDeliverTimestamp

theorem SameClock.refl (s : JitterBuffer) : SameClock s s := ⟨rfl, rfl⟩

theorem SameClock.trans {s t u : JitterBuffer} (h1 : SameClock s t) (h2 : SameClock t u) : SameClock s u :=
  ⟨h2.completed.trans h1.completed, h2.deliver.trans h1.deliver⟩

theorem sameClock_dropRead (N : ℕ) (s : JitterBuffer) : SameClock s (s.dropRead N) := ⟨rfl, rfl⟩

theorem sameClock_resyncLoop (N ts turns : ℕ) (s : JitterBuffer) :
    SameClock s (resyncLoop N ts turns s) := by
  induction turns generalizing s with
  | zero => exact ⟨rfl, rfl⟩
  | succ turns ih =>
    unfold resyncLoop
    split
    · exact ⟨rfl, rfl⟩
    · split
      · exact ⟨rfl, rfl⟩
      · exact (sameClock_dropRead N s).trans (ih (s.dropRead N))

theorem sameClock_resync (N : ℕ) (s : JitterBuffer) : SameClock s (s.resyncOrClear N) := by
  unfold resyncOrClear
  split
  · exact ⟨rfl, rfl⟩
  · exact sameClock_resyncLoop N _ N s

theorem sameClock_clearTo {N target turns : ℕ} {s s' : JitterBuffer}
    (h : clearTo N target turns s = .ok s') : SameClock s s' := by
  induction turns generalizing s with
  | zero =>
    simp only [clearTo] at h
    split at h
    · cases h; exact SameClock.refl _
    · cases h
  | succ turns ih =>
    simp only [clearTo] at h
    split at h
    · cases h; exact SameClock.refl _
    · exact (sameClock_dropRead N s).trans (ih h)

theorem sameClock_findNext (N turns : ℕ) (s : JitterBuffer) : SameClock s (findNext N turns s) := by
  induction turns generalizing s with
  | zero => exact ⟨rfl, rfl⟩
  | succ turns ih =>
    unfold findNext
    split
    · exact ⟨rfl, rfl⟩
    · have h : SameClock s { s with readIdx := (s.readIdx + 1) % N } := ⟨rfl, rfl⟩
      exact h.trans (ih _)

/-! ## Playout times -/

/-- The time until which a frame with timestamp `ts` may be played. -/
def deadline (s : JitterBuffer) (ts : ℕ) : ℕ :=
  s.lastDeliverTimestamp + (ts - s.lastFrameCompletedTimestamp) + toleranceMillis

theorem SameClock.deadline {s s' : JitterBuffer} (h : SameClock s s') (ts : ℕ) : s'.deadline ts = s.deadline ts := by
  unfold JitterBuffer.deadline
  rw [h.completed, h.deliver]

theorem validPlayoutTime_eq (s : JitterBuffer) (ts now : ℕ) :
    s.validPlayoutTime ts now =
      if s.lastDeliverTimestamp = 0 then .ok true
      else if ts < s.lastFrameCompletedTimestamp then .error .subtractOverflow
      else if s.deadline ts < 2 ^ 128 then .ok (decide (now ≤ s.deadline ts))
      else .error .addOverflow := by
  unfold validPlayoutTime subU128 addU128 deadline
  by_cases hz : s.lastDeliverTimestamp = 0
  · rw [if_pos hz, if_pos hz]
  rw [if_neg hz, if_neg hz]
  by_cases hold : ts < s.lastFrameCompletedTimestamp
  · rw [if_pos hold, if_pos hold]
    rfl
  rw [if_neg hold, if_neg hold]
  by_cases hplayout : s.lastDeliverTimestamp + (ts - s.lastFrameCompletedTimestamp) < 2 ^ 128
  · simp only [bind, Except.bind, if_pos hplayout]
    by_cases hend : s.lastDeliverTimestamp + (ts - s.lastFrameCompletedTimestamp) + toleranceMillis < 2 ^ 128
    · rw [if_pos hend, if_pos hend]
      rfl
    · rw [if_neg hend, if_neg hend]
  · simp only [bind, Except.bind, if_neg hplayout]
    rw [if_neg (by omega)]

/-- The clock is not past the playout deadline of a frame with timestamp `ts`. -/
def InTime (s : JitterBuffer) (ts now : ℕ) : Prop := s.lastDeliverTimestamp = 0 ∨ now ≤ s.deadline ts

/-- That deadline, if there is one, is a `u128`. -/
def InRange (s : JitterBuffer) (ts : ℕ) : Prop := s.lastDeliverTimestamp = 0 ∨ s.deadline ts < 2 ^ 128

theorem SameClock.inTime {s s' : JitterBuffer} (h : SameClock s s') {ts now : ℕ} :
    s'.InTime ts now ↔ s.InTime ts now := by
  unfold InTime
  rw [h.deliver, h.deadline]

theorem SameClock.inRange {s s' : JitterBuffer} (h : SameClock s s') {ts : ℕ} : s'.InRange ts ↔ s.InRange ts := by
  unfold InRange
  rw [h.deliver, h.deadline]

section Checks
variable {s : JitterBuffer} {ts now : ℕ}

theorem inRange_of_valid {b : Bool} (h : s.validPlayoutTime ts now = .ok b) : s.InRange ts := by
  rw [validPlayoutTime_eq] at h
  by_cases hz : s.lastDeliverTimestamp = 0
  · exact Or.inl hz
  · rw [if_neg hz] at h
    split at h
    · cases h
    · split at h
      · next hfits => exact Or.inr hfits
      · cases h

theorem InRange.mono {ts' : ℕ} (h : s.InRange ts') (hle : ts ≤ ts') : s.InRange ts := by
  refine h.imp_right fun hfits => ?_
  unfold deadline at hfits ⊢
  omega

theorem validPlayoutTime_iff (h : s.lastFrameCompletedTimestamp ≤ ts) :
    s.validPlayoutTime ts now = .ok true ↔ s.InRange ts ∧ s.InTime ts now := by
  rw [validPlayoutTime_eq]
  unfold InRange InTime
  by_cases hz : s.lastDeliverTimestamp = 0
  · simp [hz]
  · rw [if_neg hz, if_neg (by omega)]
    by_cases hfits : s.deadline ts < 2 ^ 128
    · rw [if_pos hfits]
      simp only [Except.ok.injEq, decide_eq_true_eq, hz, hfits, false_or, true_and]
    · rw [if_neg hfits]
      exact ⟨fun hbad => (by cases hbad), fun hin => absurd (hin.1.resolve_left hz) hfits⟩

end Checks

theorem synchronizePlayout_ok {s s' : JitterBuffer} {p : RtpPacket} {now slept : ℕ}
    (h : s.synchronizePlayout p now = .ok (slept, s')) :
    ∃ x, s' = { s with lastDeliverTimestamp := x } ∧ (s.lastDeliverTimestamp = 0 → x = now) ∧
      (s.lastDeliverTimestamp ≠ 0 →
        x = s.lastDeliverTimestamp + (p.ts - s.lastFrameCompletedTimestamp) ∧ slept = (x - now) % 2 ^ 64) := by
  unfold synchronizePlayout addU128 at h
  by_cases hz : s.lastDeliverTimestamp = 0
  · rw [if_neg (not_not_intro hz)] at h
    cases h
    exact ⟨now, rfl, fun _ => rfl, fun hn => absurd hz hn⟩
  · rw [if_pos hz] at h
    by_cases hfits : s.lastDeliverTimestamp + (p.ts - s.lastFrameCompletedTimestamp) < 2 ^ 128
    · simp only [bind, Except.bind, if_pos hfits] at h
      cases h
      exact ⟨_, rfl, fun h0 => absurd h0 hz, fun _ => ⟨rfl, rfl⟩⟩
    · simp only [bind, Except.bind, if_neg hfits] at h
      cases h

theorem synchronizePlayout_returns {s : JitterBuffer} {p : RtpPacket} (h : s.InRange p.ts) (now : ℕ) :
    ∃ slept s', s.synchronizePlayout p now = .ok (slept, s') := by
  unfold synchronizePlayout addU128
  by_cases hz : s.lastDeliverTimestamp = 0
  · exact ⟨_, _, if_neg (not_not_intro hz)⟩
  · have hfits : s.lastDeliverTimestamp + (p.ts - s.lastFrameCompletedTimestamp) < 2 ^ 128 := by
      have := h.resolve_left hz
      unfold deadline at this
      omega
    rw [if_pos hz]
    simp only [bind, Except.bind, if_pos hfits]
    exact ⟨_, _, rfl⟩

/-! ## Popping -/

/-- The state after zero or more resynchronisations. -/
inductive Resyncs (N : ℕ) : JitterBuffer → JitterBuffer → Prop
  | refl (s : JitterBuffer) : Resyncs N s s
  | step {s t : JitterBuffer} : Resyncs N (s.resyncOrClear N) t → Resyncs N s t

theorem Resyncs.preserves {N : ℕ} {P : JitterBuffer → Prop} (hP : ∀ s, P s → P (s.resyncOrClear N))
    {s t : JitterBuffer} (h : Resyncs N s t) (hs : P s) : P t := by
  induction h with
  | refl s => exact hs
  | step _ ih => exact ih (hP _ hs)

theorem Resyncs.clears {N : ℕ} {s t : JitterBuffer} (h : Resyncs N s t) : Clears s t := by
  induction h with
  | refl s => exact Clears.refl s
  | step _ ih => exact (clears_resync N _).trans ih

theorem Resyncs.sameClock {N : ℕ} {s t : JitterBuffer} (h : Resyncs N s t) : SameClock s t := by
  induction h with
  | refl s => exact SameClock.refl s
  | step _ ih => exact (sameClock_resync N _).trans ih

theorem prepare_ok {N : ℕ} {clk : ℕ → ℕ} {turns k k' : ℕ} {s t : JitterBuffer} {ts : Option ℕ}
    (h : prepareNextFrameTs N clk turns k s = .ok (ts, k', t)) :
    Resyncs N s t ∧ ∀ x, ts = some x → ∃ p, t.packets t.readIdx = some p ∧ p.ts = x ∧
      ∃ now, t.validPlayoutTime x now = .ok true := by
  induction turns generalizing k s with
  | zero => simp [prepareNextFrameTs] at h
  | succ turns ih =>
    simp only [prepareNextFrameTs] at h
    split at h
    · cases h
      exact ⟨Resyncs.refl _, fun x hx => by cases hx⟩
    · next p hp =>
      split at h
      · cases h
      · next hv =>
        cases h
        refine ⟨Resyncs.refl _, ?_⟩
        intro x hx
        cases hx
        exact ⟨p, hp, rfl, clk k, hv⟩
      · split at h
        · cases h
          exact ⟨Resyncs.step (Resyncs.refl _), fun x hx => by cases hx⟩
        · obtain ⟨h1, h2⟩ := ih h
          exact ⟨Resyncs.step h1, h2⟩

theorem deliver_ok {N : ℕ} {s s' : JitterBuffer} {p : RtpPacket} {data : List UInt8} {idx now : ℕ}
    {d : Option Delivery} (h : s.deliver N p data idx now = .ok (d, s')) :
    ∃ t x b slept, clearTo N idx N s = .ok t ∧
      s' = { findNext N N t with
        lastDeliverTimestamp := x, lastFrameCompletedTimestamp := p.ts, iFrameNeeded := b } ∧
      d = some ⟨p.ts, data, slept⟩ ∧
      (p.isIFrame = true → b = false) ∧ (p.isIFrame = false → b = (findNext N N t).iFrameNeeded) ∧
      (s.lastDeliverTimestamp = 0 → x = now) ∧
      (s.lastDeliverTimestamp ≠ 0 →
        x = s.lastDeliverTimestamp + (p.ts - s.lastFrameCompletedTimestamp) ∧ slept = (x - now) % 2 ^ 64) := by
  simp only [deliver, advanceReadPointers, bind, Except.bind, pure, Except.pure] at h
  cases hc : clearTo N idx N s with
  | error e => rw [hc] at h; cases h
  | ok t =>
    rw [hc] at h
    dsimp only at h
    cases hsync : (findNext N N t).synchronizePlayout p now with
    | error e => rw [hsync] at h; cases h
    | ok r =>
      obtain ⟨slept, u⟩ := r
      obtain ⟨x, rfl, hfirst, hlater⟩ := synchronizePlayout_ok hsync
      have hclock := (sameClock_clearTo hc).trans (sameClock_findNext N N t)
      rw [hclock.deliver] at hfirst hlater
      rw [hclock.completed] at hlater
      rw [hsync] at h
      dsimp only at h
      cases hi : p.isIFrame with
      | true =>
        rw [hi] at h
        cases h
        exact ⟨t, x, false, slept, rfl, rfl, rfl, fun _ => rfl, fun hn => (by cases hn), hfirst, hlater⟩
      | false =>
        rw [hi] at h
        cases h
        exact ⟨t, x, _, slept, rfl, rfl, rfl, fun hn => (by cases hn), fun _ => rfl, hfirst, hlater⟩

/-- A `pop` returns nothing, or takes out the complete frame at the read slot that was prepared. -/
theorem pop_prepared {N : ℕ} {clk : ℕ → ℕ} {s s' : JitterBuffer} {d : Option Delivery}
    (h : s.pop N clk = .ok (d, s')) :
    0 < N ∧ ∃ ts k t, prepareNextFrameTs N clk (N + 1) 0 s = .ok (ts, k, t) ∧ ((d = none ∧ s' = t) ∨
      ∃ run last, ts = some last.ts ∧ t.Reads N t.readIdx run ∧
      IsFrameRun last.ts run last ∧ run.length ≤ N ∧
        t.deliver N last (run.flatMap RtpPacket.payload) ((t.readIdx + run.length) % N) (clk k) = .ok (d, s')) := by
  unfold pop at h
  by_cases hN : N = 0
  · rw [if_pos hN] at h; cases h
  · rw [if_neg hN] at h
    refine ⟨Nat.pos_of_ne_zero hN, ?_⟩
    simp only [bind, Except.bind, pure, Except.pure] at h
    cases hp : prepareNextFrameTs N clk (N + 1) 0 s with
    | error e => rw [hp] at h; cases h
    | ok r =>
      obtain ⟨ts, k, t⟩ := r
      rw [hp] at h
      refine ⟨ts, k, t, rfl, ?_⟩
      cases ts with
      | none =>
        cases h
        exact Or.inl ⟨rfl, rfl⟩
      | some x =>
        simp only at h
        split at h
        · cases h
          exact Or.inl ⟨rfl, rfl⟩
        · next last data idx hcol =>
          obtain ⟨run, hr, hf, hl, rfl, rfl⟩ := frame_of_collect hcol
          obtain rfl : last.ts = x := hf.ts_eq last (List.mem_of_getLast? hf.last_eq)
          exact Or.inr ⟨run, last, rfl, hr, hf, hl, h⟩

/-- A `pop` resynchronises zero or more times and then returns nothing, or takes out the
complete frame at the read slot. -/
theorem pop_cases {N : ℕ} {clk : ℕ → ℕ} {s s' : JitterBuffer} {d : Option Delivery}
    (h : s.pop N clk = .ok (d, s')) :
    0 < N ∧ ∃ t, Resyncs N s t ∧ ((d = none ∧ s' = t) ∨
      ∃ run last now, t.Reads N t.readIdx run ∧ IsFrameRun last.ts run last ∧ run.length ≤ N ∧
        (∃ time, t.validPlayoutTime last.ts time = .ok true) ∧
        t.deliver N last (run.flatMap RtpPacket.payload) ((t.readIdx + run.length) % N) now = .ok (d, s')) := by
  obtain ⟨hN, ts, k, t, hp, hcase⟩ := pop_prepared h
  obtain ⟨hres, hts⟩ := prepare_ok hp
  refine ⟨hN, t, hres, ?_⟩
  rcases hcase with hnone | ⟨run, last, hlast, hr, hf, hl, hd⟩
  · exact Or.inl hnone
  · obtain ⟨p, _, _, now, hv⟩ := hts last.ts hlast
    exact Or.inr ⟨run, last, clk k, hr, hf, hl, ⟨now, hv⟩, hd⟩

end JitterBuffer
end RoomRtc.Jitter
