import RoomRtc.Foundations.Trace
import RoomRtc.Jitter.Frames

/-! The playout schedule. The first frame fixes the anchor: its timestamp and the time at which it
was played. Every later frame is due as long after that time as its timestamp is after the first,
whatever was skipped or resynchronised in between; only a sleep beyond `u64` ends too early. -/
namespace RoomRtc.Jitter
open Transport
set_option autoImplicit false

namespace JitterBuffer

/-! ## The clock checks of a `pop` -/

/-- How many playout deadlines a `pop` checks. -/
def deadlineChecks (N : ℕ) (clk : ℕ → ℕ) (s : JitterBuffer) : ℕ :=
  match prepareNextFrameTs N clk (N + 1) 0 s with
  | .ok (_, k, _) => k
  | .error _ => 0

theorem validPlayoutTime_congr {s t : JitterBuffer} (h : SameClock s t) (ts now : ℕ) :
    t.validPlayoutTime ts now = s.validPlayoutTime ts now := by
  unfold validPlayoutTime
  rw [h.completed, h.deliver]

/-- The frame that is prepared passed the last check. -/
theorem prepare_checked {N : ℕ} {clk : ℕ → ℕ} {turns k k' ts : ℕ} {s t : JitterBuffer}
    (h : prepareNextFrameTs N clk turns k s = .ok (some ts, k', t)) :
    k < k' ∧ s.validPlayoutTime ts (clk (k' - 1)) = .ok true := by
  induction turns generalizing k s with
  | zero => cases h
  | succ turns ih =>
    rw [prepareNextFrameTs] at h
    split at h
    · cases h
    · next p hp =>
      split at h
      · cases h
      · next hv =>
        cases h
        exact ⟨Nat.lt_succ_self k, hv⟩
      · dsimp only at h
        split at h
        · cases h
        · obtain ⟨hk, hvalid⟩ := ih h
          rw [validPlayoutTime_congr (sameClock_resync N s)] at hvalid
          exact ⟨by omega, hvalid⟩

/-- When a frame comes out: it passed the last deadline check, and the reading behind that one is
the time of its playout. -/
theorem pop_times {N : ℕ} {clk : ℕ → ℕ} {s s' : JitterBuffer} {d : Delivery}
    (h : s.pop N clk = .ok (some d, s')) :
    s.validPlayoutTime d.timestamp (clk (s.deadlineChecks N clk - 1)) = .ok true ∧
      s'.lastFrameCompletedTimestamp = d.timestamp ∧
      (s.lastDeliverTimestamp = 0 → s'.lastDeliverTimestamp = clk (s.deadlineChecks N clk)) ∧
      (s.lastDeliverTimestamp ≠ 0 →
        s'.lastDeliverTimestamp = s.lastDeliverTimestamp + (d.timestamp - s.lastFrameCompletedTimestamp) ∧
        d.sleepMillis = (s'.lastDeliverTimestamp - clk (s.deadlineChecks N clk)) % 2 ^ 64) := by
  obtain ⟨_, ts, k, t, hp, ⟨hnone, _⟩ | ⟨run, last, rfl, _, hf, _, hdel⟩⟩ := pop_prepared h
  · cases hnone
  · have hchecks : s.deadlineChecks N clk = k := by
      rw [deadlineChecks, hp]
    have hclock : SameClock s t := (prepare_ok hp).1.sameClock
    obtain ⟨_, x, b, slept, _, rfl, hd, _, _, hfirst, hlater⟩ := deliver_ok hdel
    cases hd
    rw [hclock.deliver] at hfirst hlater
    rw [hclock.completed] at hlater
    rw [hchecks]
    exact ⟨(prepare_checked hp).2, rfl, hfirst, hlater⟩

end JitterBuffer

/-! ## Schedules -/

abbrev Step := Taken JitterBuffer Op (Option Delivery)

/-- The clock reading at which a `pop` plays its frame. -/
def playedAt (N : ℕ) (x : Step) : ℕ :=
  match x.input with
  | .pop clk => clk (x.state.deadlineChecks N clk)
  | .add _ => 0

/-- The clock reading of the deadline check that the frame of a `pop` passed. -/
def checkedAt (N : ℕ) (x : Step) : ℕ :=
  match x.input with
  | .pop clk => clk (x.state.deadlineChecks N clk - 1)
  | .add _ => 0

/-- When the first frame was played, and its timestamp. -/
def anchor (N : ℕ) (past : List Step) : Option (ℕ × ℕ) :=
  past.findSome? fun x => x.output.map fun d => (playedAt N x, d.timestamp)

/-- When the frame of `d` is due after an anchor. -/
def due (a : ℕ × ℕ) (d : Delivery) : ℕ := a.1 + (d.timestamp - a.2)

/-- A frame that comes out after the anchor `a` of the past moves the playout to the time it is due,
passed its deadline check at most the tolerance later, and is returned not before that time. -/
def OnSchedule (N : ℕ) (past : List Step) (x : Step) : Prop :=
  ∀ a d s', anchor N past = some a → x.output = some d → (machine N).step x.state x.input = some (s', some d) →
    s'.lastDeliverTimestamp = due a d ∧ checkedAt N x ≤ due a d + toleranceMillis ∧
      due a d ≤ playedAt N x + d.sleepMillis

/-- A frame that comes out after the anchor `a` of the past is less than `2 ^ 64` milliseconds early. -/
def SleepFits (N : ℕ) (past : List Step) (x : Step) : Prop :=
  ∀ a d, anchor N past = some a → x.output = some d → due a d < playedAt N x + 2 ^ 64

theorem anchor_snoc_none {N : ℕ} {past : List Step} {x : Step} (h : x.output = none) :
    anchor N (past ++ [x]) = anchor N past := by
  simp [anchor, h]

theorem anchor_snoc_some {N : ℕ} {past : List Step} {x : Step} {d : Delivery} (h : x.output = some d) :
    anchor N (past ++ [x]) = some ((anchor N past).getD (playedAt N x, d.timestamp)) := by
  simp only [anchor, List.findSome?_append, List.findSome?_singleton, h, Option.map_some]
  cases past.findSome? fun x => x.output.map fun d => (playedAt N x, d.timestamp) <;> rfl

/-- No clock reads 0, and the timestamps that come out do not decrease. -/
structure Regular (past : List Step) : Prop where
  clock : ∀ x ∈ past, ∀ clk, x.input = .pop clk → ∀ k, clk k ≠ 0
  ascending : (deliveries (past.map Taken.output)).Pairwise fun d e => d.timestamp ≤ e.timestamp

theorem Regular.left {past more : List Step} (h : Regular (past ++ more)) : Regular past := by
  refine ⟨fun x hx => h.clock x (List.mem_append_left more hx), ?_⟩
  have ha := h.ascending
  rw [List.map_append, deliveries, List.filterMap_append] at ha
  exact (List.pairwise_append.mp ha).1

/-- The buffer keeps the schedule of its anchor. -/
structure Scheduled (N : ℕ) (past : List Step) (s : JitterBuffer) : Prop where
  fresh : anchor N past = none → s.lastDeliverTimestamp = 0
  running : ∀ a, anchor N past = some a → a.1 ≠ 0 ∧ a.2 ≤ s.lastFrameCompletedTimestamp ∧
    s.lastDeliverTimestamp = a.1 + (s.lastFrameCompletedTimestamp - a.2) ∧
    ∃ d ∈ deliveries (past.map Taken.output), d.timestamp = s.lastFrameCompletedTimestamp

theorem deliveries_concat (past : List Step) (x : Step) :
    deliveries ((past ++ [x]).map Taken.output) = deliveries (past.map Taken.output) ++ x.output.toList := by
  rw [List.map_append, List.map_singleton, deliveries_snoc]

/-- In a regular run a frame is not older than the one before it. -/
theorem Scheduled.le_next {N : ℕ} {past : List Step} {x : Step} {d : Delivery} {a : ℕ × ℕ}
    (h : Scheduled N past x.state) (hreg : Regular (past ++ [x])) (ha : anchor N past = some a)
    (hout : x.output = some d) : x.state.lastFrameCompletedTimestamp ≤ d.timestamp := by
  obtain ⟨_, _, _, e, he, hts⟩ := h.running a ha
  have hasc := hreg.ascending
  rw [deliveries_concat, hout] at hasc
  rw [← hts]
  exact (List.pairwise_append.mp hasc).2.2 e he d (List.mem_singleton_self d)

theorem pop_of_output {N : ℕ} {x : Step} {d : Delivery} {s' : JitterBuffer}
    (hs : (machine N).step x.state x.input = some (s', some d)) :
    ∃ clk, x.input = .pop clk ∧ x.state.pop N clk = .ok (some d, s') := by
  cases hop : x.input with
  | add p =>
    rw [hop] at hs
    cases (step_add.mp hs).2
  | pop clk =>
    rw [hop] at hs
    exact ⟨clk, rfl, step_pop.mp hs⟩

theorem Scheduled.step {N : ℕ} {past : List Step} {x : Step} {s' : JitterBuffer} (h : Scheduled N past x.state)
    (hreg : Regular (past ++ [x])) (hs : (machine N).step x.state x.input = some (s', x.output)) :
    Scheduled N (past ++ [x]) s' := by
  cases hout : x.output with
  | none =>
    rw [hout] at hs
    obtain ⟨hc, hd⟩ := JitterBuffer.clock_step hs
    refine ⟨fun hnone => ?_, fun a ha => ?_⟩
    · rw [anchor_snoc_none hout] at hnone
      rw [hd, h.fresh hnone]
    · rw [anchor_snoc_none hout] at ha
      rw [hc, hd, deliveries_concat, hout, Option.toList_none, List.append_nil]
      exact h.running a ha
  | some d =>
    rw [hout] at hs
    obtain ⟨clk, hop, hpop⟩ := pop_of_output hs
    obtain ⟨_, hcompleted, hfirst, hlater⟩ := JitterBuffer.pop_times hpop
    have hplayed : playedAt N x = clk (x.state.deadlineChecks N clk) := by
      rw [playedAt, hop]
    have hmem : d ∈ deliveries ((past ++ [x]).map Taken.output) := by
      rw [deliveries_concat, hout]
      simp
    have hsnoc : anchor N (past ++ [x]) = some ((anchor N past).getD (playedAt N x, d.timestamp)) :=
      anchor_snoc_some hout
    refine ⟨fun hnone => ?_, fun a ha => ?_⟩
    · rw [hsnoc] at hnone
      cases hnone
    · rw [hsnoc, Option.some.injEq] at ha
      rw [hcompleted]
      cases hanchor : anchor N past with
      | none =>
        rw [hanchor, Option.getD_none] at ha
        subst ha
        refine ⟨?_, le_rfl, ?_, d, hmem, rfl⟩
        · rw [hplayed]
          exact hreg.clock x (by simp) clk hop _
        · rw [hfirst (h.fresh hanchor), Nat.sub_self, Nat.add_zero, hplayed]
      | some b =>
        rw [hanchor, Option.getD_some] at ha
        subst ha
        have hle := h.le_next hreg hanchor hout
        obtain ⟨hne, htle, hdeliver, _⟩ := h.running b hanchor
        refine ⟨hne, by omega, ?_, d, hmem, rfl⟩
        rw [(hlater (by omega)).1, hdeliver]
        omega

/-- Under the schedule a frame is on time if and only if its sleep fits. -/
theorem onSchedule_iff {N : ℕ} {past : List Step} {x : Step} {s' : JitterBuffer} (h : Scheduled N past x.state)
    (hreg : Regular (past ++ [x])) (hs : (machine N).step x.state x.input = some (s', x.output)) :
    OnSchedule N past x ↔ SleepFits N past x := by
  unfold OnSchedule SleepFits
  refine forall₂_congr fun a d => ?_
  by_cases hanchor : anchor N past = some a
  · by_cases hout : x.output = some d
    · rw [hout] at hs
      obtain ⟨clk, hop, hpop⟩ := pop_of_output hs
      obtain ⟨hvalid, _, _, hlater⟩ := JitterBuffer.pop_times hpop
      have hle := h.le_next hreg hanchor hout
      obtain ⟨hne, htle, hdeliver, _⟩ := h.running a hanchor
      obtain ⟨hnext, hsleep⟩ := hlater (by omega)
      have hdue : s'.lastDeliverTimestamp = due a d := by
        rw [hnext, hdeliver, due]
        omega
      have hchecked : checkedAt N x ≤ due a d + toleranceMillis := by
        have hin := ((JitterBuffer.validPlayoutTime_iff hle).mp hvalid).2.resolve_left (by omega)
        rw [checkedAt, hop, ← hdue, hnext]
        exact hin
      have hplayed : playedAt N x = clk (x.state.deadlineChecks N clk) := by
        rw [playedAt, hop]
      rw [hdue, ← hplayed] at hsleep
      constructor
      · intro hall _ _
        obtain ⟨_, _, hreturn⟩ := hall s' hanchor hout hs
        rw [hsleep] at hreturn
        have := Nat.mod_lt (due a d - playedAt N x) (show 0 < 2 ^ 64 by decide)
        omega
      · intro hfits t _ _ hstep
        cases hs.symm.trans hstep
        refine ⟨hdue, hchecked, ?_⟩
        have := hfits hanchor hout
        rw [hsleep, Nat.mod_eq_of_lt (by omega)]
        omega
    · exact ⟨fun _ _ ho => absurd ho hout, fun _ _ _ ho => absurd ho hout⟩
  · exact ⟨fun _ ha => absurd ha hanchor, fun _ _ ha => absurd ha hanchor⟩

/-- **Playout does not drift.** In a run with a clock that never reads 0 and delivered timestamps that
do not decrease, every frame after the first is on schedule exactly when every one of them is less
than `2 ^ 64` milliseconds early. -/
theorem playout_on_schedule_iff (N : ℕ) (ops : List Op) (hclock : ∀ clk, Op.pop clk ∈ ops → ∀ k, clk k ≠ 0)
    (hascending : (deliveries (((machine N).trace JitterBuffer.new ops).map Taken.output)).Pairwise
      fun d e => d.timestamp ≤ e.timestamp) :
    AtEvery (OnSchedule N) ((machine N).trace JitterBuffer.new ops) ↔
      AtEvery (SleepFits N) ((machine N).trace JitterBuffer.new ops) := by
  have hreg : Regular ((machine N).trace JitterBuffer.new ops) := by
    refine ⟨fun x hx clk hop => ?_, hascending⟩
    obtain ⟨n, hn⟩ := List.getElem?_of_mem hx
    have hmem := List.mem_of_getElem? ((machine N).trace_input hn)
    exact hclock clk (hop ▸ hmem)
  refine forall₃_congr fun past x rest => forall_congr' fun htrace => ?_
  have hregx : Regular (past ++ [x]) := by
    rw [htrace, ← List.singleton_append, ← List.append_assoc] at hreg
    exact hreg.left
  -- The schedule of the past, as long as the past is regular.
  obtain ⟨hscheduled, s', hs⟩ := (machine N).trace_induction (fun past s => Regular past → Scheduled N past s)
    (fun past s i s' o h hstep hreg' => Scheduled.step (x := ⟨s, i, o⟩) (h hreg'.left) hreg' hstep)
    (fun _ => ⟨fun _ => rfl, fun a ha => by cases ha⟩) htrace
  exact onSchedule_iff (hscheduled hregx.left) hregx hs

instance decidableSleepFits (N : ℕ) (past : List Step) (x : Step) : Decidable (SleepFits N past x) :=
  decidable_of_iff (∀ a ∈ anchor N past, ∀ d ∈ x.output, due a d < playedAt N x + 2 ^ 64)
    ⟨fun h a d ha hd => h a ha d hd, fun h a ha d hd => h a d ha hd⟩

/-- Two key frames of one packet with the timestamps 1000 and `ts`; the first is played at 40, and the
clock still reads 40 when the second is taken out. -/
def twoFrames (ts : ℕ) : List Op :=
  [.add (Media.chunkPacket ⟨2, 96, 7⟩ ⟨[[1]], 1000, true⟩ 0 0), .pop fun _ => 40,
    .add (Media.chunkPacket ⟨2, 96, 7⟩ ⟨[[2]], BitVec.ofNat 128 ts, true⟩ 1 0), .pop fun _ => 40]

theorem twoFrames_clock (ts : ℕ) (clk : ℕ → ℕ) (h : Op.pop clk ∈ twoFrames ts) (k : ℕ) : clk k = 40 := by
  simp only [twoFrames, List.mem_cons, Op.pop.injEq, reduceCtorEq, List.not_mem_nil, or_false, false_or, or_self] at h
  rw [h]

/-- The second frame, 33 milliseconds later, is on schedule. -/
theorem second_frame_on_schedule :
    AtEvery (OnSchedule 2) ((machine 2).trace JitterBuffer.new (twoFrames 1033)) := by
  refine (playout_on_schedule_iff 2 _ (fun clk h k => ?_) (by decide +kernel)).mpr (by decide +kernel)
  rw [twoFrames_clock 1033 clk h]
  decide

/-- A timestamp `2 ^ 64` milliseconds later: the sleep becomes 0 and the frame comes out at once. -/
theorem sleep_truncated :
    (∀ clk, Op.pop clk ∈ twoFrames (1000 + 2 ^ 64) → ∀ k, clk k = 40) ∧
    (deliveries (((machine 2).trace JitterBuffer.new (twoFrames (1000 + 2 ^ 64))).map Taken.output)).Pairwise
      (fun d e => d.timestamp ≤ e.timestamp) ∧
    ¬AtEvery (OnSchedule 2) ((machine 2).trace JitterBuffer.new (twoFrames (1000 + 2 ^ 64))) := by
  refine ⟨twoFrames_clock _, by decide +kernel, fun h => ?_⟩
  obtain ⟨x, s', hx, hanchor, hout, hstep, hplayed⟩ : ∃ x s',
      ((machine 2).trace JitterBuffer.new (twoFrames (1000 + 2 ^ 64)))[3]? = some x ∧
      anchor 2 (((machine 2).trace JitterBuffer.new (twoFrames (1000 + 2 ^ 64))).take 3) = some (40, 1000) ∧
      x.output = some ⟨1000 + 2 ^ 64, [2], 0⟩ ∧
      (machine 2).step x.state x.input = some (s', some ⟨1000 + 2 ^ 64, [2], 0⟩) ∧ playedAt 2 x = 40 :=
    ⟨_, _, rfl, rfl, rfl, rfl, rfl⟩
  have hreturn := (h.get hx (40, 1000) _ s' hanchor hout hstep).2.2
  rw [hplayed, due] at hreturn
  exact absurd hreturn (by decide)

end RoomRtc.Jitter
