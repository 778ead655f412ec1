import RoomRtc.Foundations.Ring
import RoomRtc.Jitter.Liveness

/-! `pop` comes to its end from any contents of the slots. The loop of `prepare_next_frame_ts` has no
counter: it goes on as long as the clock says that the packet in the read slot is late. But every
`resync_or_clear` it makes empties that slot and fills none, so there are no more turns than occupied
slots. The model's bounds on the loops are therefore never what ends them. -/
namespace RoomRtc.Jitter
open Transport
set_option autoImplicit false

namespace JitterBuffer

/-! ## The read slot stays on the ring -/

theorem resyncLoop_readIdx {N ts turns : ℕ} {s : JitterBuffer} (hN : 0 < N) (h : s.readIdx < N) :
    (resyncLoop N ts turns s).readIdx < N := by
  induction turns generalizing s with
  | zero => exact hN
  | succ turns ih =>
    unfold resyncLoop
    split
    · exact h
    · split
      · exact hN
      · exact ih (Nat.mod_lt _ hN)

theorem resync_readIdx {N : ℕ} {s : JitterBuffer} (hN : 0 < N) (h : s.readIdx < N) :
    (s.resyncOrClear N).readIdx < N := by
  unfold resyncOrClear
  split
  · exact hN
  · exact resyncLoop_readIdx hN h

/-- Whatever the clock says: as long as a packet is in the read slot, resynchronisations use up the
occupied slots. -/
theorem resyncs_le_occupancy {N : ℕ} (hN : 0 < N) {n : ℕ} {s : JitterBuffer} (hidx : s.readIdx < N)
    (hhead : ∀ i < n, ((resyncOrClear N)^[i] s).packets ((resyncOrClear N)^[i] s).readIdx ≠ none) :
    n ≤ occupancy N s := by
  induction n generalizing s with
  | zero => exact Nat.zero_le _
  | succ n ih =>
    obtain ⟨head, hfirst⟩ := Option.ne_none_iff_exists'.mp (hhead 0 (Nat.succ_pos n))
    have hless := occupancy_resync hN hidx hfirst
    have hrest := ih (resync_readIdx hN hidx) fun i hi => hhead (i + 1) (Nat.succ_lt_succ hi)
    omega

/-! ## The loops -/

variable {N : ℕ} {clk : ℕ → ℕ}

/-- With more turns than occupied slots the loop ends by itself. -/
theorem prepare_ends (hN : 0 < N) {turns k : ℕ} {s : JitterBuffer} (hidx : s.readIdx < N)
    (hturns : occupancy N s < turns) : prepareNextFrameTs N clk turns k s ≠ .error .endlessLoop := by
  induction turns generalizing k s with
  | zero => exact absurd hturns (Nat.not_lt_zero _)
  | succ turns ih =>
    rw [prepareNextFrameTs]
    split
    · intro hbad
      cases hbad
    · next head hhead =>
      split
      · next e he =>
        -- The deadline test has no loop.
        intro hbad
        cases hbad
        rw [validPlayoutTime_eq] at he
        split at he
        · cases he
        · split at he
          · cases he
          · split at he <;> cases he
      · intro hbad
        cases hbad
      · dsimp only
        split
        · intro hbad
          cases hbad
        · have hless := occupancy_resync hN hidx hhead
          exact ih (resync_readIdx hN hidx) (by omega)

/-- So it makes no difference how many more turns there are. -/
theorem prepare_turns (hN : 0 < N) {turns turns' k : ℕ} {s : JitterBuffer} (hidx : s.readIdx < N)
    (hturns : occupancy N s < turns) (hturns' : occupancy N s < turns') :
    prepareNextFrameTs N clk turns k s = prepareNextFrameTs N clk turns' k s := by
  induction turns generalizing turns' k s with
  | zero => exact absurd hturns (Nat.not_lt_zero _)
  | succ turns ih =>
    obtain ⟨turns', rfl⟩ : ∃ n, turns' = n + 1 := ⟨turns' - 1, by omega⟩
    rw [prepareNextFrameTs, prepareNextFrameTs]
    cases hhead : s.packets s.readIdx with
    | none => rfl
    | some head =>
      have hless := occupancy_resync hN hidx hhead
      dsimp only
      rw [ih (resync_readIdx hN hidx) (by omega) (by omega : occupancy N (s.resyncOrClear N) < turns')]

/-- Going round from the read slot, every slot is reached. -/
theorem clearTo_ends {turns targetIdx : ℕ} {s : JitterBuffer} (hidx : s.readIdx < N) (htarget : targetIdx < N)
    (hturns : N ≤ turns) : ∃ t, clearTo N targetIdx turns s = .ok t := by
  obtain ⟨len, hlen, rfl⟩ := Ring.exists_add_mod htarget s.readIdx
  exact clearTo_reaches len turns s hidx (hlen.le.trans hturns)

theorem pop_ends (hN : 0 < N) {s : JitterBuffer} (hidx : s.readIdx < N) : s.pop N clk ≠ .error .endlessLoop := by
  intro hpop
  have hturns : occupancy N s < N + 1 := Nat.lt_succ_of_le (occupancy_le N s)
  unfold pop at hpop
  rw [if_neg (Nat.ne_of_gt hN)] at hpop
  simp only [bind, Except.bind, pure, Except.pure] at hpop
  split at hpop
  · next e he =>
    cases hpop
    exact prepare_ends hN hidx hturns he
  · next prepared hprepared =>
    obtain ⟨ts, k, t⟩ := prepared
    have hidx' : t.readIdx < N :=
      (prepare_ok hprepared).1.preserves (P := fun c => c.readIdx < N) (fun _ hc => resync_readIdx hN hc) hidx
    cases ts with
    | none => cases hpop
    | some ts =>
      dsimp only at hpop
      split at hpop
      · cases hpop
      · next last data idx hcollect =>
        obtain ⟨run, _, hlen, hts, hlast, _, _, _, _, rfl⟩ := collectFrame_some hcollect
        obtain ⟨_, _, _, now, hv⟩ := (prepare_ok hprepared).2 ts rfl
        have hrange : t.InRange last.ts := by
          rw [hts last (List.mem_of_getLast? hlast)]
          exact inRange_of_valid hv
        obtain ⟨slept, u, hdeliver⟩ := deliver_returns t last data run.length (clk k) hidx' hlen hrange
        rw [hdeliver] at hpop
        cases hpop

end JitterBuffer

/-- **`pop` always comes to its end.** From any contents and any read slot on the ring, with any clock:
each call of `resync_or_clear` on an occupied read slot empties a slot and fills none, so that there are
no more of them in a row than occupied slots, and the loop of `prepare_next_frame_ts` ends by itself; the
pointers reach every slot; and no loop of `pop` is an endless one. -/
theorem pop_terminates (N : ℕ) (hN : 1 ≤ N) (s : JitterBuffer) (hread : s.readIdx < N) (clk : ℕ → ℕ) :
    (∀ n, (∀ i < n, ((JitterBuffer.resyncOrClear N)^[i] s).packets
      ((JitterBuffer.resyncOrClear N)^[i] s).readIdx ≠ none) →
      n ≤ occupancy N s) ∧
    (∀ turns k, occupancy N s < turns →
      JitterBuffer.prepareNextFrameTs N clk turns k s ≠ .error .endlessLoop ∧
        JitterBuffer.prepareNextFrameTs N clk turns k s = JitterBuffer.prepareNextFrameTs N clk (N + 1) k s) ∧
    (s.packets s.readIdx ≠ none →
      occupancy N (s.resyncOrClear N) < occupancy N s ∧ JitterBuffer.Clears s (s.resyncOrClear N)) ∧
    (∀ targetIdx < N, ∀ turns, N ≤ turns → ∃ t, JitterBuffer.clearTo N targetIdx turns s = .ok t) ∧
    s.pop N clk ≠ .error .endlessLoop := by
  refine ⟨fun n hhead => ?_, fun turns k hturns => ⟨?_, ?_⟩, fun hhead => ⟨?_, ?_⟩,
    fun targetIdx htarget turns hturns => ?_, ?_⟩
  · exact JitterBuffer.resyncs_le_occupancy hN hread hhead
  · exact JitterBuffer.prepare_ends hN hread hturns
  · exact JitterBuffer.prepare_turns hN hread hturns (Nat.lt_succ_of_le (occupancy_le N s))
  · obtain ⟨head, hhead⟩ := Option.ne_none_iff_exists'.mp hhead
    exact occupancy_resync hN hread hhead
  · exact JitterBuffer.clears_resync N s
  · exact JitterBuffer.clearTo_ends hread htarget hturns
  · exact JitterBuffer.pop_ends hN hread

/-- Two key frames, both late: the loop drops one and then the other. -/
theorem pop_terminates_two :
    let frames : List Media.EncodedFrame := [⟨[[1]], 5, true⟩, ⟨[[2]], 45, true⟩]
    let s : JitterBuffer := { JitterBuffer.new with
      packets := fun i => if i < 2 then some
        (Media.chunkPacket ⟨2, 96, 7⟩ (frames.getD i ⟨[], 0, true⟩) i 0) else none
      readIdx := 1, writeIdx := 0, readSeq := some 1, writeSeq := some 2, lastDeliverTimestamp := 1 }
    occupancy 2 s = 2 ∧ ((s.pop 2 fun _ => 1000).toOption.map fun r => (r.1, r.2.readSeq)) = some (none, none) ∧
      s.pop 2 (fun _ => 1000) ≠ .error .endlessLoop := by
  intro frames s
  exact ⟨by decide +kernel, by decide +kernel, (pop_terminates 2 (by decide) s (by decide) fun _ => 1000).2.2.2.2⟩

end RoomRtc.Jitter
