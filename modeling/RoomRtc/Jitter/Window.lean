import RoomRtc.Jitter.Frames

/-! The ring as a window of sequence numbers. While both sequence numbers are known, the
stored packets lie between them, the read slot is that of the first and the write slot that
of the last (`Spans`). Every walk of the read slot gives up the lowest numbers of the window
(`Rest`); what an `add` has to respect for the window to survive is `Keeps`, and it is exact. -/
namespace RoomRtc.Jitter
open Transport
set_option autoImplicit false

namespace JitterBuffer

/-! ## The window -/

/-- The buffer holds packets of the numbers `r .. w`, the first of them for certain. -/
structure Spans (N : ℕ) (s : JitterBuffer) (r w : ℕ) : Prop where
  readIdx : s.readIdx = r % N
  writeIdx : s.writeIdx = w % N
  head : ∃ p, s.packets s.readIdx = some p ∧ p.seq = r
  le : r ≤ w
  lt : w < r + N
  between : ∀ i p, s.packets i = some p → r ≤ p.seq ∧ p.seq ≤ w

/-- The representation invariant. -/
def RingInv (N : ℕ) (s : JitterBuffer) : Prop :=
  ∀ r w, s.readSeq = some r → s.writeSeq = some w → Spans N s r w

/-- Nothing written, or a window. -/
def Sound (N : ℕ) (s : JitterBuffer) : Prop :=
  s.writeSeq = none ∨ ∃ r w, s.readSeq = some r ∧ s.writeSeq = some w ∧ Spans N s r w

theorem Sound.ringInv {N : ℕ} {s : JitterBuffer} (h : Sound N s) : RingInv N s := by
  intro r w hr hw
  rcases h with h | ⟨r', w', hr', hw', h⟩
  · rw [h] at hw
    cases hw
  · rw [hr, Option.some.injEq] at hr'
    rw [hw, Option.some.injEq] at hw'
    subst hr' hw'
    exact h

theorem Spans.congr {N r w : ℕ} {s t : JitterBuffer} (h : Spans N s r w) (hp : t.packets = s.packets)
    (hr : t.readIdx = s.readIdx) (hw : t.writeIdx = s.writeIdx) : Spans N t r w :=
  ⟨hr.trans h.readIdx, hw.trans h.writeIdx, by rw [hp, hr]; exact h.head, h.le, h.lt, by rw [hp]; exact h.between⟩

/-- The read slot is that of `c` and the packets left are of the numbers `c .. w`. -/
structure Rest (N : ℕ) (s : JitterBuffer) (c w : ℕ) : Prop where
  placed : s.Placed N fun _ => True
  readIdx : s.readIdx = c % N
  lt : w < c + N
  between : ∀ i p, s.packets i = some p → c ≤ p.seq ∧ p.seq ≤ w

theorem Spans.rest {N r w : ℕ} {s : JitterBuffer} (h : Spans N s r w) (hp : s.Placed N fun _ => True) :
    Rest N s r w :=
  ⟨hp, h.readIdx, h.lt, h.between⟩

theorem Rest.seq_eq {N c w : ℕ} {s : JitterBuffer} {p : RtpPacket} (h : Rest N s c w)
    (hp : s.packets (c % N) = some p) : p.seq = c := by
  have hb := h.between _ p hp
  have hm := (h.placed _ p hp).1
  have hlt := h.lt
  exact (Ring.eq_of_mod_eq hm (by omega) (by omega)).symm

theorem Rest.succ_le {N c w i : ℕ} {s : JitterBuffer} {p : RtpPacket} (h : Rest N s c w)
    (hp : s.packets i = some p) (hi : i ≠ s.readIdx) : c + 1 ≤ p.seq := by
  have hb := h.between i p hp
  have hm := (h.placed i p hp).1
  have hne : p.seq ≠ c := by
    intro he
    apply hi
    rw [hm, he, h.readIdx]
  omega

theorem Rest.dropRead {N c w : ℕ} {s : JitterBuffer} (h : Rest N s c w) : Rest N (s.dropRead N) (c + 1) w := by
  refine ⟨h.placed.clears (clears_dropRead N s), ?_, by have := h.lt; omega, ?_⟩
  · change (s.readIdx + 1) % N = (c + 1) % N
    rw [h.readIdx, Ring.succ_mod]
  · intro i p hp
    have hs := clears_dropRead N s i p hp
    refine ⟨h.succ_le hs ?_, (h.between i p hs).2⟩
    rintro rfl
    simp [JitterBuffer.dropRead, setSlot] at hp

theorem Rest.skip {N c w : ℕ} {s : JitterBuffer} (h : Rest N s c w) (he : s.packets s.readIdx = none) :
    Rest N { s with readIdx := (s.readIdx + 1) % N } (c + 1) w := by
  refine ⟨h.placed, ?_, by have := h.lt; omega, ?_⟩
  · change (s.readIdx + 1) % N = (c + 1) % N
    rw [h.readIdx, Ring.succ_mod]
  · intro i p hp
    refine ⟨h.succ_le hp ?_, (h.between i p hp).2⟩
    rintro rfl
    rw [show s.packets s.readIdx = some p from hp] at he
    cases he

theorem Rest.spans {N c w : ℕ} {s t : JitterBuffer} {p : RtpPacket} (h : Rest N s c w)
    (hp : s.packets s.readIdx = some p) (hw : t.writeIdx = w % N) (ht : t.packets = s.packets)
    (hr : t.readIdx = s.readIdx) : Spans N t c w := by
  have hc : p.seq = c := h.seq_eq (h.readIdx ▸ hp)
  have hb := h.between _ p hp
  exact ⟨hr.trans h.readIdx, hw, ⟨p, by rw [ht, hr, hp], hc⟩, by omega, h.lt, by rw [ht]; exact h.between⟩

/-! ## Walks of the read slot -/

theorem nextIFrame_some {s : JitterBuffer} {ts : ℕ} {p : RtpPacket} (h : s.nextIFrame ts = some p) :
    s.packets s.readIdx = some p ∧ p.isIFrame = true ∧ p.ts ≠ ts := by
  obtain ⟨hp, hc⟩ := Option.filter_eq_some_iff.mp h
  simp only [Bool.and_eq_true, bne_iff_ne] at hc
  exact ⟨hp, hc.1, hc.2⟩

theorem nextIFrame_none {s : JitterBuffer} {ts : ℕ} {p : RtpPacket} (h : s.nextIFrame ts = none)
    (hp : s.packets s.readIdx = some p) : ¬ (p.isIFrame = true ∧ p.ts ≠ ts) := by
  intro ⟨hi, ht⟩
  simp [nextIFrame, hp, hi, ht] at h

/-- Emptying slots moves nothing but the read slot. -/
theorem iterate_dropRead_fields (N n : ℕ) (s : JitterBuffer) :
    ((JitterBuffer.dropRead N)^[n] s).writeIdx = s.writeIdx ∧
      ((JitterBuffer.dropRead N)^[n] s).writeSeq = s.writeSeq := by
  induction n generalizing s with
  | zero => exact ⟨rfl, rfl⟩
  | succ n ih =>
    rw [Function.iterate_succ_apply]
    exact ih (s.dropRead N)

theorem iterate_clears {N : ℕ} (n : ℕ) (s : JitterBuffer) : Clears s ((JitterBuffer.dropRead N)^[n] s) := by
  induction n generalizing s with
  | zero => exact Clears.refl s
  | succ n ih =>
    rw [Function.iterate_succ_apply]
    exact (clears_dropRead N s).trans (ih (s.dropRead N))

theorem Rest.iterate {N c w : ℕ} {s : JitterBuffer} (h : Rest N s c w) (n : ℕ) :
    Rest N ((JitterBuffer.dropRead N)^[n] s) (c + n) w := by
  induction n generalizing s c with
  | zero => exact h
  | succ n ih =>
    rw [Function.iterate_succ_apply, show c + (n + 1) = c + 1 + n from by omega]
    exact ih h.dropRead

section Walk
variable {N : ℕ}

theorem iterate_dropRead_readIdx (n : ℕ) {s : JitterBuffer} (hr : s.readIdx < N) :
    ((JitterBuffer.dropRead N)^[n] s).readIdx = (s.readIdx + n) % N := by
  induction n with
  | zero => exact (Nat.mod_eq_of_lt hr).symm
  | succ n ih =>
    rw [Function.iterate_succ_apply', ← Nat.add_assoc, ← Ring.succ_mod, ← ih]
    rfl

/-- `n` turns empty the `n` slots from the read slot on, and no other. -/
theorem iterate_dropRead_slots (n : ℕ) {s : JitterBuffer} (hr : s.readIdx < N) (i : ℕ) (p : RtpPacket) :
    ((JitterBuffer.dropRead N)^[n] s).packets i = some p ↔
      s.packets i = some p ∧ ∀ j < n, (s.readIdx + j) % N ≠ i := by
  induction n with
  | zero => simp
  | succ n ih =>
    rw [Function.iterate_succ_apply']
    have hidx := iterate_dropRead_readIdx n hr
    by_cases hi : i = (s.readIdx + n) % N
    · simp only [dropRead, setSlot, hidx, hi, if_true, reduceCtorEq, false_iff]
      rintro ⟨_, hoff⟩
      exact hoff n (Nat.lt_succ_self n) rfl
    · simp only [dropRead, setSlot, hidx, hi, if_false, ih]
      refine and_congr_right fun _ => ⟨fun hoff j hj => ?_, fun hoff j hj => hoff j (by omega)⟩
      by_cases hjn : j = n
      · rw [hjn]
        exact Ne.symm hi
      · exact hoff j (by omega)

/-- The slot `k` places behind the read slot holds an I-frame of another timestamp. -/
def StopsAt (N ts : ℕ) (s : JitterBuffer) (k : ℕ) : Prop :=
  ∃ p, s.packets ((s.readIdx + k) % N) = some p ∧ p.isIFrame = true ∧ p.ts ≠ ts

theorem stopsAt_dropRead {ts k : ℕ} {s : JitterBuffer} (hr : s.readIdx < N) (hk : k + 1 < N) :
    StopsAt N ts (s.dropRead N) k ↔ StopsAt N ts s (k + 1) := by
  have hidx : ((s.dropRead N).readIdx + k) % N = (s.readIdx + (k + 1)) % N := by
    change ((s.readIdx + 1) % N + k) % N = _
    rw [Nat.mod_add_mod, Nat.add_assoc, Nat.add_comm 1 k]
  have hne : (s.readIdx + (k + 1)) % N ≠ s.readIdx := by
    have := Ring.mod_ne_of_lt (N := N) (show s.readIdx < s.readIdx + (k + 1) by omega) (by omega)
    rw [Nat.mod_eq_of_lt hr] at this
    exact this.symm
  unfold StopsAt
  rw [hidx]
  simp [dropRead, setSlot, hne]

/-- The walk of `resync_or_clear` over the `d + 1` slots up to the write slot: it ends at the first
I-frame of another timestamp, or empties them all. -/
theorem resyncLoop_walk (ts turns d : ℕ) {s : JitterBuffer} (hr : s.readIdx < N)
    (hx : s.writeIdx = (s.readIdx + d) % N) (hd : d < N) (ht : d < turns) :
    (∃ k ≤ d, ∃ p, s.packets ((s.readIdx + k) % N) = some p ∧ p.isIFrame = true ∧ p.ts ≠ ts ∧
      (∀ j < k, ¬StopsAt N ts s j) ∧
      resyncLoop N ts turns s =
        { (JitterBuffer.dropRead N)^[k] s with readSeq := some p.seq, iFrameNeeded := false }) ∨
    ((∀ j ≤ d, ¬StopsAt N ts s j) ∧
      resyncLoop N ts turns s = ((JitterBuffer.dropRead N)^[d + 1] s).reset) := by
  induction turns generalizing s d with
  | zero => omega
  | succ turns ih =>
    have hzero : (s.readIdx + 0) % N = s.readIdx := Nat.mod_eq_of_lt hr
    unfold resyncLoop
    split
    · next p hn =>
      obtain ⟨hp, hi, hts⟩ := nextIFrame_some hn
      exact Or.inl ⟨0, Nat.zero_le d, p, by rw [hzero, hp], hi, hts, fun j hj => absurd hj (Nat.not_lt_zero j), rfl⟩
    · next hn =>
      have hnot : ¬StopsAt N ts s 0 := by
        rintro ⟨p, hp, h⟩
        rw [hzero] at hp
        exact nextIFrame_none hn hp h
      split
      · next he =>
        have hd0 : d = 0 := by
          have := Ring.eq_of_mod_eq (N := N) (a := s.readIdx + d) (b := s.readIdx)
            (by rw [← hx, ← he, Nat.mod_eq_of_lt hr]) (by omega) (by omega)
          omega
        subst hd0
        refine Or.inr ⟨fun j hj => ?_, rfl⟩
        rwa [Nat.le_zero.mp hj]
      · next he =>
        have hdpos : d ≠ 0 := by
          rintro rfl
          exact he (hx.trans hzero).symm
        obtain ⟨d, rfl⟩ : ∃ e, d = e + 1 := ⟨d - 1, by omega⟩
        have hdrop : (s.dropRead N).readIdx = (s.readIdx + 1) % N := rfl
        have hx' : (s.dropRead N).writeIdx = ((s.dropRead N).readIdx + d) % N := by
          rw [hdrop, Nat.mod_add_mod, Nat.add_assoc, Nat.add_comm 1 d]
          exact hx
        -- Nothing before the read slot, and from there on what the rest of the walk sees.
        have hfirst : ∀ j ≤ d + 1, (∀ i < j, ¬StopsAt N ts (s.dropRead N) i) →
          ∀ i < j + 1, ¬StopsAt N ts s i := by
          intro j hj hall i hi
          cases i with
          | zero => exact hnot
          | succ i =>
            rw [← stopsAt_dropRead hr (by omega)]
            exact hall i (by omega)
        rcases ih d (hdrop ▸ Nat.mod_lt _ (by omega)) hx' (by omega) (by omega) with
          ⟨k, hk, p, hp, hi, hts, hbefore, heq⟩ | ⟨hall, heq⟩
        · refine Or.inl ⟨k + 1, by omega, p, ?_, hi, hts, hfirst k (by omega) hbefore, ?_⟩
          · have hslot := clears_dropRead N s _ p hp
            rwa [hdrop, Nat.mod_add_mod, Nat.add_assoc, Nat.add_comm 1 k] at hslot
          · rw [heq, Function.iterate_succ_apply]
        · refine Or.inr ⟨fun j hj => ?_, by rw [heq, Function.iterate_succ_apply (n := d + 1)]⟩
          exact hfirst (d + 1) le_rfl (fun i hi => hall i (by omega)) j (by omega)

end Walk

/-- The resynchronisation loop with the write slot at that of `x`: it stops at an I-frame
of `c .. x` or empties those slots and resets. -/
theorem resyncLoop_cases {N c x w : ℕ} {s : JitterBuffer} (ts turns : ℕ) (h : Rest N s c w) (hcx : c ≤ x)
    (hxw : x ≤ w) (hx : s.writeIdx = x % N) (ht : x < c + turns) :
    (∃ y p u, c ≤ y ∧ y ≤ x ∧ s.packets (y % N) = some p ∧ (p.isIFrame = true ∧ p.ts ≠ ts) ∧
      Rest N u y w ∧ u.packets u.readIdx = some p ∧ u.writeIdx = s.writeIdx ∧ u.writeSeq = s.writeSeq ∧
      resyncLoop N ts turns s = { u with readSeq := some y, iFrameNeeded := false }) ∨
    (∃ u : JitterBuffer, resyncLoop N ts turns s = u.reset ∧
      (∀ i p, u.packets i = some p → i ≠ x % N ∧ x < p.seq ∧ p.seq ≤ w) ∧
      ∀ y p, c ≤ y → y ≤ x → s.packets (y % N) = some p → ¬ (p.isIFrame = true ∧ p.ts ≠ ts)) := by
  have hlt := h.lt
  have hr : s.readIdx < N := by
    rw [h.readIdx]
    exact Nat.mod_lt _ (by omega)
  have hslot : ∀ k, (s.readIdx + k) % N = (c + k) % N := by
    intro k
    rw [h.readIdx, Nat.mod_add_mod]
  obtain ⟨d, rfl⟩ : ∃ d, x = c + d := ⟨x - c, by omega⟩
  rcases resyncLoop_walk ts turns d hr (hx.trans (hslot d).symm) (by omega) (by omega) with
    ⟨k, hk, p, hp, hi, hts, _, heq⟩ | ⟨hall, heq⟩
  · have hpc : s.packets ((c + k) % N) = some p := hslot k ▸ hp
    have hu := h.iterate k
    obtain ⟨hwi, hws⟩ := iterate_dropRead_fields N k s
    have hseq : p.seq = c + k := by
      have hb := h.between _ p hpc
      exact (Ring.eq_of_mod_eq (h.placed _ p hpc).1 (by omega) (by omega)).symm
    refine Or.inl ⟨c + k, p, _, by omega, by omega, hpc, ⟨hi, hts⟩, hu, ?_, hwi, hws, by rw [heq, hseq]⟩
    -- The slots emptied on the way are others.
    rw [iterate_dropRead_readIdx k hr, iterate_dropRead_slots k hr]
    refine ⟨hp, fun j hj => ?_⟩
    rw [hslot, hslot]
    exact Ring.mod_ne_of_lt (by omega) (by omega)
  · refine Or.inr ⟨_, heq, fun i p hp => ?_, ?_⟩
    · have hb := (h.iterate (d + 1)).between i p hp
      obtain ⟨_, hoff⟩ := (iterate_dropRead_slots (d + 1) hr i p).mp hp
      refine ⟨fun hi => hoff d (by omega) ?_, by omega, hb.2⟩
      rw [hslot, hi]
    · intro y p h1 h2 hp hframe
      obtain ⟨j, rfl⟩ : ∃ j, y = c + j := ⟨y - c, by omega⟩
      exact hall j (by omega) ⟨p, by rw [hslot, hp], hframe⟩

theorem writeSeq_resyncLoop (N ts turns : ℕ) (s : JitterBuffer) (h : s.writeSeq = none) :
    (resyncLoop N ts turns s).writeSeq = none := by
  induction turns generalizing s with
  | zero => rfl
  | succ turns ih =>
    unfold resyncLoop
    split
    · exact h
    · split
      · rfl
      · exact ih (s.dropRead N) h

theorem resyncOrClear_of_some {N : ℕ} {s : JitterBuffer} {p : RtpPacket} (h : s.packets s.readIdx = some p) :
    s.resyncOrClear N = resyncLoop N p.ts N s := by
  simp [resyncOrClear, h]

theorem writeSeq_resync (N : ℕ) (s : JitterBuffer) (h : s.writeSeq = none) :
    (s.resyncOrClear N).writeSeq = none := by
  unfold resyncOrClear
  split
  · rfl
  · exact writeSeq_resyncLoop N _ N s h

theorem Sound.resync {N : ℕ} {s : JitterBuffer} (hp : s.Placed N fun _ => True) (h : Sound N s) :
    Sound N (s.resyncOrClear N) := by
  rcases h with h | ⟨r, w, hr, hw, h⟩
  · exact Or.inl (writeSeq_resync N s h)
  · obtain ⟨p, hhead, _⟩ := h.head
    have hlt := h.lt
    rw [resyncOrClear_of_some hhead]
    rcases resyncLoop_cases p.ts N (h.rest hp) h.le le_rfl h.writeIdx hlt with
      ⟨y, q, u, _, _, _, _, hu, huhead, hwi, hws, heq⟩ | ⟨u, heq, _, _⟩
    · rw [heq]
      exact Or.inr ⟨y, w, rfl, hws.trans hw, hu.spans huhead (hwi.trans h.writeIdx) rfl rfl⟩
    · rw [heq]
      exact Or.inl rfl

theorem clearTo_ok {N target turns : ℕ} {s t : JitterBuffer} (h : clearTo N target turns s = .ok t) :
    ∃ n ≤ turns, t = (JitterBuffer.dropRead N)^[n] s ∧ t.readIdx = target := by
  induction turns generalizing s with
  | zero =>
    simp only [clearTo] at h
    split at h
    · next he => cases h; exact ⟨0, le_rfl, rfl, he⟩
    · cases h
  | succ turns ih =>
    simp only [clearTo] at h
    split at h
    · next he => cases h; exact ⟨0, Nat.zero_le _, rfl, he⟩
    · obtain ⟨n, hn, ht, hr⟩ := ih h
      exact ⟨n + 1, by omega, by rw [ht, Function.iterate_succ_apply], hr⟩

theorem Rest.findNext {N c w : ℕ} {s : JitterBuffer} (h : Rest N s c w) (hwi : s.writeIdx = w % N)
    (hws : s.writeSeq = some w) (turns : ℕ) : Sound N (findNext N turns s) := by
  induction turns generalizing s c with
  | zero => exact Or.inl rfl
  | succ turns ih =>
    unfold JitterBuffer.findNext
    split
    · next p hp =>
      have hc : p.seq = c := h.seq_eq (h.readIdx ▸ hp)
      exact Or.inr ⟨c, w, by rw [hc], hws, h.spans hp hwi rfl rfl⟩
    · next he => exact ih (h.skip he) hwi hws

theorem writeSeq_findNext (N turns : ℕ) (s : JitterBuffer) (h : s.writeSeq = none) :
    (findNext N turns s).writeSeq = none := by
  induction turns generalizing s with
  | zero => rfl
  | succ turns ih =>
    unfold JitterBuffer.findNext
    split
    · exact h
    · exact ih _ h

theorem Sound.deliver {N : ℕ} {s s' : JitterBuffer} {p : RtpPacket} {data : List UInt8} {idx now : ℕ}
    {d : Option Delivery} (hp : s.Placed N fun _ => True) (h : Sound N s)
    (hd : s.deliver N p data idx now = .ok (d, s')) : Sound N s' := by
  obtain ⟨t, x, b, slept, hc, rfl, _⟩ := deliver_ok hd
  obtain ⟨n, _, rfl, _⟩ := clearTo_ok hc
  obtain ⟨hwi, hws⟩ := iterate_dropRead_fields N n s
  have hfind : Sound N (JitterBuffer.findNext N N ((JitterBuffer.dropRead N)^[n] s)) := by
    rcases h with h | ⟨r, w, hr, hw, h⟩
    · exact Or.inl (writeSeq_findNext N N _ (hws.trans h))
    · exact ((h.rest hp).iterate n).findNext (hwi.trans h.writeIdx) (hws.trans hw) N
  rcases hfind with hf | ⟨r, w, hr, hw, hf⟩
  · exact Or.inl hf
  · exact Or.inr ⟨r, w, hr, hw, hf.congr rfl rfl rfl⟩

theorem Sound.pop {N : ℕ} {clk : ℕ → ℕ} {s s' : JitterBuffer} {d : Option Delivery}
    (hp : s.Placed N fun _ => True) (h : Sound N s) (hpop : s.pop N clk = .ok (d, s')) : Sound N s' := by
  obtain ⟨_, t, hres, hcase⟩ := pop_cases hpop
  have ht : Placed N (fun _ => True) t ∧ Sound N t :=
    hres.preserves (P := fun u => Placed N (fun _ => True) u ∧ Sound N u)
      (fun u hu => ⟨hu.1.clears (clears_resync N u), hu.2.resync hu.1⟩) ⟨hp, h⟩
  rcases hcase with ⟨_, rfl⟩ | ⟨run, last, now, _, _, _, _, hd⟩
  · exact ht.2
  · exact ht.2.deliver ht.1 hd

/-! ## Adding -/

/-- The collision of `q` with the window makes the resynchronisation empty it up to the slot
of `q` and reset: no I-frame but the one being read lies before. -/
def ResyncEmpties (N : ℕ) (s : JitterBuffer) (r w q : ℕ) : Prop :=
  ∃ x, r ≤ x ∧ x ≤ w ∧ x % N = q % N ∧ ∀ y p h, r ≤ y → y ≤ x → s.packets (y % N) = some p →
    s.packets s.readIdx = some h → ¬ (p.isIFrame = true ∧ p.ts ≠ h.ts)

/-- What the window needs of a step: an accepted packet stretches it to fewer than `N`
numbers, or collides so that everything before it is dropped, or meets a buffer without a
window that holds no other packet. -/
def Keeps (N : ℕ) (s : JitterBuffer) : Op → Prop
  | .pop _ => True
  | .add p => Accepted N s p →
    (∀ r w, s.readSeq = some r → s.writeSeq = some w →
      max w p.seq < min r p.seq + N ∨ (w < p.seq ∧ ResyncEmpties N s r w p.seq)) ∧
    (s.readSeq = none ∨ s.writeSeq = none → ∀ i q, s.packets i = some q → q.seq = p.seq)

theorem Spans.setSlot {N r w : ℕ} {s t : JitterBuffer} {p : RtpPacket} (h : Spans N s r w)
    (hlt : max w p.seq < min r p.seq + N) (ht : t.packets = (s.setSlot (p.seq % N) (some p)).packets)
    (hr : t.readIdx = min r p.seq % N) (hw : t.writeIdx = max w p.seq % N) :
    Spans N t (min r p.seq) (max w p.seq) := by
  have hle := h.le
  refine ⟨hr, hw, ?_, by omega, hlt, ?_⟩
  · rw [hr, ht]
    by_cases hpr : p.seq ≤ r
    · rw [Nat.min_eq_right hpr]
      exact ⟨p, by simp [JitterBuffer.setSlot], rfl⟩
    · obtain ⟨q, hq, hqr⟩ := h.head
      have hne : r % N ≠ p.seq % N := Ring.mod_ne_of_lt (by omega) (by omega)
      rw [h.readIdx] at hq
      rw [Nat.min_eq_left (by omega)]
      exact ⟨q, by simpa [JitterBuffer.setSlot, hne] using hq, hqr⟩
  · intro i q hq
    rw [ht] at hq
    by_cases hi : i = p.seq % N
    · simp only [JitterBuffer.setSlot, hi, if_true, Option.some.injEq] at hq
      subst hq
      omega
    · simp only [JitterBuffer.setSlot, hi, if_false] at hq
      have := h.between i q hq
      omega

theorem collided_iff {N r w : ℕ} (hN : 0 < N) {s : JitterBuffer} (h : Spans N s r w) (q : ℕ) :
    s.collided s.writeIdx (q % N) = true ↔ ∃ x, r ≤ x ∧ x ≤ w ∧ x % N = q % N := by
  rw [← Ring.mem_arc_iff (Nat.mod_lt q hN) h.le h.lt, collided, h.readIdx, h.writeIdx]
  split <;> simp

theorem store_of_window {N r w : ℕ} {s : JitterBuffer} (p : RtpPacket) (hr : s.readSeq = some r)
    (hw : s.writeSeq = some w) :
    s.store N p = JitterBuffer.setSlot
      (if p.seq < r then { s with readIdx := p.seq % N, readSeq := some p.seq }
        else if p.seq > w then s.handleNewWriteHead N p.seq (p.seq % N) else s) (p.seq % N) (some p) := by
  cases s
  subst hr hw
  rfl

/-- A packet that fits stretches the window to its number. -/
theorem store_fits {N r w : ℕ} (hN : 0 < N) {s : JitterBuffer} {p : RtpPacket} (h : Spans N s r w)
    (hr : s.readSeq = some r) (hw : s.writeSeq = some w) (hlt : max w p.seq < min r p.seq + N) :
    (s.store N p).readSeq = some (min r p.seq) ∧ (s.store N p).writeSeq = some (max w p.seq) ∧
      Spans N (s.store N p) (min r p.seq) (max w p.seq) := by
  have hle := h.le
  rw [store_of_window p hr hw]
  split
  · next hlate =>
    have hmin : min r p.seq = p.seq := Nat.min_eq_right (by omega)
    have hmax : max w p.seq = w := Nat.max_eq_left (by omega)
    refine ⟨by rw [hmin]; rfl, by rw [hmax]; exact hw, h.setSlot hlt rfl (by rw [hmin]; rfl) ?_⟩
    rw [hmax]
    exact h.writeIdx
  · next hlate =>
    have hmin : min r p.seq = r := Nat.min_eq_left (by omega)
    split
    · next hnew =>
      have hmax : max w p.seq = p.seq := Nat.max_eq_right (by omega)
      have hnc : s.collided s.writeIdx (p.seq % N) ≠ true := by
        intro hc
        obtain ⟨x, h1, h2, hx⟩ := (collided_iff hN h p.seq).mp hc
        have := Ring.eq_of_mod_eq hx (by omega) (by omega)
        omega
      rw [newHead_free hnc]
      refine ⟨by rw [hmin]; exact hr, by rw [hmax]; rfl, h.setSlot hlt rfl ?_ (by rw [hmax]; rfl)⟩
      rw [hmin]
      exact h.readIdx
    · next hnew =>
      have hmax : max w p.seq = w := Nat.max_eq_left (by omega)
      refine ⟨by rw [hmin]; exact hr, by rw [hmax]; exact hw, h.setSlot hlt rfl ?_ ?_⟩
      · rw [hmin]
        exact h.readIdx
      · rw [hmax]
        exact h.writeIdx

theorem store_fits_slots {N r w : ℕ} (hN : 0 < N) {s : JitterBuffer} {p : RtpPacket} (h : Spans N s r w)
    (hr : s.readSeq = some r) (hw : s.writeSeq = some w) (hrp : r ≤ p.seq) (hlt : p.seq < r + N) :
    (s.store N p).packets = (s.setSlot (p.seq % N) (some p)).packets ∧
      (s.store N p).iFrameNeeded = s.iFrameNeeded := by
  rw [store_of_window p hr hw, if_neg (by omega)]
  split
  · next hnew =>
    have hnc : ¬ s.collided s.writeIdx (p.seq % N) = true := by
      intro hc
      obtain ⟨x, h1, h2, hx⟩ := (collided_iff hN h p.seq).mp hc
      have := Ring.eq_of_mod_eq hx (by omega) (by omega)
      omega
    rw [newHead_free hnc]
    exact ⟨rfl, rfl⟩
  · exact ⟨rfl, rfl⟩

/-- A jump of `N` or more over the window either leaves read and write numbers too far apart
or empties the window up to the slot of the packet. -/
theorem store_jump {N r w : ℕ} (hN : 0 < N) {s : JitterBuffer} {p : RtpPacket}
    (hp : s.Placed N fun _ => True) (h : Spans N s r w) (hr : s.readSeq = some r)
    (hw : s.writeSeq = some w) (hwq : w < p.seq) (hjump : r + N ≤ p.seq) :
    (¬ ResyncEmpties N s r w p.seq ∧
      ∃ y, (s.store N p).readSeq = some y ∧ (s.store N p).writeSeq = some p.seq ∧ y + N ≤ p.seq) ∨
    (ResyncEmpties N s r w p.seq ∧ (s.store N p).writeSeq = none ∧
      (s.handleNewWriteHead N p.seq (p.seq % N)).packets (p.seq % N) = none) := by
  have hle := h.le
  have hlt := h.lt
  have hstore : s.store N p = (s.handleNewWriteHead N p.seq (p.seq % N)).setSlot (p.seq % N) (some p) := by
    rw [store_of_window p hr hw, if_neg (by omega), if_pos (by omega)]
  rw [hstore]
  by_cases hc : s.collided s.writeIdx (p.seq % N) = true
  · obtain ⟨x, h1, h2, hx⟩ := (collided_iff hN h p.seq).mp hc
    obtain ⟨hd, hhead, hdseq⟩ := h.head
    -- The numbers of one slot are `N` apart, so `x + N ≤ p.seq`.
    have hxq : x + N ≤ p.seq := by
      by_contra hlt'
      have := Ring.eq_of_mod_eq hx (by omega) (by omega)
      omega
    have heq : s.handleNewWriteHead N p.seq (p.seq % N) =
        resyncLoop N hd.ts N { s with writeIdx := p.seq % N, writeSeq := some p.seq } := by
      rw [newHead_collided hc]
      exact resyncOrClear_of_some (s := { s with writeIdx := p.seq % N, writeSeq := some p.seq }) hhead
    have hrest : Rest N { s with writeIdx := p.seq % N, writeSeq := some p.seq } r w :=
      ⟨hp, h.readIdx, hlt, h.between⟩
    rw [heq]
    rcases resyncLoop_cases hd.ts N hrest h1 h2 hx.symm (by omega) with
      ⟨y, q, u, hy1, hy2, hq, hi, _, _, _, hws, hres⟩ | ⟨u, hres, hnone, hall⟩
    · refine Or.inl ⟨?_, y, by rw [hres]; rfl, by rw [hres]; exact hws, by omega⟩
      rintro ⟨x', h1', h2', hx', hall⟩
      have hxx : x' = x := Ring.eq_of_mod_eq (hx'.trans hx.symm) (by omega) (by omega)
      subst hxx
      exact hall y q hd hy1 hy2 hq hhead hi
    · refine Or.inr ⟨⟨x, h1, h2, hx, ?_⟩, by rw [hres]; rfl, ?_⟩
      · intro y q hd' hy1 hy2 hq hhead'
        rw [hhead, Option.some.injEq] at hhead'
        subst hhead'
        exact hall y q hy1 hy2 hq
      · rw [hres, Option.eq_none_iff_forall_ne_some]
        intro q hq
        exact (hnone _ q hq).1 hx.symm
  · rw [newHead_free hc]
    refine Or.inl ⟨?_, r, hr, rfl, hjump⟩
    rintro ⟨x, h1, h2, hx, _⟩
    exact hc ((collided_iff hN h p.seq).mpr ⟨x, h1, h2, hx⟩)

theorem store_of_idle {N : ℕ} {s : JitterBuffer} (p : RtpPacket)
    (h : s.readSeq = none ∨ s.writeSeq = none) : s.store N p = s.initializeBuffer p (p.seq % N) := by
  cases s
  cases h with
  | inl h =>
    subst h
    rfl
  | inr h =>
    subst h
    unfold store
    split
    · next h => cases h
    · rfl

/-! ## Steps -/

/-- The collision resynchronisation emptied the slot of `p` before `p` was stored. -/
def Dropped (N : ℕ) (s : JitterBuffer) (p : RtpPacket) : Prop :=
  ∃ r w, s.readSeq = some r ∧ s.writeSeq = some w ∧ w < p.seq ∧
    (s.handleNewWriteHead N p.seq (p.seq % N)).packets (p.seq % N) = none

/-- A step that ends in a window and overwrites no packet of another number, unless the
collision resynchronisation dropped it. -/
def RingStep (N : ℕ) (s : JitterBuffer) (op : Op) (s' : JitterBuffer) : Prop :=
  RingInv N s' ∧ ∀ p z, op = .add p → s.packets (p.seq % N) = some z → z.seq ≠ p.seq →
    s'.packets (p.seq % N) = some p → Dropped N s p

section Step
variable {N : ℕ} {s : JitterBuffer} {p : RtpPacket}

theorem store_idle_iff (hN : 0 < N) (hw : s.writeSeq = none) :
    RingStep N s (.add p) (s.store N p) ↔ ∀ i q, s.packets i = some q → q.seq = p.seq := by
  rw [store_of_idle p (Or.inr hw)]
  have hslot : ∀ i q, (s.initializeBuffer p (p.seq % N)).packets i = some q →
      q = p ∨ s.packets i = some q := by
    intro i q hq
    by_cases hi : i = p.seq % N
    · simp only [initializeBuffer, setSlot, hi, if_true, Option.some.injEq] at hq
      exact Or.inl hq.symm
    · simp only [initializeBuffer, setSlot, hi, if_false] at hq
      exact Or.inr hq
  constructor
  · intro h i q hq
    by_contra hne
    by_cases hi : i = p.seq % N
    · subst hi
      obtain ⟨_, w, _, hw', _⟩ := h.2 p q rfl hq hne (by simp [initializeBuffer, setSlot])
      rw [hw] at hw'
      cases hw'
    · have hb := (h.1 p.seq p.seq rfl rfl).between i q (by simpa [initializeBuffer, setSlot, hi] using hq)
      omega
  · intro h
    refine ⟨?_, fun q z hop hz hne _ => ?_⟩
    · intro r w hr hw
      cases hr
      cases hw
      refine ⟨rfl, rfl, ⟨p, by simp [initializeBuffer, setSlot], rfl⟩, le_rfl, by omega, ?_⟩
      intro i q hq
      rcases hslot i q hq with rfl | hq
      · omega
      · have := h i q hq
        omega
    · cases hop
      exact absurd (h _ z hz) hne

theorem store_window_iff (hN : 0 < N) (hp : s.Placed N fun _ => True) {r w : ℕ} (h : Spans N s r w)
    (hr : s.readSeq = some r) (hw : s.writeSeq = some w) :
    RingStep N s (.add p) (s.store N p) ↔
      max w p.seq < min r p.seq + N ∨ (w < p.seq ∧ ResyncEmpties N s r w p.seq) := by
  have hle := h.le
  have hlt := h.lt
  by_cases hf : max w p.seq < min r p.seq + N
  · obtain ⟨hr', hw', hs⟩ := store_fits hN h hr hw hf
    refine ⟨fun _ => Or.inl hf, fun _ => ⟨Sound.ringInv (Or.inr ⟨_, _, hr', hw', hs⟩), ?_⟩⟩
    intro q z hop hz hne _
    cases hop
    have hb := h.between _ z hz
    exact absurd (Ring.eq_of_mod_eq (hp _ z hz).1 (by omega) (by omega)).symm hne
  · by_cases hlate : p.seq < r
    · have hstore := store_of_window (N := N) p hr hw
      rw [if_pos hlate] at hstore
      constructor
      · intro hstep
        have hs := hstep.1 p.seq w (by rw [hstore]; rfl) (by rw [hstore]; exact hw)
        have := hs.lt
        omega
      · rintro (h' | ⟨h', _⟩) <;> omega
    · have hwq : w < p.seq := by omega
      rcases store_jump hN hp h hr hw hwq (by omega) with ⟨hre, y, hr', hw', hy⟩ | ⟨hre, hw', hdrop⟩
      · constructor
        · intro hstep
          have := (hstep.1 y p.seq hr' hw').lt
          omega
        · rintro (h' | ⟨_, h'⟩)
          · exact absurd h' hf
          · exact absurd h' hre
      · refine ⟨fun _ => Or.inr ⟨hwq, hre⟩, fun _ => ⟨Sound.ringInv (Or.inl hw'), ?_⟩⟩
        intro q z hop _ _ _
        cases hop
        exact ⟨r, w, hr, hw, hwq, hdrop⟩

theorem store_sound (hN : 0 < N) (hp : s.Placed N fun _ => True) (h : Sound N s)
    (hstep : RingStep N s (.add p) (s.store N p)) : Sound N (s.store N p) := by
  rcases h with hw | ⟨r, w, hr, hw, h⟩
  · have hstore := store_of_idle (N := N) p (Or.inr hw)
    have hs := hstep.1 p.seq p.seq (by rw [hstore]; rfl) (by rw [hstore]; rfl)
    exact Or.inr ⟨p.seq, p.seq, by rw [hstore]; rfl, by rw [hstore]; rfl, hs⟩
  · by_cases hf : max w p.seq < min r p.seq + N
    · exact Or.inr ⟨_, _, store_fits hN h hr hw hf⟩
    · rcases (store_window_iff hN hp h hr hw).mp hstep with hf' | ⟨hwq, hre⟩
      · exact absurd hf' hf
      · have := h.le
        rcases store_jump hN hp h hr hw hwq (by omega) with ⟨hre', _⟩ | ⟨_, hw', _⟩
        · exact absurd hre hre'
        · exact Or.inl hw'

theorem resyncLoop_stats (ts turns m q) (s : JitterBuffer) :
    (resyncLoop N ts turns { s with metrics := m, maxSeqSeen := q }).packets =
      (resyncLoop N ts turns s).packets := by
  induction turns generalizing s with
  | zero => rfl
  | succ turns ih =>
    unfold resyncLoop
    have hn : ({ s with metrics := m, maxSeqSeen := q } : JitterBuffer).nextIFrame ts = s.nextIFrame ts := rfl
    rw [hn]
    split
    · rfl
    · by_cases he : s.readIdx = s.writeIdx
      · rw [if_pos he, if_pos he]
        rfl
      · rw [if_neg he, if_neg he]
        exact ih (s.dropRead N)

/-- The statistics have no part in what a collision drops. -/
theorem dropped_stats (m q) : Dropped N { s with metrics := m, maxSeqSeen := q } p ↔ Dropped N s p := by
  have hpk : (({ s with metrics := m, maxSeqSeen := q } : JitterBuffer).handleNewWriteHead N p.seq
      (p.seq % N)).packets = (s.handleNewWriteHead N p.seq (p.seq % N)).packets := by
    by_cases hc : s.collided s.writeIdx (p.seq % N) = true
    · rw [newHead_collided (s := { s with metrics := m, maxSeqSeen := q }) hc, newHead_collided hc]
      unfold resyncOrClear
      dsimp only
      split
      · rfl
      · exact resyncLoop_stats _ _ m q { s with writeIdx := p.seq % N, writeSeq := some p.seq }
    · rw [newHead_free (s := { s with metrics := m, maxSeqSeen := q }) hc, newHead_free hc]
  unfold Dropped
  rw [hpk]

end Step

/-- Under the invariant `Keeps` is what the step needs, and the step gives the invariant back. -/
theorem ringStep_iff {N : ℕ} (hN : 0 < N) {s s' : JitterBuffer} {op : Op} {o : Option Delivery}
    (hp : s.Placed N fun _ => True) (h : Sound N s) (hstep : (machine N).step s op = some (s', o)) :
    (RingStep N s op s' ↔ Keeps N s op) ∧ (Keeps N s op → Sound N s') := by
  cases op with
  | pop clk =>
    have hs := h.pop hp (step_pop.mp hstep)
    exact ⟨⟨fun _ => trivial, fun _ => ⟨hs.ringInv, fun p z hop => by cases hop⟩⟩, fun _ => hs⟩
  | add p =>
    obtain ⟨m, q, hcase⟩ := add_cases (step_add.mp hstep).1
    have hsound : Sound N { s with metrics := m, maxSeqSeen := q } := by
      rcases h with h | ⟨r, w, hr, hw, h⟩
      · exact Or.inl h
      · exact Or.inr ⟨r, w, hr, hw, h.congr rfl rfl rfl⟩
    rcases hcase with ⟨rfl, hna⟩ | ⟨_, hacc, rfl⟩
    · have hkeeps : Keeps N s (.add p) := fun hacc => absurd hacc (hna hN)
      refine ⟨⟨fun _ => hkeeps, fun _ => ⟨hsound.ringInv, ?_⟩⟩, fun _ => hsound⟩
      intro p' z hop hz hne hz'
      cases hop
      have hzp : z = p := Option.some.inj (hz.symm.trans hz')
      exact absurd (by rw [hzp]) hne
    · have hiff : RingStep N s (.add p) (({ s with metrics := m, maxSeqSeen := q } : JitterBuffer).store N p) ↔
          RingStep N { s with metrics := m, maxSeqSeen := q } (.add p)
            (({ s with metrics := m, maxSeqSeen := q } : JitterBuffer).store N p) := by
        constructor
        · intro h
          refine ⟨h.1, fun p' z hop hz hne hs => ?_⟩
          cases hop
          exact (dropped_stats m q).mpr (h.2 p z rfl hz hne hs)
        · intro h
          refine ⟨h.1, fun p' z hop hz hne hs => ?_⟩
          cases hop
          exact (dropped_stats m q).mp (h.2 p z rfl hz hne hs)
      have hkeeps : RingStep N { s with metrics := m, maxSeqSeen := q } (.add p)
          (({ s with metrics := m, maxSeqSeen := q } : JitterBuffer).store N p) ↔ Keeps N s (.add p) := by
        rcases h with hw | ⟨r, w, hr, hw, h⟩
        · refine (store_idle_iff (s := { s with metrics := m, maxSeqSeen := q }) hN hw).trans ?_
          refine ⟨fun hall _ => ⟨fun r w _ hw' => ?_, fun _ => hall⟩, fun hk => (hk hacc).2 (Or.inr hw)⟩
          rw [hw] at hw'
          cases hw'
        · refine (store_window_iff (s := { s with metrics := m, maxSeqSeen := q }) hN hp
            (h.congr rfl rfl rfl) hr hw).trans ?_
          refine ⟨fun hc _ => ⟨fun r' w' hr' hw' => ?_, fun hnone => ?_⟩, fun hk => (hk hacc).1 r w hr hw⟩
          · cases hr.symm.trans hr'
            cases hw.symm.trans hw'
            exact hc
          · rw [hr, hw] at hnone
            rcases hnone with hnone | hnone <;> cases hnone
      refine ⟨hiff.trans hkeeps, fun hk => store_sound hN hp hsound (hkeeps.mpr hk)⟩

theorem sound_new (N : ℕ) : Sound N new := Or.inl rfl

end JitterBuffer

/-- **The window over whole runs.** A run from the fresh buffer keeps the representation
invariant at every step exactly when every step meets `Keeps`. -/
theorem window_throughout_iff (N : ℕ) (hN : 2 ≤ N) (ops : List Op) :
    (machine N).Throughout (JitterBuffer.RingStep N) JitterBuffer.new ops ↔
      (machine N).Guarded (JitterBuffer.Keeps N) JitterBuffer.new ops := by
  refine (machine N).throughout_iff_guarded
    (fun s => s.Placed N (fun _ => True) ∧ JitterBuffer.Sound N s) ?_ ?_ ?_
    ⟨JitterBuffer.placed_new N _, JitterBuffer.sound_new N⟩ ops
  · intro s op s' o hs hstep
    exact (JitterBuffer.ringStep_iff (by omega) hs.1 hs.2 hstep).1
  · intro s op s' o hs hk hstep
    exact ⟨JitterBuffer.placed_step hs.1 (fun _ _ => trivial) hstep,
      (JitterBuffer.ringStep_iff (by omega) hs.1 hs.2 hstep).2 hk⟩
  · intro s op hs hstop
    cases op with
    | pop clk => trivial
    | add p =>
      -- `add` always returns
      exfalso
      by_cases hacc : JitterBuffer.Accepted N s p
      · obtain ⟨m, q, ha⟩ := JitterBuffer.add_of_accepted (by omega) hacc
        rw [(step_add.mpr ⟨ha, rfl⟩ : (machine N).step s (.add p) = some (_, none))] at hstop
        cases hstop
      · obtain ⟨m, q, ha⟩ := JitterBuffer.add_of_not_accepted (by omega) hacc
        rw [(step_add.mpr ⟨ha, rfl⟩ : (machine N).step s (.add p) = some (_, none))] at hstop
        cases hstop

/-- Two neighbouring packets in a buffer of four slots. -/
theorem window_two_packets :
    let frame : Media.EncodedFrame := ⟨[[1], [2]], 5, true⟩
    let packet := Media.chunkPacket ⟨2, 96, 7⟩ frame 0
    (machine 4).Throughout (JitterBuffer.RingStep 4) JitterBuffer.new [.add (packet 1), .add (packet 0)] := by
  intro frame packet
  refine (window_throughout_iff 4 (by decide) _).mpr ⟨?_, fun s o hs => ⟨?_, fun _ _ _ => trivial⟩⟩
  · intro _
    refine ⟨fun r w hr _ => ?_, fun _ i q hq => ?_⟩
    · cases hr
    · cases hq
  · cases hs
    intro _
    refine ⟨fun r w hr hw => ?_, fun h => ?_⟩
    · cases hr
      cases hw
      exact Or.inl (by decide)
    · rcases h with h | h <;> cases h

/-- Eight key frames of one packet each; numbers 4 and 7 reach a buffer of two slots. The
second is taken, and then the numbers 4 and 7 stand for two slots. -/
theorem window_lost_by_jump :
    let frames := (List.range 8).map fun i => (⟨[[1]], BitVec.ofNat 128 (40 * (i + 1)), true⟩ : Media.EncodedFrame)
    ∃ p q s, p ∈ Media.packetStream ⟨2, 96, 7⟩ frames 0 ∧
      q ∈ Media.packetStream ⟨2, 96, 7⟩ frames 0 ∧ p ≠ q ∧
      Media.Increasing frames ∧
      (machine 2).run JitterBuffer.new [.add p, .add q] = some (s, [none, none]) ∧
      ¬ JitterBuffer.RingInv 2 s := by
  intro frames
  refine ⟨Media.chunkPacket ⟨2, 96, 7⟩ ⟨[[1]], 200, true⟩ 4 0,
    Media.chunkPacket ⟨2, 96, 7⟩ ⟨[[1]], 320, true⟩ 7 0,
    _, by decide, by decide, by decide, by unfold Media.Increasing; decide, rfl, ?_⟩
  intro h
  have hlt := (h 4 7 rfl rfl).lt
  omega

end RoomRtc.Jitter
