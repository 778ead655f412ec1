import RoomRtc.Jitter.ReadSlot

/-! The first frame after a start. An I-frame is awaited from construction on and again after every
reset; until one is played the packet in the read slot has to be of an I-frame, which a late packet
of a P-frame in front of it or a leftover in slot 0 breaks. -/
namespace RoomRtc.Jitter
open Transport Media
set_option autoImplicit false

namespace JitterBuffer

/-- A call of `resync_or_clear` leaves `i_frame_needed` true. -/
def asksIFrame (N : ℕ) (c : JitterBuffer) : Bool := (c.resyncOrClear N).iFrameNeeded

/-- What a buffer that awaits an I-frame is like: it reads one if it reads anything, and lets no
other packet in while it reads nothing. -/
structure ReadsIFrame (s : JitterBuffer) : Prop where
  head : ∀ p, s.packets s.readIdx = some p → p.isIFrame = true
  idle : s.readSeq = none → s.iFrameNeeded = true
  linked : s.writeSeq = none → s.readSeq = none

/-- After a reset slot 0 is read: the call empties it or it holds no packet of a P-frame. -/
def StartsClean (N : ℕ) (c : JitterBuffer) : Prop :=
  (∃ i < N, IFrameAt c i) ∨ ∀ p, c.packets 0 = some p → p.isIFrame = true ∨ c.collided c.writeIdx 0 = true

/-! ## One call -/

section Calls
variable {N : ℕ} {c : JitterBuffer} {awaiting : Bool}

/-- With nothing to read but the read slot a call never jumps. -/
theorem no_jump_of_eq (hc : Callable N c) (he : c.readIdx = c.writeIdx) : (c.resyncOrClear N).readSeq = none := by
  obtain ⟨p, hp⟩ := hc.head
  have hr := hc.readIdx
  rw [resync_at_writeIdx (by omega) hp he]
  rfl

theorem readsIFrame_resync (hc : Callable N c) (hclean : StartsClean N c)
    (hidle : c.readSeq = none → c.readIdx = c.writeIdx)
    (hlinked : awaiting = true → c.writeSeq = none → c.readSeq = none)
    (ha : asksIFrame N c = true ∨ awaiting = true) : ReadsIFrame (c.resyncOrClear N) := by
  rcases resync_outcome hc with ⟨k, hk, p, _, hp, hi, _, heq⟩ | ⟨hnone, t, heq, hslots⟩
  · have hread : (c.resyncOrClear N).readSeq = some p.seq := by
      rw [heq]
    have hactive : c.readSeq ≠ none := by
      intro h
      rw [no_jump_of_eq hc (hidle h)] at hread
      cases hread
    have hwait : awaiting = true := by
      refine ha.resolve_left ?_
      rw [asksIFrame, heq]
      exact nofun
    refine ⟨fun q hq => ?_, fun h => ?_, fun h => ?_⟩
    · rw [heq] at hq
      change ((JitterBuffer.dropRead N)^[k] c).packets ((JitterBuffer.dropRead N)^[k] c).readIdx = some q at hq
      rw [iterate_dropRead_readIdx k hc.readIdx, iterate_dropRead_slots k hc.readIdx, hp] at hq
      cases hq.1
      exact hi
    · rw [hread] at h
      cases h
    · rw [heq] at h
      change ((JitterBuffer.dropRead N)^[k] c).writeSeq = none at h
      rw [(iterate_dropRead_fields N k c).2] at h
      exact absurd (hlinked hwait h) hactive
  · rw [heq]
    refine ⟨fun q hq => ?_, fun _ => rfl, fun _ => rfl⟩
    have hr := hc.readIdx
    obtain ⟨hq, hoff⟩ := (hslots 0 (by omega) q).mp hq
    rcases hclean with ⟨i, hi, hframe⟩ | hzero
    · exact absurd hframe (hnone i hi)
    · exact (hzero q hq).resolve_right hoff

theorem asksIFrame_of_jump (hc : Callable N c) (h : (c.resyncOrClear N).readSeq ≠ none) : asksIFrame N c = false := by
  rcases resync_outcome hc with ⟨k, _, p, _, _, _, _, heq⟩ | ⟨_, t, heq, _⟩
  · rw [asksIFrame, heq]
  · rw [heq] at h
    exact absurd rfl h

end Calls

/-! ## Taking a frame out -/

section Pops
variable {N : ℕ} {P : RtpPacket → Prop} {s t : JitterBuffer} {awaiting : Bool}

theorem Anchored.aligned (h : Anchored N P s) {p : RtpPacket} (hp : s.packets s.readIdx = some p)
    (hr : s.readSeq = none) : s.readIdx = s.writeIdx := by
  rcases h.idle hr with ⟨h1, h2⟩ | hnone
  · rw [h1, h2]
  · rw [hnone] at hp
    cases hp

theorem prepare_readsIFrame {clk : ℕ → ℕ} {turns k k' : ℕ} {ts : Option ℕ} (h : Anchored N P s)
    (hw : s.writeIdx < N)
    (hclean : ∀ c ∈ s.prepareCalls N clk turns k, StartsClean N c) (ha : awaiting = true → ReadsIFrame s)
    (hp : prepareNextFrameTs N clk turns k s = .ok (ts, k', t)) :
    ((s.prepareCalls N clk turns k).any (asksIFrame N) = true ∨ awaiting = true → ReadsIFrame t) ∧
      (ts ≠ none → (s.prepareCalls N clk turns k).any (asksIFrame N) = false) := by
  induction turns generalizing k s with
  | zero => cases hp
  | succ turns ih =>
    have hquiet : s.prepareCalls N clk (turns + 1) k = [] → t = s →
        ((s.prepareCalls N clk (turns + 1) k).any (asksIFrame N) = true ∨ awaiting = true → ReadsIFrame t) ∧
          (ts ≠ none → (s.prepareCalls N clk (turns + 1) k).any (asksIFrame N) = false) := by
      rintro hcalls rfl
      rw [hcalls]
      exact ⟨fun hor => ha (hor.resolve_left nofun), fun _ => rfl⟩
    rw [prepareNextFrameTs] at hp
    split at hp
    · next hnone =>
      cases hp
      exact hquiet (by rw [prepareCalls, hnone]) rfl
    · next head hhead =>
      have hcall := h.placed.callable hw hhead
      split at hp
      · cases hp
      · next hv =>
        cases hp
        exact hquiet (by simp only [prepareCalls, hhead, hv]) rfl
      · next hv =>
        simp only [prepareCalls, hhead, hv] at hclean ⊢
        have hstart : ∀ {cs : List JitterBuffer}, (∀ c ∈ s :: cs, StartsClean N c) →
            asksIFrame N s = true ∨ awaiting = true → ReadsIFrame (s.resyncOrClear N) :=
          fun hcs => readsIFrame_resync hcall (hcs s (List.mem_cons_self ..)) (h.aligned hhead)
            fun hwait => (ha hwait).linked
        dsimp only at hp
        split at hp
        · next hstop =>
          cases hp
          rw [if_pos hstop] at hclean ⊢
          rw [List.any_cons, List.any_nil, Bool.or_false]
          exact ⟨hstart hclean, fun hsome => absurd rfl hsome⟩
        · next hgo =>
          rw [if_neg hgo] at hclean ⊢
          simp only [Bool.or_eq_true, Option.isNone_iff_eq_none, not_or] at hgo
          rw [List.any_cons, asksIFrame_of_jump hcall hgo.2, Bool.false_or]
          exact ih (h.resync (by have := hcall.readIdx; omega)) (resync_writeIdx (by have := hcall.readIdx; omega) hw)
            (fun c hc => hclean c (List.mem_cons_of_mem s hc)) (fun hwait => hstart hclean (Or.inr hwait)) hp

end Pops

/-! ## Storing a packet -/

/-- Stored behind the call, a packet of a P-frame does not take the read slot: not that of the only
I-frame the call could jump to, and not slot 0 after a reset. -/
def SparesReadSlot (N : ℕ) (awaiting : Bool) (c : JitterBuffer) : Prop :=
  ((∃ i < N, IFrameAt c i) ∧ (awaiting = true → ∃ i < N, IFrameAt c i ∧ i ≠ c.writeIdx)) ∨
    ((∀ i < N, ¬IFrameAt c i) ∧ c.writeIdx ≠ 0)

/-- The packet comes neither before the one that is read nor into its slot. -/
def StaysBehind (N : ℕ) (s : JitterBuffer) (p : RtpPacket) : Prop :=
  ∀ r w, s.readSeq = some r → s.writeSeq = some w → r ≤ p.seq ∧ (p.seq ≤ w → p.seq % N ≠ s.readIdx)

section Stores
variable {N : ℕ} {P : RtpPacket → Prop} {s : JitterBuffer} {awaiting : Bool} {p : RtpPacket}

theorem add_calls {s' : JitterBuffer} (h : s.add N p = .ok s') :
    ∃ m q, (s' = { s with metrics := m, maxSeqSeen := q } ∧ s.addCalls N p = []) ∨
      (0 < N ∧ Accepted N s p ∧ s' = ({ s with metrics := m, maxSeqSeen := q } : JitterBuffer).store N p ∧
        s.addCalls N p = ({ s with metrics := m, maxSeqSeen := q } : JitterBuffer).storeCalls N p) := by
  simp only [add, bind, Except.bind] at h
  unfold addCalls
  cases hd : s.shouldDiscardPacket N p with
  | error e =>
    rw [hd] at h
    cases h
  | ok r =>
    obtain ⟨discard, t⟩ := r
    obtain ⟨m, q, rfl, _, hyes⟩ := discard_cases hd
    rw [hd] at h
    refine ⟨m, q, ?_⟩
    cases discard with
    | true =>
      cases h
      exact Or.inl ⟨rfl, rfl⟩
    | false =>
      cases h
      obtain ⟨hN, hacc⟩ := hyes rfl
      exact Or.inr ⟨hN, hacc, rfl, rfl⟩

theorem ReadsIFrame.setSlot {pos : ℕ} (h : ReadsIFrame s) (hp : s.readIdx = pos → p.isIFrame = true) :
    ReadsIFrame (s.setSlot pos (some p)) := by
  refine ⟨fun q hq => ?_, h.idle, h.linked⟩
  by_cases hpos : s.readIdx = pos
  · simp only [JitterBuffer.setSlot, hpos, if_true, Option.some.injEq] at hq
    rw [← hq]
    exact hp hpos
  · simp only [JitterBuffer.setSlot, hpos, if_false] at hq
    exact h.head q hq

/-- The collision of a packet with the window, and the packet stored after it. -/
theorem readsIFrame_collided {c : JitterBuffer} (hc : Callable N c) (hclean : StartsClean N c)
    (hactive : c.readSeq ≠ none) (hwritten : c.writeSeq ≠ none)
    (hspare : p.isIFrame = false → SparesReadSlot N awaiting c) (ha : asksIFrame N c = true ∨ awaiting = true) :
    ReadsIFrame ((c.resyncOrClear N).setSlot c.writeIdx (some p)) := by
  refine (readsIFrame_resync hc hclean (fun h => absurd h hactive) (fun _ h => absurd h hwritten) ha).setSlot ?_
  intro hpos
  by_contra hp
  rcases resync_outcome hc with ⟨k, _, z, hframe, _, _, hfirst, heq⟩ | ⟨hnone, t, heq, _⟩
  · rw [heq] at hpos
    change ((JitterBuffer.dropRead N)^[k] c).readIdx = c.writeIdx at hpos
    rw [iterate_dropRead_readIdx k hc.readIdx] at hpos
    have hwait : awaiting = true := by
      refine ha.resolve_left ?_
      rw [asksIFrame, heq]
      exact nofun
    rcases hspare (by simpa using hp) with ⟨_, hother⟩ | ⟨hnone, _⟩
    · obtain ⟨i, hi, hframe', hne⟩ := hother hwait
      exact hfirst i hi hframe' hne hpos
    · exact hnone _ (Nat.mod_lt _ (by have := hc.readIdx; omega)) hframe
  · rw [heq] at hpos
    rcases hspare (by simpa using hp) with ⟨⟨i, hi, hframe⟩, _⟩ | ⟨_, hzero⟩
    · exact hnone i hi hframe
    · exact hzero hpos.symm

theorem readsIFrame_store (hN : 0 < N) (h : Anchored N P s) (hw : s.writeIdx < N)
    (ha : awaiting = true → ReadsIFrame s)
    (hacc : s.iFrameNeeded = true → p.isIFrame = true) (hclean : ∀ c ∈ s.storeCalls N p, StartsClean N c)
    (hspare : p.isIFrame = false → ∀ c ∈ s.storeCalls N p, SparesReadSlot N awaiting c)
    (hbehind : p.isIFrame = false → awaiting = true → StaysBehind N s p)
    (hor : (s.storeCalls N p).any (asksIFrame N) = true ∨ awaiting = true) : ReadsIFrame (s.store N p) := by
  cases hr : s.readSeq with
  | none =>
    have hcalls : s.storeCalls N p = [] := by rw [storeCalls, hr]
    rw [hcalls] at hor
    have hs := ha (hor.resolve_left (by simp))
    rw [store_of_idle p (Or.inl hr)]
    refine ⟨fun q hq => ?_, (fun hnone => by cases hnone), (fun hnone => by cases hnone)⟩
    simp only [initializeBuffer, JitterBuffer.setSlot, if_true, Option.some.injEq] at hq
    rw [← hq]
    exact hacc (hs.idle hr)
  | some r =>
    cases hwr : s.writeSeq with
    | none =>
      have hcalls : s.storeCalls N p = [] := by rw [storeCalls, hr, hwr]
      rw [hcalls] at hor
      have hs := ha (hor.resolve_left (by simp))
      cases hr.symm.trans (hs.linked hwr)
    | some w =>
      have hquiet : s.storeCalls N p = [] → awaiting = true := fun hcalls => by
        rw [hcalls] at hor
        exact hor.resolve_left (by simp)
      have hbefore : p.isIFrame = false → awaiting = true →
        r ≤ p.seq ∧ (p.seq ≤ w → p.seq % N ≠ s.readIdx) :=
        fun hp hwait => hbehind hp hwait r w hr hwr
      have hcalls : s.storeCalls N p =
          if ¬p.seq < r ∧ p.seq > w ∧ s.collided s.writeIdx (p.seq % N) = true then
            [{ s with writeIdx := p.seq % N, writeSeq := some p.seq }] else [] := by
        rw [storeCalls, hr, hwr]
      rw [store_of_window p hr hwr]
      split
      · next hlate =>
        have hwait := hquiet (by rw [hcalls, if_neg (by omega)])
        have hs := ha hwait
        have hi : p.isIFrame = true := by
          by_contra hp
          have := (hbefore (by simpa using hp) hwait).1
          omega
        refine ⟨fun q hq => ?_, (fun hnone => by cases hnone), fun hnone => ?_⟩
        · simp only [JitterBuffer.setSlot, if_true, Option.some.injEq] at hq
          rw [← hq]
          exact hi
        · exact absurd (hwr.symm.trans hnone) (Option.some_ne_none w)
      · next hlate =>
        split
        · next hnew =>
          by_cases hcol : s.collided s.writeIdx (p.seq % N) = true
          · obtain ⟨z, hz⟩ := h.occupied r hr
            rw [if_pos ⟨hlate, hnew, hcol⟩] at hcalls
            have hmem : { s with writeIdx := p.seq % N, writeSeq := some p.seq } ∈ s.storeCalls N p := by
              rw [hcalls]
              exact List.mem_singleton_self _
            have hcall := h.placed.callable hw hz
            have hc : Callable N { s with writeIdx := p.seq % N, writeSeq := some p.seq } :=
              ⟨hcall.readIdx, Nat.mod_lt _ hN, hcall.head⟩
            rw [hcalls, List.any_cons, List.any_nil, Bool.or_false] at hor
            rw [newHead_collided hcol]
            exact readsIFrame_collided hc (hclean _ hmem)
              (fun hnone => absurd (hr.symm.trans hnone) (Option.some_ne_none r)) (fun hnone => by cases hnone)
              (fun hp => hspare hp _ hmem) hor
          · have hwait := hquiet (by rw [hcalls, if_neg (fun hbad => hcol hbad.2.2)])
            have hs := ha hwait
            rw [newHead_free hcol]
            refine ReadsIFrame.setSlot ⟨hs.head, hs.idle, fun hnone => by cases hnone⟩ fun hpos => absurd ?_ hcol
            -- The read slot is always on the walk.
            change s.readIdx = p.seq % N at hpos
            rw [← hpos, collided]
            split <;> simp_all
        · next hnew =>
          have hwait := hquiet (by rw [hcalls, if_neg (fun hbad => hnew hbad.2.1)])
          refine (ha hwait).setSlot fun hpos => ?_
          by_contra hp
          exact (hbefore (by simpa using hp) hwait).2 (by omega) hpos.symm

end Stores
end JitterBuffer

/-! ## The first frame -/

/-- The buffer with the note that an I-frame is awaited: after a call of `resync_or_clear` that left
`i_frame_needed` true, until a frame comes out. -/
def watched (N : ℕ) : Machine (JitterBuffer × Bool) Op (Option Delivery) where
  step x op := ((machine N).step x.1 op).map fun r =>
    ((r.1, (x.1.resyncCalls N op).any (JitterBuffer.asksIFrame N) || (x.2 && r.2.isNone)), r.2)

/-- What keeps an I-frame in front: every reset leaves slot 0 clean, and no accepted packet of a
P-frame takes the read slot while an I-frame is awaited. -/
structure IFrameFirst (N : ℕ) (x : JitterBuffer × Bool) (op : Op) : Prop where
  clean : ∀ c ∈ x.1.resyncCalls N op, c.StartsClean N
  spared : ∀ p, op = .add p → p.isIFrame = false → ∀ c ∈ x.1.resyncCalls N op, c.SparesReadSlot N x.2
  behind : ∀ p, op = .add p → p.isIFrame = false → JitterBuffer.Accepted N x.1 p → x.2 = true →
    x.1.StaysBehind N p

theorem step_watched {N : ℕ} {x y : JitterBuffer × Bool} {op : Op} {o : Option Delivery} :
    (watched N).step x op = some (y, o) ↔ (machine N).step x.1 op = some (y.1, o) ∧
      y.2 = ((x.1.resyncCalls N op).any (JitterBuffer.asksIFrame N) || (x.2 && o.isNone)) := by
  simp only [watched, Option.map_eq_some_iff, Prod.mk.injEq, Prod.exists]
  constructor
  · rintro ⟨s', o', hs, rfl, rfl⟩
    exact ⟨hs, rfl⟩
  · rintro ⟨hs, hy⟩
    exact ⟨y.1, o, hs, by rw [← hy], rfl⟩

/-- The note changes nothing in the run. -/
theorem run_watched (N : ℕ) (x : JitterBuffer × Bool) (ops : List Op) :
    ((watched N).run x ops).map (fun r => (r.1.1, r.2)) = (machine N).run x.1 ops := by
  induction ops generalizing x with
  | nil => rfl
  | cons op ops ih =>
    cases hs : (machine N).step x.1 op with
    | none => simp [Machine.run, watched, hs]
    | some r =>
      have hw : (watched N).step x op =
          some ((r.1, (x.1.resyncCalls N op).any (JitterBuffer.asksIFrame N) || (x.2 && r.2.isNone)), r.2) := by
        simp [watched, hs]
      simp only [Machine.run, hs, hw]
      rw [← ih (r.1, (x.1.resyncCalls N op).any (JitterBuffer.asksIFrame N) || (x.2 && r.2.isNone)),
        Option.map_map, Option.map_map]
      rfl

/-- An I-frame is awaited only of a buffer that reads one. -/
structure Watching (N : ℕ) (P : RtpPacket → Prop) (x : JitterBuffer × Bool) : Prop where
  anchored : x.1.Anchored N P
  writeIdx : x.1.writeIdx < N
  reads : x.2 = true → x.1.ReadsIFrame

theorem watching_new {N : ℕ} {P : RtpPacket → Prop} (hN : 0 < N) : Watching N P (JitterBuffer.new, true) where
  anchored := JitterBuffer.anchored_new N P
  writeIdx := hN
  reads := fun _ => ⟨fun _ hp => (by cases hp), fun _ => rfl, fun _ => rfl⟩

theorem Watching.step {N : ℕ} {P : RtpPacket → Prop} {x y : JitterBuffer × Bool} {op : Op} {o : Option Delivery}
    (h : Watching N P x) (hop : ∀ p, op = .add p → P p) (hg : IFrameFirst N x op)
    (hs : (watched N).step x op = some (y, o)) : Watching N P y := by
  obtain ⟨hstep, hy⟩ := step_watched.mp hs
  have hN : 0 < N := by
    have := h.writeIdx
    omega
  refine ⟨JitterBuffer.anchored_step h.anchored hop hstep,
    JitterBuffer.writeIdx_step h.writeIdx hstep, fun hwait => ?_⟩
  rw [hy, Bool.or_eq_true, Bool.and_eq_true] at hwait
  cases op with
  | add p =>
    obtain ⟨ha, rfl⟩ := step_add.mp hstep
    have hcalls : x.1.resyncCalls N (.add p) = x.1.addCalls N p := rfl
    obtain ⟨m, q, ⟨hstats, hnone⟩ | ⟨_, hacc, hstore, hsome⟩⟩ := JitterBuffer.add_calls ha
    · rw [hcalls, hnone] at hwait
      obtain ⟨h1, h2, h3⟩ := h.reads (hwait.resolve_left nofun).1
      rw [hstats]
      exact ⟨h1, h2, h3⟩
    · have hclean := hg.clean
      have hspare := hg.spared p rfl
      rw [hcalls, hsome] at hclean hspare hwait
      rw [hstore]
      exact JitterBuffer.readsIFrame_store hN (h.anchored.stats m q) h.writeIdx
        (fun hw => ⟨(h.reads hw).head, (h.reads hw).idle, (h.reads hw).linked⟩) hacc.iFrame hclean hspare
        (fun hp hw => hg.behind p rfl hp hacc hw) (hwait.imp_right And.left)
  | pop clk =>
    obtain ⟨_, ts, k, t, hp, hcase⟩ := JitterBuffer.pop_prepared (step_pop.mp hstep)
    obtain ⟨hreads, hsome⟩ := JitterBuffer.prepare_readsIFrame h.anchored h.writeIdx hg.clean h.reads hp
    rcases hcase with ⟨rfl, ht⟩ | ⟨run, last, rfl, _, _, _, hd⟩
    · rw [ht]
      exact hreads (hwait.imp_right And.left)
    · -- A frame came out: no call of this `pop` asked for an I-frame, and the note is gone.
      obtain ⟨_, _, _, _, _, _, rfl, _⟩ := JitterBuffer.deliver_ok hd
      rcases hwait with hcalls | ⟨_, hnone⟩
      · rw [show (x.1.resyncCalls N (.pop clk)).any (JitterBuffer.asksIFrame N) = false from hsome nofun] at hcalls
        cases hcalls
      · cases hnone

/-- **The decoder starts with an I-frame** in a run whose every step meets `IFrameFirst`. -/
theorem decoder_starts_with_iframe (N : ℕ) (hN : 2 ≤ N) (config : MediaConfig) (frames : List EncodedFrame)
    (hinc : Increasing frames) (ops : List Op) (hops : ∀ p, Op.add p ∈ ops → p ∈ packetStream config frames 0)
    (clk : ℕ → ℕ) (hguard : (watched N).Guarded (IFrameFirst N) (JitterBuffer.new, true) (ops ++ [.pop clk]))
    (s : JitterBuffer) (outputs : List (Option Delivery))
    (hrun : (watched N).run (JitterBuffer.new, true) ops = some ((s, true), outputs)) (d : Delivery)
    (s' : JitterBuffer) (hpop : s.pop N clk = .ok (some d, s')) :
    (∃ f ∈ frames, f.frameTime.toNat = d.timestamp) ∧
      ∀ f ∈ frames, f.frameTime.toNat = d.timestamp → f.isIFrame = true := by
  have hg : (watched N).GuardedBy
      (fun _ x op => IFrameFirst N x op ∧ ∀ p, op = .add p → Sent config frames p) []
        (JitterBuffer.new, true) ops :=
    (watched N).guardedBy_and ((watched N).guardedBy_of_guarded ((watched N).guarded_left hguard) [])
      fun op hop p hp => hops p (hp ▸ hop)
  have hw : Watching N (Sent config frames) (s, true) :=
    (watched N).run_induction_by (fun _ _ x => Watching N (Sent config frames) x)
      (fun _ _ x op y o h hG hstep => h.step hG.2 hG.1 hstep)
      (watching_new (by omega)) hg hrun
  have hlast := ((watched N).guarded_append hguard hrun).1
  obtain ⟨_, ts, k, t, hp, ⟨hnone, _⟩ | ⟨run, last, rfl, hr, hf, _, hd⟩⟩ := JitterBuffer.pop_prepared hpop
  · cases hnone
  obtain ⟨_, _, _, _, _, _, hout, _⟩ := JitterBuffer.deliver_ok hd
  cases hout
  have hreads := (JitterBuffer.prepare_readsIFrame hw.anchored hw.writeIdx hlast.clean hw.reads hp).1 (Or.inr rfl)
  cases run with
  | nil => cases hf.last_eq
  | cons x run =>
    -- The packet at the head is of the frame that comes out.
    obtain ⟨j, f, i, hj, _, rfl⟩ := sent_iff.mp
      (hw.anchored.placed.clears (JitterBuffer.prepare_ok hp).1.clears _ x hr.1).2
    have htime : f.frameTime.toNat = last.ts := by
      rw [← hf.ts_eq _ (List.mem_cons_self ..), chunkPacket_ts]
    have hi : f.isIFrame = true := hreads.head _ hr.1
    refine ⟨⟨f, List.mem_of_getElem? hj, htime⟩, fun g hg hgt => ?_⟩
    obtain ⟨j', hj'⟩ := List.mem_iff_getElem?.mp hg
    have hjj := hinc.index_eq hj hj' (htime.trans hgt.symm)
    subst hjj
    rw [Option.some.inj (hj'.symm.trans hj)]
    exact hi

/-- Whether an I-frame is awaited at the end of a run, and the timestamp of what a `pop` then returns. -/
def nextTime (N : ℕ) (clk : ℕ → ℕ) (r : (JitterBuffer × Bool) × List (Option Delivery)) :
    Bool × Option ℕ :=
  (r.1.2, (r.1.1.pop N clk).toOption.bind fun r => r.1.map Delivery.timestamp)

theorem next_of_run {N ts : ℕ} {ops : List Op} {clk : ℕ → ℕ}
    (h : ((watched N).run (JitterBuffer.new, true) ops).map (nextTime N clk) = some (true, some ts)) :
    ∃ s outputs d s', (watched N).run (JitterBuffer.new, true) ops = some ((s, true), outputs) ∧
      s.pop N clk = .ok (some d, s') ∧ d.timestamp = ts := by
  obtain ⟨⟨⟨s, awaiting⟩, outputs⟩, hr, hpopped⟩ := Option.map_eq_some_iff.mp h
  obtain ⟨rfl, hplayed⟩ := Prod.mk.inj hpopped
  cases hpop : s.pop N clk with
  | error e => simp [hpop, Except.toOption] at hplayed
  | ok r =>
    obtain ⟨d, s'⟩ := r
    simp only [hpop, Except.toOption, Option.bind_some, Option.map_eq_some_iff] at hplayed
    obtain ⟨d, rfl, hd⟩ := hplayed
    exact ⟨s, outputs, d, s', hr, hpop, hd⟩

theorem iFrameFirst_of_no_calls {N : ℕ} {x : JitterBuffer × Bool} {op : Op} (h : (x.1.resyncCalls N op).length = 0)
    (hbehind : ∀ p, op = .add p → p.isIFrame = false → x.1.StaysBehind N p) : IFrameFirst N x op := by
  rw [List.length_eq_zero_iff] at h
  refine ⟨?_, fun _ _ _ => ?_, fun p hp hi _ _ => hbehind p hp hi⟩
  · rw [h]
    exact nofun
  · rw [h]
    exact nofun

/-- A key frame and a frame that depends on it, in order. -/
theorem key_frame_first :
    let frames : List EncodedFrame := [⟨[[1]], 5, true⟩, ⟨[[2]], 45, false⟩]
    let packet := fun j => chunkPacket ⟨2, 96, 7⟩ (frames.getD j ⟨[], 0, true⟩) j 0
    let ops : List Op := [.add (packet 0), .add (packet 1)]
    ∃ s outputs d s', (watched 2).run (JitterBuffer.new, true) ops = some ((s, true), outputs) ∧
      s.pop 2 (fun _ => 40) = .ok (some d, s') ∧ d.timestamp = 5 ∧
      ∀ f ∈ frames, f.frameTime.toNat = d.timestamp → f.isIFrame = true := by
  intro frames packet ops
  have hguard : (watched 2).Guarded (IFrameFirst 2) (JitterBuffer.new, true) (ops ++ [.pop fun _ => 40]) := by
    refine ⟨iFrameFirst_of_no_calls (by decide +kernel) fun p hp hi => ?_, fun y o hy => ?_⟩
    · cases hp
      cases hi
    · cases hy
      refine ⟨iFrameFirst_of_no_calls (by decide +kernel) fun p hp _ r w hr hw => ?_, fun y o hy => ?_⟩
      · cases hp
        cases hr
        cases hw
        decide
      · cases hy
        exact ⟨iFrameFirst_of_no_calls (by decide +kernel) nofun, fun _ _ _ => trivial⟩
  have hrun : ((watched 2).run (JitterBuffer.new, true) ops).map (nextTime 2 fun _ => 40) = some (true, some 5) := by
    decide +kernel
  obtain ⟨s, outputs, d, s', hr, hpop, hd⟩ := next_of_run hrun
  refine ⟨s, outputs, d, s', hr, hpop, hd, ?_⟩
  refine (decoder_starts_with_iframe 2 (by decide) ⟨2, 96, 7⟩ frames (by unfold Increasing; decide) ops ?_
    (fun _ => 40) hguard s outputs hr d s' hpop).2
  intro p hp
  simp only [ops, List.mem_cons, Op.add.injEq, List.not_mem_nil, or_false] at hp
  rcases hp with rfl | rfl <;> decide

/-- The key frame of number 2 opens the gate, and the late frame before it, which depends on a frame
that was lost, comes out first. -/
theorem late_frame_comes_first :
    let frames : List EncodedFrame := [⟨[[1]], 5, true⟩, ⟨[[2]], 45, false⟩, ⟨[[3]], 85, true⟩]
    let packet := fun j => chunkPacket ⟨2, 96, 7⟩ (frames.getD j ⟨[], 0, true⟩) j 0
    let ops : List Op := [.add (packet 2), .add (packet 1)]
    Increasing frames ∧ (∀ j ∈ [1, 2], packet j ∈ packetStream ⟨2, 96, 7⟩ frames 0) ∧
      ∃ s outputs d s', (watched 2).run (JitterBuffer.new, true) ops = some ((s, true), outputs) ∧
        s.pop 2 (fun _ => 40) = .ok (some d, s') ∧
        ∃ f ∈ frames, f.frameTime.toNat = d.timestamp ∧ f.isIFrame = false := by
  intro frames packet ops
  have hrun : ((watched 2).run (JitterBuffer.new, true) ops).map (nextTime 2 fun _ => 40) = some (true, some 45) := by
    decide +kernel
  refine ⟨by unfold Increasing; decide, by decide, ?_⟩
  obtain ⟨s, outputs, d, s', hr, hpop, hd⟩ := next_of_run hrun
  exact ⟨s, outputs, d, s', hr, hpop, ⟨[[2]], 45, false⟩, by decide, hd.symm, rfl⟩

end RoomRtc.Jitter
