import Mathlib.Data.Finset.Card
import Mathlib.Order.Interval.Finset.Nat
import RoomRtc.Foundations.Trace
import RoomRtc.Jitter.Buffer

/-! The loss account of `update_stats`. While every packet has a number of its own and none is below
the first one's, the packets that arrived and the packets reported lost make up the whole range of
numbers from the first to the highest; so the report is the number of packets missing, in whatever
order they came. -/
namespace RoomRtc.Jitter
open Transport JitterBuffer
set_option autoImplicit false

/-! ## What is missing -/

/-- The highest sequence number. -/
def highest (packets : List RtpPacket) : ℕ := packets.foldl (fun m p => max m p.seq) 0

/-- How many numbers between the first and the highest have not arrived. -/
def missing : List RtpPacket → ℕ
  | [] => 0
  | first :: rest =>
    ((Finset.Icc first.seq (highest (first :: rest))).filter fun n =>
      ∀ p ∈ first :: rest, p.seq ≠ n).card

@[simp] theorem highest_snoc (past : List RtpPacket) (p : RtpPacket) :
    highest (past ++ [p]) = max (highest past) p.seq := by
  simp [highest]

theorem seq_le_highest {packets : List RtpPacket} {p : RtpPacket} (h : p ∈ packets) : p.seq ≤ highest packets := by
  induction packets using List.reverseRecOn with
  | nil => cases h
  | append_singleton past q ih =>
    rw [highest_snoc]
    rcases List.mem_append.mp h with h | h
    · have := ih h
      omega
    · rw [List.mem_singleton.mp h]
      omega

theorem highest_mem {packets : List RtpPacket} (h : packets ≠ []) : ∃ p ∈ packets, p.seq = highest packets := by
  induction packets using List.reverseRecOn with
  | nil => exact absurd rfl h
  | append_singleton past q ih =>
    rw [highest_snoc]
    by_cases hle : highest past ≤ q.seq
    · exact ⟨q, by simp, by omega⟩
    · have hne : past ≠ [] := by
        rintro rfl
        simp [highest] at hle
      obtain ⟨p, hp, he⟩ := ih hne
      exact ⟨p, by simp [hp], by omega⟩

/-- The order of arrival has no part in the highest number. -/
theorem highest_perm {packets others : List RtpPacket} (h : packets.Perm others) :
    highest packets = highest others := by
  by_cases hne : packets = []
  · subst hne
    rw [h.nil_eq]
  · obtain ⟨p, hp, hpe⟩ := highest_mem hne
    have hne' : others ≠ [] := by
      rintro rfl
      exact hne h.eq_nil
    obtain ⟨q, hq, hqe⟩ := highest_mem hne'
    have h1 := seq_le_highest (h.mem_iff.mp hp)
    have h2 := seq_le_highest (h.mem_iff.mpr hq)
    omega

theorem missing_perm {first : RtpPacket} {rest others : List RtpPacket} (h : rest.Perm others) :
    missing (first :: rest) = missing (first :: others) := by
  have hall : ∀ n, (∀ p ∈ first :: rest, p.seq ≠ n) ↔ ∀ p ∈ first :: others, p.seq ≠ n := by
    intro n
    simp only [(h.cons first).mem_iff]
  unfold missing
  simp only [highest_perm (h.cons first), hall]

theorem missing_add_length {first : RtpPacket} {rest : List RtpPacket}
    (hdistinct : ((first :: rest).map RtpPacket.seq).Nodup) (hfirst : ∀ p ∈ rest, first.seq ≤ p.seq) :
    missing (first :: rest) + (rest.length + 1) = highest (first :: rest) - first.seq + 1 := by
  have hsplit := Finset.card_filter_add_card_filter_not (s := Finset.Icc first.seq (highest (first :: rest)))
    (fun n => ∀ p ∈ first :: rest, p.seq ≠ n)
  have harrived : (Finset.Icc first.seq (highest (first :: rest))).filter
      (fun n => ¬∀ p ∈ first :: rest, p.seq ≠ n) = ((first :: rest).map RtpPacket.seq).toFinset := by
    ext n
    simp only [Finset.mem_filter, Finset.mem_Icc, List.mem_toFinset, List.mem_map]
    push Not
    constructor
    · exact fun h => h.2
    · rintro ⟨p, hp, rfl⟩
      refine ⟨⟨?_, seq_le_highest hp⟩, p, hp, rfl⟩
      rcases List.mem_cons.mp hp with rfl | hp
      · exact le_rfl
      · exact hfirst p hp
  rw [harrived, List.toFinset_card_of_nodup hdistinct, Nat.card_Icc, List.length_map, List.length_cons] at hsplit
  have hle := seq_le_highest (List.mem_cons_self (a := first) (l := rest))
  rw [missing]
  omega

/-! ## The account -/

/-- Every packet has a number of its own, none is below the first one's, and a packet above all
before it leaves out fewer than 1000 numbers. -/
structure Arrivals (packets : List RtpPacket) : Prop where
  distinct : (packets.map RtpPacket.seq).Nodup
  fromFirst : ∀ first rest, packets = first :: rest → ∀ p ∈ rest, first.seq ≤ p.seq
  skips : AtEvery (fun past p => past ≠ [] → highest past < p.seq → p.seq - highest past - 1 < 1000) packets

theorem Arrivals.left {past more : List RtpPacket} (h : Arrivals (past ++ more)) : Arrivals past := by
  refine ⟨?_, ?_, h.skips.left⟩
  · have hd := h.distinct
    rw [List.map_append] at hd
    exact hd.of_append_left
  · rintro first rest rfl p hp
    exact h.fromFirst first (rest ++ more) rfl p (List.mem_append_left more hp)

/-- The counters are the numbers of packets that arrived and that are missing. -/
structure Accounted (s : JitterBuffer) (packets : List RtpPacket) : Prop where
  received : s.metrics.packetsReceived = packets.length
  lost : s.metrics.packetsLost = missing packets

theorem updateStats_first {s : JitterBuffer} (hs : s.metrics = ⟨0, 0⟩) (first : RtpPacket) :
    Accounted (s.updateStats first) [first] ∧ (s.updateStats first).maxSeqSeen = highest [first] := by
  have hnone := @missing_add_length first [] (by simp) (by simp)
  have hhigh : highest [first] = first.seq := by simp [highest]
  have hstep : s.updateStats first = { s with metrics := ⟨1, 0⟩, maxSeqSeen := first.seq } := by
    simp [updateStats, hs]
  rw [hstep]
  refine ⟨⟨rfl, ?_⟩, hhigh.symm⟩
  dsimp only
  rw [List.length_nil, hhigh] at hnone
  omega

/-- One packet more: above all others it adds the numbers it leaves out, below the highest it was
one of the missing. -/
theorem updateStats_next {s : JitterBuffer} {past : List RtpPacket} {p : RtpPacket} (h : Arrivals (past ++ [p]))
    (hne : past ≠ []) (hs : Accounted s past) (hmax : s.maxSeqSeen = highest past) (hcount : past.length + 1 < 2 ^ 32)
    (hlost : missing (past ++ [p]) < 2 ^ 32) :
    Accounted (s.updateStats p) (past ++ [p]) ∧ (s.updateStats p).maxSeqSeen = highest (past ++ [p]) := by
  obtain ⟨first, rest, rfl⟩ := List.exists_cons_of_ne_nil hne
  have hbefore := missing_add_length h.left.distinct (h.left.fromFirst first rest rfl)
  have hafter := @missing_add_length first (rest ++ [p]) h.distinct (h.fromFirst first _ rfl)
  have hskip := h.skips (first :: rest) p [] rfl hne
  have hhigh := highest_snoc (first :: rest) p
  have hfirst := seq_le_highest (List.mem_cons_self (a := first) (l := rest))
  rw [List.cons_append] at hhigh hlost
  rw [List.length_append, List.length_singleton, hhigh] at hafter
  have hreceived : (s.metrics.packetsReceived + 1) % 2 ^ 32 = rest.length + 2 := by
    rw [hs.received, Nat.mod_eq_of_lt hcount]
    rfl
  have hlength : (first :: rest ++ [p]).length = rest.length + 2 := by simp
  unfold updateStats
  dsimp only
  rw [hreceived, if_neg (by omega), hmax, List.cons_append, hhigh]
  have hpast := hs.lost
  by_cases hnew : p.seq > highest (first :: rest)
  · rw [if_pos hnew]
    refine ⟨⟨hlength.symm, ?_⟩, by dsimp only; omega⟩
    dsimp only
    have hgap := hskip hnew
    split
    · rw [Nat.mod_eq_of_lt (by omega)]
      omega
    · omega
  · rw [if_neg hnew]
    refine ⟨⟨hlength.symm, ?_⟩, by dsimp only; omega⟩
    dsimp only
    omega

/-- The account holds after all packets if the counters were wide enough all the time. -/
theorem accounted_of_fits {s : JitterBuffer} (hs : s.metrics = ⟨0, 0⟩) {packets : List RtpPacket}
    (h : Arrivals packets) (hcount : packets.length < 2 ^ 32)
    (hlost : ∀ past, past <+: packets → missing past < 2 ^ 32) (hne : packets ≠ []) :
    Accounted (packets.foldl updateStats s) packets ∧
      (packets.foldl updateStats s).maxSeqSeen = highest packets := by
  induction packets using List.reverseRecOn with
  | nil => exact absurd rfl hne
  | append_singleton past p ih =>
    rw [List.foldl_append, List.foldl_cons, List.foldl_nil]
    rw [List.length_append, List.length_singleton] at hcount
    by_cases hpast : past = []
    · subst hpast
      exact updateStats_first hs p
    · obtain ⟨hacc, hmax⟩ := ih h.left (by omega) (fun q hq => hlost q (hq.trans (List.prefix_append _ _))) hpast
      exact updateStats_next h hpast hacc hmax hcount (hlost _ List.prefix_rfl)

theorem updateStats_fits {s : JitterBuffer} (hs : s.metrics.packetsReceived < 2 ^ 32 ∧ s.metrics.packetsLost < 2 ^ 32)
    (packets : List RtpPacket) : (packets.foldl updateStats s).metrics.packetsReceived < 2 ^ 32 ∧
      (packets.foldl updateStats s).metrics.packetsLost < 2 ^ 32 := by
  induction packets generalizing s with
  | nil => exact hs
  | cons p packets ih =>
    apply ih
    unfold updateStats
    dsimp only
    split
    · exact ⟨Nat.mod_lt _ (by decide), hs.2⟩
    · split
      · refine ⟨Nat.mod_lt _ (by decide), ?_⟩
        dsimp only
        split
        · exact Nat.mod_lt _ (by decide)
        · exact hs.2
      · refine ⟨Nat.mod_lt _ (by decide), ?_⟩
        dsimp only
        omega

/-- **Loss accounting.** The report is exact after every packet, and does not depend on the order of
the packets after the first, exactly as long as both counts are within `u32`. -/
theorem loss_accounting_iff (s : JitterBuffer) (hs : s.metrics = ⟨0, 0⟩) (packets : List RtpPacket)
    (h : Arrivals packets) :
    ((∀ past, past <+: packets → Accounted (past.foldl updateStats s) past) ↔
      packets.length < 2 ^ 32 ∧ ∀ past, past <+: packets → missing past < 2 ^ 32) ∧
    ∀ first rest others, rest.Perm others → missing (first :: others) = missing (first :: rest) := by
  have hzero : s.metrics.packetsReceived < 2 ^ 32 ∧ s.metrics.packetsLost < 2 ^ 32 := by
    rw [hs]
    decide
  refine ⟨⟨fun hall => ⟨?_, fun past hpast => ?_⟩, ?_⟩, fun _ _ _ hperm => (missing_perm hperm).symm⟩
  · rw [← (hall packets List.prefix_rfl).received]
    exact (updateStats_fits hzero packets).1
  · rw [← (hall past hpast).lost]
    exact (updateStats_fits hzero past).2
  · rintro ⟨hcount, hlost⟩ past hpast
    by_cases hne : past = []
    · subst hne
      exact ⟨by simp [hs], by simp [hs, missing]⟩
    · obtain ⟨more, rfl⟩ := hpast
      rw [List.length_append] at hcount
      exact (accounted_of_fits hs h.left (by omega)
        (fun q hq => hlost q (hq.trans (List.prefix_append _ _))) hne).1

/-- A key frame of one packet with the sequence number `n`. -/
def numbered (n : ℕ) : RtpPacket := ⟨2, 1, 1, true, 96, UInt64.ofNat n, 0, 7, []⟩

/-- The numbers 10, 12 and 11 arrive: one is missing at first and none in the end. -/
theorem late_packet_accounted :
    Accounted ([numbered 10, numbered 12, numbered 11].foldl updateStats JitterBuffer.new)
      [numbered 10, numbered 12, numbered 11] := by
  have harrivals : Arrivals [numbered 10, numbered 12, numbered 11] := by
    refine ⟨by decide, ?_, by decide⟩
    intro first rest he
    obtain ⟨rfl, rfl⟩ := List.cons_eq_cons.mp he
    decide
  refine ((loss_accounting_iff JitterBuffer.new rfl _ harrivals).1.mpr ⟨by decide, ?_⟩) _ List.prefix_rfl
  have hall : ∀ past ∈ [numbered 10, numbered 12, numbered 11].inits, missing past < 2 ^ 32 := by decide +kernel
  exact fun past hpast => hall past ((List.mem_inits past _).mpr hpast)

/-- Every thousandth packet of a sender, and no other. -/
def sparse (n : ℕ) : List RtpPacket := (List.range n).map fun i => numbered (1000 * i)

theorem sparse_succ (n : ℕ) : sparse (n + 1) = sparse n ++ [numbered (1000 * n)] := by
  simp [sparse, List.range_succ]

theorem numbered_seq {n : ℕ} (h : n < 2 ^ 64) : (numbered n).seq = n :=
  (UInt64.toNat_ofNat' ..).trans (Nat.mod_eq_of_lt h)

theorem sparse_highest {n : ℕ} (h : 1000 * n < 2 ^ 64) : highest (sparse (n + 1)) = 1000 * n := by
  induction n with
  | zero => rfl
  | succ n ih =>
    rw [sparse_succ, highest_snoc, ih (by omega), numbered_seq h]
    omega

theorem sparse_arrivals {n : ℕ} (h : 1000 * n < 2 ^ 64) : Arrivals (sparse (n + 1)) := by
  have hseq : ∀ i ∈ List.range (n + 1), (numbered (1000 * i)).seq = 1000 * i := by
    intro i hi
    have := List.mem_range.mp hi
    exact numbered_seq (by omega)
  refine ⟨?_, ?_, ?_⟩
  · have hmap : (sparse (n + 1)).map RtpPacket.seq = (List.range (n + 1)).map (1000 * ·) := by
      rw [sparse, List.map_map]
      exact List.map_congr_left hseq
    rw [hmap]
    apply List.nodup_range.map
    intro i j hij
    dsimp only at hij
    omega
  · rw [sparse, List.range_succ_eq_map]
    intro first rest he p _
    obtain ⟨rfl, rfl⟩ := List.cons_eq_cons.mp he
    exact Nat.zero_le _
  · rw [atEvery_iff_get]
    intro k hne hnew
    have hk : k.val < n + 1 := by simpa [sparse] using k.isLt
    obtain ⟨j, hj⟩ : ∃ j, k.val = j + 1 := by
      refine ⟨k.val - 1, ?_⟩
      by_contra hzero
      have hz : k.val = 0 := by omega
      rw [hz] at hne
      exact hne rfl
    have hpast : (sparse (n + 1)).take k.val = sparse (j + 1) := by
      rw [hj, sparse, sparse, ← List.map_take, List.take_range, Nat.min_eq_left (by omega)]
    have hget : (sparse (n + 1)).get k = numbered (1000 * (j + 1)) := by
      rw [List.get_eq_getElem]
      simp [sparse, hj]
    rw [hpast, hget, sparse_highest (by omega), numbered_seq (by omega)]
    omega

theorem sparse_missing {n : ℕ} (h : 1000 * n < 2 ^ 64) : missing (sparse (n + 1)) = 999 * n := by
  have harrivals := sparse_arrivals h
  have hhigh := sparse_highest h
  have hshape : sparse (n + 1) = numbered 0 :: (List.range n).map fun i => numbered (1000 * (i + 1)) := by
    rw [sparse, List.range_succ_eq_map, List.map_cons, List.map_map]
    rfl
  rw [hshape] at harrivals hhigh ⊢
  have hsum := missing_add_length harrivals.distinct (harrivals.fromFirst _ _ rfl)
  rw [hhigh, List.length_map, List.length_range, numbered_seq (by omega)] at hsum
  omega

/-- Every thousandth of 4.3 billion packets arrives: more packets are missing than `packets_lost`
can hold. -/
theorem lost_count_wraps : Arrivals (sparse 4299269) ∧
    ¬Accounted ((sparse 4299269).foldl updateStats JitterBuffer.new) (sparse 4299269) := by
  have hbig : 1000 * 4299268 < 2 ^ 64 := by decide
  refine ⟨sparse_arrivals hbig, fun hacc => ?_⟩
  have hmissing := sparse_missing hbig
  have hfits := (updateStats_fits (s := JitterBuffer.new) (by decide) (sparse 4299269)).2
  rw [hacc.lost, hmissing] at hfits
  omega

end RoomRtc.Jitter
