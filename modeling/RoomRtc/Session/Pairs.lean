import Mathlib.Algebra.Group.Nat.Defs
import Mathlib.Data.List.ProdSigma
import RoomRtc.Session.Ice

/-! Candidate pairs. Every call that adds remote candidates pairs all candidates again and keeps
the pairs of the calls before, so that only a single call leaves every pair once. The priority of
a pair is the same on both sides but for its last bit, which each side computes from its own
candidate. -/
namespace RoomRtc.Session
set_option autoImplicit false

/-! ## Adding remote candidates -/

/-- One call that adds remote candidates. -/
inductive Addition where
  | addRemoteCandidate (candidate : Candidate)
  | addRemoteCandidates (candidates : List Candidate)
deriving DecidableEq, Repr

namespace Addition

def candidates : Addition → List Candidate
  | addRemoteCandidate candidate => [candidate]
  | addRemoteCandidates candidates => candidates

def run (agent : IceAgent) : Addition → IceAgent × Except IceError Unit
  | addRemoteCandidate candidate => agent.addRemoteCandidate candidate
  | addRemoteCandidates candidates => agent.addRemoteCandidates candidates

end Addition

namespace IceAgent

/-- The agent after the calls, if all of them return `Ok`. -/
def addAll : IceAgent → List Addition → Except IceError IceAgent
  | agent, [] => .ok agent
  | agent, addition :: additions =>
    match addition.run agent with
    | (agent, .ok ()) => addAll agent additions
    | (_, .error e) => .error e

/-- Which local candidate is paired with which remote one. -/
def combinations (agent : IceAgent) : List (Candidate × Candidate) :=
  agent.candidatePairs.map fun pair => (pair.loc, pair.remote)

/-- A call that returns `Ok` appends the product of all candidates there are now. -/
theorem run_ok {agent agent' : IceAgent} {addition : Addition} (h : addition.run agent = (agent', .ok ())) :
    agent'.localCandidates = agent.localCandidates ∧
      agent'.remoteCandidates = agent.remoteCandidates ++ addition.candidates ∧
      agent'.combinations = agent.combinations ++ agent'.localCandidates ×ˢ agent'.remoteCandidates ∧
      agent'.localCandidates ×ˢ agent'.remoteCandidates ≠ [] := by
  have hrun : addition.run agent =
      ({ agent with remoteCandidates := agent.remoteCandidates ++ addition.candidates }).createCandidatePair := by
    cases addition <;> rfl
  rw [hrun, createCandidatePair] at h
  split at h
  · cases h
  · next hloc =>
    split at h
    · cases h
    · next hrem =>
      dsimp only at h
      split at h
      · cases h
      · cases h
        refine ⟨rfl, rfl, ?_, ?_⟩
        · rw [combinations, List.map_append, List.map_flatMap]
          simp only [List.map_map]
          rfl
        · obtain ⟨loc, locs, hlocs⟩ := List.exists_cons_of_ne_nil hloc
          obtain ⟨remote, remotes, hremotes⟩ := List.exists_cons_of_ne_nil hrem
          dsimp only at hlocs hremotes ⊢
          rw [hlocs, hremotes, List.product_cons]
          simp

/-- The calls leave the product, and before it the products of all calls but the last one. -/
theorem addAll_ok {agent agent' : IceAgent} {additions : List Addition} (h : agent.addAll additions = .ok agent')
    (hne : additions ≠ []) :
    agent'.localCandidates = agent.localCandidates ∧
      agent'.remoteCandidates = agent.remoteCandidates ++ additions.flatMap Addition.candidates ∧
      ∃ earlier, agent'.combinations =
          agent.combinations ++ earlier ++ agent'.localCandidates ×ˢ agent'.remoteCandidates ∧
        (earlier = [] ↔ additions.length = 1) := by
  induction additions generalizing agent with
  | nil => exact absurd rfl hne
  | cons addition additions ih =>
    rw [addAll] at h
    split at h
    · next agent₁ hrun =>
      obtain ⟨hlocals, hremotes, hpairs, hsome⟩ := run_ok hrun
      by_cases hlast : additions = []
      · subst hlast
        cases h
        refine ⟨hlocals, by simpa using hremotes, [], by simpa using hpairs, by simp⟩
      · obtain ⟨hlocals', hremotes', earlier, hpairs', _⟩ := ih h hlast
        refine ⟨hlocals'.trans hlocals, ?_,
          agent₁.localCandidates ×ˢ agent₁.remoteCandidates ++ earlier, ?_, ?_⟩
        · rw [hremotes', hremotes, List.flatMap_cons, List.append_assoc]
        · rw [hpairs', hpairs, List.append_assoc agent.combinations]
        · simp [hsome, hlast]
    · cases h

end IceAgent

/-- **Every pair once.** When all calls since the last `clean_remote_candidates` have returned `Ok`,
the pairs are the product of the candidates exactly if there was one call at most. -/
theorem every_pair_once_iff (agent : IceAgent) (additions : List Addition) (agent' : IceAgent)
    (h : agent.cleanRemoteCandidates.addAll additions = .ok agent') :
    agent'.combinations.Perm (agent.localCandidates ×ˢ additions.flatMap Addition.candidates) ↔
      additions.length ≤ 1 := by
  by_cases hne : additions = []
  · subst hne
    cases h
    simp [IceAgent.combinations, IceAgent.cleanRemoteCandidates]
  · obtain ⟨hlocals, hremotes, earlier, hpairs, hone⟩ := IceAgent.addAll_ok h hne
    have hclean : agent.cleanRemoteCandidates.combinations = [] := rfl
    have hproduct : agent'.localCandidates ×ˢ agent'.remoteCandidates =
        agent.localCandidates ×ˢ additions.flatMap Addition.candidates := by
      rw [hlocals, hremotes]
      rfl
    rw [hpairs, hclean, hproduct, List.nil_append]
    have hpos : 0 < additions.length := List.length_pos_of_ne_nil hne
    constructor
    · intro hperm
      have hlen := hperm.length_eq
      rw [List.length_append] at hlen
      have : earlier = [] := List.eq_nil_of_length_eq_zero (by omega)
      exact (hone.mp this).le
    · intro hle
      rw [hone.mpr (by omega), List.nil_append]

/-- A host candidate with the priority of the standard preferences. -/
def hostCandidate (address : Str) (port : UInt16) : Candidate where
  candidateType := .host
  priority := 2130706431
  address
  port
  componentId := 1
  foundation := "1".toList
  transport := "udp".toList

def localHost : IceAgent :=
  { IceAgent.new with localCandidates := [hostCandidate "10.0.0.1".toList 5000] }

/-- Both candidates in one call. -/
theorem batch_pairs_once : ∃ agent' : IceAgent, agent'.combinations.Perm
    (localHost.localCandidates ×ˢ [hostCandidate "10.0.0.2".toList 5002, hostCandidate "10.0.0.2".toList 5004]) :=
  ⟨_, (every_pair_once_iff localHost [.addRemoteCandidates
    [hostCandidate "10.0.0.2".toList 5002, hostCandidate "10.0.0.2".toList 5004]] _ rfl).mpr le_rfl⟩

/-- One after the other they are three pairs: the first is there twice. -/
theorem trickled_pair_twice : ∃ agent', localHost.cleanRemoteCandidates.addAll
      [.addRemoteCandidate (hostCandidate "10.0.0.2".toList 5002),
        .addRemoteCandidate (hostCandidate "10.0.0.2".toList 5004)] = .ok agent' ∧
    ¬agent'.combinations.Perm
      (localHost.localCandidates ×ˢ [hostCandidate "10.0.0.2".toList 5002,
        hostCandidate "10.0.0.2".toList 5004]) := by
  refine ⟨_, rfl, fun hperm => ?_⟩
  have hlen := hperm.length_eq
  revert hlen
  decide

/-! ## Priorities -/

namespace CandidatePair

/-- The formula without its last bit; it does not tell the sides apart. -/
def base (loc remote : Candidate) : ℕ :=
  2 ^ 32 * min loc.priority.toNat remote.priority.toNat + 2 * max loc.priority.toNat remote.priority.toNat

/-- The formula of `calculate_pair_priority` in numbers. -/
def formula (loc remote : Candidate) : ℕ :=
  base loc remote + if loc.priority.toNat > remote.priority.toNat then 1 else 0

/-- The formula has its value in `u64`. -/
def Exact (loc remote : Candidate) : Prop := (calculatePairPriority loc remote).toNat = formula loc remote

theorem base_comm (loc remote : Candidate) : base remote loc = base loc remote := by
  rw [base, base, min_comm, max_comm]

theorem calculatePairPriority_toNat (loc remote : Candidate) :
    (calculatePairPriority loc remote).toNat = formula loc remote % 2 ^ 64 := by
  have hgt : loc.priority > remote.priority ↔ loc.priority.toNat > remote.priority.toNat := UInt32.lt_iff_toNat_lt
  have hshift : ((1 : UInt64) <<< 32).toNat = 2 ^ 32 := by decide
  unfold calculatePairPriority formula base
  simp only [UInt64.toNat_add, UInt64.toNat_mul, UInt32.toNat_toUInt64, UInt32.toNat_min,
    UInt32.toNat_max, hshift, hgt]
  split <;> simp only [UInt64.toNat_ofNat] <;> omega

/-- Only two candidates of the highest priority there is are too much for `u64`. -/
theorem exact_iff (loc remote : Candidate) :
    Exact loc remote ↔ ¬(loc.priority.toNat = 2 ^ 32 - 1 ∧ remote.priority.toNat = 2 ^ 32 - 1) := by
  have hl := loc.priority.toNat_lt
  have hr := remote.priority.toNat_lt
  have hfits : Exact loc remote ↔ formula loc remote < 2 ^ 64 := by
    rw [Exact, calculatePairPriority_toNat]
    exact ⟨fun h => h ▸ Nat.mod_lt _ (by decide), Nat.mod_eq_of_lt⟩
  rw [hfits]
  unfold formula base
  split <;> omega

/-- In both pairs the higher priority is on the same side, or in none. -/
def SameSide (p q : Candidate × Candidate) : Prop :=
  (p.1.priority.toNat < p.2.priority.toNat ↔ q.1.priority.toNat < q.2.priority.toNat) ∧
    (p.2.priority.toNat < p.1.priority.toNat ↔ q.2.priority.toNat < q.1.priority.toNat)

/-- The agent prefers `p` to `q`. -/
def Prefers (p q : Candidate × Candidate) : Prop :=
  calculatePairPriority p.1 p.2 > calculatePairPriority q.1 q.2

/-- The last bit decides between two pairs only if everything before it is equal. -/
theorem prefers_iff {p q : Candidate × Candidate} (hp : Exact p.1 p.2) (hq : Exact q.1 q.2) :
    Prefers p q ↔ base q.1 q.2 < base p.1 p.2 ∨ (base q.1 q.2 = base p.1 p.2 ∧
      p.2.priority.toNat < p.1.priority.toNat ∧ ¬q.2.priority.toNat < q.1.priority.toNat) := by
  have hlt : Prefers p q ↔ formula q.1 q.2 < formula p.1 p.2 := by
    rw [Prefers, gt_iff_lt, UInt64.lt_iff_toNat_lt, hp, hq]
  rw [hlt]
  unfold formula base
  split <;> split <;> omega

theorem agree_iff {p q : Candidate × Candidate} (hp : Exact p.1 p.2) (hp' : Exact p.2 p.1) (hq : Exact q.1 q.2)
    (hq' : Exact q.2 q.1) :
    ((Prefers p q ↔ Prefers p.swap q.swap) ∧ (Prefers q p ↔ Prefers q.swap p.swap)) ↔
      (base p.1 p.2 = base q.1 q.2 → SameSide p q) := by
  rw [prefers_iff hp hq, prefers_iff hq hp, @prefers_iff p.swap q.swap hp' hq', @prefers_iff q.swap p.swap hq' hp']
  unfold SameSide
  simp only [Prod.fst_swap, Prod.snd_swap, base_comm p.1 p.2, base_comm q.1 q.2]
  omega

end CandidatePair

open CandidatePair in
/-- **Both agents rank pairs alike.** The local candidates of one agent are the remote ones of the
other. Their priorities have the value of the formula and put all pairs into the same order exactly
when no pair has the highest priority on both sides, and two pairs that differ in the last bit at
most have the higher priority on the same side. -/
theorem ranked_alike_iff (locals remotes : List Candidate) :
    ((∀ p ∈ locals ×ˢ remotes, Exact p.1 p.2 ∧ Exact p.2 p.1) ∧
      ∀ p ∈ locals ×ˢ remotes, ∀ q ∈ locals ×ˢ remotes, Prefers p q ↔ Prefers p.swap q.swap) ↔
    ((∀ p ∈ locals ×ˢ remotes, ¬(p.1.priority.toNat = 2 ^ 32 - 1 ∧ p.2.priority.toNat = 2 ^ 32 - 1)) ∧
      ∀ p ∈ locals ×ˢ remotes, ∀ q ∈ locals ×ˢ remotes, base p.1 p.2 = base q.1 q.2 → SameSide p q) := by
  have hexact : (∀ p ∈ locals ×ˢ remotes, Exact p.1 p.2 ∧ Exact p.2 p.1) ↔
      ∀ p ∈ locals ×ˢ remotes, ¬(p.1.priority.toNat = 2 ^ 32 - 1 ∧ p.2.priority.toNat = 2 ^ 32 - 1) := by
    refine forall₂_congr fun p _ => ?_
    rw [exact_iff, exact_iff, and_comm (a := p.2.priority.toNat = _), and_self]
  rw [← hexact]
  refine and_congr_right fun h => ?_
  have hagree : ∀ p ∈ locals ×ˢ remotes, ∀ q ∈ locals ×ˢ remotes,
      ((Prefers p q ↔ Prefers p.swap q.swap) ∧ (Prefers q p ↔ Prefers q.swap p.swap)) ↔
        (base p.1 p.2 = base q.1 q.2 → SameSide p q) :=
    fun p hp q hq => agree_iff (h p hp).1 (h p hp).2 (h q hq).1 (h q hq).2
  constructor
  · intro hall p hp q hq
    exact (hagree p hp q hq).mp ⟨hall p hp q hq, hall q hq p hp⟩
  · intro hall p hp q hq
    exact ((hagree p hp q hq).mpr (hall p hp q hq)).1

/-- Both agents have a candidate of priority 200 and one of 100. Each prefers its own better candidate
with the other's worse one to the reverse, so they disagree on the two pairs; and two candidates of
the highest priority exceed `u64`. -/
theorem agents_disagree :
    let strong : Candidate := { hostCandidate "10.0.0.1".toList 5000 with priority := 200 }
    let weak : Candidate := { hostCandidate "10.0.0.1".toList 5001 with priority := 100 }
    let top : Candidate := { hostCandidate "10.0.0.1".toList 5002 with priority := 4294967295 }
    CandidatePair.Prefers (strong, weak) (weak, strong) ∧
      ¬CandidatePair.Prefers (strong, weak).swap (weak, strong).swap ∧ ¬CandidatePair.Exact top top := by
  intro strong weak top
  unfold CandidatePair.Prefers CandidatePair.Exact
  decide

end RoomRtc.Session
