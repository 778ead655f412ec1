import Mathlib.Data.List.Sort
import RoomRtc.Foundations.Trace
import RoomRtc.Session.Checks
import RoomRtc.Session.Ice

/-! The connectivity checks of an agent (`IceAgent::start_connectivity_checks`) and the pair they
select, over the whole life of the agent. A check that finds no pair leaves the pair of an earlier
one selected. -/
namespace RoomRtc.Session
set_option autoImplicit false

/-- The variants of `IceError` that the checks end with. -/
inductive ConnectivityError where
  | noCandidatePairs
  | networkInterfaceError
  | noSelectedPair
deriving DecidableEq, Repr

namespace CandidatePair

def isReflexive (pair : CandidatePair) : Bool :=
  decide (pair.loc.candidateType = .serverReflexive) || decide (pair.remote.candidateType = .serverReflexive)

/-- `format!("{}:{}", pair.remote.address, pair.remote.port)` -/
def target (pair : CandidatePair) : Str := pair.remote.address ++ ':' :: Nat.toDigits 10 pair.remote.port.toNat

end CandidatePair

/-- What the loop over the sorted pairs leaves: the pairs with their states, the index of the one it
stopped at and the datagrams it has sent, each with its target. -/
structure CheckRound where
  pairs : List CandidatePair
  selectedIndex : Option ℕ
  sent : List (Str × Bytes)
deriving DecidableEq, Repr

/-- The loop from the pair with index `i` on, where `net i` is what its check meets. The state
`InProgress` of a pair is over when its check is. -/
def checkPairs (net : ℕ → List Attempt) : ℕ → List CandidatePair → CheckRound
  | _, [] => ⟨[], none, []⟩
  | i, pair :: pairs =>
    if pair.isReflexive then
      let rest := checkPairs net (i + 1) pairs
      { rest with pairs := pair :: rest.pairs }
    else
      let (valid, datagrams) := verifyCandidatePair pair.target (net i)
      let sent := datagrams.map (pair.target, ·)
      if valid then ⟨{ pair with state := .succeeded } :: pairs, some i, sent⟩
      else
        let rest := checkPairs net (i + 1) pairs
        ⟨{ pair with state := .failed } :: rest.pairs, rest.selectedIndex, sent ++ rest.sent⟩

namespace IceAgent

/-- The pairs after the stable sort by falling priority. -/
def ranked (agent : IceAgent) : List CandidatePair :=
  agent.candidatePairs.insertionSort fun a b => b.priority ≤ a.priority

/-- `timeoutSet` says whether the socket takes the read timeout. -/
def startConnectivityChecks (agent : IceAgent) (timeoutSet : Bool) (net : ℕ → List Attempt) :
    IceAgent × Except ConnectivityError Unit × List (Str × Bytes) :=
  if agent.candidatePairs = [] then (agent, .error .noCandidatePairs, [])
  else
    let agent := { agent with candidatePairs := agent.ranked }
    if !timeoutSet then (agent, .error .networkInterfaceError, [])
    else
      let round := checkPairs net 0 agent.candidatePairs
      let agent := { agent with candidatePairs := round.pairs }
      match round.selectedIndex with
      | some index => ({ agent with selectedPair := agent.candidatePairs[index]? }, .ok (), round.sent)
      | none => (agent, .error .noSelectedPair, round.sent)

def getSelectedPair (agent : IceAgent) : Except ConnectivityError CandidatePair :=
  match agent.selectedPair with
  | some pair => .ok pair
  | none => .error .noSelectedPair

end IceAgent

/-! ## One round of checks -/

/-- The pair with this index is checked and its check succeeds. -/
def Answers (net : ℕ → List Attempt) (i : ℕ) (pair : CandidatePair) : Prop :=
  pair.isReflexive = false ∧ (verifyCandidatePair pair.target (net i)).1 = true

instance (net : ℕ → List Attempt) (i : ℕ) (pair : CandidatePair) : Decidable (Answers net i pair) :=
  inferInstanceAs (Decidable (_ ∧ _))

/-- What a pair looks like that was passed over. -/
def CandidatePair.passed (pair : CandidatePair) : CandidatePair :=
  if pair.isReflexive then pair else { pair with state := .failed }

variable {net : ℕ → List Attempt} {i : ℕ} {pair : CandidatePair} {pairs : List CandidatePair}

theorem checkPairs_answers (h : Answers net i pair) :
    (checkPairs net i (pair :: pairs)).pairs = { pair with state := .succeeded } :: pairs ∧
      (checkPairs net i (pair :: pairs)).selectedIndex = some i := by
  obtain ⟨hhost, hvalid⟩ := h
  rw [checkPairs]
  simp [hhost, hvalid]

theorem checkPairs_passes (h : ¬Answers net i pair) :
    (checkPairs net i (pair :: pairs)).pairs = pair.passed :: (checkPairs net (i + 1) pairs).pairs ∧
      (checkPairs net i (pair :: pairs)).selectedIndex = (checkPairs net (i + 1) pairs).selectedIndex := by
  rw [checkPairs, CandidatePair.passed]
  cases hr : pair.isReflexive with
  | true => simp
  | false =>
    have hvalid : (verifyCandidatePair pair.target (net i)).1 = false := by
      rw [Bool.eq_false_iff]
      exact fun hv => h ⟨hr, hv⟩
    simp [hvalid]

/-- No pair answers. -/
theorem checkPairs_none (h : ∀ k pair, pairs[k]? = some pair → ¬Answers net (i + k) pair) :
    (checkPairs net i pairs).pairs = pairs.map CandidatePair.passed ∧
      (checkPairs net i pairs).selectedIndex = none := by
  induction pairs generalizing i with
  | nil => exact ⟨rfl, rfl⟩
  | cons pair pairs ih =>
    obtain ⟨hpairs, hindex⟩ := @checkPairs_passes net i pair pairs (h 0 pair rfl)
    have hrest := @ih (i + 1) fun k p hp => by
      rw [Nat.add_right_comm]
      exact h (k + 1) p hp
    exact ⟨by rw [hpairs, hrest.1, List.map_cons], hindex.trans hrest.2⟩

/-- The first pair that answers ends the loop. -/
theorem checkPairs_first {before after : List CandidatePair}
    (hbefore : ∀ k p, before[k]? = some p → ¬Answers net (i + k) p) (h : Answers net (i + before.length) pair) :
    (checkPairs net i (before ++ pair :: after)).pairs =
        before.map CandidatePair.passed ++ { pair with state := .succeeded } :: after ∧
      (checkPairs net i (before ++ pair :: after)).selectedIndex = some (i + before.length) := by
  induction before generalizing i with
  | nil => exact checkPairs_answers h
  | cons p before ih =>
    obtain ⟨hpairs, hindex⟩ := @checkPairs_passes net i p (before ++ pair :: after) (hbefore 0 p rfl)
    have hlen : i + 1 + before.length = i + (p :: before).length := by
      rw [List.length_cons]
      omega
    have hrest := @ih (i + 1) (fun k q hq => by
      rw [Nat.add_right_comm]
      exact hbefore (k + 1) q hq) (by rwa [hlen])
    exact ⟨by rw [List.cons_append, hpairs, hrest.1, List.map_cons, List.cons_append],
      by rw [List.cons_append, hindex, hrest.2, hlen]⟩

/-- Either no pair answers, or there is a first one that does. -/
theorem first_answer (net : ℕ → List Attempt) (i : ℕ) (pairs : List CandidatePair) :
    (∀ k pair, pairs[k]? = some pair → ¬Answers net (i + k) pair) ∨
      ∃ before pair after, pairs = before ++ pair :: after ∧
        (∀ k p, before[k]? = some p → ¬Answers net (i + k) p) ∧ Answers net (i + before.length) pair := by
  induction pairs generalizing i with
  | nil => exact .inl fun k pair h => by simp at h
  | cons p pairs ih =>
    by_cases hp : Answers net i p
    · exact .inr ⟨[], p, pairs, rfl, fun k q h => by simp at h, hp⟩
    · have hcons : ∀ (l : List CandidatePair), (∀ k q, l[k]? = some q → ¬Answers net (i + 1 + k) q) →
          ∀ k q, (p :: l)[k]? = some q → ¬Answers net (i + k) q := by
        intro l hl k q hq
        cases k with
        | zero =>
          obtain rfl : p = q := by simpa using hq
          exact hp
        | succ k =>
          have := hl k q (by simpa using hq)
          rwa [Nat.add_right_comm] at this
      obtain hnone | ⟨before, pair, after, rfl, hbefore, hpair⟩ := ih (i + 1)
      · exact .inl (hcons pairs hnone)
      · refine .inr ⟨p :: before, pair, after, rfl, hcons before hbefore, ?_⟩
        rw [List.length_cons, Nat.add_comm before.length 1, ← Nat.add_assoc]
        exact hpair

/-! ## The life of an agent -/

inductive AgentCall where
  | gatherCandidates (net : IceAgent.Interfaces) (config : IceConfig)
  | addRemoteCandidate (candidate : Candidate)
  | addRemoteCandidates (candidates : List Candidate)
  | startConnectivityChecks (timeoutSet : Bool) (net : ℕ → List Attempt)
  | cleanRemoteCandidates

namespace IceAgent

def call (agent : IceAgent) : AgentCall → IceAgent
  | .gatherCandidates net config => agent.gatherCandidates net config
  | .addRemoteCandidate candidate => (agent.addRemoteCandidate candidate).1
  | .addRemoteCandidates candidates => (agent.addRemoteCandidates candidates).1
  | .startConnectivityChecks timeoutSet net => (agent.startConnectivityChecks timeoutSet net).1
  | .cleanRemoteCandidates => agent.cleanRemoteCandidates

/-- The call is a round of checks that ends with this pair: the first of the sorted ones that answers. -/
def Selects (agent : IceAgent) (pair : CandidatePair) : AgentCall → Prop
  | .startConnectivityChecks timeoutSet net => timeoutSet = true ∧ ∃ before p after,
      agent.ranked = before ++ p :: after ∧ (∀ k q, before[k]? = some q → ¬Answers net k q) ∧
        Answers net before.length p ∧ pair = { p with state := .succeeded }
  | _ => False

/-- The call leaves the selected pair as it is. -/
def Keeps (agent : IceAgent) (c : AgentCall) : Prop :=
  c ≠ .cleanRemoteCandidates ∧ ∀ pair, ¬agent.Selects pair c

variable {agent : IceAgent}

theorem createCandidatePair_selected (agent : IceAgent) :
    agent.createCandidatePair.1.selectedPair = agent.selectedPair := by
  rw [createCandidatePair]
  split
  · rfl
  · split
    · rfl
    · dsimp only
      split <;> rfl

theorem ranked_nil (h : agent.candidatePairs = []) : agent.ranked = [] := by
  rw [ranked, h, List.insertionSort_nil]

/-- A round of checks selects a pair and returns `Ok`, or leaves the selection and is an error. -/
theorem startConnectivityChecks_cases (agent : IceAgent) (timeoutSet : Bool) (net : ℕ → List Attempt) :
    (∃ pair, agent.Selects pair (.startConnectivityChecks timeoutSet net) ∧
        (agent.startConnectivityChecks timeoutSet net).1.selectedPair = some pair ∧
        (agent.startConnectivityChecks timeoutSet net).2.1 = .ok ()) ∨
      (∀ pair, ¬agent.Selects pair (.startConnectivityChecks timeoutSet net)) ∧
        (agent.startConnectivityChecks timeoutSet net).1.selectedPair = agent.selectedPair ∧
        ∃ e, (agent.startConnectivityChecks timeoutSet net).2.1 = .error e := by
  rw [startConnectivityChecks]
  split
  · next hnil =>
    refine .inr ⟨?_, rfl, _, rfl⟩
    rintro pair ⟨_, before, p, after, hranked, _⟩
    rw [ranked_nil hnil] at hranked
    simp at hranked
  · cases timeoutSet with
    | false => exact .inr ⟨fun pair h => (by cases h.1), rfl, _, rfl⟩
    | true =>
      simp only [Bool.not_true, Bool.false_eq_true, if_false]
      obtain hnone | ⟨before, p, after, hranked, hbefore, hp⟩ := first_answer net 0 agent.ranked
      · obtain ⟨_, hindex⟩ := checkPairs_none hnone
        rw [hindex]
        refine .inr ⟨?_, rfl, _, rfl⟩
        rintro pair ⟨_, before, p, after, hranked, _, hp, _⟩
        refine hnone before.length p ?_ (by rwa [Nat.zero_add])
        simp [hranked]
      · obtain ⟨hpairs, hindex⟩ := @checkPairs_first net 0 p before after hbefore hp
        rw [hranked, hindex, hpairs]
        simp only [Nat.zero_add] at hbefore hp
        refine .inl ⟨_, ⟨rfl, before, p, after, hranked, hbefore, hp, rfl⟩, ?_, rfl⟩
        simp

theorem selects_unique {pair pair' : CandidatePair} {c : AgentCall} (h : agent.Selects pair c)
    (h' : agent.Selects pair' c) : pair = pair' := by
  cases c with
  | startConnectivityChecks timeoutSet net =>
    obtain ⟨_, before, p, after, hranked, hbefore, hp, rfl⟩ := h
    obtain ⟨_, before', p', after', hranked', hbefore', hp', rfl⟩ := h'
    rw [hranked] at hranked'
    -- were one of the two earlier, it would be one that the other has passed over
    have hlen : before.length = before'.length := by
      by_contra hne
      obtain hlt | hlt := Nat.lt_or_gt_of_ne hne
      · refine hbefore' before.length p ?_ hp
        have hget := congrArg (·[before.length]?) hranked'
        simpa [List.getElem?_append_left hlt] using hget.symm
      · refine hbefore before'.length p' ?_ hp'
        have hget := congrArg (·[before'.length]?) hranked'
        simpa [List.getElem?_append_left hlt] using hget
    obtain ⟨_, hcons⟩ := List.append_inj hranked' hlen
    obtain ⟨rfl, _⟩ := List.cons.inj hcons
    rfl
  | _ => exact absurd h id

/-- What one call does to the selected pair. -/
theorem call_selected (agent : IceAgent) (c : AgentCall) (pair : CandidatePair) :
    (agent.call c).selectedPair = some pair ↔
      agent.Selects pair c ∨ (agent.selectedPair = some pair ∧ agent.Keeps c) := by
  have hsame : (agent.call c).selectedPair = agent.selectedPair → agent.Keeps c →
      ((agent.call c).selectedPair = some pair ↔
        agent.Selects pair c ∨ (agent.selectedPair = some pair ∧ agent.Keeps c)) := by
    intro heq hkeeps
    rw [heq]
    simp [hkeeps, hkeeps.2 pair]
  cases c with
  | gatherCandidates net config => exact hsame rfl ⟨by simp, fun _ => id⟩
  | addRemoteCandidate candidate =>
    exact hsame (createCandidatePair_selected _) ⟨by simp, fun _ => id⟩
  | addRemoteCandidates candidates =>
    exact hsame (createCandidatePair_selected _) ⟨by simp, fun _ => id⟩
  | cleanRemoteCandidates => simp [call, cleanRemoteCandidates, Selects, Keeps]
  | startConnectivityChecks timeoutSet net =>
    obtain ⟨p, hp, hselected, _⟩ | ⟨hnone, hselected, _⟩ := agent.startConnectivityChecks_cases timeoutSet net
    · rw [call, hselected, Option.some.injEq]
      constructor
      · rintro rfl
        exact .inl hp
      · rintro (hpair | ⟨_, hkeeps⟩)
        · exact selects_unique hp hpair
        · exact absurd hp (hkeeps.2 p)
    · exact hsame hselected ⟨by simp, hnone⟩

end IceAgent

def agentMachine : Machine IceAgent AgentCall Unit where
  step agent c := some (agent.call c, ())

theorem getSelectedPair_ok_iff (agent : IceAgent) (pair : CandidatePair) :
    agent.getSelectedPair = .ok pair ↔ agent.selectedPair = some pair := by
  rw [IceAgent.getSelectedPair]
  cases agent.selectedPair <;> simp

/-- **Which pair is selected.** After any calls on a new agent it is the pair that some round of checks
ended with, and since then no candidates were cleaned and no other round has found a pair. Rounds
that fail and candidates that are added do not count. -/
theorem selected_pair_iff {calls : List AgentCall} {agent : IceAgent} {os : List Unit}
    (hr : agentMachine.run .new calls = some (agent, os)) (pair : CandidatePair) :
    agent.getSelectedPair = .ok pair ↔ ∃ before c after earlier ps, calls = before ++ c :: after ∧
      agentMachine.run .new before = some (earlier, ps) ∧ earlier.Selects pair c ∧
      agentMachine.Guarded IceAgent.Keeps (earlier.call c) after := by
  have hstep : ∀ (s : IceAgent) c s' o p, agentMachine.step s c = some (s', o) →
      (s'.selectedPair = some p ↔ s.Selects p c ∨ (s.selectedPair = some p ∧ s.Keeps c)) := by
    intro s c s' o p h
    cases h
    exact s.call_selected c p
  rw [getSelectedPair_ok_iff, agentMachine.register_iff hstep rfl hr pair]
  constructor
  · rintro ⟨before, c, after, u, u', o, ps, rfl, hu, hc, hselects, hkept⟩
    cases hc
    exact ⟨before, c, after, u, ps, rfl, hu, hselects, hkept⟩
  · rintro ⟨before, c, after, u, ps, rfl, hu, hselects, hkept⟩
    exact ⟨before, c, after, u, _, (), ps, rfl, hu, rfl, hselects, hkept⟩

/-! ## What a selected pair is -/

namespace IceAgent

/-- A pair of one candidate of each side, with its priority. -/
structure Forms (agent : IceAgent) (pair : CandidatePair) : Prop where
  loc : pair.loc ∈ agent.localCandidates
  remote : pair.remote ∈ agent.remoteCandidates
  priority : pair.priority = CandidatePair.calculatePairPriority pair.loc pair.remote

/-- Two host candidates whose check has succeeded. -/
structure Validated (agent : IceAgent) (pair : CandidatePair) : Prop extends agent.Forms pair where
  state : pair.state = .succeeded
  locHost : pair.loc.candidateType = .host
  remoteHost : pair.remote.candidateType = .host

structure Consistent (agent : IceAgent) : Prop where
  pairs : ∀ pair ∈ agent.candidatePairs, agent.Forms pair
  selected : ∀ pair, agent.selectedPair = some pair → agent.Validated pair

variable {agent agent' : IceAgent} {pair : CandidatePair}

theorem Forms.mono (h : agent.Forms pair) (hloc : ∀ c ∈ agent.localCandidates, c ∈ agent'.localCandidates)
    (hremote : ∀ c ∈ agent.remoteCandidates, c ∈ agent'.remoteCandidates) : agent'.Forms pair :=
  ⟨hloc _ h.loc, hremote _ h.remote, h.priority⟩

theorem Validated.mono (h : agent.Validated pair) (hloc : ∀ c ∈ agent.localCandidates, c ∈ agent'.localCandidates)
    (hremote : ∀ c ∈ agent.remoteCandidates, c ∈ agent'.remoteCandidates) : agent'.Validated pair :=
  ⟨h.toForms.mono hloc hremote, h.state, h.locHost, h.remoteHost⟩

/-- More candidates, and no pairs but those there were. -/
theorem Consistent.mono (h : agent.Consistent) (hloc : ∀ c ∈ agent.localCandidates, c ∈ agent'.localCandidates)
    (hremote : ∀ c ∈ agent.remoteCandidates, c ∈ agent'.remoteCandidates)
    (hpairs : agent'.candidatePairs = agent.candidatePairs) (hselected : agent'.selectedPair = agent.selectedPair) :
    agent'.Consistent := by
  constructor
  · intro p hp
    rw [hpairs] at hp
    exact (h.pairs p hp).mono hloc hremote
  · intro p hp
    rw [hselected] at hp
    exact (h.selected p hp).mono hloc hremote

theorem Consistent.createCandidatePair (h : agent.Consistent) : agent.createCandidatePair.1.Consistent := by
  have hpairs : ∀ p ∈ agent.candidatePairs ++ agent.localCandidates.flatMap fun loc =>
      agent.remoteCandidates.map (CandidatePair.new loc), agent.Forms p := by
    intro p hp
    cases List.mem_append.mp hp with
    | inl hold => exact h.pairs p hold
    | inr hnew =>
      obtain ⟨loc, hloc, hmap⟩ := List.mem_flatMap.mp hnew
      obtain ⟨remote, hremote, rfl⟩ := List.mem_map.mp hmap
      exact ⟨hloc, hremote, rfl⟩
  have hall : ({ agent with candidatePairs := agent.candidatePairs ++ agent.localCandidates.flatMap fun loc =>
      agent.remoteCandidates.map (CandidatePair.new loc) } : IceAgent).Consistent :=
    ⟨fun p hp => (hpairs p hp).mono (fun _ => id) fun _ => id,
      fun p hp => (h.selected p hp).mono (fun _ => id) fun _ => id⟩
  rw [IceAgent.createCandidatePair]
  split
  · exact h
  · split
    · exact h
    · dsimp only
      split <;> exact hall

/-- A round of checks touches nothing of a pair but its state. -/
theorem mem_checkPairs {net : ℕ → List Attempt} {i : ℕ} {pairs : List CandidatePair} {p : CandidatePair}
    (h : p ∈ (checkPairs net i pairs).pairs) : ∃ q ∈ pairs, ∃ state, p = { q with state } := by
  have hpassed : ∀ {l : List CandidatePair}, p ∈ l.map CandidatePair.passed →
    ∃ q ∈ l, ∃ state, p = { q with state } := by
    intro l hl
    obtain ⟨q, hq, rfl⟩ := List.mem_map.mp hl
    refine ⟨q, hq, ?_⟩
    unfold CandidatePair.passed
    split
    · exact ⟨q.state, rfl⟩
    · exact ⟨_, rfl⟩
  obtain hnone | ⟨before, q, after, rfl, hbefore, hq⟩ := first_answer net i pairs
  · rw [(checkPairs_none hnone).1] at h
    exact hpassed h
  · rw [(checkPairs_first hbefore hq).1] at h
    obtain hfront | hback := List.mem_append.mp h
    · obtain ⟨r, hr, hstate⟩ := hpassed hfront
      exact ⟨r, by simp [hr], hstate⟩
    · obtain rfl | hafter := List.mem_cons.mp hback
      · exact ⟨q, by simp, _, rfl⟩
      · exact ⟨p, by simp [hafter], p.state, rfl⟩

theorem mem_ranked {p : CandidatePair} : p ∈ agent.ranked ↔ p ∈ agent.candidatePairs := List.mem_insertionSort _

/-- What a round selects was formed before it. -/
theorem Consistent.validated (h : agent.Consistent) {c : AgentCall} (hselects : agent.Selects pair c) :
    agent.Validated pair := by
  cases c with
  | startConnectivityChecks timeoutSet net =>
    obtain ⟨_, before, p, after, hranked, _, hp, rfl⟩ := hselects
    have hforms := h.pairs p (mem_ranked.mp (by simp [hranked]))
    obtain ⟨hloc, hremote⟩ := Bool.or_eq_false_iff.mp hp.1
    have hhost : ∀ t : CandidateType, decide (t = .serverReflexive) = false → t = .host := by
      intro t ht
      cases t with
      | host => rfl
      | serverReflexive => cases ht
    exact ⟨⟨hforms.loc, hforms.remote, hforms.priority⟩, rfl, hhost _ hloc, hhost _ hremote⟩
  | _ => exact absurd hselects id

theorem Consistent.startConnectivityChecks (h : agent.Consistent) (timeoutSet : Bool) (net : ℕ → List Attempt) :
    (agent.startConnectivityChecks timeoutSet net).1.Consistent := by
  have hlists : (agent.startConnectivityChecks timeoutSet net).1.localCandidates = agent.localCandidates ∧
      (agent.startConnectivityChecks timeoutSet net).1.remoteCandidates = agent.remoteCandidates ∧
      ∀ p ∈ (agent.startConnectivityChecks timeoutSet net).1.candidatePairs,
        ∃ q ∈ agent.candidatePairs, ∃ state, p = { q with state } := by
    rw [IceAgent.startConnectivityChecks]
    split
    · exact ⟨rfl, rfl, fun p hp => ⟨p, hp, p.state, rfl⟩⟩
    · cases timeoutSet with
      | false => exact ⟨rfl, rfl, fun p hp => ⟨p, mem_ranked.mp hp, p.state, rfl⟩⟩
      | true =>
        have hmem : ∀ p ∈ (checkPairs net 0 agent.ranked).pairs, ∃ q ∈ agent.candidatePairs, ∃ state,
            p = { q with state } := by
          intro p hp
          obtain ⟨q, hq, hstate⟩ := mem_checkPairs hp
          exact ⟨q, mem_ranked.mp hq, hstate⟩
        simp only [Bool.not_true, Bool.false_eq_true, if_false]
        split <;> exact ⟨rfl, rfl, hmem⟩
  obtain ⟨hlocals, hremotes, hpairs⟩ := hlists
  constructor
  · intro p hp
    obtain ⟨q, hq, state, rfl⟩ := hpairs p hp
    have hforms := h.pairs q hq
    exact ⟨by rw [hlocals]; exact hforms.loc, by rw [hremotes]; exact hforms.remote, hforms.priority⟩
  · intro p hp
    have hvalidated : agent.Validated p := by
      obtain hselects | ⟨hold, _⟩ := (agent.call_selected (.startConnectivityChecks timeoutSet net) p).mp hp
      · exact h.validated hselects
      · exact h.selected p hold
    exact hvalidated.mono (fun c hc => by rwa [hlocals]) fun c hc => by rwa [hremotes]

theorem Consistent.call (h : agent.Consistent) (c : AgentCall) : (agent.call c).Consistent := by
  have hmore : ∀ candidates, ({ agent with
      remoteCandidates := agent.remoteCandidates ++ candidates } : IceAgent).Consistent :=
    fun candidates => h.mono (fun _ => id) (fun _ hc => List.mem_append_left _ hc) rfl rfl
  cases c with
  | gatherCandidates net config =>
    exact h.mono (fun c hc => by simp [IceAgent.call, gatherCandidates, hc]) (fun _ => id) rfl rfl
  | addRemoteCandidate candidate => exact (hmore [candidate]).createCandidatePair
  | addRemoteCandidates candidates => exact (hmore candidates).createCandidatePair
  | startConnectivityChecks timeoutSet net => exact h.startConnectivityChecks timeoutSet net
  | cleanRemoteCandidates => exact ⟨by simp [IceAgent.call, cleanRemoteCandidates], by
      simp [IceAgent.call, cleanRemoteCandidates]⟩

end IceAgent

def lanConfig : IceConfig := ⟨['1'], "UDP".toList, 1, 126, 100, 65535⟩

def lanHost (address : Str) (port : UInt16) : Candidate :=
  { Candidate.newHost address 1 lanConfig with port := port }

/-- The other host answers the second ping of the first round and none of the second. -/
def twoRounds : List AgentCall :=
  [.gatherCandidates ⟨some "192.168.1.5".toList, some 40000, none⟩ lanConfig,
    .addRemoteCandidate (lanHost "192.168.1.9".toList 50000),
    .startConnectivityChecks true fun _ => [.timedOut, .received (.v4 ⟨192, 168, 1, 9⟩) pong],
    .startConnectivityChecks true fun _ => []]

def lanPair : CandidatePair :=
  CandidatePair.new (lanHost "192.168.1.5".toList 40000) (lanHost "192.168.1.9".toList 50000)

theorem lanPair_answers (k : ℕ) :
    Answers (fun _ => [.timedOut, .received (.v4 ⟨192, 168, 1, 9⟩) pong]) k lanPair := by
  have htarget : lanPair.target = targetOf ⟨192, 168, 1, 9⟩ 50000 := by decide
  refine ⟨rfl, (verify_iff_accepts _ _).mpr ⟨.received (.v4 ⟨192, 168, 1, 9⟩) pong, by simp, ?_⟩⟩
  rw [htarget]
  exact (accepts_iff _ _ _).mpr ⟨_, rfl, lookAlike_self _⟩

def afterTwoRounds : IceAgent := twoRounds.foldl IceAgent.call .new

theorem twoRounds_run : agentMachine.run .new twoRounds = some (afterTwoRounds, [(), (), (), ()]) := rfl

/-- The pair of the first round stays selected, though its check has failed since. -/
theorem failed_round_keeps_selection :
    afterTwoRounds.getSelectedPair = .ok { lanPair with state := .succeeded } ∧
      ∀ p ∈ afterTwoRounds.candidatePairs, p.state = .failed := by
  refine ⟨(selected_pair_iff twoRounds_run _).mpr ?_, by decide⟩
  refine ⟨twoRounds.take 2, _, twoRounds.drop 3, _, _, rfl, rfl,
    ⟨rfl, [], lanPair, [], rfl, by simp, lanPair_answers 0, rfl⟩, ⟨by simp, ?_⟩, fun _ _ _ => trivial⟩
  rintro pair ⟨_, _, p, _, _, _, hp, _⟩
  exact absurd hp.2 (by simp [verifyCandidatePair])

end RoomRtc.Session
