import RoomRtc.Session.Answer

/-! The remote candidates that a session holds. Every negotiation adds the candidates of its
description to those of the negotiations before it, whatever came of them, and nothing of
`call_session.rs` calls `clean_remote_candidates`. -/
namespace RoomRtc.Session
open SessionDescriptionProtocol
set_option autoImplicit false

/-- All candidates of a description. -/
def SessionDescriptionProtocol.candidates (sdp : SessionDescriptionProtocol) : List Candidate :=
  sdp.mediaDescriptions.flatMap MediaDescription.getCandidates

/-- The agent knows no remote side but that of the description. -/
structure IceAgent.OwnPeer (agent : IceAgent) (sdp : SessionDescriptionProtocol) : Prop where
  candidates : ∀ c ∈ agent.remoteCandidates, c ∈ sdp.candidates
  pairs : ∀ pair ∈ agent.candidatePairs, pair.remote ∈ sdp.candidates

/-- Every pair is a pair with a remote candidate that is held. -/
def IceAgent.PairsHeld (agent : IceAgent) : Prop :=
  ∀ pair ∈ agent.candidatePairs, pair.remote ∈ agent.remoteCandidates

theorem IceAgent.PairsHeld.ownPeer_iff {agent : IceAgent} (h : agent.PairsHeld) (sdp : SessionDescriptionProtocol) :
    agent.OwnPeer sdp ↔ ∀ c ∈ agent.remoteCandidates, c ∈ sdp.candidates :=
  ⟨fun ho => ho.candidates, fun hc => ⟨hc, fun pair hpair => hc _ (h pair hpair)⟩⟩

/-! ## Adding candidates -/

/-- As many candidates as are taken in: without a local candidate the first of them is already
an error, but is kept. -/
def IceAgent.taken (agent : IceAgent) (candidates : List Candidate) : List Candidate :=
  if agent.localCandidates = [] then candidates.take 1 else candidates

/-- What an agent looks like after it has taken in candidates. -/
structure IceAgent.Took (agent : IceAgent) (candidates : List Candidate) (agent' : IceAgent) : Prop where
  locals : agent'.localCandidates = agent.localCandidates
  remotes : agent'.remoteCandidates = agent.remoteCandidates ++ agent.taken candidates
  pairs : agent.PairsHeld → agent'.PairsHeld

theorem IceAgent.Took.nil (agent : IceAgent) : agent.Took [] agent := by
  refine ⟨rfl, ?_, id⟩
  simp [IceAgent.taken]

/-- Candidates that were no error, and more of them. -/
theorem IceAgent.Took.append {agent agent₁ agent₂ : IceAgent} {cs ds : List Candidate} (h : agent.Took cs agent₁)
    (hgood : agent.localCandidates ≠ [] ∨ cs = []) (h' : agent₁.Took ds agent₂) :
    agent.Took (cs ++ ds) agent₂ := by
  refine ⟨h'.locals.trans h.locals, ?_, fun hp => h'.pairs (h.pairs hp)⟩
  rw [h'.remotes, h.remotes, List.append_assoc]
  congr 1
  unfold IceAgent.taken
  rw [h.locals]
  cases hgood with
  | inl hloc => simp [hloc]
  | inr hnil => simp [hnil]

/-- Candidates that were an error: what is behind them is not looked at. -/
theorem IceAgent.Took.stuck {agent agent' : IceAgent} {cs : List Candidate} (h : agent.Took cs agent')
    (hbad : ¬(agent.localCandidates ≠ [] ∨ cs = [])) (ds : List Candidate) : agent.Took (cs ++ ds) agent' := by
  rw [not_or, not_not] at hbad
  obtain ⟨c, cs, rfl⟩ := List.exists_cons_of_ne_nil hbad.2
  refine ⟨h.locals, ?_, h.pairs⟩
  rw [h.remotes]
  simp [IceAgent.taken, hbad.1]

/-- One remote candidate more: it is kept in any case, and without a local candidate it is an
error. -/
theorem addRemoteCandidate_took (agent : IceAgent) (c : Candidate) :
    agent.Took [c] (agent.addRemoteCandidate c).1 ∧
      ((agent.addRemoteCandidate c).2 = .ok () ↔ agent.localCandidates ≠ []) := by
  by_cases hloc : agent.localCandidates = []
  · have hstep : agent.addRemoteCandidate c =
        ({ agent with remoteCandidates := agent.remoteCandidates ++ [c] }, .error .noLocalCandidates) := by
      rw [IceAgent.addRemoteCandidate, IceAgent.createCandidatePair, if_pos hloc]
    rw [hstep]
    refine ⟨⟨rfl, by simp [IceAgent.taken, hloc], ?_⟩, by simp [hloc]⟩
    intro h pair hpair
    exact List.mem_append_left _ (h pair hpair)
  · obtain ⟨l, ls, hls⟩ := List.exists_cons_of_ne_nil hloc
    have hpairs : ∀ ps : List CandidatePair, ps ++ (agent.localCandidates.flatMap fun loc =>
        (agent.remoteCandidates ++ [c]).map (CandidatePair.new loc)) ≠ [] := by
      intro ps
      simp [hls]
    have hstep : agent.addRemoteCandidate c =
        ({ agent with
            remoteCandidates := agent.remoteCandidates ++ [c]
            candidatePairs := agent.candidatePairs ++ agent.localCandidates.flatMap fun loc =>
              (agent.remoteCandidates ++ [c]).map (CandidatePair.new loc) }, .ok ()) := by
      rw [IceAgent.addRemoteCandidate, IceAgent.createCandidatePair, if_neg hloc, if_neg (by simp)]
      dsimp only
      rw [if_neg (hpairs _)]
    rw [hstep]
    refine ⟨⟨rfl, by simp [IceAgent.taken, hloc], ?_⟩, by simp [hloc]⟩
    intro h pair hpair
    cases List.mem_append.mp hpair with
    | inl hold => exact List.mem_append_left _ (h pair hold)
    | inr hnew =>
      obtain ⟨loc, _, hloc'⟩ := List.mem_flatMap.mp hnew
      obtain ⟨remote, hremote, rfl⟩ := List.mem_map.mp hloc'
      exact hremote

namespace CallSession

/-- What a row of candidates does to the agent, and when it is an error. -/
theorem addRemoteCandidates_took (s : CallSession) (candidates : List Candidate) :
    s.iceAgent.Took candidates (s.addRemoteCandidates candidates).1.iceAgent ∧
      ((s.addRemoteCandidates candidates).2 = .ok () ↔ s.iceAgent.localCandidates ≠ [] ∨ candidates = []) := by
  induction candidates generalizing s with
  | nil => exact ⟨.nil _, by simp [addRemoteCandidates]⟩
  | cons c candidates ih =>
    obtain ⟨hone, hok⟩ := addRemoteCandidate_took s.iceAgent c
    have hgood : s.iceAgent.localCandidates ≠ [] ↔ s.iceAgent.localCandidates ≠ [] ∨ [c] = [] := by simp
    rw [addRemoteCandidates]
    cases hadd : s.iceAgent.addRemoteCandidate c with
    | mk agent result =>
      rw [hadd] at hone hok
      cases result with
      | error e =>
        have hbad : ¬s.iceAgent.localCandidates ≠ [] := by simp [← hok]
        refine ⟨hone.stuck (fun h => hbad (hgood.mpr h)) candidates, ?_⟩
        simpa using hbad
      | ok u =>
        have hloc : s.iceAgent.localCandidates ≠ [] := hok.mp rfl
        obtain ⟨hrest, hrestok⟩ := ih { s with iceAgent := agent }
        refine ⟨hone.append (hgood.mp hloc) hrest, ?_⟩
        have hlocals : agent.localCandidates = s.iceAgent.localCandidates := hone.locals
        dsimp only at hrestok ⊢
        rw [hrestok, hlocals]
        simp [hloc]

/-- The role has no part in the candidates, and setting it is no error. -/
theorem setLocalSetupRole_agent (s : CallSession) (role : DtlsSetupRole) :
    (s.setLocalSetupRole role).1.iceAgent = s.iceAgent ∧ (s.setLocalSetupRole role).2 = .ok () := by
  unfold setLocalSetupRole
  split
  · exact ⟨rfl, rfl⟩
  · rw [updateSetup_eq]
    exact ⟨rfl, rfl⟩

theorem noteFingerprint_agent (s : CallSession) (md : MediaDescription) :
    (s.noteFingerprint md).iceAgent = s.iceAgent := by
  unfold noteFingerprint
  split <;> rfl

theorem noteSetupRole_agent (s : CallSession) (md : MediaDescription) (remoteType : RemoteSdpType) :
    (s.noteSetupRole md remoteType).1.iceAgent = s.iceAgent ∧ (s.noteSetupRole md remoteType).2 = .ok () := by
  unfold noteSetupRole
  split
  · exact setLocalSetupRole_agent _ _
  · exact ⟨rfl, rfl⟩

/-- Taking in candidates, as every part of a negotiation does it: the agent after it, and when it
is no error. -/
structure TakesIn (s : CallSession) (candidates : List Candidate) (s' : CallSession) (ok : Prop) : Prop where
  took : s.iceAgent.Took candidates s'.iceAgent
  ok_iff : ok ↔ s.iceAgent.localCandidates ≠ [] ∨ candidates = []

theorem processRemoteMd_takesIn (s : CallSession) (md : MediaDescription) (remoteType : RemoteSdpType) :
    TakesIn s md.getCandidates (s.processRemoteMd md remoteType).1
      ((s.processRemoteMd md remoteType).2 = .ok ()) := by
  obtain ⟨htook, hok⟩ := addRemoteCandidates_took s md.getCandidates
  unfold processRemoteMd
  cases hadd : s.addRemoteCandidates md.getCandidates with
  | mk s₁ result =>
    rw [hadd] at htook hok
    cases result with
    | error e => exact ⟨htook, hok⟩
    | ok u =>
      obtain ⟨hagent, hnote⟩ := noteSetupRole_agent (s₁.noteFingerprint md) md remoteType
      dsimp only
      refine ⟨?_, ?_⟩
      · rw [hagent, noteFingerprint_agent]
        exact htook
      · rw [← hok, hnote]

/-- One section after the other, until one has a candidate and there is none on this side. -/
theorem processRemoteMds_takesIn (s : CallSession) (remoteType : RemoteSdpType) (mds : List MediaDescription) :
    TakesIn s (mds.flatMap MediaDescription.getCandidates) (s.processRemoteMds remoteType mds).1
      ((s.processRemoteMds remoteType mds).2 = .ok ()) := by
  induction mds generalizing s with
  | nil => exact ⟨.nil _, by simp [processRemoteMds]⟩
  | cons md mds ih =>
    have hmd := processRemoteMd_takesIn s md remoteType
    rw [processRemoteMds, List.flatMap_cons]
    cases hone : s.processRemoteMd md remoteType with
    | mk s₁ result =>
      rw [hone] at hmd
      cases result with
      | error e =>
        have hbad : ¬(s.iceAgent.localCandidates ≠ [] ∨ md.getCandidates = []) := by
          rw [← hmd.ok_iff]
          simp
        refine ⟨hmd.took.stuck hbad _, ?_⟩
        rw [not_or] at hbad
        simp only [List.append_eq_nil_iff, reduceCtorEq, false_iff, not_or, not_and]
        exact ⟨hbad.1, fun hnil => absurd hnil hbad.2⟩
      | ok u =>
        have hgood := hmd.ok_iff.mp rfl
        have hrest := ih s₁
        have hlocals : s₁.iceAgent.localCandidates = s.iceAgent.localCandidates := hmd.took.locals
        refine ⟨hmd.took.append hgood hrest.took, ?_⟩
        dsimp only
        rw [hrest.ok_iff, hlocals, List.append_eq_nil_iff]
        cases hgood with
        | inl hloc => simp [hloc]
        | inr hnil => simp [hnil]

/-! ## Histories -/

/-- The description that comes in. -/
def Negotiation.sdp : Negotiation → SessionDescriptionProtocol
  | .offer sdp => sdp
  | .answer sdp => sdp

/-- The call returns `Ok`. -/
def Accepts (s : CallSession) : Negotiation → Prop
  | .offer sdp => ∃ answer, (s.processOffer sdp).2 = .ok answer
  | .answer sdp => (s.processAnswer sdp).2 = .ok ()

theorem negotiate_takesIn (s : CallSession) (n : Negotiation) :
    TakesIn s n.sdp.candidates (s.negotiate n) (s.Accepts n) := by
  cases n with
  | answer sdp => exact processRemoteMds_takesIn s .answer sdp.mediaDescriptions
  | offer sdp =>
    obtain ⟨hagent, hset⟩ := setLocalSetupRole_agent s (s.determineLocalRole sdp .offer)
    simp only [negotiate, Accepts, processOffer]
    cases hone : s.setLocalSetupRole (s.determineLocalRole sdp .offer) with
    | mk s₁ result =>
      rw [hone] at hagent hset
      dsimp only at hagent hset
      subst hset
      have htakes := processRemoteMds_takesIn s₁ .offer sdp.mediaDescriptions
      dsimp only
      rw [createAnswer_eq]
      dsimp only
      cases htwo : s₁.processRemoteSdp sdp .offer with
      | mk s₂ result =>
        have htwo' : s₁.processRemoteMds .offer sdp.mediaDescriptions = (s₂, result) := htwo
        rw [htwo'] at htakes
        obtain ⟨htook, hok⟩ := htakes
        rw [hagent] at htook hok
        cases result with
        | error e => exact ⟨htook, Iff.trans (by simp) hok⟩
        | ok u => exact ⟨htook, Iff.trans (by simp) hok⟩

/-- The agent of a session that has been through a history: the local candidates it began with
and the remote candidates of all descriptions, one behind the other. -/
structure Gathered (s₀ : CallSession) (history : List Negotiation) (s : CallSession) : Prop where
  locals : s.iceAgent.localCandidates = s₀.iceAgent.localCandidates
  remotes : s.iceAgent.remoteCandidates = history.flatMap fun n => s₀.iceAgent.taken n.sdp.candidates
  pairs : s.iceAgent.PairsHeld

theorem Gathered.negotiate {s₀ s : CallSession} {history : List Negotiation} (h : Gathered s₀ history s)
    (n : Negotiation) : Gathered s₀ (history ++ [n]) (s.negotiate n) := by
  have htook := (negotiate_takesIn s n).took
  refine ⟨htook.locals.trans h.locals, ?_, htook.pairs h.pairs⟩
  rw [htook.remotes, h.remotes, List.flatMap_append]
  simp [IceAgent.taken, h.locals]

theorem gathered_new {net : IceAgent.Interfaces} {certificate : Option Str} {config : Config} {s : CallSession}
    (h : new net certificate config = .ok s) : Gathered s [] s := by
  obtain ⟨localPort, _, h⟩ := ok_of_bind h
  obtain ⟨video, _, h⟩ := ok_of_bind h
  obtain ⟨audio, _, h⟩ := ok_of_bind h
  obtain ⟨hash, _, h⟩ := ok_of_bind h
  obtain ⟨fingerprint, _, h⟩ := ok_of_bind h
  obtain ⟨video', _, h⟩ := ok_of_bind h
  obtain ⟨audio', _, h⟩ := ok_of_bind h
  cases h
  exact ⟨rfl, rfl, fun pair hpair => by cases hpair⟩

theorem gathered_history {s₀ : CallSession} (h : Gathered s₀ [] s₀) (history : List Negotiation) :
    Gathered s₀ history (history.foldl CallSession.negotiate s₀) := by
  induction history using List.reverseRecOn with
  | nil => exact h
  | append_singleton history n ih =>
    rw [List.foldl_append]
    exact ih.negotiate n

/-- **Whose candidates a session holds.** After any history that ends with a call that returned
`Ok`, the agent holds candidates and pairs of the last description only if and only if no earlier
description had a candidate that the last one has not. -/
theorem own_peer_iff {net : IceAgent.Interfaces} {certificate : Option Str} {config : Config} {s₀ : CallSession}
    (hnew : new net certificate config = .ok s₀) (history : List Negotiation) {last : Negotiation}
    (hok : (history.foldl CallSession.negotiate s₀).Accepts last) :
    ((history ++ [last]).foldl CallSession.negotiate s₀).iceAgent.OwnPeer last.sdp ↔
      ∀ earlier ∈ history, ∀ c ∈ earlier.sdp.candidates, c ∈ last.sdp.candidates := by
  have hbefore := gathered_history (gathered_new hnew) history
  have hafter := gathered_history (gathered_new hnew) (history ++ [last])
  have hgood := (negotiate_takesIn _ last).ok_iff.mp hok
  rw [hbefore.locals] at hgood
  rw [hafter.pairs.ownPeer_iff, hafter.remotes, List.flatMap_append]
  simp only [List.mem_append, List.mem_flatMap, List.mem_singleton]
  by_cases hloc : s₀.iceAgent.localCandidates = []
  · -- the last description has no candidates: then none may be held at all
    have hnil : last.sdp.candidates = [] := hgood.resolve_left (fun h => h hloc)
    have htaken : ∀ cs, s₀.iceAgent.taken cs = cs.take 1 := by
      intro cs
      rw [IceAgent.taken, if_pos hloc]
    simp only [htaken, hnil, List.not_mem_nil, imp_false]
    constructor
    · intro h earlier hmem c hc
      obtain ⟨d, ds, hds⟩ := List.exists_cons_of_ne_nil (List.ne_nil_of_mem hc)
      exact h d (.inl ⟨earlier, hmem, by simp [hds]⟩)
    · rintro h c (⟨earlier, hmem, hc⟩ | ⟨_, rfl, hc⟩)
      · exact h earlier hmem c (List.mem_of_mem_take hc)
      · simp [hnil] at hc
  · have htaken : ∀ cs, s₀.iceAgent.taken cs = cs := by
      intro cs
      rw [IceAgent.taken, if_neg hloc]
    simp only [htaken]
    constructor
    · exact fun h earlier hmem c hc => h c (.inl ⟨earlier, hmem, hc⟩)
    · rintro h c (⟨earlier, hmem, hc⟩ | ⟨_, rfl, hc⟩)
      · exact h earlier hmem c hc
      · exact hc

/-- A host candidate at an address, and an offer with nothing but that. -/
def hostAt (address : Str) : Candidate where
  candidateType := .host
  priority := 2130706431
  address := address
  port := 5000
  componentId := 1
  foundation := "1".toList
  transport := "UDP".toList

def offerFrom (address : Str) : SessionDescriptionProtocol :=
  .new [⟨"video".toList, 5000, "RTP/AVP".toList, {96}, [.candidate (hostAt address)]⟩] .default

theorem fresh_locals : ∃ s, freshSession = .ok s ∧ s.iceAgent.localCandidates ≠ [] := by
  have hrun : (freshSession.toOption.map fun s => s.iceAgent.localCandidates.isEmpty) = some false := by
    decide +kernel
  cases hs : freshSession with
  | error e =>
    rw [hs] at hrun
    cases hrun
  | ok s =>
    rw [hs] at hrun
    have hempty : s.iceAgent.localCandidates.isEmpty = false := Option.some.inj hrun
    exact ⟨s, rfl, List.isEmpty_eq_false_iff.mp hempty⟩

/-- With a local candidate every description is taken in. -/
theorem accepts_of_locals {s₀ : CallSession} (h : Gathered s₀ [] s₀) (hloc : s₀.iceAgent.localCandidates ≠ [])
    (history : List Negotiation) (n : Negotiation) : (history.foldl CallSession.negotiate s₀).Accepts n := by
  apply (negotiate_takesIn _ n).ok_iff.mpr
  rw [(gathered_history h history).locals]
  exact .inl hloc

/-- The same peer offers again after its first offer came to nothing. -/
theorem same_peer_again : ∃ s₀, freshSession = .ok s₀ ∧
    (([.offer (offerFrom "10.0.0.1".toList), .offer (offerFrom "10.0.0.1".toList)] : List Negotiation).foldl
      CallSession.negotiate s₀).iceAgent.OwnPeer (offerFrom "10.0.0.1".toList) := by
  obtain ⟨s₀, hs₀, hloc⟩ := fresh_locals
  refine ⟨s₀, hs₀, ?_⟩
  have hok := accepts_of_locals (gathered_new hs₀) hloc [.offer (offerFrom "10.0.0.1".toList)]
    (.offer (offerFrom "10.0.0.1".toList))
  refine (own_peer_iff hs₀ [.offer (offerFrom "10.0.0.1".toList)] hok).mpr ?_
  intro earlier hmem c hc
  rw [List.mem_singleton.mp hmem] at hc
  exact hc

/-- Another peer offers after the first call was refused: the candidate of the first one is still
there, and the pair with it. -/
theorem refused_peer_remains : ∃ s₀, freshSession = .ok s₀ ∧
    (([.offer (offerFrom "10.0.0.1".toList)] : List Negotiation).foldl CallSession.negotiate s₀).Accepts
      (.offer (offerFrom "10.0.0.2".toList)) ∧
    ¬(([.offer (offerFrom "10.0.0.1".toList), .offer (offerFrom "10.0.0.2".toList)] : List Negotiation).foldl
      CallSession.negotiate s₀).iceAgent.OwnPeer (offerFrom "10.0.0.2".toList) := by
  obtain ⟨s₀, hs₀, hloc⟩ := fresh_locals
  refine ⟨s₀, hs₀, accepts_of_locals (gathered_new hs₀) hloc _ _, ?_⟩
  intro hown
  have hgathered := gathered_history (gathered_new hs₀)
    [.offer (offerFrom "10.0.0.1".toList), .offer (offerFrom "10.0.0.2".toList)]
  have hheld : hostAt "10.0.0.1".toList ∈ (offerFrom "10.0.0.2".toList).candidates := by
    apply hown.candidates
    rw [hgathered.remotes]
    simp only [IceAgent.taken, if_neg hloc]
    decide +kernel
  exact absurd hheld (by decide +kernel)

end CallSession
end RoomRtc.Session
