import RoomRtc.Session.MutualChecks
import RoomRtc.Session.NewSession
import RoomRtc.Session.Selection

/-! How a call is set up between two new sessions: offer and answer go over as texts, each side learns
the other one's fingerprint and candidates, and after the connectivity checks the addresses it sends
to are those of the sockets that the other one has bound. -/
namespace RoomRtc.Session
open SessionDescriptionProtocol Text
set_option autoImplicit false

/-! ## Addresses as texts -/

/-- One field of an IPv4 address as the standard library reads it. -/
def readOctet (s : Str) : Option UInt8 :=
  if s.all Char.isDigit ∧ s.length ≤ 3 ∧ (s.head? = some '0' → s = ['0']) then
    (parseUnsigned 10 256 s).map UInt8.ofNat
  else none

def Ipv4Addr.fromStr (s : Str) : Option Ipv4Addr :=
  match s.splitOn '.' with
  | [a, b, c, d] => do some ⟨← readOctet a, ← readOctet b, ← readOctet c, ← readOctet d⟩
  | _ => none

/-- `str::parse` for an IPv4 socket address. -/
def SocketAddrV4.fromStr (s : Str) : Option SocketAddrV4 := do
  let (ip, port) ← splitOnce ':' s
  if port.all Char.isDigit then some ⟨← Ipv4Addr.fromStr ip, UInt16.ofNat (← parseUnsigned 10 65536 port)⟩
  else none

theorem all_isDigit_toDigits (n : ℕ) : (Nat.toDigits 10 n).all Char.isDigit = true :=
  List.all_eq_true.mpr fun _ hc => isDigit_toDigits hc

theorem octet_shape (n : UInt8) :
    (octet n).length ≤ 3 ∧ ((octet n).head? = some '0' → octet n = ['0']) := by
  have key : ∀ k < 256, (Nat.toDigits 10 k).length ≤ 3 ∧
      ((Nat.toDigits 10 k).head? = some '0' → Nat.toDigits 10 k = ['0']) := by decide +kernel
  exact key n.toNat n.toNat_lt

theorem readOctet_octet (n : UInt8) : readOctet (octet n) = some n := by
  rw [readOctet, if_pos ⟨all_isDigit_toDigits n.toNat, octet_shape n⟩, octet, parseUnsigned_toDigits n.toNat_lt]
  simp

theorem fromStr_display (ip : Ipv4Addr) : Ipv4Addr.fromStr ip.display = some ip := by
  have hdot := fun n => @not_mem_octet '.' rfl n
  have hsplit : ip.display.splitOn '.' = [octet ip.a, octet ip.b, octet ip.c, octet ip.d] := by
    rw [Ipv4Addr.display, dotted, splitOn_first (hdot _), splitOn_first (hdot _), splitOn_first (hdot _),
      splitOn_single (hdot _)]
  rw [Ipv4Addr.fromStr, hsplit]
  simp [readOctet_octet]

theorem colon_not_mem_display (ip : Ipv4Addr) : ':' ∉ ip.display := by
  have hcolon := fun n => @not_mem_octet ':' rfl n
  simp [Ipv4Addr.display, dotted, hcolon]

theorem fromStr_targetOf (ip : Ipv4Addr) (port : UInt16) :
    SocketAddrV4.fromStr (targetOf ip port) = some ⟨ip, port⟩ := by
  rw [SocketAddrV4.fromStr, targetOf, splitOnce_append _ (colon_not_mem_display ip)]
  dsimp only [Option.bind_eq_bind, Option.bind_some]
  rw [if_pos (all_isDigit_toDigits port.toNat), fromStr_display, parseUnsigned_toDigits port.toNat_lt]
  simp

theorem isToken_display (ip : Ipv4Addr) : IsToken ip.display := by
  have hplain : ∀ n, Plain (octet n) := fun n => (isToken_toDigits n.toNat).plain
  refine (isToken_toDigits ip.a.toNat).append ?_
  simp only [plain_cons, plain_append, hplain, and_true, true_and]
  decide

/-! ## What a new session offers -/

/-- What gathering finds on a host with an IPv4 address; a STUN answer is read as `ip:port` of IPv4 too. -/
structure IceAgent.Interfaces.OfHost (net : IceAgent.Interfaces) (host : SocketAddrV4) : Prop where
  localIp : net.localIp = some host.ip.display
  port : net.port = some host.port
  stun : ∀ text, net.stun = some text → ∃ addr : SocketAddrV4, text = targetOf addr.ip addr.port

/-- The candidates of a new session: the only host candidate among them is that of the host. -/
structure CandidatesOf (host : SocketAddrV4) (config : IceConfig) (candidates : List Candidate) : Prop where
  nonempty : candidates ≠ []
  tokens : ∀ c ∈ candidates, c.foundation = config.foundation ∧
    c.transport = config.transport ∧ IsToken c.address
  hosts : ∀ c ∈ candidates, c.candidateType = .host → c.address = host.ip.display ∧ c.port = host.port

theorem candidatesOf_gathered {net : IceAgent.Interfaces} {host : SocketAddrV4} (h : net.OfHost host)
    (config : IceConfig) :
    CandidatesOf host config (IceAgent.new.gatherCandidates net config).localCandidates := by
  have hlocals : (IceAgent.new.gatherCandidates net config).localCandidates =
      { Candidate.newHost host.ip.display config.componentId config with port := host.port } ::
        (net.stun.bind (IceAgent.reflexive config)).toList := by
    simp [IceAgent.gatherCandidates, IceAgent.new, h.localIp, h.port]
  have hreflexive : ∀ c ∈ (net.stun.bind (IceAgent.reflexive config)).toList, ∃ addr : SocketAddrV4,
      IceAgent.reflexive config (targetOf addr.ip addr.port) = some c := by
    intro c hc
    obtain ⟨text, htext, hc⟩ := Option.bind_eq_some_iff.mp (Option.mem_toList.mp hc)
    obtain ⟨addr, rfl⟩ := h.stun text htext
    exact ⟨addr, hc⟩
  have hread : ∀ addr : SocketAddrV4, ∀ c, IceAgent.reflexive config (targetOf addr.ip addr.port) = some c →
      c.candidateType = .serverReflexive ∧ c.foundation = config.foundation ∧ c.transport = config.transport ∧
        c.address = addr.ip.display := by
    intro addr c hc
    rw [IceAgent.reflexive, targetOf, splitOnce_append _ (colon_not_mem_display addr.ip)] at hc
    dsimp only [Option.bind_eq_bind, Option.bind_some] at hc
    rw [parseUnsigned_toDigits addr.port.toNat_lt] at hc
    cases hc
    exact ⟨rfl, rfl, rfl, rfl⟩
  constructor
  · rw [hlocals]
    exact List.cons_ne_nil _ _
  · intro c hc
    rw [hlocals, List.mem_cons] at hc
    obtain rfl | hc := hc
    · exact ⟨rfl, rfl, isToken_display host.ip⟩
    · obtain ⟨addr, haddr⟩ := hreflexive c hc
      obtain ⟨_, hfoundation, htransport, haddress⟩ := hread addr c haddr
      exact ⟨hfoundation, htransport, haddress ▸ isToken_display addr.ip⟩
  · intro c hc htype
    rw [hlocals, List.mem_cons] at hc
    obtain rfl | hc := hc
    · exact ⟨rfl, rfl⟩
    · obtain ⟨addr, haddr⟩ := hreflexive c hc
      rw [(hread addr c haddr).1] at htype
      cases htype

namespace CallSession

/-- A session that has its own part of a call: its sections, and what it calls itself. -/
structure Offers (host : SocketAddrV4) (fingerprint : Fingerprint) (config : Config) (s : CallSession) : Prop where
  candidates : CandidatesOf host config.ice s.iceAgent.localCandidates
  sections : Sections config.media host.port fingerprint s.iceAgent.localCandidates s.sdp.mediaDescriptions
  sessionName : '\n' ∉ s.sdp.sessionName
  timing : '\n' ∉ s.sdp.timing

/-- What it has learned of the other side. -/
structure Knows (s : CallSession) (fingerprint : Fingerprint) (candidates : List Candidate) : Prop where
  fingerprint : s.remoteFingerprint = some fingerprint
  candidates : ∀ c ∈ s.iceAgent.remoteCandidates, c ∈ candidates
  pairs : s.iceAgent.PairsHeld

/-- A session that knows nothing of another side. -/
def Alone (s : CallSession) : Prop := s.iceAgent.remoteCandidates = [] ∧ s.iceAgent.candidatePairs = []

variable {net : IceAgent.Interfaces} {host : SocketAddrV4} {fingerprint : Fingerprint} {config : Config}
  {s s' : CallSession}

theorem offers_of_made (hnet : net.OfHost host) (hconfig : config.Writable) (h : s.Made net fingerprint config) :
    s.Offers host fingerprint config ∧ s.Alone ∧ '\n' ∉ s.sdp.connectionData := by
  obtain ⟨port, hport, hsections⟩ := h.sections
  rw [hnet.port, Option.some.injEq] at hport
  subst hport
  have hcandidates := candidatesOf_gathered hnet config.ice
  rw [← h.agent] at hcandidates
  refine ⟨⟨hcandidates, hsections, ?_, ?_⟩, ?_, ?_⟩
  · rw [h.sessionName]
    exact hconfig.sessionName
  · rw [h.timing]
    exact hconfig.timing
  · rw [Alone, h.agent]
    exact ⟨rfl, rfl⟩
  · obtain ⟨c, rest, hlocals⟩ := List.exists_cons_of_ne_nil hcandidates.nonempty
    have hfirst : s.iceAgent.getLocalCandidate = some c := by
      rw [IceAgent.getLocalCandidate, hlocals]
      rfl
    have haddress := (hcandidates.tokens c (by rw [hlocals]; exact List.mem_cons_self ..)).2.2
    rw [h.connectionData c hfirst, List.mem_append, not_or]
    exact ⟨by decide, haddress.plain.lineFeed_not_mem⟩

theorem Offers.wellFormed (h : s.Offers host fingerprint config) (hconfig : config.Writable)
    (halgorithm : IsToken fingerprint.algorithm) (hbytes : fingerprint.bytes ≠ []) :
    ∀ md ∈ s.sdp.mediaDescriptions, md.WellFormed := by
  refine h.sections.wellFormed hconfig halgorithm hbytes fun c hc => ?_
  obtain ⟨hfoundation, htransport, haddress⟩ := h.candidates.tokens c hc
  exact ⟨hfoundation ▸ hconfig.foundation, htransport ▸ hconfig.transport, haddress⟩

/-! ## What negotiating leaves -/

theorem setLocalSetupRole_offers (h : s.Offers host fingerprint config) (role : DtlsSetupRole) :
    (s.setLocalSetupRole role).2 = .ok () ∧ (s.setLocalSetupRole role).1.Offers host fingerprint config ∧
      (s.setLocalSetupRole role).1.iceAgent = s.iceAgent ∧
      (s.setLocalSetupRole role).1.remoteFingerprint = s.remoteFingerprint := by
  unfold setLocalSetupRole
  split
  · exact ⟨rfl, h, rfl, rfl⟩
  · rw [updateSetup_eq]
    exact ⟨rfl, ⟨h.candidates, h.sections.withSetup role, h.sessionName, h.timing⟩, rfl, rfl⟩

/-- Taking in sections that all carry the same fingerprint. -/
theorem processRemoteMds_remoteFingerprint {remoteType : RemoteSdpType} {mds : List MediaDescription}
    (hmds : ∀ md ∈ mds, md.getFingerprint = some fingerprint)
    (hok : (s.processRemoteMds remoteType mds).2 = .ok ()) :
    (s.processRemoteMds remoteType mds).1.remoteFingerprint =
      if mds = [] then s.remoteFingerprint else some fingerprint := by
  induction mds generalizing s with
  | nil => rfl
  | cons md mds ih =>
    rw [List.forall_mem_cons] at hmds
    have hone : (s.processRemoteMd md remoteType).2 = .ok () →
        (s.processRemoteMd md remoteType).1.remoteFingerprint = some fingerprint := by
      intro hmd
      unfold processRemoteMd at hmd ⊢
      split at hmd
      · cases hmd
      · next s₁ _ =>
        have hnoted : (s₁.noteFingerprint md).remoteFingerprint = some fingerprint := by
          rw [noteFingerprint, hmds.1]
        unfold noteSetupRole
        split
        · unfold setLocalSetupRole
          split
          · exact hnoted
          · rw [updateSetup_eq]
            exact hnoted
        · exact hnoted
    rw [processRemoteMds] at hok ⊢
    rw [if_neg (List.cons_ne_nil _ _)]
    split at hok
    · cases hok
    · next s₁ hstep =>
      have hfirst := hone (by rw [hstep])
      rw [hstep] at hfirst
      dsimp only at hfirst ⊢
      rw [ih hmds.2 hok, hfirst]
      split <;> rfl

theorem processRemoteSdp_knows {remoteType : RemoteSdpType} {sdp : SessionDescriptionProtocol}
    {candidates : List Candidate}
    (hlocals : s.iceAgent.localCandidates ≠ []) (halone : s.Alone) (hne : sdp.mediaDescriptions ≠ [])
    (hmds : ∀ md ∈ sdp.mediaDescriptions, md.getCandidates = candidates ∧ md.getFingerprint = some fingerprint) :
    (s.processRemoteSdp sdp remoteType).2 = .ok () ∧
    (s.processRemoteSdp sdp remoteType).1.Knows fingerprint candidates := by
  have htakes := processRemoteMds_takesIn s remoteType sdp.mediaDescriptions
  have hok : (s.processRemoteMds remoteType sdp.mediaDescriptions).2 = .ok () := htakes.ok_iff.mpr (.inl hlocals)
  have hfingerprint := processRemoteMds_remoteFingerprint (fun md hmd => (hmds md hmd).2) hok
  rw [if_neg hne] at hfingerprint
  refine ⟨hok, hfingerprint, fun c hc => ?_, htakes.took.pairs fun pair hpair => ?_⟩
  · rw [processRemoteSdp, htakes.took.remotes, halone.1, List.nil_append, IceAgent.taken, if_neg hlocals] at hc
    obtain ⟨md, hmd, hcmd⟩ := List.mem_flatMap.mp hc
    rwa [(hmds md hmd).1] at hcmd
  · rw [halone.2] at hpair
    cases hpair

/-- The offer of another new session is answered with all sections. -/
theorem processOffer_knows {config' : Config} {host' : SocketAddrV4} {fingerprint' : Fingerprint}
    {candidates' : List Candidate}
    {offer : SessionDescriptionProtocol} (h : s.Offers host fingerprint config) (halone : s.Alone)
    (hconfig : config.Writable) (hmedia : config'.media = config.media)
    (hoffer : Sections config'.media host'.port fingerprint' candidates' offer.mediaDescriptions) :
    ∃ s' answer, s.processOffer offer = (s', .ok answer) ∧ s'.Knows fingerprint' candidates' ∧
      answer.sessionName = s.sdp.sessionName ∧ answer.timing = s.sdp.timing ∧
      answer.connectionData = "IN IP4 0.0.0.0".toList ∧
      ∃ s₁ : CallSession, s₁.Offers host fingerprint config ∧ s₁.iceAgent = s.iceAgent ∧
        answer.mediaDescriptions = s₁.sdp.mediaDescriptions := by
  obtain ⟨hset, hoffers, hagent, _⟩ := setLocalSetupRole_offers h (s.determineLocalRole offer .offer)
  have hsdp : (s.setLocalSetupRole (s.determineLocalRole offer .offer)).1.sdp.sessionName = s.sdp.sessionName ∧
      (s.setLocalSetupRole (s.determineLocalRole offer .offer)).1.sdp.timing = s.sdp.timing := by
    unfold setLocalSetupRole
    split
    · exact ⟨rfl, rfl⟩
    · rw [updateSetup_eq]
      exact ⟨rfl, rfl⟩
  unfold processOffer
  cases hone : s.setLocalSetupRole (s.determineLocalRole offer .offer) with
  | mk s₁ result =>
    rw [hone] at hset hoffers hagent hsdp
    dsimp only at hset hoffers hagent hsdp
    subst hset
    dsimp only
    rw [createAnswer_eq]
    dsimp only
    rw [hmedia] at hoffer
    have hall := hoffers.sections.answer hconfig.kinds hoffer rfl
    have hlocals : s₁.iceAgent.localCandidates ≠ [] := by
      rw [hagent]
      exact h.candidates.nonempty
    have halone₁ : s₁.Alone := by
      rw [Alone, hagent]
      exact halone
    obtain ⟨hok, hknows⟩ := @processRemoteSdp_knows fingerprint' s₁ .offer offer candidates' hlocals
      halone₁ hoffer.forall.1
      hoffer.forall.2
    cases htwo : s₁.processRemoteSdp offer .offer with
    | mk s₂ result =>
      rw [htwo] at hok hknows
      dsimp only at hok hknows
      subst hok
      exact ⟨s₂, _, rfl, hknows, hsdp.1, hsdp.2, rfl, s₁, hoffers, hagent, hall⟩

/-! ## The addresses of a call -/

/-- Its error stands inside an `IceConnectionError`. -/
def startIceChecks (s : CallSession) (timeoutSet : Bool) (net : ℕ → List Attempt) :
    CallSession × Except ConnectivityError Unit :=
  let (iceAgent, result, _) := s.iceAgent.startConnectivityChecks timeoutSet net
  ({ s with iceAgent }, result)

def getSelectedPair (s : CallSession) : Except ConnectivityError CandidatePair := s.iceAgent.getSelectedPair

end CallSession

/-- What `Controller::get_remote_addresses` ends with. -/
inductive AddressError where
  | mapError (cause : ConnectivityError)
  | parsingSocketAddressError
deriving DecidableEq, Repr

structure RemoteAddresses where
  rtp : SocketAddrV4
  rtcp : SocketAddrV4
  sctp : SocketAddrV4
deriving DecidableEq, Repr

/-- The address of a pair's remote candidate, on the port `offset` above its own. The sum is one of `u16`,
which a release build lets wrap. -/
def remoteAddress (pair : CandidatePair) (offset : UInt16) : Except AddressError SocketAddrV4 :=
  match SocketAddrV4.fromStr (pair.remote.address ++ ':' :: Nat.toDigits 10 (pair.remote.port + offset).toNat) with
  | some address => .ok address
  | none => .error .parsingSocketAddressError

def getRemoteAddresses (s : CallSession) : Except AddressError RemoteAddresses := do
  let pair ← s.getSelectedPair.mapError .mapError
  let rtp ← remoteAddress pair 0
  let rtcp ← remoteAddress pair 1
  let sctp ← remoteAddress pair 2
  return ⟨rtp, rtcp, sctp⟩

/-- `UdpSocket::bind`: for port 0 the system picks one. -/
def bindPort (port picked : UInt16) : UInt16 := if port = 0 then picked else port

/-- The ports that one side has bound: the one of RTP was given by the system, `MediaTransport::new` binds
the next one for RTCP and `setup_file_transferer` the one after it for SCTP. -/
structure BoundPorts where
  rtp : UInt16
  rtcp : UInt16
  sctp : UInt16
deriving DecidableEq, Repr

def BoundPorts.of (rtp pickedRtcp pickedSctp : UInt16) : BoundPorts :=
  ⟨rtp, bindPort (rtp + 1) pickedRtcp, bindPort (rtp + 2) pickedSctp⟩

/-- The sockets of a host. -/
def BoundPorts.at (ports : BoundPorts) (ip : Ipv4Addr) : RemoteAddresses :=
  ⟨⟨ip, ports.rtp⟩, ⟨ip, ports.rtcp⟩, ⟨ip, ports.sctp⟩⟩

theorem remoteAddress_eq {pair : CandidatePair} {ip : Ipv4Addr} (h : pair.remote.address = ip.display)
    (offset : UInt16) :
    remoteAddress pair offset = .ok ⟨ip, pair.remote.port + offset⟩ := by
  have hread := fromStr_targetOf ip (pair.remote.port + offset)
  rw [targetOf, ← h] at hread
  rw [remoteAddress, hread]

theorem getRemoteAddresses_eq {s : CallSession} {pair : CandidatePair} {ip : Ipv4Addr}
    (h : s.getSelectedPair = .ok pair)
    (haddress : pair.remote.address = ip.display) :
    getRemoteAddresses s = .ok ⟨⟨ip, pair.remote.port⟩, ⟨ip, pair.remote.port + 1⟩,
      ⟨ip, pair.remote.port + 2⟩⟩ := by
  have hall := fun offset => remoteAddress_eq haddress offset
  rw [getRemoteAddresses, h]
  simp [Except.mapError, hall, bind, Except.bind, pure, Except.pure]

/-- The next ports are bound as they stand unless the counting wraps. -/
theorem bound_iff {rtp pickedRtcp pickedSctp : UInt16} (hrtcp : pickedRtcp ≠ 0) (hsctp : pickedSctp ≠ 0) :
    BoundPorts.of rtp pickedRtcp pickedSctp = ⟨rtp, rtp + 1, rtp + 2⟩ ↔ rtp.toNat + 2 < 65536 := by
  have hlt := rtp.toNat_lt
  have hzero : ∀ offset : UInt16, rtp + offset = 0 ↔ (rtp.toNat + offset.toNat) % 65536 = 0 := by
    intro offset
    rw [← UInt16.toNat_inj, UInt16.toNat_add]
    rfl
  have h1 := hzero 1
  have h2 := hzero 2
  rw [show (1 : UInt16).toNat = 1 from rfl] at h1
  rw [show (2 : UInt16).toNat = 2 from rfl] at h2
  have hbind : ∀ port picked : UInt16, picked ≠ 0 → (bindPort port picked = port ↔ port ≠ 0) := by
    intro port picked hpicked
    rw [bindPort]
    split
    · next hport =>
      rw [hport]
      simp [hpicked]
    · next hport => simp [hport]
  rw [BoundPorts.of, BoundPorts.mk.injEq, hbind _ _ hrtcp, hbind _ _ hsctp, ne_eq, ne_eq, h1, h2]
  simp only [true_and]
  omega

namespace CallSession
variable {s s' : CallSession} {host : SocketAddrV4} {fingerprint : Fingerprint} {config : IceConfig}
  {candidates : List Candidate}

/-- When the checks succeed, the other side's host candidate is behind every address. -/
theorem Knows.remoteAddresses (h : s.Knows fingerprint candidates) (hpeer : CandidatesOf host config candidates)
    {timeoutSet : Bool} {net : ℕ → List Attempt} (hchecks : s.startIceChecks timeoutSet net = (s', .ok ())) :
    getRemoteAddresses s' = .ok ⟨host, ⟨host.ip, host.port + 1⟩, ⟨host.ip, host.port + 2⟩⟩ := by
  obtain ⟨pair, hselects, hselected, _⟩ | ⟨_, _, e, herror⟩ :=
    s.iceAgent.startConnectivityChecks_cases timeoutSet net
  · obtain ⟨_, before, p, after, hranked, _, hp, rfl⟩ := hselects
    have hmem : p ∈ s.iceAgent.candidatePairs := IceAgent.mem_ranked.mp (by simp [hranked])
    have hhost : p.remote.candidateType = .host := by
      have hremote := (Bool.or_eq_false_iff.mp hp.1).2
      cases htype : p.remote.candidateType with
      | host => rfl
      | serverReflexive =>
        rw [htype] at hremote
        cases hremote
    obtain ⟨haddress, hport⟩ := hpeer.hosts p.remote (h.candidates _ (h.pairs p hmem)) hhost
    have hpair : s'.getSelectedPair = .ok { p with state := .succeeded } := by
      have hs' : s'.iceAgent = (s.iceAgent.startConnectivityChecks timeoutSet net).1 := by
        rw [startIceChecks] at hchecks
        exact (congrArg (fun r => r.1.iceAgent) hchecks).symm
      rw [getSelectedPair, hs', getSelectedPair_ok_iff]
      exact hselected
    rw [getRemoteAddresses_eq hpair haddress]
    exact congrArg (fun port => Except.ok
      (⟨⟨host.ip, port⟩, ⟨host.ip, port + 1⟩, ⟨host.ip, port + 2⟩⟩ : RemoteAddresses))
      hport
  · rw [startIceChecks] at hchecks
    have := congrArg Prod.snd hchecks
    dsimp only at this
    rw [herror] at this
    cases this

end CallSession

/-! ## Certificates -/

/-- `DtlsError`, as the check of a certificate ends with it. -/
inductive DtlsError where
  | mapError (details : Str)
deriving DecidableEq, Repr

def eqIgnoreAsciiCase (s t : Str) : Bool := s.map Char.toLower == t.map Char.toLower

/-- `digest` is the SHA-256 of a certificate, and `peerCertificate` what the DTLS stream gives for the
certificate of the other side. -/
def verifyPeerFingerprint {Certificate : Type} (digest : Certificate → Except Str Bytes)
    (peerCertificate : Except Str (Option Certificate)) (expected : Fingerprint) : Except DtlsError Unit :=
  if !eqIgnoreAsciiCase expected.algorithm sha256 then
    .error (.mapError ("Unsupported fingerprint algorithm: ".toList ++ expected.algorithm))
  else
    match peerCertificate with
    | .error e => .error (.mapError e)
    | .ok none => .error (.mapError "Peer certificate missing".toList)
    | .ok (some certificate) =>
      match digest certificate with
      | .error e => .error (.mapError e)
      | .ok bytes =>
        if bytes ≠ expected.bytes then .error (.mapError "Peer certificate fingerprint mismatch".toList) else .ok ()

theorem verifyPeerFingerprint_iff {Certificate : Type} (digest : Certificate → Except Str Bytes)
    (peerCertificate : Except Str (Option Certificate)) (bytes : Bytes) :
    verifyPeerFingerprint digest peerCertificate ⟨sha256, bytes⟩ = .ok () ↔
      ∃ certificate, peerCertificate = .ok (some certificate) ∧ digest certificate = .ok bytes := by
  have halgorithm : (!eqIgnoreAsciiCase sha256 sha256) = false := by decide
  rw [verifyPeerFingerprint.eq_def]
  simp only [halgorithm, Bool.false_eq_true, if_false]
  cases peerCertificate with
  | error e => simp
  | ok shown =>
    cases shown with
    | none => simp
    | some certificate =>
      cases hdigest : digest certificate with
      | error e => simp [hdigest]
      | ok bytes' =>
        by_cases heq : bytes' = bytes
        · simp [hdigest, heq]
        · simp [hdigest, heq]

theorem isToken_sha256 : IsToken sha256 := by decide

theorem fromHashString_digest {digest : Bytes} (h : digest ≠ []) :
    Fingerprint.fromHashString sha256 (fingerprintFromDigest digest) = .ok ⟨sha256, digest⟩ :=
  @fromHashString_hexValue ⟨sha256, digest⟩ h

/-! ## A call -/

namespace CallSession

/-- A session that `new` made on a host, with the certificate of this digest. -/
structure Client (host : SocketAddrV4) (digest : Bytes) (config : Config) (s : CallSession) : Prop where
  made : ∃ net : IceAgent.Interfaces, net.OfHost host ∧ new net (some (fingerprintFromDigest digest)) config = .ok s
  digest : digest ≠ []
  writable : config.Writable

/-- A session that is ready for a call with the client on `host`: it takes the certificate with its digest
and no other, and once its checks succeed it has the addresses of the client's sockets, if the ports
above the first one could be counted. -/
structure ReadyFor (host : SocketAddrV4) (digest : Bytes) (s : CallSession) : Prop where
  certificate : ∃ expected, s.remoteFingerprint = some expected ∧
    ∀ {Certificate : Type} (sha : Certificate → Except Str Bytes)
      (peerCertificate : Except Str (Option Certificate)),
      verifyPeerFingerprint sha peerCertificate expected = .ok () ↔
        ∃ certificate, peerCertificate = .ok (some certificate) ∧ sha certificate = .ok digest
  addresses : ∀ timeoutSet net s', s.startIceChecks timeoutSet net = (s', .ok ()) →
    ∀ pickedRtcp pickedSctp, pickedRtcp ≠ 0 → pickedSctp ≠ 0 →
      (getRemoteAddresses s' = .ok ((BoundPorts.of host.port pickedRtcp pickedSctp).at host.ip) ↔
        host.port.toNat + 2 < 65536)

variable {hostA hostB host : SocketAddrV4} {digestA digestB digest : Bytes} {configA configB config : Config}
  {a b s : CallSession}

theorem Client.offers (h : s.Client host digest config) :
    s.Offers host ⟨sha256, digest⟩ config ∧ s.Alone ∧ s.sdp.WellFormed := by
  obtain ⟨net, hnet, hnew⟩ := h.made
  obtain ⟨hoffers, halone, hdata⟩ := offers_of_made hnet h.writable (made_new (fromHashString_digest h.digest) hnew)
  exact ⟨hoffers, halone, hoffers.sessionName, hoffers.timing, hdata,
    hoffers.wellFormed h.writable isToken_sha256 h.digest⟩

theorem Knows.readyFor {candidates : List Candidate} {ice : IceConfig} (h : s.Knows ⟨sha256, digest⟩ candidates)
    (hpeer : CandidatesOf host ice candidates) : s.ReadyFor host digest := by
  refine ⟨⟨_, h.fingerprint, fun sha peerCertificate =>
    verifyPeerFingerprint_iff sha peerCertificate digest⟩, ?_⟩
  intro timeoutSet net s' hchecks pickedRtcp pickedSctp hrtcp hsctp
  rw [h.remoteAddresses hpeer hchecks, ← bound_iff hrtcp hsctp]
  simp only [Except.ok.injEq, BoundPorts.at, RemoteAddresses.mk.injEq, BoundPorts.of, BoundPorts.mk.injEq,
    SocketAddrV4.mk.injEq, true_and]
  exact ⟨fun h => ⟨h.1.symm, h.2.symm⟩, fun h => ⟨h.1.symm, h.2.symm⟩⟩

/-- **A call is set up.** Of two clients with the same media configuration one offers and the other
answers, both as texts, and nothing goes wrong: the texts are read, the offer is answered, the answer is
taken, and each side is then ready for the other one and for nobody else. -/
theorem call_set_up (ha : a.Client hostA digestA configA) (hb : b.Client hostB digestB configB)
    (hmedia : configA.media = configB.media) {orders : Orders} (horders : a.getOffer.Iterates orders) :
    ∃ offer b' answer, fromStr (a.getOffer.display orders) = .ok offer ∧ b.processOffer offer = (b', .ok answer) ∧
      b'.ReadyFor hostA digestA ∧ ∀ orders' : Orders, answer.Iterates orders' →
        ∃ answer' a', fromStr (answer.display orders') = .ok answer' ∧ a.processAnswer answer' = (a', .ok ()) ∧
          a'.ReadyFor hostB digestB := by
  obtain ⟨hoffersA, haloneA, hwritten⟩ := ha.offers
  obtain ⟨hoffersB, haloneB, _⟩ := hb.offers
  have hread := sections_read_back hwritten horders
  have hoffer : Sections configA.media hostA.port ⟨sha256, digestA⟩ a.iceAgent.localCandidates
      (SessionDescriptionProtocol.new a.getOffer.mediaDescriptions .default).mediaDescriptions := hoffersA.sections
  obtain ⟨b', answer, hanswer, hknowsB, hname, htiming, hdata, b₁, hoffersB₁, hagent, hsections⟩ :=
    processOffer_knows hoffersB haloneB hb.writable hmedia hoffer
  refine ⟨_, b', answer, hread, hanswer, hknowsB.readyFor hoffersA.candidates, fun orders' horders' => ?_⟩
  have hanswerWritten : answer.WellFormed := by
    refine ⟨?_, ?_, ?_, ?_⟩
    · rw [hname]
      exact hoffersB.sessionName
    · rw [htiming]
      exact hoffersB.timing
    · rw [hdata]
      decide
    · rw [hsections]
      exact hoffersB₁.wellFormed hb.writable isToken_sha256 hb.digest
  have hlocals : b₁.iceAgent.localCandidates = b.iceAgent.localCandidates := by rw [hagent]
  have hall := hoffersB₁.sections.forall
  rw [hlocals, ← hsections] at hall
  obtain ⟨hok, hknowsA⟩ := @processRemoteSdp_knows ⟨sha256, digestB⟩ a .answer
    (.new answer.mediaDescriptions .default) b.iceAgent.localCandidates hoffersA.candidates.nonempty
      haloneA hall.1 hall.2
  exact ⟨_, _, sections_read_back hanswerWritten horders', Prod.ext rfl hok, hknowsA.readyFor hoffersB.candidates⟩

/-- Payload types iterate in some order. -/
theorem exists_iterates (sdp : SessionDescriptionProtocol) : ∃ orders : Orders, sdp.Iterates orders := by
  refine ⟨fun i => ((sdp.mediaDescriptions[i]?).map fun md => md.fmts.toList).getD [], fun i md hmd => ?_⟩
  dsimp only
  rw [hmd]
  exact ⟨md.fmts.nodup_toList, md.fmts.toList_toFinset⟩

theorem roomRtcConf_writable : roomRtcConf.Writable := by
  refine ⟨?_, ?_, ?_, ?_, ⟨?_, ?_⟩, ⟨?_, ?_⟩, ?_, ?_, ?_, ?_⟩ <;> decide

/-- A host without a STUN answer. -/
def lanNet (p : Transport.Peer) : IceAgent.Interfaces :=
  ⟨some (MutualChecks.lanEnds p).ip.display, some (MutualChecks.lanEnds p).port, none⟩

theorem exists_lanClient (p : Transport.Peer) :
    ∃ s : CallSession, s.Client (MutualChecks.lanEnds p) [0xAB, 0xCD] roomRtcConf := by
  have hmade : (new (lanNet p) (some (fingerprintFromDigest [0xAB, 0xCD])) roomRtcConf).toOption.isSome = true := by
    cases p <;> decide +kernel
  cases hnew : new (lanNet p) (some (fingerprintFromDigest [0xAB, 0xCD])) roomRtcConf with
  | error e =>
    rw [hnew] at hmade
    cases hmade
  | ok s =>
    refine ⟨s, ⟨lanNet p, ⟨rfl, rfl, fun text htext => ?_⟩, hnew⟩, by decide, roomRtcConf_writable⟩
    cases htext

theorem lan_call_set_up : ∃ (a a' b b' : CallSession) (orders orders' : Orders)
    (offer answer answer' : SessionDescriptionProtocol),
    fromStr (a.getOffer.display orders) = .ok offer ∧ b.processOffer offer = (b', .ok answer) ∧
      fromStr (answer.display orders') = .ok answer' ∧ a.processAnswer answer' = (a', .ok ()) ∧
      a'.ReadyFor (MutualChecks.lanEnds .callee) [0xAB, 0xCD] ∧
      b'.ReadyFor (MutualChecks.lanEnds .caller) [0xAB, 0xCD] := by
  obtain ⟨a, ha⟩ := exists_lanClient .caller
  obtain ⟨b, hb⟩ := exists_lanClient .callee
  obtain ⟨orders, horders⟩ := exists_iterates a.getOffer
  obtain ⟨offer, b', answer, hread, hanswer, hreadyB, hback⟩ := call_set_up ha hb rfl horders
  obtain ⟨orders', horders'⟩ := exists_iterates answer
  obtain ⟨answer', a', hread', htaken, hreadyA⟩ := hback orders' horders'
  exact ⟨a, a', b, b', orders, orders', offer, answer, answer', hread, hanswer, hread', htaken, hreadyA, hreadyB⟩

end CallSession
end RoomRtc.Session
