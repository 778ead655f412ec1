import RoomRtc.Foundations.Text

/-! ICE as the call session uses it (`session/ice`): candidates, candidate pairs with their
priority, and the agent that gathers local candidates and takes in remote ones. -/
namespace RoomRtc.Session
set_option autoImplicit false

inductive CandidateType where
  | host
  | serverReflexive
deriving DecidableEq, Repr

structure Candidate where
  candidateType : CandidateType
  priority : UInt32
  address : Str
  port : UInt16
  componentId : UInt8
  foundation : Str
  transport : Str
deriving DecidableEq, Repr

structure IceConfig where
  foundation : Str
  transport : Str
  componentId : UInt8
  hostPriorityPreference : UInt32
  srflxPriorityPreference : UInt32
  hostLocalPreference : UInt16
deriving DecidableEq, Repr

namespace Candidate

def calculatePriority (candidateType : CandidateType) (localPreference : UInt16) (config : IceConfig) : UInt32 :=
  let typePreference : UInt32 := match candidateType with
    | .host => config.hostPriorityPreference
    | .serverReflexive => config.srflxPriorityPreference
  (typePreference <<< 24) ||| (localPreference.toUInt32 <<< 8) ||| (256 - 1)

def newHost (address : Str) (componentId : UInt8) (config : IceConfig) : Candidate where
  candidateType := .host
  priority := calculatePriority .host config.hostLocalPreference config
  address := address
  port := 0
  componentId := componentId
  foundation := config.foundation
  transport := config.transport

end Candidate

inductive ConnectivityState where
  | waiting
  | inProgress
  | succeeded
  | failed
deriving DecidableEq, Repr

structure CandidatePair where
  loc : Candidate
  remote : Candidate
  priority : UInt64
  state : ConnectivityState
deriving DecidableEq, Repr

namespace CandidatePair

/-- In `u64`, which a release build lets wrap. -/
def calculatePairPriority (loc remote : Candidate) : UInt64 :=
  let g := (min loc.priority remote.priority).toUInt64
  let l := (max loc.priority remote.priority).toUInt64
  ((1 : UInt64) <<< 32) * g + 2 * l + if loc.priority > remote.priority then 1 else 0

def new (loc remote : Candidate) : CandidatePair :=
  ⟨loc, remote, calculatePairPriority loc remote, .waiting⟩

end CandidatePair

inductive IceError where
  | noLocalCandidates
  | noRemoteCandidates
  | noCandidatePairs
deriving DecidableEq, Repr

structure IceAgent where
  localCandidates : List Candidate
  remoteCandidates : List Candidate
  candidatePairs : List CandidatePair
  selectedPair : Option CandidatePair
deriving DecidableEq, Repr

namespace IceAgent

def new : IceAgent := ⟨[], [], [], none⟩

/-- What gathering finds out about the host: its first IPv4 address that is no loopback, the
port of the socket, and the address a STUN server answered with. -/
structure Interfaces where
  localIp : Option Str
  port : Option UInt16
  stun : Option Str
deriving DecidableEq, Repr

/-- The server-reflexive candidate, if the answer reads `ip:port`. -/
def reflexive (config : IceConfig) (addr : Str) : Option Candidate := do
  let (ip, portStr) ← Text.splitOnce ':' addr
  let stunPort ← Text.parseUnsigned 10 65536 portStr
  some
    { candidateType := .serverReflexive
      priority := config.srflxPriorityPreference * 1000
      address := ip
      port := UInt16.ofNat stunPort
      componentId := config.componentId
      foundation := config.foundation
      transport := config.transport }

/-- Gathering never fails: what is not found is left out. -/
def gatherCandidates (agent : IceAgent) (net : Interfaces) (config : IceConfig) : IceAgent :=
  let host := net.localIp.map fun ip =>
    { Candidate.newHost ip config.componentId config with port := net.port.getD 0 }
  let srflx := net.stun.bind (reflexive config)
  { agent with localCandidates := agent.localCandidates ++ host.toList ++ srflx.toList }

/-- Every local candidate with every remote one, each time anew. -/
def createCandidatePair (agent : IceAgent) : IceAgent × Except IceError Unit :=
  if agent.localCandidates = [] then (agent, .error .noLocalCandidates)
  else if agent.remoteCandidates = [] then (agent, .error .noRemoteCandidates)
  else
    let pairs := agent.localCandidates.flatMap fun loc => agent.remoteCandidates.map (CandidatePair.new loc)
    let agent := { agent with candidatePairs := agent.candidatePairs ++ pairs }
    if agent.candidatePairs = [] then (agent, .error .noCandidatePairs) else (agent, .ok ())

def addRemoteCandidate (agent : IceAgent) (candidate : Candidate) : IceAgent × Except IceError Unit :=
  ({ agent with remoteCandidates := agent.remoteCandidates ++ [candidate] }).createCandidatePair

def addRemoteCandidates (agent : IceAgent) (candidates : List Candidate) : IceAgent × Except IceError Unit :=
  ({ agent with remoteCandidates := agent.remoteCandidates ++ candidates }).createCandidatePair

def cleanRemoteCandidates (agent : IceAgent) : IceAgent :=
  { agent with remoteCandidates := [], candidatePairs := [], selectedPair := none }

def getLocalCandidate (agent : IceAgent) : Option Candidate := agent.localCandidates.head?

end IceAgent
end RoomRtc.Session
