import LedgerBroker.Numeral

set_option autoImplicit false

namespace LedgerBroker

inductive DetailsFault
  | emptyStemcell
  | emptyUuid
  | emptyVmType
  | noNetworks
  | emptyNetworkName
  | emptyUrl
  | emptyPeerDataDir
  | emptyDockerDataDir
  deriving DecidableEq, Repr

def DetailsFault.message : DetailsFault → String
  | emptyStemcell => "StemcellName cannot be empty"
  | emptyUuid => "DirectorUUID cannot be empty"
  | emptyVmType => "Vmtype cannot be empty"
  | noNetworks => "At least one network name is required"
  | emptyNetworkName => "Invalid network name in the list"
  | emptyUrl => "BoshDirectorUrl cannot be empty"
  | emptyPeerDataDir => "PeerDataDir cannot be empty"
  | emptyDockerDataDir => "DockerDataDir cannot be empty"

structure DirectorDetails where
  url : String
  stemcell : String
  uuid : String
  vmType : String
  networks : List String
  peerDataDir : String
  dockerDataDir : String
  skipTlsVerification : Bool
  deriving DecidableEq, Repr

namespace DirectorDetails

def splitCommas : List Char → List (List Char)
  | [] => [[]]
  | c :: rest =>
    if c = ',' then [] :: splitCommas rest
    else
      match splitCommas rest with
      | [] => [[c]]
      | piece :: pieces => (c :: piece) :: pieces

def parseNetworkNames (raw : String) : List String :=
  (splitCommas (raw.toList.filter (· ≠ ' '))).map String.ofList

def validate (d : DirectorDetails) : Except DetailsFault Unit := do
  if d.stemcell = "" then throw .emptyStemcell
  if d.uuid = "" then throw .emptyUuid
  if d.vmType = "" then throw .emptyVmType
  if d.networks = [] then throw .noNetworks
  if "" ∈ d.networks then throw .emptyNetworkName
  if d.url = "" then throw .emptyUrl
  if d.peerDataDir = "" then throw .emptyPeerDataDir
  if d.dockerDataDir = "" then throw .emptyDockerDataDir

end DirectorDetails

end LedgerBroker
