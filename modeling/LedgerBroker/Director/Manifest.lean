import LedgerBroker.Director.Details
import LedgerBroker.Text.LowerCase
import LedgerBroker.Yaml.Printer

set_option autoImplicit false

namespace LedgerBroker

structure Stemcell where
  nickname : String
  name : String
  version : String
  deriving DecidableEq, Repr

structure Release where
  name : String
  version : String
  deriving DecidableEq, Repr

structure UpdatePolicy where
  canaries : Nat
  canaryWatchTime : String
  maxInFlight : Nat
  serial : Bool
  updateWatchTime : String
  deriving DecidableEq, Repr

structure JobTemplate where
  name : String
  release : String
  deriving DecidableEq, Repr

structure Job where
  instances : Nat
  zones : List String
  name : String
  networks : List String
  persistentDisk : Nat
  vmType : String
  stemcell : String
  templates : List JobTemplate
  deriving DecidableEq, Repr

structure PeerProperties where
  network : List (String × String)
  consensus : List (String × String)
  security : Option Bool
  dataPath : String
  deriving DecidableEq, Repr

structure Manifest where
  name : String
  directorUuid : String
  stemcells : List Stemcell
  releases : List Release
  update : UpdatePolicy
  jobs : List Job
  peer : PeerProperties
  dockerStore : String
  membersrvc : Option Yaml
  deriving BEq, Repr

def insertSorted (key value : String) : List (String × String) → List (String × String)
  | [] => [(key, value)]
  | (k, v) :: rest =>
    if key = k then (key, value) :: rest
    else if key < k then (key, value) :: (k, v) :: rest
    else (k, v) :: insertSorted key value rest

namespace Manifest

def networkName (m : Manifest) : Option String := m.jobs.head?.bind (·.networks.head?)

def Template.update : UpdatePolicy := ⟨1, "5000-120000", 3, false, "5000-120000"⟩

def Template.job (instances : Nat) (name : String) (templates : List String) : Job where
  instances := instances
  zones := ["z1", "z2"]
  name := name
  networks := ["peer"]
  persistentDisk := 10000
  vmType := "small"
  stemcell := "default"
  templates := templates.map fun t => ⟨t, "fabric-release"⟩

def Template.peerJob : Job := Template.job 4 "peer" ["peer", "docker"]

def Template.permissionless : Manifest where
  name := "GIVE-ME-A-NAME"
  directorUuid := "REPLACE-ME"
  stemcells := [⟨"default", "USE-IAAS-SPECIFIC-STEMCELL", "latest"⟩]
  releases := [⟨"fabric-release", "latest"⟩]
  update := Template.update
  jobs := [Template.peerJob]
  peer := {
    network := [("id", "GENERATED")]
    consensus := [("plugin", "pbft")]
    security := none
    dataPath := "/var/vcap/store/hyperledger/production" }
  dockerStore := "/var/vcap/store/docker"
  membersrvc := none

namespace Membership

def fields (entries : List (String × String)) : Yaml :=
  .map (entries.map fun (k, v) => (.str k, .str v))

def texts (items : List String) : Yaml := .seq (items.map .str)

def client (name secret affiliation : String) (more : String × String) : Yaml :=
  fields [("name", name), ("secret", secret), ("affiliation", affiliation), more]

def validator (name secret : String) : Yaml := fields [("name", name), ("secret", secret)]

def registrar (roles : String) : String × String :=
  ("metadata", "\x7b\"registrar\":\x7b\"roles\":" ++ roles ++ "\x7d\x7d")

def clients : List Yaml := [
  client "admin" "Xurw3yU9zI0l" "institution_a 00001"
    (registrar "[\"client\",\"peer\",\"validator\",\"auditor\"],\"delegateRoles\":[\"client\"]"),
  client "WebAppAdmin" "DJY27pEnl16d" "institution_a 00002" (registrar "[\"client\"]"),
  client "lukas" "NPKYL39uKbkj" "bank_a" ("affiliation_role", "00001"),
  client "system_chaincode_invoker" "DRJ20pEql15a" "institution_a" ("affiliation_role", "00002"),
  client "diego" "DRJ23pEQl16a" "institution_a" ("affiliation_role", "00003"),
  client "binhn" "7avZQLwcUe9q" "institution_a" ("affiliation_role", "00005"),
  client "jim" "6avZQLwcUe9b" "bank_a" ("affiliation_role", "00004")]

def validators : List Yaml := [
  validator "vp0" "f3489fy98ghf",
  validator "vp1" "MwYpmSRjupbT",
  validator "vp2" "5wgHK9qqYaPy",
  validator "vp3" "vQelbRvja7cJ"]

def nonValidators : List Yaml := [
  client "nvp0" "iywrPBDEPl0K" "bank_a" ("affiliation_role", "00006"),
  client "nvp1" "DcYXuRSocuqd" "institution_a" ("affiliation_role", "00007")]

def affiliations : Yaml :=
  .map [(.str "banks_and_institutions", .map [
    (.str "banks", texts ["bank_a", "bank_b", "bank_c"]),
    (.str "institutions", texts ["institution_a", "institution_b"])])]

def settings : Yaml :=
  .map [
    (.str "affiliations", affiliations),
    (.str "clients", .seq clients),
    (.str "validators", .seq validators),
    (.str "non_validators", .seq nonValidators),
    (.str "auditors", .seq [])]

end Membership

def Template.permissioned : Manifest :=
  let base := Template.permissionless
  { base with
    jobs := [Template.job 1 "membersrvc" ["member_service"], Template.peerJob]
    peer := { base.peer with security := some true }
    membersrvc := some Membership.settings }

def render (deployment network : String) (permissioned : Bool) (details : DirectorDetails) :
    Manifest :=
  let base := if permissioned then Template.permissioned else Template.permissionless
  { base with
    name := deployment
    directorUuid := details.uuid
    stemcells := match base.stemcells with
      | [] => []
      | first :: rest => { first with name := details.stemcell } :: rest
    jobs := base.jobs.map fun job =>
      { job with networks := network :: job.networks.drop 1, vmType := details.vmType }
    peer := { base.peer with
      network := insertSorted "id" (Text.lowerCase deployment) base.peer.network
      dataPath := details.peerDataDir }
    dockerStore := details.dockerDataDir }

def number (n : Nat) : Yaml := .int n

def Stemcell.yaml (s : Stemcell) : Yaml :=
  Yaml.ofFields [("alias", .str s.nickname), ("name", .str s.name), ("version", .str s.version)]

def Release.yaml (r : Release) : Yaml :=
  Yaml.ofFields [("name", .str r.name), ("version", .str r.version)]

def UpdatePolicy.yaml (u : UpdatePolicy) : Yaml :=
  Yaml.ofFields [
    ("canaries", number u.canaries),
    ("canary_watch_time", .str u.canaryWatchTime),
    ("max_in_flight", number u.maxInFlight),
    ("serial", .bool u.serial),
    ("update_watch_time", .str u.updateWatchTime)]

def Job.yaml (j : Job) : Yaml :=
  Yaml.ofFields [
    ("instances", number j.instances),
    ("azs", .seq (j.zones.map .str)),
    ("name", .str j.name),
    ("networks", .seq (j.networks.map fun n => Yaml.ofFields [("name", .str n)])),
    ("persistent_disk", number j.persistentDisk),
    ("vm_type", .str j.vmType),
    ("stemcell", .str j.stemcell),
    ("templates", .seq (j.templates.map fun t =>
      Yaml.ofFields [("name", .str t.name), ("release", .str t.release)]))]

def textMap (entries : List (String × String)) : Yaml :=
  Yaml.ofFields (entries.map fun (k, v) => (k, .str v))

def PeerProperties.yaml (p : PeerProperties) : Yaml :=
  Yaml.ofFields ([
    ("network", textMap p.network),
    ("consensus", textMap p.consensus)] ++
    (match p.security with
      | none => []
      | some enabled => [("security", Yaml.ofFields [("enabled", .bool enabled)])]) ++
    [("core", Yaml.ofFields [("data_path", .str p.dataPath)])])

def propertiesYaml (m : Manifest) : Yaml :=
  Yaml.ofFields ([
    ("peer", PeerProperties.yaml m.peer),
    ("docker", Yaml.ofFields [("store", Yaml.ofFields [("dir", .str m.dockerStore)])])] ++
    match m.membersrvc with
      | none => []
      | some y => [("membersrvc", y)])

def yaml (m : Manifest) : List (String × Yaml) := [
  ("name", .str m.name),
  ("director_uuid", .str m.directorUuid),
  ("stemcells", .seq (m.stemcells.map Stemcell.yaml)),
  ("releases", .seq (m.releases.map Release.yaml)),
  ("update", UpdatePolicy.yaml m.update),
  ("jobs", .seq (m.jobs.map Job.yaml)),
  ("properties", m.propertiesYaml)]

def text (m : Manifest) : String :=
  String.ofList (Yaml.document (m.yaml.map fun (k, v) => (.str k, v)))

end Manifest

end LedgerBroker
