import LedgerBroker.BrokerError
import LedgerBroker.Director.ManifestReader

set_option autoImplicit false

namespace LedgerBroker.Manifest

namespace Template

def openingLines : List String := [
  "---",
  "name: GIVE-ME-A-NAME",
  "director_uuid: REPLACE-ME",
  "stemcells:",
  "- alias: default",
  "  name: USE-IAAS-SPECIFIC-STEMCELL",
  "  version: latest",
  "releases:",
  "- name: fabric-release",
  "  version: latest",
  "update:",
  "  canaries: 1",
  "  canary_watch_time: 5000-120000",
  "  max_in_flight: 3",
  "  serial: false",
  "  update_watch_time: 5000-120000",
  "jobs:"]

def memberJobLines : List String := [
  "- instances: 1",
  "  azs: [z1, z2]",
  "  name: membersrvc",
  "  networks:",
  "  - name: peer",
  "  persistent_disk: 10000",
  "  vm_type: small",
  "  stemcell: default",
  "  templates:",
  "  - name: member_service",
  "    release: fabric-release"]

def peerJobLines : List String := [
  "- instances: 4",
  "  azs: [z1, z2]",
  "  name: peer",
  "  networks:",
  "  - name: peer",
  "  persistent_disk: 10000",
  "  vm_type: small",
  "  stemcell: default",
  "  templates:",
  "  - name: peer",
  "    release: fabric-release",
  "  - name: docker",
  "    release: fabric-release"]

def peerLines : List String := [
  "properties:",
  "  peer:",
  "    network:",
  "      id: GENERATED",
  "    consensus:",
  "      plugin: pbft"]

def securityLines : List String := [
  "    security:",
  "      enabled: true"]

def storageLines : List String := [
  "    core:",
  "      data_path: /var/vcap/store/hyperledger/production",
  "  docker:",
  "    store:",
  "      dir: /var/vcap/store/docker"]

def membershipLines : List String := [
  "  membersrvc:",
  "    affiliations:",
  "      banks_and_institutions:",
  "        banks:",
  "        - bank_a",
  "        - bank_b",
  "        - bank_c",
  "        institutions:",
  "        - institution_a",
  "        - institution_b",
  "    clients:",
  "    - name: admin",
  "      secret: Xurw3yU9zI0l",
  "      affiliation: institution_a 00001",
  "      metadata: '\x7b\"registrar\":\x7b\"roles\":[\"client\",\"peer\",\"validator\",\"auditor\"]" ++
    ",\"delegateRoles\":[\"client\"]\x7d\x7d'",
  "    - name: WebAppAdmin",
  "      secret: DJY27pEnl16d",
  "      affiliation: institution_a 00002",
  "      metadata: '\x7b\"registrar\":\x7b\"roles\":[\"client\"]\x7d\x7d'",
  "    - name: lukas",
  "      secret: NPKYL39uKbkj",
  "      affiliation: bank_a",
  "      affiliation_role: \"00001\"",
  "    - name: system_chaincode_invoker",
  "      secret: DRJ20pEql15a",
  "      affiliation: institution_a",
  "      affiliation_role: \"00002\"",
  "    - name: diego",
  "      secret: DRJ23pEQl16a",
  "      affiliation: institution_a",
  "      affiliation_role: \"00003\"",
  "    - name: binhn",
  "      secret: 7avZQLwcUe9q",
  "      affiliation: institution_a",
  "      affiliation_role: \"00005\"",
  "    - name: jim",
  "      secret: 6avZQLwcUe9b",
  "      affiliation: bank_a",
  "      affiliation_role: \"00004\"",
  "    validators:",
  "    - name: vp0",
  "      secret: f3489fy98ghf",
  "    - name: vp1",
  "      secret: MwYpmSRjupbT",
  "    - name: vp2",
  "      secret: 5wgHK9qqYaPy",
  "    - name: vp3",
  "      secret: vQelbRvja7cJ",
  "    non_validators:",
  "    - name: nvp0",
  "      secret: iywrPBDEPl0K",
  "      affiliation: bank_a",
  "      affiliation_role: \"00006\"",
  "    - name: nvp1",
  "      secret: DcYXuRSocuqd",
  "      affiliation: institution_a",
  "      affiliation_role: \"00007\"",
  "    auditors: []"]

def lines (permissioned : Bool) : List String :=
  openingLines ++ (if permissioned then memberJobLines else []) ++ peerJobLines ++ peerLines ++
    (if permissioned then securityLines else []) ++ storageLines ++
    (if permissioned then membershipLines else [])

def text (permissioned : Bool) : String :=
  String.ofList ((lines permissioned).flatMap fun line => line.toList ++ ['\n'])

end Template

def Job.placed (j : Job) (network vmType : String) : Except BrokerError Job :=
  match j.networks with
  | [] => .error (.manifestGeneration s!"job {j.name} has no network")
  | _ :: others => .ok { j with networks := network :: others, vmType := vmType }

def fill (template deployment network : String) (details : DirectorDetails) :
    Except BrokerError Manifest := do
  match parse? template with
  | none => throw (.manifestGeneration "<yaml>")
  | some base =>
    match base.stemcells with
    | [] => throw (.manifestGeneration "template has no jobs or stemcells")
    | first :: rest =>
      if base.jobs = [] then throw (.manifestGeneration "template has no jobs or stemcells")
      let jobs ← base.jobs.mapM (Job.placed · network details.vmType)
      return { base with
        name := deployment
        directorUuid := details.uuid
        stemcells := { first with name := details.stemcell } :: rest
        jobs := jobs
        peer := { base.peer with
          network := insertSorted "id" (Text.lowerCase deployment) base.peer.network
          dataPath := details.peerDataDir }
        dockerStore := details.dockerDataDir }

def render? (deployment network : String) (permissioned : Bool) (details : DirectorDetails) :
    Except BrokerError Manifest :=
  fill (Template.text permissioned) deployment network details

end LedgerBroker.Manifest
