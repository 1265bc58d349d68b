import LedgerBroker.Director.Basic

set_option autoImplicit false

namespace LedgerBroker

structure SimulatedDirector where
  nextTask : Nat := 1
  tasks : List Task := []
  deployments : List String := []
  networks : List (String × String) := []
  vmIps : List (String × VmIps) := []
  created : Nat := 0
  deleted : Nat := 0
  failsCreations : Bool := false
  completesAtOnce : Bool := false

namespace SimulatedDirector

def new : SimulatedDirector := {}

def completing : SimulatedDirector := { completesAtOnce := true }

def startTask (s : SimulatedDirector) (description : String) : Task × SimulatedDirector :=
  let task : Task := {
    id := s.nextTask
    state := if s.completesAtOnce then .done else .queued
    description := description
    result := none
    user := "admin" }
  (task, { s with nextTask := s.nextTask + 1, tasks := s.tasks ++ [task] })

def taskNumber? (token : String) : Option Nat := (Numeral.read Numeral.bound64 token).toOption

def findTask? (s : SimulatedDirector) (token : String) : Option Task :=
  (taskNumber? token).bind fun id => s.tasks.find? (·.id = id)

def setTaskState (s : SimulatedDirector) (token : String) (state : TaskState) :
    SimulatedDirector :=
  match taskNumber? token with
  | none => s
  | some id =>
    { s with tasks := s.tasks.map fun t => if t.id = id then { t with state := state } else t }

def completeAll (s : SimulatedDirector) : SimulatedDirector :=
  { s with tasks := s.tasks.map fun t => { t with state := .done } }

def setVmIps (s : SimulatedDirector) (deployment : String) (ips : VmIps) : SimulatedDirector :=
  { s with vmIps := (deployment, ips) :: s.vmIps.filter (·.1 ≠ deployment) }

def hasDeployment (s : SimulatedDirector) (deployment : String) : Bool :=
  s.deployments.contains deployment

def network? (s : SimulatedDirector) (deployment : String) : Option String :=
  s.networks.lookup deployment

def removeDeployment (s : SimulatedDirector) (deployment : String) : SimulatedDirector :=
  { s with
    deployments := s.deployments.filter (· ≠ deployment)
    networks := s.networks.filter (·.1 ≠ deployment) }

def addDeployment (s : SimulatedDirector) (m : Manifest) : SimulatedDirector :=
  { s with
    created := s.created + 1
    deployments := if s.hasDeployment m.name then s.deployments else s.deployments ++ [m.name]
    networks := match m.networkName with
      | none => s.networks
      | some network => (m.name, network) :: s.networks.filter (·.1 ≠ m.name) }

def listVms (s : SimulatedDirector) (deployment : String) : VmIps :=
  match s.vmIps.lookup deployment with
  | some ips => ips
  | none =>
    if s.hasDeployment deployment then
      [("peer", ["10.244.0.2", "10.244.0.3", "10.244.0.4", "10.244.0.5"])]
    else []

def director : Director SimulatedDirector where
  createDeployment m := .of fun s =>
    if s.failsCreations then (.error (.boshConnect "mock director unavailable"), s)
    else
      let (task, s) := (s.addDeployment m).startTask ("create deployment " ++ m.name)
      (.ok task, s)
  deleteDeployment name := .of fun s =>
    let s := { s.removeDeployment name with deleted := s.deleted + 1 }
    let (task, s) := s.startTask ("delete deployment " ++ name)
    (.ok task, s)
  task token := .query fun s =>
    match s.findTask? token with
    | none => .error (.taskNotFound token)
    | some task => .ok task
  vmIps name := .query fun s => .ok (s.listVms name)
  deployments := .query fun s => .ok (s.deployments.mergeSort (· ≤ ·))
  network name := .query fun s => .ok (s.network? name)

end SimulatedDirector

end LedgerBroker
