import LedgerBroker.BrokerError
import LedgerBroker.Director.Manifest
import LedgerBroker.Service
import LedgerBroker.Task

set_option autoImplicit false

namespace LedgerBroker

abbrev VmIps := List (String × List String)

namespace VmIps

def get (ips : VmIps) (job : String) : List String := (ips.lookup job).getD []

def add (job ip : String) : VmIps → VmIps
  | [] => [(job, [ip])]
  | (j, ips) :: rest => if j = job then (j, ips ++ [ip]) :: rest else (j, ips) :: add job ip rest

end VmIps

structure Director (σ : Type) where
  createDeployment : Manifest → Call BrokerError σ Task
  deleteDeployment : String → Call BrokerError σ Task
  task : String → Call BrokerError σ Task
  vmIps : String → Call BrokerError σ VmIps
  deployments : Call BrokerError σ (List String)
  network : String → Call BrokerError σ (Option String)

end LedgerBroker
