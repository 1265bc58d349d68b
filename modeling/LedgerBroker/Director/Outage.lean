import LedgerBroker.Director.Basic
import LedgerBroker.Outage

set_option autoImplicit false

namespace LedgerBroker.Director

inductive CallKind
  | createDeployment
  | deleteDeployment
  | task
  | vmIps
  | deployments
  | network
  deriving DecidableEq, Repr

abbrev Outages (σ : Type) := Unreliable CallKind BrokerError σ

open Unreliable in
def unreliable {σ : Type} (d : Director σ) : Director (Outages σ) where
  createDeployment m := guard .createDeployment .error (d.createDeployment m)
  deleteDeployment name := guard .deleteDeployment .error (d.deleteDeployment name)
  task token := guard .task .error (d.task token)
  vmIps name := guard .vmIps .error (d.vmIps name)
  deployments := guard .deployments .error d.deployments
  network name := guard .network .error (d.network name)

end LedgerBroker.Director
