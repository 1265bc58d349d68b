import LedgerBroker.Api.Router
import LedgerBroker.Broker.Bindings
import LedgerBroker.Broker.Deprovisioning
import LedgerBroker.Broker.Provisioning
import LedgerBroker.Director.Http
import LedgerBroker.Director.ManifestReader
import LedgerBroker.Director.Outage
import LedgerBroker.Director.RetryPolicy
import LedgerBroker.Director.Simulated
import LedgerBroker.Director.Template
import LedgerBroker.Redis.Address
import LedgerBroker.Settings
import LedgerBroker.Settings.EnvFile
import LedgerBroker.Store.Memory
import LedgerBroker.Store.Outage
import LedgerBroker.Store.Redis
import LedgerBroker.Proofs.Call
import LedgerBroker.Proofs.Steps
import LedgerBroker.Proofs.Outcomes
import LedgerBroker.Proofs.Run
import LedgerBroker.Proofs.Membership
import LedgerBroker.Proofs.Tenancy
import LedgerBroker.Proofs.Dedication
import LedgerBroker.Proofs.Exclusivity
import LedgerBroker.Proofs.StalePoll
import LedgerBroker.Proofs.Creation
import LedgerBroker.Proofs.AcceptedCreate
import LedgerBroker.Proofs.DeploymentUrls
import LedgerBroker.Proofs.Recovery
import LedgerBroker.Proofs.BoundInstances
import LedgerBroker.Proofs.FreshDeployments
import LedgerBroker.Proofs.FailedActions
import LedgerBroker.Proofs.PollFailure
import LedgerBroker.Proofs.OtherTenants
import LedgerBroker.Proofs.CompletedDeletion
import LedgerBroker.Proofs.JsonText
import LedgerBroker.Proofs.JsonGrammar
import LedgerBroker.Proofs.JsonSkipping
import LedgerBroker.Proofs.JsonReading
import LedgerBroker.Proofs.PercentText
import LedgerBroker.Proofs.ApiOperations
import LedgerBroker.Proofs.TimestampReading
import LedgerBroker.Proofs.StoredRecords
import LedgerBroker.Proofs.RedisKeys
import LedgerBroker.Proofs.RedisRecords
import LedgerBroker.Proofs.RedisIndexes
import LedgerBroker.Proofs.Mirroring
import LedgerBroker.Proofs.Lockstep
import LedgerBroker.Proofs.Interchange
import LedgerBroker.Proofs.Renaming
import LedgerBroker.Proofs.RenamedOperations
import LedgerBroker.Proofs.NetworkChoices
import LedgerBroker.Proofs.ScalarReading
import LedgerBroker.Proofs.LiteralBlocks
import LedgerBroker.Proofs.LexerPositions
import LedgerBroker.Proofs.LexerTurns
import LedgerBroker.Proofs.Layouts
import LedgerBroker.Proofs.NodeReading
import LedgerBroker.Proofs.Printing
import LedgerBroker.Proofs.ValueReading
import LedgerBroker.Proofs.ManifestReading
import LedgerBroker.Proofs.RenderedManifests
import LedgerBroker.Proofs.Requests
import LedgerBroker.Proofs.RecoveredNetworks
import LedgerBroker.Proofs.Credentials
import LedgerBroker.Proofs.TaskNumbers
import LedgerBroker.Proofs.OperationTokens
import LedgerBroker.Proofs.RepeatedDeletion
import LedgerBroker.Proofs.Capacity
import LedgerBroker.Proofs.ValidRecords
import LedgerBroker.Proofs.FaithfulStores
import LedgerBroker.Proofs.DirectorFailures
import LedgerBroker.Proofs.ServedRequests
import LedgerBroker.Proofs.PoolHistories
import LedgerBroker.Proofs.AcceptedSettings
import LedgerBroker.Proofs.ListingPolls
import LedgerBroker.Proofs.MachineListings
import LedgerBroker.Proofs.JsonScalars
import LedgerBroker.Proofs.RecordFields
import LedgerBroker.Proofs.TaskDocuments
