import AgentArtifacts.Compiler.Guarantee
import AgentArtifacts.Configuration.CheckedWrite
import AgentArtifacts.Configuration.PolicyBytes
import AgentArtifacts.InstallState.ManifestFidelity
import AgentArtifacts.Installation.ScopeLock
import AgentArtifacts.Lifecycle.Agreement
import AgentArtifacts.Lifecycle.Consent
import AgentArtifacts.Lifecycle.Coverage
import AgentArtifacts.Lifecycle.Installed
import AgentArtifacts.Lifecycle.MemoryBlocks
import AgentArtifacts.Lifecycle.Races
import AgentArtifacts.Lifecycle.Teardown
import AgentArtifacts.Lifecycle.Withdrawals
import AgentArtifacts.Protocol.IndexDocuments
import AgentArtifacts.Protocol.Precedence
import AgentArtifacts.Protocol.SemVerGrammar
import AgentArtifacts.Protocol.TreeEncoding
import AgentArtifacts.Redaction.FixedPoint
import AgentArtifacts.Registry.GraphOrder
import AgentArtifacts.Registry.InputsIdentity
import AgentArtifacts.Registry.Selection
import AgentArtifacts.RegistryCommands.AllOrNothing
import AgentArtifacts.RegistryCommands.Drift
import AgentArtifacts.RegistryCommands.Settled
import AgentArtifacts.Security.Policy
import AgentArtifacts.Setup.BlockRoundTrip
import AgentArtifacts.Setup.PersistenceOutcome
import AgentArtifacts.Setup.Replays
import AgentArtifacts.Setup.UndoConsent
import AgentArtifacts.Sources.IdentityHistory
import AgentArtifacts.Store.Convergence
import AgentArtifacts.Store.ReferenceUpdates
import AgentArtifacts.Wizard.Confirmation
