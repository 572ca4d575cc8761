import Stevedore.Json.Reader
import Stevedore.Main
import Stevedore.Proofs.Activity
import Stevedore.Proofs.Assembly
import Stevedore.Proofs.BundleContents
import Stevedore.Proofs.Command.Writing
import Stevedore.Proofs.CommandLine.Configuration
import Stevedore.Proofs.ConcurrentAssembly
import Stevedore.Proofs.Decimal.Nearest
import Stevedore.Proofs.Decimal.Rounding
import Stevedore.Proofs.Decimal.Shortest
import Stevedore.Proofs.Declaration.Discovery
import Stevedore.Proofs.Declaration.RoundTrip
import Stevedore.Proofs.Digest.Base64
import Stevedore.Proofs.Document.Records
import Stevedore.Proofs.Failures
import Stevedore.Proofs.File.Directory
import Stevedore.Proofs.Fingerprint
import Stevedore.Proofs.Interleaving
import Stevedore.Proofs.Isolation
import Stevedore.Proofs.Job
import Stevedore.Proofs.Json.Continuation
import Stevedore.Proofs.Json.Flat
import Stevedore.Proofs.Json.Number
import Stevedore.Proofs.Json.Path
import Stevedore.Proofs.Json.Spelling
import Stevedore.Proofs.Leftovers
import Stevedore.Proofs.Manifest.Addressing
import Stevedore.Proofs.Manifest.Documents
import Stevedore.Proofs.Manifest.Embedded
import Stevedore.Proofs.Manifest.Reading
import Stevedore.Proofs.Monitoring
import Stevedore.Proofs.Pod.Containers
import Stevedore.Proofs.Pod.Mounts
import Stevedore.Proofs.Pod.Rendering
import Stevedore.Proofs.Pod.Variables
import Stevedore.Proofs.Pod.Volumes
import Stevedore.Proofs.Reordering
import Stevedore.Proofs.Resolution
import Stevedore.Proofs.SecretReferences
import Stevedore.Proofs.Secrets
import Stevedore.Proofs.Staging
import Stevedore.Proofs.Table
import Stevedore.Proofs.Template.Filling
import Stevedore.Proofs.Template.Showing
import Stevedore.Proofs.UniqueSources
import Stevedore.Proofs.Declaration.Acceptance
import Stevedore.Proofs.Declaration.Inputs
import Stevedore.Proofs.Path
import Stevedore.Proofs.Staging.Calls
import Stevedore.Proofs.Completion
import Stevedore.Proofs.Pod.Hooks
import Stevedore.Proofs.UniqueSources.Offers
import Stevedore.Proofs.Reassembly
import Stevedore.Proofs.Label
import Stevedore.Proofs.Manifest.Deployment
import Stevedore.Proofs.Pod.Occupants
import Stevedore.Proofs.Shell.Words
import Stevedore.Proofs.Shell.Connecting
import Stevedore.Proofs.Staging.Sources
