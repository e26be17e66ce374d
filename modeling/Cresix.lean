import Cresix.Library.Transition
import Cresix.Relay.Fidelity
import Cresix.Server.Revocation
import Cresix.Server.Membership
import Cresix.Server.Authorization
import Cresix.Server.Concealment
import Cresix.Server.Origin
import Cresix.Library.Concurrent
import Cresix.Relay.Limits
import Cresix.Relay.Peers
import Cresix.Relay.Upstream
import Cresix.Relay.ControlJson
import Cresix.Cloud.Presence
import Cresix.Runner.Authenticator
import Cresix.Runner.Cancellation
import Cresix.Cloud.Failure
import Cresix.Connector.Revision
import Cresix.Cloud.Publication
import Cresix.Connector.Catalog
import Cresix.Runner.Response
import Cresix.Scheduler.Fold
import Cresix.Scheduler.Cron
import Cresix.Git.Roots
import Cresix.Server.Bootstrap
import Cresix.Cloud.Ownership
import Cresix.Cloud.Delivery
import Cresix.Git.Deletion
import Cresix.Git.Conflicts
import Cresix.Git.SmartHttp
import Cresix.Git.HeaderBlock
import Cresix.Git.Backend
import Cresix.Cloud.Target
import Cresix.Cloud.Expiry
import Cresix.Cloud.Hygiene
import Cresix.Runner.Signing
import Cresix.Cli.State
import Cresix.Cli.Helper
import Cresix.Cli.Processes
import Cresix.Cli.Pinning
import Cresix.Cli.Lookup
import Cresix.Runner.Framing
import Cresix.Runner.MacInput
import Cresix.Runner.Destinations
import Cresix.Server.Creation
import Cresix.Git.Changes
import Cresix.Git.RefFormat
import Cresix.Git.Revisions
import Cresix.Git.TreeListing
import Cresix.Core.Manifest
import Cresix.Cloud.Budget
import Cresix.Server.Secrets
import Cresix.CloudCore.TokenGrammar
import Cresix.Server.OpaqueTokens
import Cresix.Cli.CloneUrl
import Cresix.Runner.Logs
import Cresix.Git.Reader
import Cresix.Runner.KeyFile
import Cresix.Library.Refinement
import Cresix.Runner.FileStore
import Cresix.Cli.StateFiles
import Cresix.Cli.Sections
import Cresix.Cloud.Sessions
import Cresix.Git.Files
import Cresix.Git.ReadBack
import Cresix.Git.Log
import Cresix.Git.FileCalls
import Cresix.Git.Landing
