import Qlong.Lead.Completion
import Qlong.Lead.CancelFirst
import Qlong.Lead.Attempts
import Qlong.Lead.Closure
import Qlong.Lead.Acceptance
import Qlong.Node.ExactlyOnce
import Qlong.Executor.Cancels
import Qlong.Lead.Imports
import Qlong.Lead.Takeover
import Qlong.Registry.Convergence
import Qlong.Gateway.Claims
import Qlong.Gateway.Connections
import Qlong.Gateway.Authorities
import Qlong.Gateway.Tickets
import Qlong.Lead.Projection
import Qlong.Registry.Durability
import Qlong.Gateway.Retention
import Qlong.Executor.Leases
import Qlong.Executor.Offsets
import Qlong.Lead.Exclusions
import Qlong.Lead.Selection
import Qlong.Executor.Endings
import Qlong.Executor.Handles
import Qlong.Executor.Driver
import Qlong.Registry.Quota
import Qlong.Registry.Snapshots
import Qlong.Registry.Invitations
import Qlong.Collab.Delivery
import Qlong.Auth.Service
import Qlong.Migrate.Import
import Qlong.Migrate.Outcomes
import Qlong.Migrate.Roles
import Qlong.Core.Covering
import Qlong.Gateway.Acl
import Qlong.Node.CapsHealth
import Qlong.Registry.CommandStore
import Qlong.Lib.Connection
import Qlong.Storage.SqliteStore
import Qlong.Lib.Attempt
import Qlong.Storage.Migrations
import Qlong.Executor.ConfirmedLease
import Qlong.Lead.ReportRounds
import Qlong.Executor.Commits
import Qlong.Executor.Fetcher
import Qlong.Executor.Terminals
import Qlong.Gateway.Admission
import Qlong.Remote.ExecutorMachine
import Qlong.Remote.StartOnce
import Qlong.Core.Dedup
import Qlong.Remote.Session
import Qlong.Remote.Peers
import Qlong.Remote.Isolation
import Qlong.Lib.Pump
import Qlong.Node.Drain
import Qlong.Lib.Window
import Qlong.Gateway.Starvation
import Qlong.Transport.Client
import Qlong.Transport.Network
import Qlong.Transport.Handover
import Qlong.Collab.Publisher
import Qlong.Collab.RoundTrip
