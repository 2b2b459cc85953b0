import ActorCluster.Client.Batching
import ActorCluster.Client.Bookkeeping
import ActorCluster.Client.CallbackMap
import ActorCluster.Client.DrainInFlight
import ActorCluster.Client.Envelopes
import ActorCluster.Client.Gateway
import ActorCluster.Client.Issued
import ActorCluster.Client.LiveStream
import ActorCluster.Client.LockedMap
import ActorCluster.Client.Moves
import ActorCluster.Client.Obligations
import ActorCluster.Client.Replies
import ActorCluster.Client.Resend
import ActorCluster.Client.Rest
import ActorCluster.Client.State
import ActorCluster.Client.Step
import ActorCluster.Client.Stranded
import ActorCluster.Client.StressEngine
import ActorCluster.Client.Totals
import ActorCluster.Deployment.Acknowledgement
import ActorCluster.Deployment.Balances
import ActorCluster.Deployment.Conveyance
import ActorCluster.Deployment.Durability
import ActorCluster.Deployment.Order
import ActorCluster.Deployment.Refusal
import ActorCluster.Deployment.Streams
import ActorCluster.Deployment.System
import ActorCluster.Deployment.Wallets
import ActorCluster.Discovery.Balance
import ActorCluster.Discovery.Membership
import ActorCluster.Discovery.Registry
import ActorCluster.Discovery.Resolver
import ActorCluster.Discovery.Table
import ActorCluster.Discovery.Watch
import ActorCluster.Foundation.BigEndian
import ActorCluster.Foundation.Custody
import ActorCluster.Foundation.Grouping
import ActorCluster.Foundation.History
import ActorCluster.Foundation.Ledger
import ActorCluster.Foundation.Mixing
import ActorCluster.Foundation.Partition
import ActorCluster.Foundation.Refinement
import ActorCluster.Foundation.RingBuffer
import ActorCluster.Foundation.Roster
import ActorCluster.Foundation.Tally
import ActorCluster.Foundation.Transition
import ActorCluster.Node.Aggregation
import ActorCluster.Node.Backlog
import ActorCluster.Node.Demultiplexer
import ActorCluster.Node.DrainProgress
import ActorCluster.Node.Eviction
import ActorCluster.Node.ForceKill
import ActorCluster.Node.Identity
import ActorCluster.Node.Isolation
import ActorCluster.Node.Keepers
import ActorCluster.Node.Migration
import ActorCluster.Node.Moves
import ActorCluster.Node.Obligations
import ActorCluster.Node.Orderly
import ActorCluster.Node.Outcome
import ActorCluster.Node.Registration
import ActorCluster.Node.Requests
import ActorCluster.Node.Rest
import ActorCluster.Node.Routing
import ActorCluster.Node.Shutdown
import ActorCluster.Node.SoleWriter
import ActorCluster.Node.Sources
import ActorCluster.Node.State
import ActorCluster.Node.Step
import ActorCluster.Node.Succession
import ActorCluster.Node.Tracks
import ActorCluster.Node.WalletView
import ActorCluster.Node.Wellformed
import ActorCluster.Remote.Message
import ActorCluster.Remote.Server
import ActorCluster.Runtime.Fifo
import ActorCluster.Runtime.Gauge
import ActorCluster.Runtime.GracefulStop
import ActorCluster.Runtime.Lifecycle
import ActorCluster.Runtime.Machine
import ActorCluster.Runtime.Mailbox
import ActorCluster.Runtime.Ownership
import ActorCluster.Runtime.Queue
import ActorCluster.Runtime.WakeUp
import ActorCluster.Wallet.BusinessActor
import ActorCluster.Wallet.Clock
import ActorCluster.Wallet.Lifetime
import ActorCluster.Wallet.Observers
import ActorCluster.Wallet.Overdraft
import ActorCluster.Wallet.Readers
import ActorCluster.Wallet.Reconciliation
import ActorCluster.Wallet.Recovery
import ActorCluster.Wallet.ReplayLength
import ActorCluster.Wallet.ReplayWindow
import ActorCluster.Wallet.Solvency
import ActorCluster.Wallet.Store
import ActorCluster.Wallet.TxWindow
