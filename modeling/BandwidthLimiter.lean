import BandwidthLimiter.Tree.Delete
import BandwidthLimiter.Tree.Query
import BandwidthLimiter.Tree.History
import BandwidthLimiter.Tree.Multimap
import BandwidthLimiter.Tree.RbTree
import BandwidthLimiter.Socket.Fd
import BandwidthLimiter.Socket.Store
import BandwidthLimiter.Socket.StoreRun
import BandwidthLimiter.Limiter.Overload
import BandwidthLimiter.Port.Table
import BandwidthLimiter.Limiter.Section
import BandwidthLimiter.Foundation.Registry
import BandwidthLimiter.Socket.Registry
import BandwidthLimiter.Limiter.Controller
import BandwidthLimiter.Limiter.Request
import BandwidthLimiter.Foundation.Meter
import BandwidthLimiter.Limiter.Rate
import BandwidthLimiter.Limiter.Threads
import BandwidthLimiter.Limiter.Budget
import BandwidthLimiter.Limiter.Charge
import BandwidthLimiter.Limiter.Race
import BandwidthLimiter.Limiter.Process
import BandwidthLimiter.Limiter.Listener
import BandwidthLimiter.Limiter.Reuse
import BandwidthLimiter.Foundation.Counted
import BandwidthLimiter.Foundation.Machine
import BandwidthLimiter.Foundation.CString
import BandwidthLimiter.Socket.Reference
import BandwidthLimiter.Limiter.Endpoint
import BandwidthLimiter.Limiter.Duplicate
import BandwidthLimiter.Limiter.Failure
import BandwidthLimiter.Limiter.Conservation
import BandwidthLimiter.Limiter.Isolation
import BandwidthLimiter.Limiter.Throttle
import BandwidthLimiter.Config.ParseConfig
import BandwidthLimiter.Config.Lines
import BandwidthLimiter.Config.Fields
import BandwidthLimiter.Config.Export
import BandwidthLimiter.Config.Render
import BandwidthLimiter.Config.Registration
import BandwidthLimiter.Limiter.Delay
import BandwidthLimiter.Limiter.Family
import BandwidthLimiter.Tree.Iterator
import BandwidthLimiter.Config.Insertion
import BandwidthLimiter.Config.Trim
import BandwidthLimiter.Launcher.Command
import BandwidthLimiter.Launcher.Options
import BandwidthLimiter.Foundation.Ring
import BandwidthLimiter.Config.ListHead
import BandwidthLimiter.Foundation.Monitor
import BandwidthLimiter.Limiter.Locking
import BandwidthLimiter.Limiter.Start
import BandwidthLimiter.Limiter.Bounds
import BandwidthLimiter.Limiter.LockedSection
import BandwidthLimiter.Limiter.Interleaving
import BandwidthLimiter.Limiter.Session
import BandwidthLimiter.Limiter.Nanosleep
import BandwidthLimiter.Limiter.Throughput
import BandwidthLimiter.Config.PortHeap
import BandwidthLimiter.Tree.Relabel
import BandwidthLimiter.Foundation.Blocks
import BandwidthLimiter.Socket.Ownership
import BandwidthLimiter.Port.Ownership
import BandwidthLimiter.Limiter.Effects
import BandwidthLimiter.Limiter.CleanUp
import BandwidthLimiter.Foundation.Crowd
import BandwidthLimiter.Limiter.Concurrent
import BandwidthLimiter.Limiter.Accounts
import BandwidthLimiter.Limiter.Clients
import BandwidthLimiter.Limiter.Lineage
import BandwidthLimiter.Foundation.Erasure
import BandwidthLimiter.Socket.Latency
import BandwidthLimiter.Limiter.Latency
import BandwidthLimiter.Tree.Retraverse
import BandwidthLimiter.Tree.Cost
import BandwidthLimiter.Foundation.Concat
import BandwidthLimiter.Launcher.Main
