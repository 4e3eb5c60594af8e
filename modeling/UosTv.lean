import UosTv.Lib.Past
import UosTv.Rust.Collections
import UosTv.Rust.Text
import UosTv.Serde.JsonString
import UosTv.Serde.Json
import UosTv.Lib.Incremental
import UosTv.Stardust.Codec
import UosTv.Stardust.Broker
import UosTv.Stardust.History
import UosTv.Stardust.UnixTables
import UosTv.Stardust.Routing
import UosTv.Stardust.Direct
import UosTv.Stardust.DirectRemoval
import UosTv.Stardust.Client
import UosTv.Stardust.Handles
import UosTv.Stardust.Delivery
import UosTv.Stardust.System
import UosTv.Stardust.InOrder
import UosTv.Stardust.ClientTask
import UosTv.Stardust.Frames
import UosTv.Lib.DependencyOrder
import UosTv.Monitord.Graph
import UosTv.Monitord.GraphTables
import UosTv.Monitord.CycleCheck
import UosTv.Monitord.StartupOrder
import UosTv.Lib.Effect
import UosTv.Monitord.Supervisor
import UosTv.Monitord.World
import UosTv.Monitord.Rules
import UosTv.Monitord.Ownership
import UosTv.Monitord.Starting
import UosTv.Monitord.Monitoring
import UosTv.Monitord.HealthChecks
import UosTv.Monitord.Stopping
import UosTv.Monitord.Launch
import UosTv.Monitord.Processes
import UosTv.Monitord.Locks
import UosTv.Monitord.Restarts
import UosTv.Monitord.RestartPolicy
import UosTv.Monitord.CrashLoop
import UosTv.Lib.Recording
import UosTv.Monitord.HealthFailures
import UosTv.Monitord.QuietBoot
import UosTv.Monitord.BootFailure
import UosTv.Monitord.BootWaits
import UosTv.Inis.Init
import UosTv.Inis.OneMonitord
import UosTv.Lib.Fallible
import UosTv.Rust.Numbers
import UosTv.Rust.Hex
import UosTv.Rust.Result
import UosTv.UpdateVerify.Version
import UosTv.UpdateVerify.Bundle
import UosTv.UpdateVerify.Acceptance
import UosTv.UpdateVerify.Order
import UosTv.UpdateVerify.Numerals
import UosTv.Otad.Operations
import UosTv.Otad.Rules
import UosTv.Otad.Downloader
import UosTv.Otad.Resume
import UosTv.Otad.Orchestrator
import UosTv.Otad.Checks
import UosTv.Otad.Installs
import UosTv.Otad.Polling
import UosTv.Otad.States
import UosTv.Casync.Chunker
import UosTv.Lib.Segments
import UosTv.Casync.Locality
import UosTv.Casync.Tiling
import UosTv.Casync.Verification
import UosTv.Lib.Bounded
import UosTv.Serde.Ciborium
import UosTv.Casync.IndexFormat
import UosTv.Casync.Panics
import UosTv.Casync.DeltaStats
import UosTv.Casync.Delta
import UosTv.Casync.Integrity
import UosTv.Casync.Retries
import UosTv.Casync.Directories
import UosTv.Casync.Cleanup
import UosTv.Serde.Derive
import UosTv.Serde.JsonReader
import UosTv.UpdateVerify.Signing
import UosTv.Lib.PrefixCode
import UosTv.Js.Text
import UosTv.Js.Map
import UosTv.Luna.Bus
import UosTv.Luna.Topics
import UosTv.Luna.InForce
import UosTv.Luna.OpenSocket
import UosTv.Stardust.Registered
import UosTv.Services.Audiod
import UosTv.Services.Netmd
import UosTv.Services.Notifd
import UosTv.Stardust.Params
import UosTv.Serde.JsonBytes
import UosTv.Serde.Transcode
import UosTv.Stardust.Guessing
import UosTv.Stardust.Wildcards
import UosTv.Luna.App
import UosTv.Luna.Status
import UosTv.Serde.Incomplete
import UosTv.Serde.Pretty
import UosTv.Pkgd.Operations
import UosTv.Pkgd.AppRegistry
import UosTv.Pkgd.Saving
import UosTv.Pkgd.AppList
import UosTv.Services.Muting
import UosTv.Services.Publishing
import UosTv.Services.Dispald
import UosTv.Stardust.Calls
import UosTv.Stardust.Accumulation
import UosTv.Services.Logd
import UosTv.Rust.FileTree
import UosTv.Pkgd.Uninstall
import UosTv.Lib.Ragged
import UosTv.Luna.Navigation
import UosTv.Luna.Grid
import UosTv.Luna.Moves
import UosTv.Luna.Focus
import UosTv.Luna.ActiveScreen
import UosTv.Pkgd.Installing
import UosTv.Services.ActiveInterface
import UosTv.Services.Detection
import UosTv.Monitord.Capabilities
import UosTv.Services.Lunad
import UosTv.Services.PercentDecoding
import UosTv.Rust.Canonical
import UosTv.Rust.Lines
import UosTv.Lib.Latest
import UosTv.Services.StaticFiles
import UosTv.Services.NetworkStatus
import UosTv.Services.Notifications
import UosTv.Monitord.Loading
import UosTv.Casync.Commands
import UosTv.Lib.Queues
import UosTv.Lib.Records
import UosTv.Serde.OneLine
import UosTv.Services.Inputd
import UosTv.Services.Journal
import UosTv.Services.Wifi
import UosTv.Stardust.Reception
import UosTv.Stardust.Replies
import UosTv.Inis.GivingUp
import UosTv.Lib.Budget
import UosTv.Lib.Watch
import UosTv.Services.IdleTimeout
