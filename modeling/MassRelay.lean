import MassRelay.Lib.Chan
import MassRelay.Lib.Machine
import MassRelay.Lib.Prog
import MassRelay.Lib.Threads
import MassRelay.Lib.Spent
import MassRelay.Lib.Discipline
import MassRelay.Lib.History
import MassRelay.Lib.Total
import MassRelay.Lib.Utf16
import MassRelay.Lib.Utf8
import MassRelay.Lib.Base64
import MassRelay.Models
import MassRelay.Services.Identity
import MassRelay.Middleware.Auth
import MassRelay.Services.Room
import MassRelay.Services.CollabService
import MassRelay.Services.Call
import MassRelay.Services.Steps
import MassRelay.Services.Housed
import MassRelay.Services.Handlers
import MassRelay.Services.Invariant
import MassRelay.Services.Ownership
import MassRelay.Services.Refusals
import MassRelay.Services.Traffic
import MassRelay.Services.Alone
import MassRelay.Services.AtRest
import MassRelay.Services.FanOut
import MassRelay.Services.RoomHistory
import MassRelay.Services.Welcome
import MassRelay.Services.KnownOwner
import MassRelay.Services.Encryption
import MassRelay.Services.OwnerSettings
import MassRelay.Services.OwnerFlags
import MassRelay.Services.Gauges
import MassRelay.Services.PeerMaps
import MassRelay.Server.Stream
import MassRelay.Services.Deliveries
import MassRelay.Services.Membership
import MassRelay.Services.Introductions
import MassRelay.Server.Lift
import MassRelay.Server.Membership
import MassRelay.Server.Channels
import MassRelay.Server.Authenticity
import MassRelay.Server.Delivery
import MassRelay.Server.JoinOrder
import MassRelay.Server.Introductions
import MassRelay.Server.Admission
import MassRelay.Server.Departure
import MassRelay.Server.Cleanup
import MassRelay.Server.SessionEnd
import MassRelay.Server.Farewell
import MassRelay.Server.HalfClose
import MassRelay.Server.JoinedAs
import MassRelay.Server.Addressed
import MassRelay.Ts.CollabClient
import MassRelay.Ts.Replica
import MassRelay.Ts.Roster
import MassRelay.Ts.Settings
import MassRelay.Ts.Connection
import MassRelay.Ts.Sockets
import MassRelay.Ts.Reconnect
import MassRelay.Ts.App
import MassRelay.Ts.Goodbye
import MassRelay.Ts.OneSocket
import MassRelay.Ts.CollabEngine
import MassRelay.Ts.Effects
import MassRelay.Ts.Election
import MassRelay.Ts.Phases
import MassRelay.Ts.Network
import MassRelay.Ts.Owner
import MassRelay.Ts.Snapshots
import MassRelay.Ts.Order
import MassRelay.Ts.Dispose
import MassRelay.Ts.Timers
import MassRelay.Ts.Sealed
import MassRelay.Ts.LateJoiners
import MassRelay.Ts.LocalChanges
import MassRelay.Ts.CursorThrottle
import MassRelay.Ts.UrlParams
import MassRelay.Ts.Crypto
import MassRelay.Lib.Progress
import MassRelay.Services.Locking
import MassRelay.Server.Locking
import MassRelay.Server.Progress
import MassRelay.Services.Isolation
import MassRelay.Server.Isolation
import MassRelay.Server.Passage
import MassRelay.Ts.EndToEnd
import MassRelay.Server.AuthKeys
import MassRelay.Middleware.Guard
import MassRelay.Server.App
import MassRelay.Server.Authenticated
import MassRelay.Ts.OwnSends
import MassRelay.Ts.Provenance
import MassRelay.Server.Couriers
import MassRelay.Ts.EditorToEditor
import MassRelay.Server.Settled
import MassRelay.Lib.PercentEncoding
import MassRelay.Lib.FormUrlEncoded
import MassRelay.Ts.ConnectLinks
import MassRelay.Server.Api
