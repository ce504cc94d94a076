import KustDesk.Async.Task
import KustDesk.Async.Trace
import KustDesk.Async.Pool
import KustDesk.Async.Alone
import KustDesk.Prelude
import KustDesk.Proto
import KustDesk.External
import KustDesk.Database
import KustDesk.Peer
import KustDesk.Registration
import KustDesk.RegisterOnce
import KustDesk.Jwt
import KustDesk.Server
import KustDesk.Rendezvous
import KustDesk.NoPanic
import KustDesk.PeerSteps
import KustDesk.Answers
import KustDesk.AccessGate
import KustDesk.Encryption
import KustDesk.Sinks
import KustDesk.Replies
import KustDesk.WsReach
import KustDesk.LiveHandle
import KustDesk.PeerUse
import KustDesk.Freshness
import KustDesk.Record
import KustDesk.Durability
import KustDesk.Takeover
import KustDesk.Async.Control
import KustDesk.RegisterSteps
import KustDesk.Ownership
import KustDesk.Handlers
import KustDesk.Pinning
import KustDesk.Handshake
import KustDesk.Directory
import KustDesk.Restart
import KustDesk.Relay
import KustDesk.Pipe
import KustDesk.Blocking
import KustDesk.Pairing
import KustDesk.Waiting
import KustDesk.Async.Log
import KustDesk.IoLoop
import KustDesk.Datagram
import KustDesk.UdpSocket
import KustDesk.RelayServers
import KustDesk.Visits
import KustDesk.Authority
import KustDesk.SignedIdentity
import KustDesk.Refusal
import KustDesk.RelayOnly
import KustDesk.Codec.Base64
import KustDesk.ServerKey
import KustDesk.Async.Limiter
import KustDesk.RateLimit
import KustDesk.UsageTable
import KustDesk.ServerSteps
import KustDesk.SinkTables
import KustDesk.Cleanup
import KustDesk.ConfigAnswers
import KustDesk.Serials
import KustDesk.Async.Twin
import KustDesk.AddrForms
import KustDesk.SameForm
import KustDesk.SameResults
import KustDesk.AddrParse
import KustDesk.OnlineBits
import KustDesk.Forwarded
import KustDesk.CheckCmd
import KustDesk.IpLimits
import KustDesk.IdQuota
import KustDesk.TokenLifetime
import KustDesk.KeyFilesKept
import KustDesk.Async.Tracks
import KustDesk.RelayCount
import KustDesk.RelayWords
import KustDesk.Async.Added
import KustDesk.StatusQueries
import KustDesk.Async.Component
import KustDesk.Async.SetLog
import KustDesk.Hbbr
import KustDesk.RelayLists
import KustDesk.UsageReport
import KustDesk.Async.Channel
import KustDesk.Hbbs
import KustDesk.HbbsSteps
import KustDesk.Administration
import KustDesk.MainChannel
import KustDesk.Async.Ticket
import KustDesk.NatPort
import KustDesk.Options
import KustDesk.RelayRotation
import KustDesk.Startup
import KustDesk.Desktop
import KustDesk.DesktopRuns
import KustDesk.HbbsPeers
import KustDesk.IpChanges
import KustDesk.PeerRows
