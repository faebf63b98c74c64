import VoipBackend.Lib.Bytes
import VoipBackend.Lib.KeyedTable
import VoipBackend.Lib.Execution
import VoipBackend.Lib.CircuitBreaker
import VoipBackend.Lib.Blocks
import VoipBackend.Lib.Sha1
import VoipBackend.Lib.MessagePack
import VoipBackend.Lib.Unpack
import VoipBackend.Lib.CString
import VoipBackend.Lib.Base64
import VoipBackend.Backend.Value
import VoipBackend.Backend.Schema
import VoipBackend.Backend.Billing
import VoipBackend.Backend.BillingLaws
import VoipBackend.Backend.Rating
import VoipBackend.Backend.Teardown
import VoipBackend.Backend.Sequential
import VoipBackend.Backend.Ledger
import VoipBackend.Backend.Registration
import VoipBackend.Backend.TariffMatch
import VoipBackend.Backend.Grants
import VoipBackend.Backend.ActiveCalls
import VoipBackend.Backend.Retransmission
import VoipBackend.Backend.Overdrawn
import VoipBackend.Backend.Nodes
import VoipBackend.Backend.Reservation
import VoipBackend.Backend.Sessions
import VoipBackend.Backend.TtlWorker
import VoipBackend.Backend.Sweep
import VoipBackend.Backend.Draining
import VoipBackend.Backend.Cleaners
import VoipBackend.Backend.CleanerStats
import VoipBackend.Backend.Expiry
import VoipBackend.Backend.Failover
import VoipBackend.Backend.Fibers
import VoipBackend.Backend.DoubleTeardown
import VoipBackend.Backend.ChannelLimit
import VoipBackend.Backend.Serial
import VoipBackend.Backend.Workers
import VoipBackend.Backend.SweepRace
import VoipBackend.Backend.DialogLifetime
import VoipBackend.Wire.Msgpuck
import VoipBackend.Wire.Codec
import VoipBackend.Wire.Scramble
import VoipBackend.Wire.Digest
import VoipBackend.Wire.Auth
import VoipBackend.Wire.Connection
import VoipBackend.Wire.OpenSips
import VoipBackend.Wire.CallInfo
import VoipBackend.Wire.RtpEngine
import VoipBackend.Wire.Kamailio
import VoipBackend.Wire.Breakers
import VoipBackend.Wire.Stream
import VoipBackend.Wire.Receiving
import VoipBackend.Wire.Pairing
import VoipBackend.Wire.Replies
import VoipBackend.Wire.Acknowledgements
import VoipBackend.Wire.Packets
import VoipBackend.Wire.SaveRestore
import VoipBackend.Wire.Requests
import VoipBackend.Wire.Skipping
import VoipBackend.Wire.Status
import VoipBackend.Wire.Get
import VoipBackend.Wire.Sizes
import VoipBackend.Wire.SpaceId
import VoipBackend.Wire.Login
import VoipBackend.Wire.Url
import VoipBackend.Wire.Servers
import VoipBackend.Lib.Pack
import VoipBackend.Wire.Arguments
import VoipBackend.Wire.SaveCall
import VoipBackend.Wire.Bounds
import VoipBackend.Lib.Mutex
import VoipBackend.Lib.RoundRobin
import VoipBackend.Wire.Pool
import VoipBackend.Lib.LateWrites
import VoipBackend.Wire.CallSpace
import VoipBackend.Wire.Cache
import VoipBackend.Lib.Json
import VoipBackend.Asterisk.Exec
import VoipBackend.Asterisk.ResConfig
import VoipBackend.Asterisk.DecodeChunk
import VoipBackend.Asterisk.Realtime
import VoipBackend.Asterisk.Pool
import VoipBackend.Asterisk.ArgumentTexts
import VoipBackend.Asterisk.Arguments
import VoipBackend.Asterisk.Offsets
import VoipBackend.Asterisk.Sockets
import VoipBackend.Asterisk.Dialplan
import VoipBackend.Lib.Probing
import VoipBackend.Backend.CdrKeys
import VoipBackend.Backend.AsteriskService
import VoipBackend.Backend.RealtimeKeys
import VoipBackend.Backend.RealtimeOverlay
import VoipBackend.Backend.AsteriskCdrs
import VoipBackend.Wire.Base64
import VoipBackend.Wire.Writev
import VoipBackend.Wire.ReadFrame
import VoipBackend.Wire.RestoreSlots
import VoipBackend.Wire.RestoreEntries
import VoipBackend.Wire.RestoreKeys
import VoipBackend.Asterisk.Codec
import VoipBackend.Docker.Sessions
import VoipBackend.Lib.Scanf
import VoipBackend.Lib.Registry
import VoipBackend.Asterisk.Profiles
import VoipBackend.Wire.Server
import VoipBackend.Wire.Authorization
import VoipBackend.Asterisk.Service
import VoipBackend.Docker.Proxy
import VoipBackend.Docker.MediaServer
import VoipBackend.Docker.Stack
