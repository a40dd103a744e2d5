import UIoT.Library.Levels
import UIoT.Library.Machine
import UIoT.Library.ContinuationCode
import UIoT.Library.Ledger
import UIoT.Library.LinkedRing
import UIoT.Library.RingFamily
import UIoT.Library.HistoryRing
import UIoT.Defs
import UIoT.Utils.List
import UIoT.Utils.Nodes
import UIoT.Mqtt.PacketFormat
import UIoT.Mqtt.PublishDecode
import UIoT.Mqtt.Serialize
import UIoT.Mqtt.Client
import UIoT.Mqtt.Requests
import UIoT.Mqtt.ReadPacket
import UIoT.Mqtt.StreamFraming
import UIoT.Mqtt.TopicMatch
import UIoT.Mqtt.Acks
import UIoT.Mqtt.Connection
import UIoT.Mqtt.Yield
import UIoT.Mqtt.Books
import UIoT.Mqtt.Sweeps
import UIoT.Mqtt.SweepNodes
import UIoT.Mqtt.RequestNodes
import UIoT.Mqtt.PublishRace
import UIoT.Mqtt.LoneThreads
import UIoT.Mqtt.Tracking
import UIoT.Mqtt.Runs
import UIoT.Mqtt.UnsubscribeExact
import UIoT.Mqtt.PacketIds
import UIoT.Mqtt.HandleTable
import UIoT.Mqtt.AckMatching
import UIoT.Mqtt.PublishOutcomes
import UIoT.Mqtt.RequestOutcomes
import UIoT.Mqtt.OutgoingPackets
import UIoT.Mqtt.PublishRoundTrip
import UIoT.Mqtt.Sending
import UIoT.Mqtt.Sessions
import UIoT.Mqtt.Resubscription
import UIoT.Mqtt.OutgoingFraming
import UIoT.Mqtt.Actions
import UIoT.Mqtt.CallbackLocks
import UIoT.Mqtt.ConnectionTerms
import UIoT.Mqtt.LinkState
import UIoT.Mqtt.ManualDisconnect
import UIoT.Mqtt.LinkMachine
import UIoT.Mqtt.Backoff
import UIoT.Mqtt.KeepAlive
import UIoT.Mqtt.Dispatch
import UIoT.Mqtt.RepeatFilter
import UIoT.Library.JsonSyntax
import UIoT.Json.Parser
import UIoT.Json.Scanning
import UIoT.Json.Lookup
import UIoT.Json.Enumeration
import UIoT.Json.Terminated
import UIoT.Json.Robustness
import UIoT.Json.NameValue
import UIoT.Shadow.Document
import UIoT.Shadow.Requests
import UIoT.Shadow.Messages
import UIoT.Shadow.Books
import UIoT.Shadow.AllOrNothing
import UIoT.Shadow.Correlation
import UIoT.Shadow.LockDiscipline
import UIoT.Shadow.RequestNodes
import UIoT.Shadow.Lifecycle
import UIoT.Library.BlockHash
import UIoT.Ota.Client
import UIoT.Ota.Integrity
import UIoT.Ota.Ownership
import UIoT.Ota.Queue
import UIoT.Mqtt.SerializerBounds
import UIoT.Mqtt.RemainingLength
import UIoT.Mqtt.PartialWrites
import UIoT.Mqtt.AckBounds
import UIoT.Library.RepeatedFormat
import UIoT.Mqtt.SubscribeGrammar
import UIoT.Mqtt.SubscribeEncoding
import UIoT.Mqtt.ConnectEncoding
import UIoT.Http.Client
import UIoT.Http.Header
import UIoT.Http.Bounds
import UIoT.Http.Safety
import UIoT.Http.Response
import UIoT.Http.Body
import UIoT.Http.Segmentation
import UIoT.Ota.Params
import UIoT.Ota.FirmwareCheck
import UIoT.Ota.Progress
import UIoT.Shadow.VersionTracking
import UIoT.Json.FirstMember
import UIoT.Shadow.DeltaDelivery
import UIoT.Library.DecimalDigits
import UIoT.Shadow.Values
import UIoT.Shadow.DocumentNodes
import UIoT.Shadow.RoundTrip
import UIoT.Shadow.DocumentLoop
import UIoT.Shadow.DocumentBounds
import UIoT.Library.JsonMeaning
import UIoT.Shadow.DocumentGrammar
import UIoT.Library.KeyedList
import UIoT.Shadow.Registry
import UIoT.Library.JsonPaths
import UIoT.Json.Brackets
import UIoT.Json.KeysOf
import UIoT.Json.KeyPaths
import UIoT.Json.CutValues
import UIoT.Json.KeysCut
import UIoT.Json.KeysKept
import UIoT.Utils.Sha256
import UIoT.Http.Silence
import UIoT.Http.Retrieval
import UIoT.Http.Reassembly
import UIoT.Http.Url
import UIoT.Http.Request
import UIoT.Http.FirstCall
import UIoT.Ota.Fetch
import UIoT.Library.JsonNumbers
import UIoT.Dm.Messages
import UIoT.Dm.Replies
import UIoT.Dm.Commands
import UIoT.Library.BoundedPrinting
import UIoT.Dm.Payloads
import UIoT.Dm.PayloadBounds
import UIoT.Utils.TickTimer
import UIoT.Utils.Hex
import UIoT.Library.BoundedFifo
import UIoT.At.RingBuff
import UIoT.At.Reader
import UIoT.At.M26
import UIoT.At.Client
import UIoT.At.Lines
import UIoT.At.Passes
import UIoT.At.Responses
import UIoT.Utils.ListEnds
import UIoT.Utils.ListSequence
import UIoT.Utils.LiteList
import UIoT.Library.JsonJoined
import UIoT.Dm.PayloadShape
import UIoT.Dm.PayloadCuts
import UIoT.Dm.Reports
import UIoT.Library.Heap
import UIoT.Library.ByteStream
import UIoT.Library.Custody
import UIoT.Utils.Hmac
import UIoT.Http.Post
import UIoT.Http.Token
import UIoT.Http.Calls
import UIoT.Hal.LinuxTcp
import UIoT.Hal.Tls
import UIoT.At.PassiveReceive
import UIoT.Mqtt.FilterOwnership
import UIoT.Library.Observations
import UIoT.Hal.LinuxTimer
import UIoT.Hal.Flash
