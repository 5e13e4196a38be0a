import Viu.Lib.Bytes
import Viu.Lib.Run
import Viu.Lib.Framing
import Viu.Lib.Fifo
import Viu.Usbip
import Viu.Stream
import Viu.Transfer
import Viu.Descriptors
import Viu.Device
import Viu.Reply
import Viu.Proxy
import Viu.Basic
import Viu.Step
import Viu.Held
import Viu.Contents
import Viu.Conserve
import Viu.Frames
import Viu.Unlink
import Viu.Reuse
import Viu.Pairing
import Viu.Lib.Slots
import Viu.IsoLayout
import Viu.InOrder
import Viu.ReplyStream
import Viu.Control
import Viu.Outcome
import Viu.IsoPartition
import Viu.Mock
import Viu.Lib.Reader
import Viu.Lib.Text
import Viu.Saved
import Viu.Answered
import Viu.Lib.Json
import Viu.Lib.Writer
import Viu.Json
import Viu.JsonSchema
import Viu.JsonMeaning
import Viu.JsonWrites
import Viu.JsonLoads
import Viu.JsonFraming
import Viu.Lib.Table
import Viu.PendingMap
import Viu.PendingOwners
import Viu.CancelSweep
import Viu.MockMap
import Viu.MockCalls
import Viu.MockOrder
import Viu.Lib.Writes
import Viu.AltSettings
import Viu.Open
import Viu.EndpointTypes
import Viu.LocalReplies
import Viu.ProxiedStrings
import Viu.Selectors
import Viu.EmptyPlugin
import Viu.PluginCalls
import Viu.VhciPorts
import Viu.Lib.Digits
import Viu.Lib.Peg
import Viu.VhciStatus
import Viu.FreePort
import Viu.Ports
import Viu.Lib.Abrupt
import Viu.Daemon
import Viu.FailedCommands
import Viu.PayloadSize
import Viu.DeviceId
import Viu.Lib.Storage
import Viu.Argv
import Viu.Service
import Viu.Assertions
import Viu.RefusedSubmit
import Viu.Lib.Records
import Viu.PackedDescriptors
import Viu.Packers
import Viu.Lib.Integers
import Viu.Integral
import Viu.SetupPacket
import Viu.NumberTokens
import Viu.Lib.Variant
import Viu.VectorPlugin
import Viu.Lib.Journal
import Viu.Lib.Regex
import Viu.Jsonl
import Viu.Recording
import Viu.Playback
import Viu.Replay
import Viu.PlaybackLoop
import Viu.Registry
import Viu.Client
import Viu.Shutdown
