import IdolGateway.Library.Buffer
import IdolGateway.Library.Procedure
import IdolGateway.Library.Transducer
import IdolGateway.Library.WhileLoop
import IdolGateway.ZbClient.Receiver
import IdolGateway.ZbClient.Wire
import IdolGateway.ZbClient.ReceiverFrames
import IdolGateway.ZbClient.ReceiverStreams
import IdolGateway.ZbClient.ReceiverNoise
import IdolGateway.ZbClient.ReceiverSafety
import IdolGateway.ZbClient.ReceiverSoundness
import IdolGateway.ZbClient.Device
import IdolGateway.ZbClient.Dispatch
import IdolGateway.ZbClient.DispatchReads
import IdolGateway.ZbClient.RxBounds
import IdolGateway.ZbClient.JsonFresh
import IdolGateway.ZbClient.SameHome
import IdolGateway.ZbClient.Reports
import IdolGateway.ZbClient.StaleBytes
import IdolGateway.ZbClient.Http
import IdolGateway.ZbClient.HttpSenders
import IdolGateway.ZbClient.HttpIsolation
import IdolGateway.ZbClient.FrameEffect
import IdolGateway.ZbClient.TickEffect
import IdolGateway.ZbClient.Entries
import IdolGateway.ZbClient.KitchenTimer
import IdolGateway.ZbClient.KitchenLight
import IdolGateway.ZbClient.OfflineAlarm
import IdolGateway.ZbClient.Joins
import IdolGateway.ZbClient.DeviceIds
import IdolGateway.ZbClient.FrameOutput
import IdolGateway.ZbClient.TableBound
import IdolGateway.ZbClient.JsonBuilds
import IdolGateway.ZbClient.DeviceNames
import IdolGateway.ZbClient.JsonLength
import IdolGateway.Library.Interleaving
import IdolGateway.ZbClient.Curtains
import IdolGateway.ZbClient.Senders
import IdolGateway.ZbClient.HttpSegments
import IdolGateway.Zigbee.Link
import IdolGateway.Zigbee.LinkSoundness
import IdolGateway.ZbClient.StateReports
import IdolGateway.ZbClient.Alphabet
import IdolGateway.Library.CString
import IdolGateway.ZbClient.Pages
import IdolGateway.Brower.Device
import IdolGateway.Brower.Server
import IdolGateway.Brower.Table
import IdolGateway.Brower.Registration
import IdolGateway.Brower.IndexRange
import IdolGateway.Brower.Channels
import IdolGateway.Brower.Lights
import IdolGateway.Brower.PostBack
import IdolGateway.ZbClient.FrameCondition
import IdolGateway.ZbClient.BodyBlock
import IdolGateway.ZbClient.JsonForwarding
import IdolGateway.ZbClient.Rejection
import IdolGateway.ZbClient.SwitchReports
import IdolGateway.ZbClient.UnsetReads
import IdolGateway.ZbClient.ReplyLength
import IdolGateway.ZbClient.JsonSpaced
import IdolGateway.ZbClient.ModelNames
import IdolGateway.Brower.DeviceList
import IdolGateway.Library.UrlForm
import IdolGateway.Microhttpd.PostProcessor
import IdolGateway.Microhttpd.FormCalls
import IdolGateway.Microhttpd.Iterators
import IdolGateway.Microhttpd.Buffers
import IdolGateway.Microhttpd.RoundTrip
import IdolGateway.Library.Refinement
import IdolGateway.Microhttpd.Connections
import IdolGateway.Microhttpd.Sessions
import IdolGateway.Microhttpd.FirstPiece
import IdolGateway.Brower.Http
import IdolGateway.Brower.HttpPages
import IdolGateway.Brower.HttpPosts
import IdolGateway.Brower.HttpPostBack
import IdolGateway.Zigbee.Http
import IdolGateway.HttpServer.Rules
import IdolGateway.Microhttpd.WholeForm
import IdolGateway.HttpServer.Registration
import IdolGateway.HttpServer.Arrays
import IdolGateway.HttpServer.Forms
import IdolGateway.HttpServer.Commands
import IdolGateway.HttpServer.Humidity
import IdolGateway.ZbClient.LineThread
import IdolGateway.ZbClient.Program
import IdolGateway.Brower.Program
