import KoheronServer.Session.TcpRun
import KoheronServer.Session.TcpSend
import KoheronServer.Session.Transports
import KoheronServer.Websocket.Frame
import KoheronServer.Server.SessionIds
import KoheronServer.Server.Subscriptions
import KoheronServer.Server.EmitDelivers
import KoheronServer.Wire.Reference
import KoheronServer.Server.Workers
import KoheronServer.Devices.Cycles
import KoheronServer.Devices.Dispatch
import KoheronServer.Session.WebsockMessages
import KoheronServer.Session.WebsockContents
import KoheronServer.Server.ConcurrentSends
import KoheronServer.Server.SubscribeChannel
import KoheronServer.Session.TcpContainers
import KoheronServer.Server.EmitInterleaved
import KoheronServer.Server.SessionLookups
import KoheronServer.Server.Shutdown
import KoheronServer.Server.Connections
import KoheronServer.Config.CommentedText
import KoheronServer.Wire.Inverse
import KoheronServer.Websocket.HeaderEnd
import KoheronServer.Websocket.Accesses
import KoheronServer.Websocket.SendBuffer
import KoheronServer.Websocket.SendAccounts
import KoheronServer.Websocket.Handshake
import KoheronServer.Session.ScalarPack
import KoheronServer.Server.Replies
import KoheronServer.Config.SocketPath
import KoheronServer.Config.StandardJson
import KoheronServer.Devgen.PlainSizes
import KoheronServer.Devgen.Integers
import KoheronServer.Devgen.ReqBuffSize
import KoheronServer.Devgen.DevicesJson
import KoheronServer.Devgen.ArraySizes
import KoheronServer.Websocket.AcceptKey
import KoheronServer.Session.WebsockSend
import KoheronServer.Session.WebsockCalls
import KoheronServer.Devgen.CallsByName
