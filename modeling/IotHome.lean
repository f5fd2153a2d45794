import IotHome.Lib.Assoc
import IotHome.Lib.Decimal
import IotHome.Lib.JsString
import IotHome.Lib.Json
import IotHome.Lib.JsonText
import IotHome.Lib.UrlEncoded
import IotHome.Lib.Numeral
import IotHome.Lib.Outcome
import IotHome.Lib.Runs
import IotHome.Lib.JsHeap
import IotHome.Lib.JsonPath
import IotHome.Lib.ReadModifyWrite
import IotHome.Lib.Stringify
import IotHome.Lib.Relay
import IotHome.Lib.JsonCanonical
import IotHome.Lib.DecimalText
import IotHome.Lib.JsonRead
import IotHome.Lib.PosixPath
import IotHome.Lib.Shell
import IotHome.Lib.Traversal
import IotHome.Lib.EscapedFields
import IotHome.Lib.JsonLayout
import IotHome.Lib.Places
import IotHome.Lib.CBuffer
import IotHome.Lib.Program
import IotHome.Lib.NodePath
import IotHome.Lib.Comparator
import IotHome.Lib.ExpiringMap
import IotHome.Lib.HttpMessage
import IotHome.Lib.Links
import IotHome.Lib.JsonNul
import IotHome.Firmware.ApiHandler
import IotHome.Firmware.Commands
import IotHome.Firmware.Httpd
import IotHome.Firmware.Uri
import IotHome.Firmware.Notifier
import IotHome.Firmware.WifiManager
import IotHome.Firmware.HttpClient
import IotHome.Firmware.Params
import IotHome.Firmware.ResBuff
import IotHome.Firmware.HttpRequest
import IotHome.Firmware.HttpcLifecycle
import IotHome.Firmware.MainLoop
import IotHome.Firmware.Leds
import IotHome.Firmware.RunServer
import IotHome.Server.JsValue
import IotHome.Server.QueryString
import IotHome.Server.Device
import IotHome.Server.DeviceCalls
import IotHome.Server.Messages
import IotHome.Server.PulseHandler
import IotHome.Server.RemoteScript
import IotHome.Server.Registry
import IotHome.Server.App
import IotHome.Server.FrontEnd
import IotHome.Server.JsNumber
import IotHome.Server.PulseJson
import IotHome.Server.WsClient
import IotHome.Server.DeviceNotif
import IotHome.Server.HttpRequests
import IotHome.Server.HttpServer
import IotHome.Server.StaticFiles
import IotHome.Server.PinSystem
import IotHome.Server.Boards
import IotHome.Cmd.Arg
import IotHome.Cmd.DeviceControl
import IotHome.Cmd.Runner
import IotHome.Cmd.MainTree
import IotHome.Cmd.SerializeObject
import IotHome.Cmd.Middleware
import IotHome.Cmd.CommandLine
import IotHome.Cmd.SerializedText
import IotHome.Cmd.Init
import IotHome.Cmd.CmdInput
import IotHome.Virtual.DeviceControl
import IotHome.Virtual.Levels
import IotHome.Os.Netplan
import IotHome.Os.SysPulse
import IotHome.Os.Scripts
import IotHome.Os.ShellCmd
import IotHome.Os.NmcliLists
import IotHome.Os.ScriptLinks
import IotHome.PublicServer.HomePage
import IotHome.PublicServer.TwoServers
import IotHome.HomepageFe.Device
import IotHome.HomepageFe.WsService
import IotHome.HomepageFe.Server
import IotHome.HomepageFe.Servers
import IotHome.HomepageFe.Switches
import IotHome.Proofs.ApiParams
import IotHome.Proofs.ApiConnections
import IotHome.Proofs.ApiResponse
import IotHome.Proofs.SetState
import IotHome.Proofs.Select
import IotHome.Proofs.VirtualDevice
import IotHome.Proofs.DeviceRecord
import IotHome.Proofs.HandlerErrors
import IotHome.Proofs.PulseFlag
import IotHome.Proofs.RemoteScript
import IotHome.Proofs.CmdRunner
import IotHome.Proofs.ApiSafety
import IotHome.Proofs.ResponseLength
import IotHome.Proofs.Netplan
import IotHome.Proofs.NetplanOverlap
import IotHome.Proofs.HelpQuery
import IotHome.Proofs.DeviceRegistry
import IotHome.Proofs.ControlTarget
import IotHome.Proofs.Forwards
import IotHome.Proofs.PulseOrder
import IotHome.Proofs.PulseText
import IotHome.Proofs.Notifications
import IotHome.Proofs.PinRecord
import IotHome.Proofs.ResponseBuffers
import IotHome.Proofs.Reconnect
import IotHome.Proofs.DeviceInfo
import IotHome.Proofs.HeartbeatLoop
import IotHome.Proofs.HeartbeatPath
import IotHome.Proofs.ScriptCommand
import IotHome.Proofs.CmdMiddleware
import IotHome.Proofs.ApiAnswer
import IotHome.Proofs.ArgValues
import IotHome.Proofs.HttpFailure
import IotHome.Proofs.UncaughtListeners
import IotHome.Proofs.CommandLine
import IotHome.Proofs.Completion
import IotHome.Proofs.SudoScript
import IotHome.Proofs.NmcliLists
import IotHome.Proofs.SerializeTermination
import IotHome.Proofs.SharedObjects
import IotHome.Proofs.PrintedText
import IotHome.Proofs.EndHandler
import IotHome.Proofs.AppInjection
import IotHome.Proofs.StaticFiles
import IotHome.Proofs.DeviceOrder
import IotHome.Proofs.QuoteFlag
import IotHome.Proofs.ServersBuf
import IotHome.Proofs.RequestText
import IotHome.Proofs.HttpcLifecycle
import IotHome.Proofs.HttpcReports
import IotHome.Proofs.ResponseCuts
import IotHome.Proofs.AppSteps
import IotHome.Proofs.TwoServers
import IotHome.Proofs.ScriptLinks
import IotHome.Proofs.NotifierRefines
import IotHome.Proofs.NotifierRealised
import IotHome.Proofs.PinSystem
import IotHome.Proofs.Switches
import IotHome.Proofs.Boards
import IotHome.Proofs.RequestGuard
