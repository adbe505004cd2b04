import SnipeIt.Support.Run
import SnipeIt.Support.Outputs
import SnipeIt.Support.Memory
import SnipeIt.Support.CStruct
import SnipeIt.Support.Checksum
import SnipeIt.Support.HalfEven
import SnipeIt.Support.BinaryFloat
import SnipeIt.Support.FloorMean
import SnipeIt.Support.Quantize
import SnipeIt.Support.Serpentine
import SnipeIt.Support.Bits
import SnipeIt.Support.LineStream
import SnipeIt.Support.Utf8
import SnipeIt.Support.CString
import SnipeIt.Support.Json
import SnipeIt.Support.Decimal
import SnipeIt.Support.JsonText
import SnipeIt.Support.JsonDumps
import SnipeIt.Support.RateLimit
import SnipeIt.Support.Relay
import SnipeIt.Support.Ring
import SnipeIt.Support.CondVar
import SnipeIt.Support.Locking
import SnipeIt.Support.Greedy
import SnipeIt.Support.LinkedMap
import SnipeIt.Support.Relabel
import SnipeIt.Status
import SnipeIt.Hal.Uart
import SnipeIt.Hal.Driver
import SnipeIt.Hal.I2c
import SnipeIt.Ipc.Connection
import SnipeIt.Ipc.Buffer
import SnipeIt.Ipc.Lines
import SnipeIt.Ipc.Framing
import SnipeIt.Ipc.CommandReader
import SnipeIt.Config.Reader
import SnipeIt.Config.Document
import SnipeIt.Config.Search
import SnipeIt.Config.Loading
import SnipeIt.Ipc.StartCommand
import SnipeIt.Ipc.CommandStream
import SnipeIt.WebSocket.Server
import SnipeIt.WebSocket.Service
import SnipeIt.WebSocket.Delivery
import SnipeIt.WebSocket.Order
import SnipeIt.WebSocket.Session
import SnipeIt.WebSocket.Queue
import SnipeIt.Orchestrator.Detector
import SnipeIt.Orchestrator.World
import SnipeIt.Orchestrator.ProcessManager
import SnipeIt.Orchestrator.ChildOwnership
import SnipeIt.Orchestrator.Streams
import SnipeIt.Orchestrator.StreamReady
import SnipeIt.Orchestrator.Commands
import SnipeIt.Detector.Streamer
import SnipeIt.Phone.Client
import SnipeIt.Phone.Reconnect
import SnipeIt.Phone.Tracker
import SnipeIt.Phone.TrackExpiry
import SnipeIt.Phone.TrackedMap
import SnipeIt.Phone.Matching
import SnipeIt.Phone.Smoothing
import SnipeIt.Phone.Overlap
import SnipeIt.Phone.Pacer
import SnipeIt.Phone.Staleness
import SnipeIt.Phone.PacerLoop
import SnipeIt.Phone.LockToggle
import SnipeIt.Phone.Disconnect
import SnipeIt.Phone.WifiBinding
import SnipeIt.Phone.Dashboard
import SnipeIt.ActiveObject.Machines
import SnipeIt.ActiveObject.System
import SnipeIt.ActiveObject.Teardown
import SnipeIt.ActiveObject.Deletion
import SnipeIt.ActiveObject.Steps
import SnipeIt.ActiveObject.Ending
import SnipeIt.ActiveObject.WakeUp
import SnipeIt.ActiveObject.Configuring
import SnipeIt.ActiveObject.Turns
import SnipeIt.Util.EventBus
import SnipeIt.Util.Routing
import SnipeIt.App.Scheduler
import SnipeIt.App.Cadence
import SnipeIt.Util.RingQueue
import SnipeIt.Util.Fsm
import SnipeIt.Util.BlockingQueue
import SnipeIt.ActiveObject.EventLoop
import SnipeIt.Util.LockOrder
import SnipeIt.Bridge.Startup
import SnipeIt.Ddl.Frames
import SnipeIt.Ddl.SensorCycle
import SnipeIt.Ddl.GpsFsm
import SnipeIt.Ddl.GpsConfig
import SnipeIt.Ddl.FrameCodecs
import SnipeIt.Ddl.Corruption
import SnipeIt.Ddl.UbxMessages
import SnipeIt.Ddl.SensorLink
import SnipeIt.Ddl.Timeouts
import SnipeIt.Ddl.WholeFrames
import SnipeIt.Ddl.Servo
import SnipeIt.Ddl.ServoLimits
import SnipeIt.Ddl.ServoFrame
import SnipeIt.Ddl.ServoLock
import SnipeIt.Ddl.ServoAngle
import SnipeIt.Ddl.ServoScan
import SnipeIt.Ddl.Am2302
import SnipeIt.Ddl.Am2302Frame
import SnipeIt.Ddl.TemperatureHumidity
import SnipeIt.Ddl.ReadSpacing
import SnipeIt.Detector.Letterbox
import SnipeIt.Ddl.DdlFrame
import SnipeIt.Phone.SensorData
import SnipeIt.Phone.SensorStrip
import SnipeIt.Bridge.Snapshot
import SnipeIt.Detector.DetectionMessage
import SnipeIt.Detector.Session
import SnipeIt.Phone.Messages
import SnipeIt.Phone.Markers
import SnipeIt.Phone.TargetMarker
import SnipeIt.Bridge.Messages
import SnipeIt.Bridge.Broadcast
import SnipeIt.Bridge.Ticking
import SnipeIt.Orchestrator.MainLoop
import SnipeIt.Orchestrator.Throughput
import SnipeIt.Orchestrator.EndToEnd
import SnipeIt.Orchestrator.SensorsToScreen
