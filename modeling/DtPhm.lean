import DtPhm.Lib.Run
import DtPhm.Lib.Rounding
import DtPhm.Lib.Bytes
import DtPhm.Lib.Family
import DtPhm.Lib.Keyed
import DtPhm.Lib.Ring
import DtPhm.Lib.Proc
import DtPhm.Lib.Dict
import DtPhm.Dataman.Layout
import DtPhm.Dataman.Backends
import DtPhm.Dataman.Slots
import DtPhm.Dataman.Refinement
import DtPhm.Mission.Item
import DtPhm.Mission.RoundTrip
import DtPhm.Mission.State
import DtPhm.Mission.Manager
import DtPhm.Mission.Moves
import DtPhm.Mission.Handlers
import DtPhm.Mission.InProgress
import DtPhm.Mission.Acks
import DtPhm.Mission.DoubleBuffer
import DtPhm.Mission.Fence
import DtPhm.Mission.Upload
import DtPhm.Ftp.State
import DtPhm.Ftp.Server
import DtPhm.Ftp.Retransmit
import DtPhm.Ftp.Session
import DtPhm.Ftp.Burst
import DtPhm.Collection.Vehicle
import DtPhm.Collection.Runner
import DtPhm.Lib.Paths
import DtPhm.Collection.DataLogs
import DtPhm.Bson.Encoder
import DtPhm.Bson.Format
import DtPhm.Bson.Agreement
import DtPhm.Bson.Decoder
import DtPhm.Bson.RoundTrip
import DtPhm.Params.Store
import DtPhm.Params.SaveLoad
import DtPhm.Params.Lookup
import DtPhm.Params.Unsaved
import DtPhm.Params.Calls
import DtPhm.Uorb.DeviceNode
import DtPhm.Uorb.Delivery
import DtPhm.Uorb.SubscriptionInterval
import DtPhm.Logger.LogWriterFile
import DtPhm.Logger.Written
import DtPhm.Logger.LogWriterMavlink
import DtPhm.Logger.Framing
import DtPhm.Logger.ULogBridge
import DtPhm.Logger.ULogProtocol
import DtPhm.Lib.Loop
import DtPhm.Replay.Topics
import DtPhm.Replay.Replay
import DtPhm.Replay.Scanning
import DtPhm.Replay.Tracks
import DtPhm.Replay.Complete
import DtPhm.Replay.Parameters
import DtPhm.Verification.Runner
import DtPhm.Lib.Markers
import DtPhm.Lib.Newlines
import DtPhm.Toolchain.RuntimeConfig
import DtPhm.Recording.Row
import DtPhm.Recording.Workbook
import DtPhm.Geofence.Polygons
import DtPhm.Navigator.MissionItems
import DtPhm.Navigator.ReadAhead
import DtPhm.Navigator.JumpCounts
import DtPhm.Navigator.LandStart
import DtPhm.Lib.Passes
import DtPhm.Navigator.TakeoffCheck
import DtPhm.Navigator.LandingChecks
import DtPhm.Lib.BitFields
import DtPhm.Rc.Sbus
import DtPhm.Rc.SbusRoundTrip
import DtPhm.Rc.SbusBatches
import DtPhm.Rc.Crsf
import DtPhm.Lib.FrameReader
import DtPhm.Rc.CrsfStream
import DtPhm.Rc.SpektrumRssi
import DtPhm.Rc.Ghst
import DtPhm.Rc.GhstChannels
import DtPhm.Rc.St24
import DtPhm.Rc.Sumd
import DtPhm.Rc.Dsm
import DtPhm.Lib.Slots
import DtPhm.Mavlink.CommandSender
import DtPhm.Mavlink.CommandRetries
import DtPhm.Mavlink.Parameters
import DtPhm.Mavlink.ParameterUpdates
import DtPhm.Mavlink.ParameterDownload
import DtPhm.Lib.Text
import DtPhm.Mavlink.LogHandler
import DtPhm.Mavlink.LogDownload
import DtPhm.Mavlink.LogListing
import DtPhm.Mavlink.LogLinks
import DtPhm.Lib.Flash
import DtPhm.Params.FlashFs
import DtPhm.Params.FlashEntries
import DtPhm.Params.FlashPlaces
import DtPhm.Params.FlashRuns
import DtPhm.Params.FlashScans
import DtPhm.Params.FlashScanRuns
import DtPhm.Commander.Failsafe
import DtPhm.Lib.Flags
import DtPhm.Px4io.MixerTick
import DtPhm.Px4io.RcConfig
import DtPhm.Px4io.Controls
import DtPhm.Lib.Scan
import DtPhm.Rtps.Transport
import DtPhm.Rtps.Framing
import DtPhm.Rtps.ReceiveBuffer
import DtPhm.Lib.Pieces
import DtPhm.Lib.Scanf
import DtPhm.Mixer.Parsers
import DtPhm.Mixer.WellFormed
import DtPhm.Px4io.MixerPieces
import DtPhm.Lib.Desaturation
import DtPhm.Mixer.Multirotor
import DtPhm.Mixer.Reference
import DtPhm.Lib.ConvexPolygon
import DtPhm.Geofence.InsidePolygon
import DtPhm.Ftp.Errno
import DtPhm.Lib.Paging
import DtPhm.Ftp.Listing
import DtPhm.Lib.Progress
import DtPhm.Canbootloader.Uavcan
import DtPhm.Canbootloader.Transfers
import DtPhm.Canbootloader.Main
import DtPhm.Canbootloader.Bounds
import DtPhm.Canbootloader.Download
import DtPhm.Commander.ArmAuthorization
import DtPhm.Commander.ManualControl
import DtPhm.Commander.RcLossDisabled
import DtPhm.Mixer.Thrust
import DtPhm.Lib.Choice
import DtPhm.Sensors.DataValidator
import DtPhm.Sensors.DataValidatorGroup
import DtPhm.Px4io.DisarmedPwm
import DtPhm.Px4io.PwmRates
import DtPhm.Px4io.Serial
import DtPhm.Px4io.ChannelMapping
import DtPhm.Lib.Stream
import DtPhm.Replay.FilePositions
import DtPhm.Canbootloader.Allocation
import DtPhm.Lib.Since
import DtPhm.Commander.Hysteresis
import DtPhm.Lib.Linked
import DtPhm.Platform.IntrusiveQueue
import DtPhm.Platform.Getopt
import DtPhm.Platform.GetoptRuns
import DtPhm.Tune.Tunes
import DtPhm.Lib.Unwinding
import DtPhm.Tune.Playback
import DtPhm.Lib.Crc
import DtPhm.Platform.Checksums
import DtPhm.Rc.CrsfDamage
import DtPhm.Px4io.Link
import DtPhm.Platform.SqQueue
import DtPhm.Platform.Hrt
import DtPhm.Platform.Timers
import DtPhm.Platform.HrtRuns
import DtPhm.Dataman.WorkQueue
import DtPhm.Dataman.Serving
import DtPhm.Dataman.ServingRuns
import DtPhm.Canbootloader.Descriptor
import DtPhm.Canbootloader.Validity
import DtPhm.Platform.Lockstep
import DtPhm.Platform.LockstepRuns
import DtPhm.Platform.Components
import DtPhm.Platform.ComponentsRuns
