import EverythingImu.Library.StepRun
import EverythingImu.Library.Channel
import EverythingImu.Library.LittleEndian
import EverythingImu.Library.CopyModifyReplace
import EverythingImu.Library.ReadModifyWrite
import EverythingImu.Library.Scalar
import EverythingImu.Library.SlotTable
import EverythingImu.Library.Words
import EverythingImu.Library.Buffer
import EverythingImu.Library.CheckedScalar
import EverythingImu.Library.Crc
import EverythingImu.Library.Reader
import EverythingImu.Library.StreamScan
import EverythingImu.Library.Rotation
import EverythingImu.Library.Transducer
import EverythingImu.Library.Hysteresis
import EverythingImu.Library.WhileLoop
import EverythingImu.Library.Biquad
import EverythingImu.Library.LeastSquares
import EverythingImu.Library.KalmanGain
import EverythingImu.Library.SinceReset
import EverythingImu.Library.PastTime
import EverythingImu.Library.Recency
import EverythingImu.Library.SlidingWindow
import EverythingImu.Library.DistinctList
import EverythingImu.Library.FloatOrder
import EverythingImu.Library.FloatRound
import EverythingImu.Library.FloatArith
import EverythingImu.Library.FloatSign
import EverythingImu.Library.FloatCast
import EverythingImu.Library.FloatMonotone
import EverythingImu.Library.FloatExact
import EverythingImu.Library.FloatQuotient
import EverythingImu.Library.Binary64
import EverythingImu.Library.TextCodec
import EverythingImu.DeviceTraits
import EverythingImu.Joycon.SpiCal
import EverythingImu.Joycon.Jc1
import EverythingImu.Joycon.Samples
import EverythingImu.Joycon.FactoryBlock
import EverythingImu.Joycon.FlashBias
import EverythingImu.Joycon.OffsetCorrection
import EverythingImu.Wii.Companion
import EverythingImu.Wii.Device
import EverythingImu.Wii.Bridge
import EverythingImu.Wii.Lockstep
import EverythingImu.Wii.Overlap
import EverythingImu.Wii.Framing
import EverythingImu.Hopx.RecordParser
import EverythingImu.Hopx.Records
import EverythingImu.OscHaptics.Mapping
import EverythingImu.OscHaptics.Addresses
import EverythingImu.OscHaptics.Listener
import EverythingImu.OscHaptics.Bridge
import EverythingImu.OscHaptics.Motors
import EverythingImu.OscHaptics.RateLimit
import EverythingImu.OscHaptics.Delivery
import EverythingImu.OscHaptics.Silence
import EverythingImu.OscHaptics.Timers
import EverythingImu.OscHaptics.Sniffer
import EverythingImu.SlimeTracker.Client
import EverythingImu.SlimeTracker.Bundle
import EverythingImu.SlimeTracker.ServerBound
import EverythingImu.SlimeTracker.Sends
import EverythingImu.SlimeTracker.HandshakeEvents
import EverythingImu.SlimeTracker.Senders
import EverythingImu.SlimeTracker.BundleChoice
import EverythingImu.SlimeTracker.SequenceOrder
import EverythingImu.SlimeTracker.SentCount
import EverythingImu.SlimeTracker.Decode
import EverythingImu.SlimeTracker.Codec
import EverythingImu.Remote.Protocol
import EverythingImu.Remote.Grammar
import EverythingImu.Remote.Device
import EverythingImu.Remote.Hub
import EverythingImu.Remote.PeerCells
import EverythingImu.Remote.Announcements
import EverythingImu.Remote.Screening
import EverythingImu.Remote.LossStats
import EverythingImu.Core.PipelineConfig
import EverythingImu.Core.LiveConfig
import EverythingImu.Core.Settings
import EverythingImu.Core.MagCal
import EverythingImu.Core.RateCal
import EverythingImu.Core.ExactTimestep
import EverythingImu.Core.RateConvergence
import EverythingImu.Core.Orientation
import EverythingImu.Core.Pipeline
import EverythingImu.Core.Tilt
import EverythingImu.ImuMath.SphereFit
import EverythingImu.ImuMath.Wizard
import EverythingImu.Fusion.Vqf
import EverythingImu.Fusion.Parts
import EverythingImu.Fusion.LowPass
import EverythingImu.Fusion.Heading
import EverythingImu.Fusion.Inclination
import EverythingImu.Fusion.BiasCovariance
import EverythingImu.Fusion.RestTime
import EverythingImu.Fusion.Madgwick
import EverythingImu.Core.PipelineRun
import EverythingImu.Core.FilterImpl
import EverythingImu.Core.BiasSession
import EverythingImu.Core.Handshake
import EverythingImu.Core.AppState
import EverythingImu.Core.Registry
import EverythingImu.Core.EventStream
import EverythingImu.Core.HeldHandles
import EverythingImu.Core.Supervisor
import EverythingImu.Core.Control
import EverythingImu.Core.UniqueMac
import EverythingImu.Core.Latency
import EverythingImu.Devices.Sony
import EverythingImu.Devices.SonyFeature
import EverythingImu.Devices.PsMoveReport
import EverythingImu.Devices.PsMoveCalibration
import EverythingImu.Devices.PsMoveBlocks
import EverythingImu.Devices.SonyOutput
import EverythingImu.Devices.Steam
import EverythingImu.Devices.Forwarded
import EverythingImu.Devices.TeslaHeading
import EverythingImu.Devices.TeslaStream
import EverythingImu.Devices.TeslaFrames
import EverythingImu.Devices.Backend
import EverythingImu.Devices.HostClock
import EverythingImu.Devices.MovingCounter
import EverythingImu.Devices.ResetButton
import EverythingImu.Devices.SonyTransport
import EverythingImu.Devices.ChipClock
import EverythingImu.App.PerDeviceSettings
import EverythingImu.App.HapticConfig
import EverythingImu.App.MacText
import EverythingImu.App.UdpHapticTargets
import EverythingImu.Library.Fnv
import EverythingImu.Devices.StableMac
import EverythingImu.Library.PresenceScan
import EverythingImu.Library.ReaderThread
import EverythingImu.Library.Dialogue
import EverythingImu.Devices.HidScan
import EverythingImu.Library.Forwarder
import EverythingImu.Devices.UdpForwarders
import EverythingImu.Devices.PsMoveOutput
import EverythingImu.Devices.HidReaders
import EverythingImu.Joycon.JoyCon2Link
import EverythingImu.Joycon.JoyCon1Link
import EverythingImu.Devices.TeslaSession
import EverythingImu.Devices.TeslaRuns
import EverythingImu.App.RegisterSettings
import EverythingImu.App.SteamBlacklist
