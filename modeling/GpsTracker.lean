import GpsTracker.Stream.Transducer
import GpsTracker.Stream.Framer
import GpsTracker.Gps.StateMachine
import GpsTracker.Gps.Framing
import GpsTracker.Gps.Publication
import GpsTracker.Memory.LittleEndian
import GpsTracker.Memory.StructLayout
import GpsTracker.Gps.NavPvt
import GpsTracker.Bus.Program
import GpsTracker.Lora.Chip
import GpsTracker.Lora.Driver
import GpsTracker.Lora.Reception
import GpsTracker.Lora.Transmission
import GpsTracker.Lora.Setup
import GpsTracker.Lora.Link
import GpsTracker.Lora.Receiver
import GpsTracker.App.Packet
import GpsTracker.App.Clients
import GpsTracker.App.ReceiveLoop
import GpsTracker.Clock.Wrapping
import GpsTracker.Clock.CycleCounter
import GpsTracker.Stream.Matcher
import GpsTracker.Gps.Detection
import GpsTracker.Calendar.Gregorian
import GpsTracker.Gps.LocalTime
import GpsTracker.Bits.MaskedWrite
import GpsTracker.Lora.Settings
import GpsTracker.Lora.HeaderMode
import GpsTracker.App.Connections
import GpsTracker.Resource.Registry
import GpsTracker.App.ValueListeners
import GpsTracker.Numeric.Quantization
import GpsTracker.Lora.Frequency
import GpsTracker.Text.DecimalScan
import GpsTracker.Text.Occurrence
import GpsTracker.Ota.Upload
import GpsTracker.Ota.Server
import GpsTracker.Wire.Fletcher
import GpsTracker.Wire.PrefixCode
import GpsTracker.Gps.UbxFrame
import GpsTracker.Gps.Configuration
import GpsTracker.Text.Hexadecimal
import GpsTracker.Ble.Uuid
import GpsTracker.Ble.Value
import GpsTracker.Stream.Since
import GpsTracker.Ble.Server
import GpsTracker.Stream.Replay
import GpsTracker.App.Sampling
import GpsTracker.App.Telemetry
import GpsTracker.App.Publishing
import GpsTracker.Ble.Service
import GpsTracker.App.Startup
import GpsTracker.App.Session
import GpsTracker.App.Display
