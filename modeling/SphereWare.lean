import SphereWare.Properties.Press
import SphereWare.Properties.Thresholds
import SphereWare.Properties.Bias
import SphereWare.Properties.PadReport
import SphereWare.Properties.Alignment
import SphereWare.Properties.Dials
import SphereWare.Properties.MidiIn
import SphereWare.Properties.Acknowledge
import SphereWare.Properties.Received
import SphereWare.Properties.Masking
import SphereWare.Properties.Buttons
import SphereWare.Properties.Encoder
import SphereWare.Properties.SerialMidi
import SphereWare.Properties.Recalibration
import SphereWare.Properties.StandbyMode
import SphereWare.Properties.ClockSources
import SphereWare.Properties.BootloaderFlash
import SphereWare.Properties.PressureColour
import SphereWare.Properties.LedFrames
import SphereWare.Properties.LedOff
import SphereWare.Properties.ColourBudget
import SphereWare.Properties.StaticColour
import SphereWare.Properties.BeatFade
import SphereWare.Properties.Velocity
import SphereWare.Properties.Clearing
import SphereWare.Properties.ReportBounds
import SphereWare.Properties.CalibratedOrder
import SphereWare.Properties.StickyTimeout
import SphereWare.Properties.HexImage
import SphereWare.Properties.Programming
import SphereWare.Properties.Pins
import SphereWare.Properties.Conversions
import SphereWare.Properties.EliteSlots
import SphereWare.Properties.HexBounds
import SphereWare.Properties.LoaderRun
import SphereWare.Properties.Update
import SphereWare.Properties.Resets
import SphereWare.Properties.Restart
import SphereWare.Properties.ControlRead
import SphereWare.Properties.StreamRead
import SphereWare.Properties.StreamWrite
import SphereWare.Properties.HostOrders
import SphereWare.Properties.Touch
import SphereWare.Properties.Snapshots
import SphereWare.Properties.SingleEnded
