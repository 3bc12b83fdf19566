import AmlogicHal.Boot.Bounds
import AmlogicHal.Boot.Failures
import AmlogicHal.Boot.Checksum
import AmlogicHal.Cec.Hotplug
import AmlogicHal.Cec.QueueOrder
import AmlogicHal.Cec.RoundTrip
import AmlogicHal.Cec.Activeness
import AmlogicHal.PerfMgr.NonInterference
import AmlogicHal.PerfMgr.EndTime
import AmlogicHal.PerfMgr.FailedWrites
import AmlogicHal.DispPower.Coverage
import AmlogicHal.DispPower.Exit
import AmlogicHal.Keymint.Transport
import AmlogicHal.Keymint.Cursor
import AmlogicHal.Keymint.Chunks
import AmlogicHal.Keymint.Handle
import AmlogicHal.Keymint.Connection
import AmlogicHal.Gatekeeper.Device
import AmlogicHal.Thermal.Thresholds
import AmlogicHal.Thermal.Callbacks
import AmlogicHal.Thermal.Uevent
import AmlogicHal.Media.ConfigBounds
import AmlogicHal.Media.LinkedItems
import AmlogicHal.Media.ThreadTree
import AmlogicHal.Media.Codec
import AmlogicHal.Amadec.MessagePool
import AmlogicHal.Amadec.ControlLoop
import AmlogicHal.Amadec.DtvPatch
import AmlogicHal.Amadec.Spdif
import AmlogicHal.Amadec.BitReader
import AmlogicHal.Amadec.LinearTable
import AmlogicHal.Amadec.MonoToStereo
import AmlogicHal.Amadec.DtshdSource
import AmlogicHal.Amadec.Mp3Frames
import AmlogicHal.Camera.Nv21Resize
import AmlogicHal.Camera.PlaneLayout
import AmlogicHal.Usb.Gadget
import AmlogicHal.ScreenSource.Owned
import AmlogicHal.Memtrack.Gpu
import AmlogicHal.Amadec.PackageList
import AmlogicHal.Amadec.ResampleMute
import AmlogicHal.Amadec.ResampleBounds
import AmlogicHal.Amadec.ByteCount
import AmlogicHal.Amadec.ApeSync
import AmlogicHal.Amadec.CodecInit
import AmlogicHal.Amadec.Extradata
import AmlogicHal.Amadec.ThdResync
import AmlogicHal.Amadec.WfdResample
import AmlogicHal.Amadec.MatchTypes
import AmlogicHal.Amadec.FifoRead
import AmlogicHal.Amadec.PacketSources
import AmlogicHal.Amadec.Playback
