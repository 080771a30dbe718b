import NixieTracker.ShiftRegister.Transmission
import NixieTracker.Nixie.Streaming
import NixieTracker.Https.Completion
import NixieTracker.Util.UrlPort
import NixieTracker.Https.Independence
import NixieTracker.Https.Sockets
import NixieTracker.Nixie.Wiring
import NixieTracker.Nixie.Latch
import NixieTracker.Rtc.FollowUp
import NixieTracker.Rtc.StagingSafe
import NixieTracker.Rtc.DateTime
import NixieTracker.App.Listeners
import NixieTracker.App.Fetch
import NixieTracker.App.Display
import NixieTracker.Https.Scheme
import NixieTracker.Https.Resource
import NixieTracker.Lib.Checked
import NixieTracker.Nixie.Bounds
import NixieTracker.Util.UrlPath
import NixieTracker.Util.UrlOutputs
import NixieTracker.App.DateCommand
import NixieTracker.Https.Lookups
import NixieTracker.App.Periodic
import NixieTracker.Lib.Switch
import NixieTracker.Network.Tasks
import NixieTracker.Network.Modules
import NixieTracker.Network.Failure
import NixieTracker.Network.Reconnection
import NixieTracker.Nixie.Configurations
import NixieTracker.Util.UrlReads
import NixieTracker.App.RtcReports
import NixieTracker.App.Unlock
import NixieTracker.App.Arguments
import NixieTracker.App.ArgumentsRun
import NixieTracker.App.ArgumentsUsed
import NixieTracker.Spi.Progress
import NixieTracker.Spi.Interrupt
import NixieTracker.Usb.HidRuns
import NixieTracker.App.Progress
import NixieTracker.App.ClockProgress
