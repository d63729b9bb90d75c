import FirDemo.AnyDevice
import FirDemo.AxidmaHazards
import FirDemo.AxidmaOutcome
import FirDemo.AxidmaSession
import FirDemo.BurstStream
import FirDemo.ByteLanes
import FirDemo.DriverCalls
import FirDemo.HardwareDemo
import FirDemo.Headroom
import FirDemo.OutputWord
import FirDemo.RampTransfer
import FirDemo.ResetHistory
import FirDemo.StalledOutput
import FirDemo.SteadySink
