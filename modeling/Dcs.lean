import Dcs.EncoderShaft
import Dcs.PwmDuty
import Dcs.DriverLock
import Dcs.DriverRegistry
import Dcs.DriverFiles
import Dcs.DriverInit
import Dcs.DriverStepCalls
import Dcs.DriverAttrs
import Dcs.Handlers
import Dcs.PwmSafe
import Dcs.PwmWidths
import Dcs.Resets
import Dcs.EscWords
import Dcs.PidPosition
import Dcs.PwmPins
import Dcs.PinsRace
import Dcs.Isolation
import Dcs.ReadSessions
import Dcs.PidScaling
import Dcs.EncoderText
import Dcs.ReadContract
import Dcs.EncoderDirection
import Dcs.AxiMemory
import Dcs.DeviceLocks
import Dcs.EncoderRipple
import Dcs.MailboxDeaf
import Dcs.EsmFaults
