import CyclotronPico.ModbusServer
import CyclotronPico.Reception
import CyclotronPico.SubstituteSupply
import CyclotronPico.Supply200A
import CyclotronPico.Requests
import CyclotronPico.Answers
import CyclotronPico.ServerAnswers
import CyclotronPico.Responses
import CyclotronPico.Polls
import CyclotronPico.SupplyCycle
import CyclotronPico.Handling
import CyclotronPico.Latch
import CyclotronPico.SetPoints
import CyclotronPico.ReadRegisters
import CyclotronPico.WriteFrames
import CyclotronPico.Bounds
import CyclotronPico.Isolation
import CyclotronPico.Transmissions
import CyclotronPico.Refusals
import CyclotronPico.Corruption
import CyclotronPico.CommandFrame
import CyclotronPico.SupplyAgreement
import CyclotronPico.ActivityLed
import CyclotronPico.LinuxController
import CyclotronPico.Orders
import CyclotronPico.Service
import CyclotronPico.Exchanges
import CyclotronPico.Sessions
import CyclotronPico.Progress
import CyclotronPico.CrcErrors
import CyclotronPico.LineErrors
import CyclotronPico.BinaryRounding
import CyclotronPico.Measurement
import CyclotronPico.FileRecords
import CyclotronPico.Retries
import CyclotronPico.WriteEncoding
import CyclotronPico.SupplyService
import CyclotronPico.RemoteControl
import CyclotronPico.ServerAgreement
import CyclotronPico.Resynchronisation
import CyclotronPico.Endings
import CyclotronPico.Diagnostics
import CyclotronPico.LinuxWrites
import CyclotronPico.Construction
import CyclotronPico.Overhearing
