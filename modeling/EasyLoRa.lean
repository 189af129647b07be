import EasyLoRa.OverflowSoundness
import EasyLoRa.FrameDelivery
import EasyLoRa.FrameWaiterAtomicity
import EasyLoRa.ReceiveWedge
import EasyLoRa.ReceiveWakeup
import EasyLoRa.StreamOperations
import EasyLoRa.Restart
import EasyLoRa.Sessions
import EasyLoRa.WriteSlots
import EasyLoRa.WriteResolution
import EasyLoRa.Pumps
import EasyLoRa.CloseFinality
import EasyLoRa.StaleCompletions
import EasyLoRa.WriteIdentity
import EasyLoRa.WholeFrames
import EasyLoRa.ExactFraming
import EasyLoRa.CrcRoundTrip
import EasyLoRa.CrcDetection
import EasyLoRa.CrcBufferEffects
import EasyLoRa.StateCoherence
import EasyLoRa.ErrorHandling
import EasyLoRa.ThrowingHandlers
import EasyLoRa.Ownership
import EasyLoRa.AssemblerBounds
import EasyLoRa.ProducerSkips
import EasyLoRa.OversizeFrames
import EasyLoRa.OverflowDiscards
import EasyLoRa.CoreWiring
import EasyLoRa.CoreTransmit
import EasyLoRa.CoreAnswers
import EasyLoRa.AnswerLiveness
import EasyLoRa.Linearizability
import EasyLoRa.ByteAccounting
import EasyLoRa.StepBounds
import EasyLoRa.SessionLog
import EasyLoRa.Shutdown
import EasyLoRa.ReceivedBytes
import EasyLoRa.UartInterrupt
