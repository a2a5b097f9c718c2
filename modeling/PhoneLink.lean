import PhoneLink.CS.Run
import PhoneLink.CS.Rest
import PhoneLink.CS.Simulation
import PhoneLink.CS.Memory
import PhoneLink.CS.Parity
import PhoneLink.CS.CircularBuffer
import PhoneLink.CS.SemQueue
import PhoneLink.CS.Drain
import PhoneLink.CS.Tearing
import PhoneLink.CS.TimedQueue
import PhoneLink.CS.Pieces
import PhoneLink.CS.Trunc
import PhoneLink.CS.FloatArithmetic
import PhoneLink.CS.Rescale
import PhoneLink.CS.Signed
import PhoneLink.CS.Descriptors
import PhoneLink.Protocol.Packet
import PhoneLink.Protocol.Integrity
import PhoneLink.Protocol.MsgDeal
import PhoneLink.Protocol.Lookahead
import PhoneLink.Protocol.Progress
import PhoneLink.Protocol.AckRing
import PhoneLink.Protocol.Requests
import PhoneLink.Protocol.Codec
import PhoneLink.Bluetooth.EventQueue
import PhoneLink.Bluetooth.Overrun
import PhoneLink.Bluetooth.ConnectStatus
import PhoneLink.Hmi.CommandStream
import PhoneLink.Hmi.Overrun
import PhoneLink.Hmi.Reconnect
import PhoneLink.Hmi.TouchQueue
import PhoneLink.Hmi.TouchStream
import PhoneLink.Hmi.Mainapp
import PhoneLink.Hmi.Status
import PhoneLink.Send.System
import PhoneLink.Send.Transmission
import PhoneLink.Send.Acknowledged
import PhoneLink.Send.Calls
import PhoneLink.Send.Phantom
import PhoneLink.Send.Protected
import PhoneLink.Send.Accounting
import PhoneLink.Send.Deadline
import PhoneLink.Send.Rest
import PhoneLink.Send.Atomic
import PhoneLink.Send.Schedule
import PhoneLink.Send.Feedback
import PhoneLink.Touch.Geometry
import PhoneLink.Touch.Pointer
import PhoneLink.Touch.Gesture
import PhoneLink.HeadUnit.Dispatch
import PhoneLink.HeadUnit.Machine
import PhoneLink.HeadUnit.Acknowledgement
import PhoneLink.Send.Answers
import PhoneLink.HeadUnit.Notices
import PhoneLink.HeadUnit.Pointing
import PhoneLink.HeadUnit.Window
import PhoneLink.HeadUnit.Confinement
import PhoneLink.HeadUnit.Wire
import PhoneLink.HeadUnit.Contacts
import PhoneLink.HeadUnit.Following
import PhoneLink.HeadUnit.Relay
import PhoneLink.HeadUnit.Remembered
import PhoneLink.HeadUnit.Program
import PhoneLink.HeadUnit.Delivery
import PhoneLink.HeadUnit.Quiescence
import PhoneLink.HeadUnit.Reach
import PhoneLink.HeadUnit.StartUp
