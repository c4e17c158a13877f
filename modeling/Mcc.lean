import Mcc.TimerWheel
import Mcc.LostWakeup
import Mcc.Reliability
import Mcc.Rejection
import Mcc.ResetFlag
import Mcc.Shutdown
import Mcc.EpollInterest
import Mcc.ConnectionOutput
import Mcc.BurstSchedule
import Mcc.Completion
import Mcc.ControlChannel
import Mcc.Population
import Mcc.ReadInterest
import Mcc.Reporting
import Mcc.TransmitPath
import Mcc.Workload
import Mcc.FailedConnect
import Mcc.ListenerTable
import Mcc.RttEstimator
import Mcc.OptionBytes
import Mcc.StateMachine
import Mcc.AckList
import Mcc.PeerParameters
import Mcc.SendFifo
import Mcc.SendList
import Mcc.TcpChecksum
import Mcc.TimerScan
import Mcc.LoadClient
import Mcc.LocalAddress
import Mcc.PrecisionSchedule
import Mcc.PacketChoice
import Mcc.Percentile
import Mcc.DelayList
import Mcc.GeneratorTransmit
import Mcc.SendBufferPool
