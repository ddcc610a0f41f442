import NrcAtcmd.Proofs.CommandBuffer
import NrcAtcmd.Proofs.CommandLine
import NrcAtcmd.Proofs.CommandLink
import NrcAtcmd.Proofs.CommandParse
import NrcAtcmd.Proofs.CommandRegistry
import NrcAtcmd.Proofs.DataBuffer
import NrcAtcmd.Proofs.ExitCommand
import NrcAtcmd.Proofs.Firmware
import NrcAtcmd.Proofs.FirmwareDownload
import NrcAtcmd.Proofs.FirmwareImage
import NrcAtcmd.Proofs.FotaInfo
import NrcAtcmd.Proofs.FotaTask
import NrcAtcmd.Proofs.FotaTransaction
import NrcAtcmd.Proofs.Hif
import NrcAtcmd.Proofs.HostParams
import NrcAtcmd.Proofs.HostReturn
import NrcAtcmd.Proofs.HostScript
import NrcAtcmd.Proofs.HspiHost
import NrcAtcmd.Proofs.HspiLink
import NrcAtcmd.Proofs.HspiRx
import NrcAtcmd.Proofs.HspiTx
import NrcAtcmd.Proofs.HttpGet
import NrcAtcmd.Proofs.HttpUrl
import NrcAtcmd.Proofs.IdleTimer
import NrcAtcmd.Proofs.Iperf
import NrcAtcmd.Proofs.LongLine
import NrcAtcmd.Proofs.MsgPrint
import NrcAtcmd.Proofs.MulticastGroups
import NrcAtcmd.Proofs.ParamStore
import NrcAtcmd.Proofs.Ping
import NrcAtcmd.Proofs.ScanFreq
import NrcAtcmd.Proofs.SendAtomic
import NrcAtcmd.Proofs.SendExit
import NrcAtcmd.Proofs.SendRequest
import NrcAtcmd.Proofs.SfUser
import NrcAtcmd.Proofs.SocketArgv
import NrcAtcmd.Proofs.SocketCommand
import NrcAtcmd.Proofs.SocketRecv
import NrcAtcmd.Proofs.SocketRegistry
import NrcAtcmd.Proofs.SocketSend
import NrcAtcmd.Proofs.SoftAp
import NrcAtcmd.Proofs.TargetStream
import NrcAtcmd.Proofs.UartCalls
import NrcAtcmd.Proofs.UartRing
import NrcAtcmd.Proofs.WifiConnect
import NrcAtcmd.Proofs.WifiRefines
