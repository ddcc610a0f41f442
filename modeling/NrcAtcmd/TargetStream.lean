import NrcAtcmd.HostRecv
import NrcAtcmd.Lib.Frames

/-!
# What the target writes on the interface

The messages as `atcmd_core.c` and the event handlers print them, and the payload that follows a
`+RXD` line. `strerror` is the one of the C library.

What the host should be told of a message is what was printed. A message the host has no call for
is told as `none`, which no call is.
-/

namespace NrcAtcmd

open Decimal

/-! ## Texts -/

/-- The parameters with commas between them. -/
def params : List Bytes → Bytes
  | [] => []
  | p :: ps => p ++ ps.flatMap (44 :: ·)

/-- The events of the Wi-Fi handlers in `atcmd_wifi.c`. -/
inductive WifiEvent where
  | connectSuccess (bssid ssid security : Bytes)
  | disconnect (bssid ssid security : Bytes)
  | staConnect (macaddr : Bytes)
  | staDisconnect (macaddr : Bytes) (ip4addr : Option Bytes)
  | dhcpRelease
  | dhcpRenew (ip4addr netmask gateway : Bytes) (leaseTime : ℤ)
  | dhcpStart
  | dhcpBusy
  | dhcpTimeout (sec : ℕ)
  | dhcpStop
  | dhcpFail
  | dhcpSuccess (ip4addr netmask gateway : Bytes) (leaseTime : ℤ)
  | fotaVersion (sdk atcmd : Bytes)
  | fota (e : FotaEvent)
  | deepsleepWakeup
  | wpsSuccess
  | wpsTimeout
  | wpsFail
  deriving DecidableEq, Repr

/-- An event of the target. -/
inductive TargetEvent where
  | basic (e : BasicEvent)
  | wifi (e : WifiEvent)
  | socket (e : SocketEvent)
  deriving DecidableEq, Repr

/-- `_atcmd_basic_event_handler`: the name of the event and its parameters. -/
def atcmdBasicEventHandler_ : BasicEvent → String × List Bytes
  | .fwbindlIdle len cnt => ("FWBINDL_IDLE", [ofNat len, ofNat cnt])
  | .fwbindlDrop len => ("FWBINDL_DROP", [ofNat len.toNat])
  | .fwbindlFail len => ("FWBINDL_FAIL", [ofNat len])
  | .fwbindlDone len => ("FWBINDL_DONE", [ofNat len.toNat])
  | .sfuserIdle offset len cnt => ("SFUSER_IDLE", [ofNat offset, ofNat len, ofNat cnt])
  | .sfuserDrop offset len => ("SFUSER_DROP", [ofNat offset, ofNat len.toNat])
  | .sfuserFail offset len => ("SFUSER_FAIL", [ofNat offset, ofNat len])
  | .sfuserDone offset len => ("SFUSER_DONE", [ofNat offset, ofNat len.toNat])

/-- `_atcmd_wifi_fota_event_callback`, for the events of an update. -/
def atcmdWifiFotaEventCallback_ : FotaEvent → String × List Bytes
  | .binary name => ("FOTA_BINARY", [quoted name])
  | .download total cnt => ("FOTA_DOWNLOAD", [ofNat total.toNat, ofNat cnt.toNat])
  | .update .. => ("FOTA_UPDATE", [])
  | .fail => ("FOTA_FAIL", [])

/-- The handlers of the Wi-Fi events. -/
def atcmdWifiEvent : WifiEvent → String × List Bytes
  | .connectSuccess bssid ssid security =>
    ("CONNECT_SUCCESS", [quoted bssid, quoted ssid, quoted security])
  | .disconnect bssid ssid security => ("DISCONNECT", [quoted bssid, quoted ssid, quoted security])
  | .staConnect macaddr => ("STA_CONNECT", [quoted macaddr])
  | .staDisconnect macaddr ip4addr =>
    ("STA_DISCONNECT", quoted macaddr :: (ip4addr.map quoted).toList)
  | .dhcpRelease => ("DHCP_RELEASE", [])
  | .dhcpRenew ip4addr netmask gateway leaseTime =>
    ("DHCP_RENEW", [quoted ip4addr, quoted netmask, quoted gateway, ofInt leaseTime])
  | .dhcpStart => ("DHCP_START", [])
  | .dhcpBusy => ("DHCP_BUSY", [])
  | .dhcpTimeout sec => ("DHCP_TIMEOUT", [ofNat sec])
  | .dhcpStop => ("DHCP_STOP", [])
  | .dhcpFail => ("DHCP_FAIL", [])
  | .dhcpSuccess ip4addr netmask gateway leaseTime =>
    ("DHCP_SUCCESS", [quoted ip4addr, quoted netmask, quoted gateway, ofInt leaseTime])
  | .fotaVersion sdk atcmd => ("FOTA_VERSION", [quoted sdk, quoted atcmd])
  | .fota e => atcmdWifiFotaEventCallback_ e
  | .deepsleepWakeup => ("DEEPSLEEP_WAKEUP", [])
  | .wpsSuccess => ("WPS_SUCCESS", [])
  | .wpsTimeout => ("WPS_TIMEOUT", [])
  | .wpsFail => ("WPS_FAIL", [])

section Strerror

variable (strerror : ℤ → Bytes)

def atcmdSocketEventHandler_ : SocketEvent → String × List Bytes
  | .connect id remoteAddr remotePort localPort =>
    ("CONNECT", [ofInt id, quoted remoteAddr, ofNat remotePort, ofNat localPort])
  | .close id err => ("CLOSE", [ofInt id, ofInt (-err), quoted (strerror (-err))])
  | .sendDone id done => ("SEND_DONE", [ofInt id, ofNat done.toNat])
  | .sendIdle id done drop wait =>
    ("SEND_IDLE", [ofInt id, ofNat done.toNat, ofNat drop.toNat, ofNat wait])
  | .sendDrop id drop => ("SEND_DROP", [ofInt id, ofNat drop.toNat])
  | .sendExit id done drop => ("SEND_EXIT", [ofInt id, ofNat done.toNat, ofNat drop.toNat])
  | .sendError id err => ("SEND_ERROR", [ofInt id, ofInt (-err), quoted (strerror (-err))])
  | .recvReady id len => ("RECV_READY", [ofInt id, ofInt len])
  | .recvError id err => ("RECV_ERROR", [ofInt id, ofInt (-err), quoted (strerror (-err))])

namespace TargetEvent

/-- What the macro of the event begins its line with. -/
def head : TargetEvent → String
  | basic _ => "BEVENT:"
  | wifi _ => "WEVENT:"
  | socket _ => "SEVENT:"

def print : TargetEvent → String × List Bytes
  | basic e => atcmdBasicEventHandler_ e
  | wifi e => atcmdWifiEvent e
  | socket e => atcmdSocketEventHandler_ strerror e

/-- The line between `+` and CR LF. -/
def text (e : TargetEvent) : Bytes :=
  bytes e.head ++ params (quoted (bytes (e.print strerror).1) :: (e.print strerror).2)

end TargetEvent

/-! ## Messages -/

/-- What `ipaddr_ntoa` may write. -/
def IsAddr (addr : Bytes) : Prop :=
  addr ≠ [] ∧ addr.length ≤ 45 ∧
    ∀ b ∈ addr, 48 ≤ b ∧ b ≤ 58 ∨ 65 ≤ b ∧ b ≤ 70 ∨ 97 ≤ b ∧ b ≤ 102 ∨ b = 46

/-- A `+RXD` line but for the length. The remote address is that of `ipaddr_ntoa`, and printed in
verbose mode only. -/
inductive TargetRxd where
  | socket (id : ℕ) (remote : Option (Bytes × ℕ))
  | sfuser (offset : ℕ)
  | sfsysuser (offset : ℕ)
  deriving DecidableEq, Repr

namespace TargetRxd

def head : TargetRxd → String
  | socket .. => "RXD:"
  | sfuser _ => "RXD_SFUSER:"
  | sfsysuser _ => "RXD_SFSYSUSER:"

/-- The parameters of `_atcmd_socket_recv_data`, and of the reads in `atcmd_basic.c`. -/
def print (length : ℕ) : TargetRxd → List Bytes
  | socket id none => [ofNat id, ofNat length]
  | socket id (some (addr, port)) => [ofNat id, ofNat length, quoted addr, ofNat port]
  | sfuser offset | sfsysuser offset => [ofNat offset, ofNat length]

def text (r : TargetRxd) (length : ℕ) : Bytes := bytes r.head ++ params (r.print length)

/-- What the host should take it for. -/
def rxd (length : ℕ) : TargetRxd → AtcmdRxd
  | socket id none => .socket length id (bytes "0.0.0.0") 0 false
  | socket id (some (addr, port)) => .socket length id (quoted addr) port true
  | sfuser offset => .sfuser length offset
  | sfsysuser offset => .sfsysuser length offset

/-- The numbers are those of an `int`, and of a port. -/
def Sent : TargetRxd → Prop
  | socket id remote => id < 2 ^ 31 ∧ ∀ r ∈ remote, IsAddr r.1 ∧ r.2 < 2 ^ 16
  | sfuser offset | sfsysuser offset => offset < 2 ^ 31

/-- The address still has 45 characters or less with its quotes. -/
def AddrFits : TargetRxd → Prop
  | socket _ remote => ∀ r ∈ remote, r.1.length ≤ 43
  | _ => True

end TargetRxd

/-- A message of the target. -/
inductive TargetMsg where
  | ok
  | error
  | info (cmd : Bytes) (ps : List Bytes)
  | event (e : TargetEvent)
  | rxd (r : TargetRxd) (data : Bytes)
  deriving DecidableEq, Repr

/-- `atcmd_msg_vsnprint`, into a buffer with room for the line. -/
def atcmdMsgVsnprint (text : Bytes) : Bytes := bytes "+" ++ text ++ bytes "\r\n"

namespace TargetMsg

/-- The bytes on the interface. -/
def wire : TargetMsg → Bytes
  | ok => bytes "OK\r\n"
  | error => bytes "ERROR\r\n"
  | info cmd ps => atcmdMsgVsnprint (cmd ++ bytes ":" ++ params ps)
  | event e => atcmdMsgVsnprint (e.text strerror)
  | rxd r data => atcmdMsgVsnprint (r.text data.length) ++ data

/-- What the host should be told. A wake-up also ends the wait for a return. -/
def calls : TargetMsg → List (Option HostCall)
  | ok => [some (.ret .ok)]
  | error => [some (.ret .error)]
  | info cmd ps => [some (.info cmd ps.length ps)]
  | event e =>
    let (name, ps) := e.print strerror
    match AtcmdEvent.ofName (bytes name) with
    | none => [none]
    | some .deepsleepWakeup =>
      [some (.ret .none), some (.event .deepsleepWakeup ps.length ps)]
    | some e => [some (.event e ps.length ps)]
  | rxd r data => [some (.rxd (r.rxd data.length) data)]

/-- The name of a command of the target, none of which is called as an event is. -/
def IsCommand (cmd : Bytes) : Prop :=
  (∀ b ∈ cmd, 48 ≤ b ∧ b ≤ 57 ∨ 65 ≤ b ∧ b ≤ 90) ∧
    cmd ∉ [bytes "BEVENT", bytes "WEVENT", bytes "SEVENT", bytes "RXD"]

instance : DecidablePred IsCommand := fun _ => by
  unfold IsCommand
  exact @instDecidableAnd _ _ (List.decidableBAll _ _) inferInstance

/-- The text of a line fits a buffer of 128 bytes with what is around it, its terminator too. -/
def TextFits (text : Bytes) : Prop := (atcmdMsgVsnprint text).length < 128

/-- The target can send the message: `%s` prints no NUL, and `%d` numbers of an `int`. -/
def Sent : TargetMsg → Prop
  | ok | error => True
  | info cmd ps => IsCommand cmd ∧ ps ≠ [] ∧ 0 ∉ params ps ∧
      TextFits (cmd ++ bytes ":" ++ params ps)
  | event e => 0 ∉ e.text strerror ∧ TextFits (e.text strerror)
  | rxd r data => r.Sent ∧ data.length ≤ 4096 ∧ TextFits (r.text data.length)

/-- No parameter has a comma or an end of line in it. -/
def Plain (ps : List Bytes) : Prop := ∀ p ∈ ps, 44 ∉ p ∧ ¬ [13, 10] <:+: p

/-- The host takes the message for what it is: information on no boot, with ten parameters or less;
an event the host has a name for; a payload that is not empty, from an address that fits. -/
def Clear : TargetMsg → Prop
  | ok | error => True
  | info cmd ps => cmd ≠ bytes "BOOT" ∧ ps.length ≤ 10 ∧ Plain ps
  | event e => (AtcmdEvent.ofName (bytes (e.print strerror).1)).isSome ∧
      Plain (e.print strerror).2
  | rxd r data => data ≠ [] ∧ r.AddrFits

end TargetMsg

end Strerror

/-- What the host was told so far. -/
def HostRecv.told (s : HostRecv) : List (Option HostCall) := s.calls.map some

end NrcAtcmd
