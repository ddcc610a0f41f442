import NrcAtcmd.Lib.Machine
import NrcAtcmd.Message

/-!
# The Wi-Fi connection

`_atcmd_wifi_connect` and `_atcmd_wifi_disconnect_run` of `atcmd_wifi.c`, with the callbacks for the
two events of the Wi-Fi stack. The task of the AT commands runs one handler at a time; each
statement of a handler that reads or writes what it shares with the callbacks is a step, and a
callback runs between any two steps.

What the stack answers is an input: whether the network was set up, what `wifi_api_connect` and
`wifi_api_disconnect` return, what `wifi_api_get_ap_info` knows of the access point. The poll mask
has two bits here, which are the only ones these functions use.
-/

namespace NrcAtcmd

inductive WifiCmd where
  | conn
  | disconn
  deriving DecidableEq, Repr

/-- The texts of `atcmd_wifi_connect_t` that its events print. -/
structure WifiAp where
  bssid : Bytes
  ssid : Bytes
  security : Bytes
  deriving DecidableEq, Repr

/-- What the host is told of the connection. -/
inductive WifiMsg where
  | connectSuccess (ap : WifiAp)
  | disconnect (ap : WifiAp)
  | ret (cmd : WifiCmd) (ret : AtcmdError)
  deriving DecidableEq, Repr

/-- Whether the host takes itself for connected after it, where it says so. A command that is refused
as another is under way says nothing. -/
def WifiMsg.status : WifiMsg → Option Bool
  | .connectSuccess _ | .ret .conn .success => some true
  | .disconnect _ | .ret .disconn .success | .ret .conn .timeout | .ret .conn .fail => some false
  | .ret .. => none

/-- The statement a handler is before. -/
inductive WifiPc where
  | idle
  | connBusy
  | connSetup
  | connConnected
  | connConnecting
  | connDisconnecting
  | connPoll
  | connApi
  | connIf
  | connLoop (time : UInt32)
  | connTimeout
  | connCheck
  | connDone
  | failConnected (timeout : Bool)
  | failConnecting (timeout : Bool)
  | failDisconnecting (timeout : Bool)
  | failRemove (timeout : Bool)
  | disconnBusy
  | disconnIf
  | noneConnected
  | noneConnecting
  | noneDisconnecting
  | disconnSet
  | disconnAbort
  | abortConnecting
  | abortPolled
  | disconnPoll
  | disconnApi
  | disconnFail
  | disconnWait
  | disconnLoop (time : UInt32)
  | disconnTimeout
  | disconnEnd
  | endDisconnecting
  | endPolled
  | endDhcp
  | ret (cmd : WifiCmd) (ret : AtcmdError)
  deriving DecidableEq, Repr

/-- `connect` and `event` of `g_atcmd_wifi_info`, the handler that runs with its arguments, and what
the host was told. -/
structure Wifi where
  connecting : Bool
  connected : Bool
  disconnecting : Bool
  recovery : Bool
  ap : WifiAp
  password : Bytes
  pollConnect : Bool
  pollDisconnect : Bool
  pc : WifiPc
  eventPoll : Bool
  timeoutMsec : UInt32
  newPassword : Bytes
  out : List WifiMsg
  deriving DecidableEq, Repr

/-- `ATCMD_WIFI_INIT_BSSID`, `ATCMD_WIFI_INIT_SSID` and `ATCMD_WIFI_INIT_SECURITY`. -/
def wifiInitAp : WifiAp where
  bssid := bytes "00:00:00:00:00:00"
  ssid := bytes "halow"
  security := bytes "open"

def Wifi.boot : Wifi where
  connecting := false
  connected := false
  disconnecting := false
  recovery := false
  ap := wifiInitAp
  password := []
  pollConnect := false
  pollDisconnect := false
  pc := .idle
  eventPoll := false
  timeoutMsec := 0
  newPassword := []
  out := []

def atcmdWifiConnecting_ (s : Wifi) : Bool := s.connecting && !s.connected && !s.disconnecting

def atcmdWifiConnected_ (s : Wifi) : Bool := !s.connecting && s.connected && !s.disconnecting

def atcmdWifiDisconnecting_ (s : Wifi) : Bool := !s.connecting && s.connected && s.disconnecting

def atcmdWifiDisconnected_ (s : Wifi) : Bool := !s.connecting && !s.connected && !s.disconnecting

/-- `_atcmd_wifi_event_connect_success`, with what `wifi_api_get_ap_info` has. -/
def atcmdWifiEventConnectSuccess_ (info : Option WifiAp) (s : Wifi) : Wifi :=
  let event := !(atcmdWifiConnecting_ s && !s.pollConnect)
  let s := if atcmdWifiConnecting_ s then { s with pollConnect := false } else s
  let s := { s with
    recovery := false, connected := true, connecting := false, disconnecting := false
    ap := info.getD s.ap }
  if event then { s with out := s.out ++ [.connectSuccess s.ap] } else s

def atcmdWifiEventDisconnect_ (s : Wifi) : Wifi :=
  let silent := atcmdWifiDisconnected_ s || atcmdWifiConnecting_ s
  let event := !(silent || atcmdWifiDisconnecting_ s && !s.pollDisconnect)
  let s := if !silent && atcmdWifiDisconnecting_ s then { s with pollDisconnect := false } else s
  let s := if s.connected || s.disconnecting then
      { s with connected := false, connecting := false, disconnecting := false }
    else s
  let s := if event then { s with out := s.out ++ [.disconnect s.ap] } else s
  if s.recovery then { s with recovery := false, ap := wifiInitAp, password := [] } else s

/-- What happens next: a command, the next statement of its handler, with what the stack answers in
it, or an event of the stack. -/
inductive WifiInput where
  | conn (password : Bytes) (eventPoll : Bool) (timeoutMsec : UInt32)
  | disconn (eventPoll : Bool) (timeoutMsec : UInt32)
  | next
  | setup (ok : Bool)
  | api (ret : ℤ)
  | eventConnectSuccess (info : Option WifiAp)
  | eventDisconnect
  deriving DecidableEq, Repr

/-- The statements of `_atcmd_wifi_connect` and `_atcmd_wifi_disconnect_run` the stack has no part
in, and the return to the host after them. -/
def wifiNext (s : Wifi) : Option Wifi :=
  match s.pc with
  | .connBusy =>
    some { s with pc := if s.connecting || s.connected then .ret .conn .busy else .connSetup }
  | .connConnected => some { s with connected := false, pc := .connConnecting }
  | .connConnecting => some { s with connecting := true, pc := .connDisconnecting }
  | .connDisconnecting => some { s with disconnecting := false, pc := .connPoll }
  | .connPoll => some { s with pollConnect := s.eventPoll, pc := .connApi }
  | .connIf => some { s with pc := if s.connecting then .connLoop 0 else .connCheck }
  | .connLoop time => some { s with
      pc := if !s.connecting then .connCheck
        else if 0 < s.timeoutMsec ∧ s.timeoutMsec ≤ time then .connTimeout
        else .connLoop (time + 100) }
  | .connTimeout => some { s with
      pollConnect := if !s.eventPoll then true else s.pollConnect, pc := .failConnected true }
  | .connCheck => some { s with pc := if !s.connected then .failConnected false else .connDone }
  | .connDone => some { s with password := s.newPassword, pc := .ret .conn .success }
  | .failConnected t => some { s with connected := false, pc := .failConnecting t }
  | .failConnecting t => some { s with connecting := false, pc := .failDisconnecting t }
  | .failDisconnecting t => some { s with disconnecting := false, pc := .failRemove t }
  | .failRemove t => some { s with pc := .ret .conn (if t then .timeout else .fail) }
  | .disconnBusy =>
    some { s with pc := if s.disconnecting then .ret .disconn .busy else .disconnIf }
  | .disconnIf =>
    some { s with pc := if !s.connecting && !s.connected then .noneConnected else .disconnSet }
  | .noneConnected => some { s with connected := false, pc := .noneConnecting }
  | .noneConnecting => some { s with connecting := false, pc := .noneDisconnecting }
  | .noneDisconnecting => some { s with disconnecting := false, pc := .ret .disconn .success }
  | .disconnSet => some { s with disconnecting := true, pc := .disconnAbort }
  | .disconnAbort => some { s with pc := if s.connecting then .abortConnecting else .disconnPoll }
  | .abortConnecting => some { s with connecting := false, pc := .abortPolled }
  | .abortPolled => some { s with pollConnect := false, pc := .disconnPoll }
  | .disconnPoll => some { s with pollDisconnect := s.eventPoll, pc := .disconnApi }
  | .disconnFail => some { s with disconnecting := false, pc := .ret .disconn .fail }
  | .disconnWait =>
    some { s with pc := if s.connecting || s.connected then .disconnLoop 0 else .disconnEnd }
  | .disconnLoop time => some { s with
      pc := if !s.disconnecting then .disconnEnd
        else if 0 < s.timeoutMsec ∧ s.timeoutMsec ≤ time then .disconnTimeout
        else .disconnLoop (time + 100) }
  | .disconnTimeout => some { s with
      pollDisconnect := if !s.eventPoll then true else s.pollDisconnect
      pc := .ret .disconn .timeout }
  | .disconnEnd => some { s with pc := if s.disconnecting then .endDisconnecting else .endDhcp }
  | .endDisconnecting => some { s with disconnecting := false, pc := .endPolled }
  | .endPolled => some { s with pollDisconnect := false, pc := .endDhcp }
  | .endDhcp => some { s with pc := .ret .disconn .success }
  | .ret cmd ret => some { s with out := s.out ++ [.ret cmd ret], pc := .idle }
  | .idle | .connSetup | .connApi | .disconnApi => none

/-- The steps of the handlers and of the stack. -/
def wifiStep (s : Wifi) : WifiInput → Option Wifi
  | .conn password eventPoll timeoutMsec => if s.pc = .idle then
      some { s with
        pc := .connBusy, newPassword := password, eventPoll := eventPoll, timeoutMsec := timeoutMsec }
    else none
  | .disconn eventPoll timeoutMsec => if s.pc = .idle then
      some { s with pc := .disconnBusy, eventPoll := eventPoll, timeoutMsec := timeoutMsec }
    else none
  | .next => wifiNext s
  | .setup ok => if s.pc = .connSetup then
      some { s with pc := if ok then .connConnected else .failConnected false }
    else none
  | .api ret =>
    if s.pc = .connApi then
      some { s with pc := if ret = 0 then .connIf else .failConnected (decide (ret = 1)) }
    else if s.pc = .disconnApi then
      some { s with pc := if ret ≠ 0 then .disconnFail else .disconnWait }
    else none
  | .eventConnectSuccess info => some (atcmdWifiEventConnectSuccess_ info s)
  | .eventDisconnect => some (atcmdWifiEventDisconnect_ s)

/-- What the host was told last. It is not connected to begin with. -/
def toldStatus (out : List WifiMsg) : Bool := ((out.filterMap WifiMsg.status).getLast?).getD false

/-- The flags are legal, and between two commands they are as the host was told. -/
structure Wifi.Agrees (s : Wifi) : Prop where
  legal : ¬ (s.connecting = true ∧ s.connected = true)
  told : s.pc = .idle → toldStatus s.out = s.connected

/-- The handler has settled that there is no connection, and the host does not know yet. -/
def WifiPc.settledOff : WifiPc → Bool
  | .failConnecting _ | .failDisconnecting _ | .failRemove _
  | .noneConnecting | .noneDisconnecting
  | .disconnEnd | .endDisconnecting | .endPolled | .endDhcp
  | .ret .conn .timeout | .ret .conn .fail | .ret .disconn .success => true
  | _ => false

/-- The handler has settled that there is a connection, and the host does not know yet. -/
def WifiPc.settledOn : WifiPc → Bool
  | .connDone | .ret .conn .success => true
  | _ => false

def WifiPc.inDisconnLoop : WifiPc → Bool
  | .disconnLoop _ => true
  | _ => false

/-- The step lets a handler and an event pass each other: an event comes after the handler took its
decision on the flags, and before the host hears of it, or the handler does not look at what an
event did while it waited. -/
def WifiCrosses (s : Wifi) : WifiInput → Prop
  | .eventConnectSuccess _ => s.pc.settledOff = true ∨ s.pc = .connConnecting
  | .eventDisconnect => s.pc.settledOn = true
      ∨ (s.pc = .disconnFail ∨ s.pc = .disconnTimeout)
        ∧ atcmdWifiDisconnecting_ s = true ∧ s.pollDisconnect = false
  | .api ret => s.pc = .disconnApi ∧ ret ≠ 0 ∧ s.connected = false ∧ toldStatus s.out = true
  | .next => s.pc.inDisconnLoop = true ∧ s.connected = true ∧ s.disconnecting = false
  | _ => False

instance (s : Wifi) : DecidablePred (WifiCrosses s)
  | .eventConnectSuccess _ | .eventDisconnect | .next | .api _ => by
    unfold WifiCrosses
    infer_instance
  | .conn .. | .disconn .. | .setup _ => isFalse id

end NrcAtcmd
