import NrcAtcmd.Param
import NrcAtcmd.WifiConnect

/-!
# The SoftAP and the relay

The handlers of `AT+WSOFTAP` and `AT+WRELAY` of `atcmd_wifi.c`, with the connect and the disconnect a
relay runs. A handler runs to its end in one step here. What the Wi-Fi stack returns, the events it
sends while the handler waits for it, and whether the lock was free within its minute are an
outcome; a wait that is not one of the run is no outcome of it.

The relay is on where `wifi_api` has two interface ids, and `wifi_api_set_if_mode` writes the ids
with the modes of the modem, which is what the assertion of `wifi_api_get_relay_mode` compares.
-/

namespace NrcAtcmd

/-- `CONFIG_ATCMD_WPA3` and `CONFIG_ATCMD_SOFTAP_WPA3`. -/
structure WifiConfig where
  wpa3 : Bool
  softapWpa3 : Bool

/-! ## The events of a connection -/

inductive ConnectionEvent where
  | connectSuccess (info : Option WifiAp)
  | disconnect
  deriving DecidableEq, Repr

def ConnectionEvent.up : ConnectionEvent → Bool
  | .connectSuccess _ => true
  | .disconnect => false

/-- What a connection is left as by the events of the stack. -/
def Wifi.hear (s : Wifi) (es : List ConnectionEvent) : Wifi :=
  es.foldl (fun s e => match e with
    | .connectSuccess info => atcmdWifiEventConnectSuccess_ info s
    | .disconnect => atcmdWifiEventDisconnect_ s) s

/-- `atcmd_wifi_connect_t`. -/
structure WifiConnection where
  recovery : Bool
  connected : Bool
  connecting : Bool
  disconnecting : Bool
  ap : WifiAp
  password : Bytes
  deriving DecidableEq, Repr

def Wifi.connection (s : Wifi) : WifiConnection where
  recovery := s.recovery
  connected := s.connected
  connecting := s.connecting
  disconnecting := s.disconnecting
  ap := s.ap
  password := s.password

/-- What a call of the stack returns, and the events that come by then. -/
structure WifiReply (α : Type) where
  ret : α
  events : List ConnectionEvent
  deriving DecidableEq, Repr

/-- How a handler ends: it returns, or an assertion fails. -/
inductive WifiRun (σ : Type) where
  | returned (ret : AtcmdError) (s : σ)
  | asserted
  deriving DecidableEq, Repr

/-- A loop that waits 100 ms at a time while a flag is set: what is heard in each wait, whether the
time is up, and the connection at the end. -/
def wifiWait (flag : Wifi → Bool) (timeoutMsec : UInt32) :
    List (List ConnectionEvent) → UInt32 → Wifi → Option (Bool × Wifi)
  | [], time, s =>
    if !flag s then some (false, s)
    else if 0 < timeoutMsec ∧ timeoutMsec ≤ time then some (true, s)
    else none
  | es :: waits, time, s =>
    if !flag s then none
    else if 0 < timeoutMsec ∧ timeoutMsec ≤ time then none
    else wifiWait flag timeoutMsec waits (time + 100) (s.hear es)

/-! ## The station -/

/-- Without `CONFIG_ATCMD_WPA3` the names of WPA3 are not known. A short name is written out. -/
def atcmdWifiSecurityValid_ (c : WifiConfig) (security : Bytes) (wpa3 : Bool) : Option Bytes :=
  if security = bytes "open" then some security
  else if security = bytes "wpa2" ∨ security = bytes "psk" then some (bytes "wpa2-psk")
  else if security = bytes "wpa2-psk" then some security
  else if c.wpa3 then
    if !wpa3 then none
    else if security = bytes "owe" then some (bytes "wpa3-owe")
    else if security = bytes "wpa3-owe" then some security
    else if security = bytes "sae" then some (bytes "wpa3-sae")
    else if security = bytes "wpa3-sae" then some security
    else none
  else none

def atcmdWifiPasswordValid_ (password : Bytes) : Bool :=
  decide (8 ≤ password.length) && decide (password.length ≤ 64)

/-- The security, open unless it is given. -/
def securityParam (c : WifiConfig) (wpa3 : Bool) : Option Bytes → Option Bytes
  | some p => (atcmdParamToStr p 9).bind fun s => atcmdWifiSecurityValid_ c s wpa3
  | none => some (bytes "open")

def passwordParam : Option Bytes → Option Bytes
  | some p => (atcmdParamToStr p 65).filter atcmdWifiPasswordValid_
  | none => some []

/-- Whether the byte at `i` of a BSSID may be there. -/
def bssidByte (i : ℕ) (b : UInt8) : Bool :=
  if i % 3 < 2 then
    (decide (48 ≤ b) && decide (b ≤ 57)) || (decide (97 ≤ b) && decide (b ≤ 102))
      || (decide (65 ≤ b) && decide (b ≤ 70))
  else b == 58

def atcmdWifiBssidValid_ (bssid : Bytes) : Bool :=
  decide (bssid.length = 17) && bssid.zipIdx.all fun (b, i) => bssidByte i b

/-- `_atcmd_wifi_connect_valid_ap`, which never looks at the access points of a scan as
`scanned_ap` is set. -/
def atcmdWifiConnectValidAp_ (c : WifiConfig) (ap : WifiAp) : Bool :=
  !(ap.ssid.isEmpty && ap.bssid.isEmpty) && decide (ap.ssid.length ≤ 32)
    && (ap.bssid.isEmpty || decide (ap.bssid.length = 17))
    && (decide (ap.security = bytes "open") || decide (ap.security = bytes "wpa2-psk")
      || c.wpa3 && (decide (ap.security = bytes "wpa3-owe")
        || decide (ap.security = bytes "wpa3-sae")))

/-- The switch of `_atcmd_wifi_connect_set`: the parameters for the SSID, the BSSID, the security and
the password. -/
def connectParams (argv : List Bytes) :
    Option (Bytes × Option Bytes × Option Bytes × Option Bytes) :=
  let isBssid (p : Bytes) : Bool := ((atcmdParamToStr p 18).map atcmdWifiBssidValid_).getD false
  match argv with
  | [ssid] => some (ssid, none, none, none)
  | [ssid, p] => some (if isBssid p then (ssid, some p, none, none) else (ssid, none, some p, none))
  | [ssid, p, q] =>
    some (if isBssid p then (ssid, some p, some q, none) else (ssid, none, some p, some q))
  | [ssid, bssid, security, password] => some (ssid, some bssid, some security, some password)
  | _ => none

/-- The checks of `_atcmd_wifi_connect_set`: the access point, and the password. -/
def connectAp (c : WifiConfig) (argv : List Bytes) : Option (WifiAp × Bytes) := do
  let (ssid, bssid, security, password) ← connectParams argv
  let ssid ← atcmdParamToStr ssid 33
  let (ssid, bssid) ← match bssid with
    | some p => ((atcmdParamToStr p 18).filter atcmdWifiBssidValid_).map fun bssid => (ssid, bssid)
    | none => some (if atcmdWifiBssidValid_ ssid then ([], ssid) else (ssid, []))
  let security ← securityParam c true security
  let password ← passwordParam password
  let ap : WifiAp := { bssid := bssid, ssid := ssid, security := security }
  if atcmdWifiConnectValidAp_ c ap then some (ap, password) else none

/-- What happens to a connect: whether the network is set up, and what `wifi_api_connect` returns.
`remove` is heard while the network of a failed attempt is removed. -/
structure ConnectOutcome where
  timeoutMsec : UInt32
  lock : WifiReply Bool
  setup : WifiReply Bool
  api : WifiReply ℤ
  waits : List (List ConnectionEvent)
  remove : List ConnectionEvent
  deriving DecidableEq, Repr

/-- `wifi_connect_fail`. -/
def connectFail (o : ConnectOutcome) (timeout : Bool) (s : Wifi) : WifiRun Wifi :=
  let s := { s with connected := false, connecting := false, disconnecting := false }
  .returned (if timeout then .timeout else .fail) (s.hear o.remove)

/-- `_atcmd_wifi_connect` for a command that does not poll. The access point goes to the stack. -/
def atcmdWifiConnect_ (password : Bytes) (o : ConnectOutcome) (s : Wifi) :
    Option (WifiRun Wifi) :=
  if s.connecting || s.connected then some (.returned .busy s)
  else if !o.lock.ret then some .asserted
  else
    let s := (s.hear o.lock.events).hear o.setup.events
    if !o.setup.ret then some (connectFail o false s)
    else
      let s := { s with
        connected := false, connecting := true, disconnecting := false, pollConnect := false }
      let s := s.hear o.api.events
      if o.api.ret ≠ 0 then some (connectFail o (decide (o.api.ret = 1)) s)
      else match wifiWait Wifi.connecting o.timeoutMsec o.waits 0 s with
        | none => none
        | some (true, s) => some (connectFail o true { s with pollConnect := true })
        | some (false, s) =>
          some (if !s.connected then connectFail o false s
            else .returned .success { s with password := password })

def atcmdWifiConnectSet_ (c : WifiConfig) (argv : List Bytes) (o : ConnectOutcome) (s : Wifi) :
    Option (WifiRun Wifi) :=
  if argv = [] then some (.returned .success s)
  else match connectAp c argv with
    | none => some (.returned .inval s)
    | some (_, password) => atcmdWifiConnect_ password o s

structure DisconnectOutcome where
  timeoutMsec : UInt32
  lock : WifiReply Bool
  api : WifiReply ℤ
  waits : List (List ConnectionEvent)
  deriving DecidableEq, Repr

/-- The end of `_atcmd_wifi_disconnect_run`, once `wifi_api_disconnect` has returned. -/
def disconnectEnd (o : DisconnectOutcome) (s : Wifi) : Option (WifiRun Wifi) :=
  if o.api.ret ≠ 0 then some (.returned .fail { s with disconnecting := false })
  else
    let wait := if s.connecting || s.connected then
        wifiWait Wifi.disconnecting o.timeoutMsec o.waits 0 s
      else if o.waits = [] then some (false, s) else none
    match wait with
    | none => none
    | some (true, s) => some (.returned .timeout { s with pollDisconnect := true })
    | some (false, s) =>
      some (.returned .success (if s.disconnecting then
        { s with disconnecting := false, pollDisconnect := false } else s))

/-- `_atcmd_wifi_disconnect_run` without an argument. -/
def atcmdWifiDisconnectRun_ (o : DisconnectOutcome) (s : Wifi) : Option (WifiRun Wifi) :=
  if !o.lock.ret then some .asserted
  else
    let s := s.hear o.lock.events
    if s.disconnecting then some (.returned .busy s)
    else if !s.connecting && !s.connected then
      some (.returned .success
        { s with connected := false, connecting := false, disconnecting := false })
    else
      let s := { s with disconnecting := true }
      let s := if s.connecting then { s with connecting := false, pollConnect := false } else s
      disconnectEnd o ({ s with pollDisconnect := false }.hear o.api.events)

/-- A command of the host that does not poll, with what happens to it, or an event between two. -/
inductive WifiCommand where
  | connect (password : Bytes) (o : ConnectOutcome)
  | disconnect (o : DisconnectOutcome)
  | heard (e : ConnectionEvent)
  deriving DecidableEq, Repr

def Wifi.tell (s : Wifi) (m : WifiMsg) : Wifi := { s with out := s.out ++ [m] }

/-- A command runs to its end, and the host is told what it returned. -/
def wifiCommand (s : Wifi) : WifiCommand → Option Wifi
  | .connect password o => (atcmdWifiConnect_ password o s).bind fun res => match res with
    | .returned ret s => some (s.tell (.ret .conn ret))
    | .asserted => none
  | .disconnect o => (atcmdWifiDisconnectRun_ o s).bind fun res => match res with
    | .returned ret s => some (s.tell (.ret .disconn ret))
    | .asserted => none
  | .heard e => some (s.hear [e])

/-! ## The SoftAP -/

/-- `atcmd_wifi_softap_t`. -/
structure AtcmdWifiSoftap where
  active : Bool
  dhcpServer : Bool
  channelBw : UInt16
  channelFreq : UInt16
  maxNumStaSystem : UInt8
  maxNumStaCurrent : UInt8
  bssMaxIdlePeriod : UInt16
  bssMaxIdleRetry : UInt8
  ssidType : ℤ
  ssid : Bytes
  security : Bytes
  password : Bytes
  deriving DecidableEq, Repr

/-- The records of `g_atcmd_wifi_info` that the handlers write, and the interface mode. -/
structure AtcmdWifi where
  wifi : Wifi
  softap : AtcmdWifiSoftap
  relay : Bool
  deriving DecidableEq, Repr

def AtcmdWifi.records (s : AtcmdWifi) : WifiConnection × AtcmdWifiSoftap × Bool :=
  (s.wifi.connection, s.softap, s.relay)

def AtcmdWifi.hear (s : AtcmdWifi) (es : List ConnectionEvent) : AtcmdWifi :=
  { s with wifi := s.wifi.hear es }

/-- What happens to a SoftAP command. `scan` is the frequency of the best channel, `channel` the
channel that was started. The handler looks at the connection once: the events come before or
after. -/
structure SoftapOutcome where
  stop : WifiReply Bool
  maxNumSta : Option UInt8
  lock : Bool
  add : Bool
  scan : Option UInt16
  start : Bool
  channel : Option (UInt16 × UInt16)
  before : List ConnectionEvent
  after : List ConnectionEvent
  deriving DecidableEq, Repr

/-- `_atcmd_wifi_softap_init_info`, with what `wifi_api_get_max_num_sta` has. -/
def atcmdWifiSoftapInitInfo_ (maxNumSta : Option UInt8) (s : AtcmdWifi) : Option AtcmdWifi :=
  maxNumSta.map fun n => { s with softap := {
    active := false, dhcpServer := false, channelBw := 0, channelFreq := 0
    maxNumStaSystem := n, maxNumStaCurrent := n, bssMaxIdlePeriod := 0, bssMaxIdleRetry := 3
    ssidType := 0, ssid := wifiInitAp.ssid, security := wifiInitAp.security, password := [] } }

/-- The records of a device that takes `n` stations, as `atcmd_wifi_init` leaves them. -/
def AtcmdWifi.boot (n : UInt8) : AtcmdWifi where
  wifi := Wifi.boot
  softap := {
    active := false, dhcpServer := false, channelBw := 0, channelFreq := 0
    maxNumStaSystem := n, maxNumStaCurrent := n, bssMaxIdlePeriod := 0, bssMaxIdleRetry := 3
    ssidType := 0, ssid := wifiInitAp.ssid, security := wifiInitAp.security, password := [] }
  relay := false

/-- The SoftAP is started on the channel that was chosen. -/
def softapStart (o : SoftapOutcome) (s : AtcmdWifi) : WifiRun AtcmdWifi :=
  let s := s.hear o.after
  if !o.start then .returned .fail s
  else
    let softap := match o.channel with
      | some (freq, bw) => { s.softap with channelFreq := freq, channelBw := bw }
      | none => s.softap
    .returned .success { s with softap := { softap with active := true } }

def atcmdWifiSoftapRun_ (o : SoftapOutcome) (s : AtcmdWifi) : WifiRun AtcmdWifi :=
  if s.softap.active then .returned .busy s
  else if !o.lock then .asserted
  else
    let s := s.hear o.before
    if !o.add then .returned .fail (s.hear o.after)
    else if s.relay then softapStart o s
    else if s.wifi.connecting || s.wifi.connected then .returned .fail (s.hear o.after)
    else if s.wifi.disconnecting then .returned .fail (s.hear o.after)
    else if s.softap.channelFreq = 0 then
      if s.softap.channelBw = 1 ∨ s.softap.channelBw = 2 ∨ s.softap.channelBw = 4 then
        match o.scan with
        | none => .returned .fail (s.hear o.after)
        | some freq => softapStart o { s with softap := { s.softap with channelFreq := freq } }
      else .asserted
    else softapStart o s

/-- The bandwidth, behind the `@` of the frequency. -/
def bandwidthParam (freq : Bytes) : Option UInt16 :=
  match freq.dropWhile (· ≠ 64) with
  | [] => some 0
  | _ :: p =>
    if atoi p = 1 then some 1 else if atoi p = 2 then some 2
    else if atoi p = 4 then some 4 else none

/-- The frequency, or zero to look for a channel. -/
def frequencyParam (toFreq : Bytes → Option UInt16) (freq : Bytes) : Option UInt16 :=
  if atoi freq = 0 then some 0 else toFreq freq

/-- The parameters of `_atcmd_wifi_softap_set` once checked, in the record. `toFreq` is what
`atcmd_param_to_float` makes of a text, in units of 100 kHz. -/
def softapParams (c : WifiConfig) (toFreq : Bytes → Option UInt16) (freq ssid : Bytes)
    (security password : Option Bytes) (softap : AtcmdWifiSoftap) : Option AtcmdWifiSoftap := do
  let bw ← bandwidthParam freq
  let freq ← frequencyParam toFreq (freq.takeWhile (· ≠ 64))
  let ssid ← atcmdParamToStr ssid 33
  let security ← securityParam c c.softapWpa3 security
  let password ← passwordParam password
  some { softap with
    channelBw := bw, channelFreq := freq, ssid := ssid, security := security
    password := password }

def atcmdWifiSoftapSet_ (c : WifiConfig) (toFreq : Bytes → Option UInt16) (argv : List Bytes)
    (o : SoftapOutcome) (s : AtcmdWifi) : WifiRun AtcmdWifi :=
  match argv with
  | [] => .returned .success s
  | [freq] =>
    if atoi (freq.takeWhile (· ≠ 64)) ≠ 0 then .returned .inval s
    else
      let s := s.hear o.stop.events
      if !o.stop.ret then .returned .fail s
      else match atcmdWifiSoftapInitInfo_ o.maxNumSta s with
        | some s => .returned .success s
        | none => .asserted
  | freq :: ssid :: ps =>
    if 2 < ps.length then .returned .inval s
    else match softapParams c toFreq freq ssid ps[0]? ps[1]? s.softap with
      | none => .returned .inval s
      | some softap => atcmdWifiSoftapRun_ o { s with softap := softap }

/-! ## The relay -/

structure RelayOutcome where
  ndpPreq : Bool
  connect : ConnectOutcome
  softap : SoftapOutcome
  disconnect : DisconnectOutcome
  remove : List ConnectionEvent
  deriving DecidableEq, Repr

/-- The arguments a relay gives `_atcmd_wifi_softap_set` and `_atcmd_wifi_connect_set`. -/
def relayParams (c : WifiConfig) (ap sta : Bytes) (security password : Option Bytes) :
    Option (List Bytes × List Bytes) :=
  let ap := if ap = [] then sta else ap
  match security with
  | none => some ([bytes "0", ap], [sta])
  | some p => do
    let str ← securityParam c c.softapWpa3 (some p)
    if str = bytes "open" then some ([bytes "0", ap], [sta])
    else password.map fun q => ([bytes "0", ap, p, q], [sta, p, q])

/-- The relay goes off. What the functions it calls return is not looked at. -/
def relayDisable (c : WifiConfig) (toFreq : Bytes → Option UInt16) (o : RelayOutcome)
    (s : AtcmdWifi) : Option (WifiRun AtcmdWifi) := do
  match ← atcmdWifiDisconnectRun_ o.disconnect s.wifi with
  | .asserted => some .asserted
  | .returned _ w =>
    match atcmdWifiSoftapSet_ c toFreq [bytes "0"] o.softap { s with wifi := w } with
    | .asserted => some .asserted
    | .returned _ s => some (.returned .success { s.hear o.remove with relay := false })

/-- The station is disconnected again, and the relay goes off, as the SoftAP failed with `ret`. -/
def relayUndo (ret : AtcmdError) (o : RelayOutcome) (s : AtcmdWifi) :
    Option (WifiRun AtcmdWifi) := do
  match ← atcmdWifiDisconnectRun_ o.disconnect s.wifi with
  | .asserted => some .asserted
  | .returned _ w => some (.returned ret { { s with wifi := w }.hear o.remove with relay := false })

/-- The relay goes on: the station connects, and then the SoftAP starts. -/
def relayEnable (c : WifiConfig) (toFreq : Bytes → Option UInt16) (ap sta : List Bytes)
    (o : RelayOutcome) (s : AtcmdWifi) : Option (WifiRun AtcmdWifi) :=
  let s := { s with relay := true }
  if !o.ndpPreq then some (.returned .fail s)
  else do
    match ← atcmdWifiConnectSet_ c sta o.connect s.wifi with
    | .asserted => some .asserted
    | .returned .success w =>
      match atcmdWifiSoftapSet_ c toFreq ap o.softap { s with wifi := w } with
      | .asserted => some .asserted
      | .returned .success s => some (.returned .success s)
      | .returned ret s => relayUndo ret o s
    | .returned ret w => some (.returned ret { s with wifi := w, relay := false })

def atcmdWifiRelaySet_ (c : WifiConfig) (toFreq : Bytes → Option UInt16) (argv : List Bytes)
    (o : RelayOutcome) (s : AtcmdWifi) : Option (WifiRun AtcmdWifi) :=
  match argv with
  | [] => some (.returned .success s)
  | [p] =>
    if atoi p ≠ 0 then some (.returned .inval s)
    else if !s.relay then some (.returned .success s)
    else relayDisable c toFreq o s
  | ap :: sta :: ps =>
    if 2 < ps.length then some (.returned .inval s)
    else if s.relay then some (.returned .busy s)
    else match relayParams c ap sta ps[0]? ps[1]? with
      | none => some (.returned .inval s)
      | some (ap, sta) => relayEnable c toFreq ap sta o s

/-! ## Commands that leave no trace -/

/-- No assertion fails, and an error leaves the records as they were. -/
def WifiRun.Atomic (s : AtcmdWifi) : WifiRun AtcmdWifi → Prop
  | .returned ret s' => ret ≠ .success → s'.records = s.records
  | .asserted => False

/-- Whether the connection is up after the events. -/
def linkAfter (up : Bool) (es : List ConnectionEvent) : Bool := es.foldl (fun _ e => e.up) up

/-- What an event makes of `recovery`, the access point and the password. -/
def ConnectionEvent.settings : Bool × WifiAp × Bytes → ConnectionEvent → Bool × WifiAp × Bytes
  | (_, ap, password), .connectSuccess info => (false, info.getD ap, password)
  | (recovery, ap, password), .disconnect =>
    if recovery then (false, wifiInitAp, []) else (recovery, ap, password)

def Wifi.settings (s : Wifi) : Bool × WifiAp × Bytes := (s.recovery, s.ap, s.password)

def settingsAfter (x : Bool × WifiAp × Bytes) (es : List ConnectionEvent) : Bool × WifiAp × Bytes :=
  es.foldl ConnectionEvent.settings x

/-- What an attempt hears before it is settled. -/
def ConnectOutcome.heard (o : ConnectOutcome) : List ConnectionEvent :=
  o.lock.events ++ (o.setup.events ++ if o.setup.ret then
    o.api.events ++ (if o.api.ret = 0 then o.waits.flatten else []) else [])

/-- The attempt succeeds: the connection is up at the end of the wait. -/
def ConnectOutcome.Connects (o : ConnectOutcome) : Prop :=
  o.setup.ret = true ∧ o.api.ret = 0 ∧ linkAfter false (o.api.events ++ o.waits.flatten) = true

/-- What a disconnect hears, of a connection that is up or is not. -/
def DisconnectOutcome.heard (o : DisconnectOutcome) (up : Bool) : List ConnectionEvent :=
  o.lock.events ++ if linkAfter up o.lock.events then
    o.api.events ++ (if o.api.ret = 0 then o.waits.flatten else []) else []

/-- The SoftAP starts, from a record that is written. -/
def SoftapRuns (o : SoftapOutcome) (s : AtcmdWifi) : Prop :=
  s.softap.active = false ∧ o.add = true ∧ o.start = true ∧
    (s.relay = false → (s.wifi.hear o.before).connected = false ∧
      (s.wifi.hear o.before).connecting = false ∧ (s.wifi.hear o.before).disconnecting = false ∧
      (s.softap.channelFreq = 0 → o.scan.isSome = true))

/-- The handler comes to the assertion on the bandwidth. -/
def SoftapScans (o : SoftapOutcome) (s : AtcmdWifi) : Prop :=
  s.softap.active = false ∧ o.add = true ∧ s.relay = false ∧
    (s.wifi.hear o.before).connected = false ∧ (s.wifi.hear o.before).connecting = false ∧
    (s.wifi.hear o.before).disconnecting = false ∧ s.softap.channelFreq = 0

/-- `channel_bw` has a value the scan takes. -/
def AtcmdWifiSoftap.Scannable (softap : AtcmdWifiSoftap) : Prop :=
  softap.channelBw = 1 ∨ softap.channelBw = 2 ∨ softap.channelBw = 4

instance (o : SoftapOutcome) (s : AtcmdWifi) : Decidable (SoftapScans o s) := by
  unfold SoftapScans
  infer_instance

/-- The record a failed start leaves: a channel that was found stays. -/
def softapLeft (o : SoftapOutcome) (s : AtcmdWifi) : AtcmdWifiSoftap :=
  if SoftapScans o s then { s.softap with channelFreq := o.scan.getD s.softap.channelFreq }
  else s.softap

/-- A start from a record that was written over `old` leaves no trace. -/
def SoftapRunAtomic (o : SoftapOutcome) (s : AtcmdWifi) (old : AtcmdWifiSoftap) : Prop :=
  (s.softap.active = false → o.lock = true) ∧ (SoftapScans o s → s.softap.Scannable) ∧
    (SoftapRuns o s ∨ s.softap.active = true ∧ s.softap = old ∨
      s.softap.active = false ∧ softapLeft o s = old ∧
        (s.wifi.hear (o.before ++ o.after)).connection = s.wifi.connection)

/-- `AT+WSOFTAP` leaves no trace. -/
def SoftapAtomic (c : WifiConfig) (toFreq : Bytes → Option UInt16) (argv : List Bytes)
    (o : SoftapOutcome) (s : AtcmdWifi) : Prop :=
  match argv with
  | [] => True
  | [freq] => atoi (freq.takeWhile (· ≠ 64)) = 0 →
    if o.stop.ret then o.maxNumSta.isSome = true
    else (s.wifi.hear o.stop.events).connection = s.wifi.connection
  | freq :: ssid :: ps => ps.length ≤ 2 →
    ∀ r ∈ softapParams c toFreq freq ssid ps[0]? ps[1]? s.softap,
      SoftapRunAtomic o { s with softap := r } s.softap

/-- A station that connected with the password is disconnected again, and what is heard of it since
leaves the connection as it was. `es` is heard by then. -/
def RelayUndone (o : RelayOutcome) (s : Wifi) (password : Bytes) (es : List ConnectionEvent) : Prop :=
  let after := es ++ (o.disconnect.heard (linkAfter true es) ++ o.remove)
  o.disconnect.lock.ret = true ∧ s.disconnecting = false ∧ linkAfter true after = false ∧
    settingsAfter ((settingsAfter s.settings o.connect.heard).1,
      (settingsAfter s.settings o.connect.heard).2.1, password) after = s.settings

/-- A relay whose station connects leaves no trace. -/
def RelayStarts (c : WifiConfig) (toFreq : Bytes → Option UInt16) (ap : List Bytes)
    (password : Bytes) (o : RelayOutcome) (s : AtcmdWifi) : Prop :=
  match ap with
  | freq :: ssid :: ps =>
    match softapParams c toFreq freq ssid ps[0]? ps[1]? s.softap with
    | none => RelayUndone o s.wifi password []
    | some r =>
      if s.softap.active then r = s.softap ∧ RelayUndone o s.wifi password []
      else o.softap.lock = true ∧ (o.softap.add = true ∧ o.softap.start = true ∨
        r = s.softap ∧ RelayUndone o s.wifi password (o.softap.before ++ o.softap.after))
  | _ => False

/-- A relay that goes on leaves no trace. -/
def RelayEnables (c : WifiConfig) (toFreq : Bytes → Option UInt16) (ap sta : List Bytes)
    (o : RelayOutcome) (s : AtcmdWifi) : Prop :=
  o.ndpPreq = true ∧ ∀ x ∈ connectAp c sta,
    s.wifi.connecting = true ∨ s.wifi.connected = true ∨ o.connect.lock.ret = true ∧
      (o.connect.Connects → RelayStarts c toFreq ap x.2 o s) ∧
      (¬ o.connect.Connects → s.wifi.disconnecting = false ∧
        linkAfter false o.connect.remove = false ∧
        settingsAfter s.wifi.settings (o.connect.heard ++ o.connect.remove) = s.wifi.settings)

/-- `AT+WRELAY` leaves no trace. -/
def RelayAtomic (c : WifiConfig) (toFreq : Bytes → Option UInt16) (argv : List Bytes)
    (o : RelayOutcome) (s : AtcmdWifi) : Prop :=
  match argv with
  | [] => True
  | [p] => atoi p = 0 → s.relay = true → o.disconnect.lock.ret = true ∧
      (o.softap.stop.ret = true → o.softap.maxNumSta.isSome = true)
  | ap :: sta :: ps => ps.length ≤ 2 → s.relay = false →
    ∀ x ∈ relayParams c ap sta ps[0]? ps[1]?, RelayEnables c toFreq x.1 x.2 o s

end NrcAtcmd
