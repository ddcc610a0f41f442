import NrcAtcmd.Lib.Decimal
import NrcAtcmd.Lib.Matching
import NrcAtcmd.Message

/-!
# The channels to scan

`_atcmd_wifi_scan_freq_set`, `_add` and `_delete` of `atcmd_wifi.c`. Each reads the list of the
driver into the marks `scan` of the supported channels, changes the marks of the channels its
entries name, and hands the marked channels to the driver. Without a list the driver scans all.

The driver is outside of this module, with a state of its own. A frequency is the number its field
holds. A function has no result if it writes behind the end of its text buffer.
-/

namespace NrcAtcmd

/-- A channel of `wifi_channels_t`: its frequencies and its bandwidth. -/
structure Channel where
  s1gFreq : ℕ
  nons1gFreq : ℕ
  bw : ℕ
  deriving DecidableEq, Repr

/-- `wifi_channel_t`. -/
structure WifiChannel extends Channel where
  scan : Bool
  deriving DecidableEq, Repr

/-- An entry of a list: a frequency, and a bandwidth or zero. -/
structure ScanEntry where
  s1gFreq : ℕ
  bw : ℕ
  deriving DecidableEq, Repr

/-- What the driver answers. A list of frequencies that is not there is `NULL`. -/
structure ScanDriver (δ : Type*) where
  addNetwork : δ → Bool × δ
  getScanFreqNons1g : δ → Option (List ℕ)
  setScanFreqNons1g : Option (List ℕ) → δ → Bool × δ

variable {δ : Type*}

/-- The supported channels, the driver, and the lists of frequencies it was handed. -/
structure ScanInfo (δ : Type*) where
  channels : List WifiChannel
  driver : δ
  handed : List (List ℕ)

def wifiChannelNumMax : ℕ := 50

def atcmdWifiScanSetParamMax : ℕ := 15

/-- The size of `buf` in the functions of a list. -/
def scanBufSize : ℕ := atcmdWifiScanSetParamMax * 7

/-- The entry names the channel: by its frequency, and its bandwidth if it has one. -/
def ScanEntry.names (e : ScanEntry) (c : Channel) : Bool :=
  e.s1gFreq == c.s1gFreq && (e.bw == 0 || e.bw == c.bw)

/-- `_atcmd_wifi_scan_freq_get`. -/
def atcmdWifiScanFreqGet_ (D : ScanDriver δ) (s : ScanInfo δ) : ℤ × ScanInfo δ :=
  let (ok, driver) := D.addNetwork s.driver
  let s := { s with driver := driver }
  if !ok then (-1, s)
  else match D.getScanFreqNons1g driver with
  | none =>
    (s.channels.length, { s with channels := s.channels.map fun c => { c with scan := true } })
  | some freq =>
    if wifiChannelNumMax < freq.length then (-1, s)
    else
      let hits := Matching.pair (fun c f => c.nons1gFreq == f) (fun _ => 0) s.channels freq
      (freq.length, { s with channels := hits.map fun (c, hit) => { c with scan := hit } })

/-- `wifi_api_set_scan_freq`. -/
def wifiApiSetScanFreq (D : ScanDriver δ) (freq : Option (List ℕ)) (driver : δ) : Bool × δ :=
  if freq = some [] then (false, driver) else D.setScanFreqNons1g freq driver

set_option linter.style.nameCheck false in
/-- `__atcmd_wifi_scan_freq_set` of the supported channels. -/
def atcmdWifiScanFreqSet__ (D : ScanDriver δ) (s : ScanInfo δ) : ℤ × ScanInfo δ :=
  let freq := (s.channels.filter (·.scan)).map (·.nons1gFreq)
  let (ok, driver) := D.addNetwork s.driver
  if !ok then (-1, { s with driver := driver })
  else
    let (ok, driver) := wifiApiSetScanFreq D (if freq = [] then none else some freq) driver
    (if ok then 0 else -1, { s with driver := driver, handed := s.handed ++ [freq] })

/-- `sprintf` behind what is in the buffer. -/
def sprintfScan (buf text : Bytes) : Option Bytes :=
  if buf.length + text.length < scanBufSize then some (buf ++ text) else none

/-- `" %u@%u"` of a channel. -/
def WifiChannel.text (c : WifiChannel) : Bytes :=
  bytes " " ++ Decimal.ofNat c.s1gFreq ++ bytes "@" ++ Decimal.ofNat c.bw

/-- What the functions of a list have in common: `mark` is the mark of a channel after the loop,
from whether an entry named it and the mark before. -/
def atcmdWifiScanFreqChange (mark : Bool → Bool → Bool) (D : ScanDriver δ)
    (scanChannel : List ScanEntry) (s : ScanInfo δ) : Option (ℤ × ScanInfo δ) :=
  let (n, s) := atcmdWifiScanFreqGet_ D s
  if n ≤ 0 then some (-1, s)
  else
    let hits := Matching.pair (fun c e => e.names c.toChannel) (fun e => { e with s1gFreq := 0 })
      s.channels scanChannel
    (((hits.filter (·.2)).map (·.1.text)).foldlM sprintfScan []).map fun _ =>
      atcmdWifiScanFreqSet__ D
        { s with channels := hits.map fun (c, hit) => { c with scan := mark hit c.scan } }

/-- `_atcmd_wifi_scan_freq_set`. -/
def atcmdWifiScanFreqSet_ : ScanDriver δ → List ScanEntry → ScanInfo δ → Option (ℤ × ScanInfo δ) :=
  atcmdWifiScanFreqChange fun hit _ => hit

/-- `_atcmd_wifi_scan_freq_add`. -/
def atcmdWifiScanFreqAdd_ : ScanDriver δ → List ScanEntry → ScanInfo δ → Option (ℤ × ScanInfo δ) :=
  atcmdWifiScanFreqChange fun hit scan => if hit then true else scan

/-- `_atcmd_wifi_scan_freq_delete`. -/
def atcmdWifiScanFreqDelete_ :
    ScanDriver δ → List ScanEntry → ScanInfo δ → Option (ℤ × ScanInfo δ) :=
  atcmdWifiScanFreqChange fun hit scan => if hit then false else scan

end NrcAtcmd
