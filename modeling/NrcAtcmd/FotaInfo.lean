import NrcAtcmd.HttpGet
import NrcAtcmd.ParamStore

/-!
# The manifest of a firmware update

`_atcmd_fota_info_parse` of `atcmd_fota.c`: the members of a JSON object name the versions, the
binaries and their CRCs, and `sscanf` stores them in `g_atcmd_fota.info`. The parser of cJSON is a
parameter; how a member is found is `cJSON_GetObjectItem` of `cJSON.c`.

`mem` is the memory from `info` on, `info` and what follows it. Words have four bytes, the lowest
one first, and begin at a multiple of four. `writes` is not in the source: the stores of the
conversions, each with the key it was made for.
-/

namespace NrcAtcmd

open Decimal
open Memory (memcpy read)
open ParamStore (CStr hexValue)

/-! ## The layout of the record -/

/-- `enum FW_VER`. -/
inductive FwVer where
  | sdk
  | atcmd
  deriving DecidableEq, Repr

/-- `enum FW_BIN`. -/
inductive FwBin where
  | hspi
  | uart
  | uartHfc
  deriving DecidableEq, Repr

def FwVer.index : FwVer → ℕ
  | sdk => 0
  | atcmd => 1

def FwBin.index : FwBin → ℕ
  | hspi => 0
  | uart => 1
  | uartHfc => 2

/-- `sizeof` of the `name` of a `fw_bin_t`. -/
def binNameSize : ℕ := 128 + 1

/-- `&info->fw_ver[i]`, behind `new_fw`: three words each. -/
def fwVerOffset (i : ℕ) : ℕ := 4 + 12 * i

/-- `&info->fw_bin[i]`: the name, padded to 132 bytes, and two words each. -/
def fwBinOffset (i : ℕ) : ℕ := 28 + 140 * i

/-- `sizeof(atcmd_fota_info_t)`. -/
def fotaInfoSize : ℕ := 448

/-- The bytes of a word. -/
def wordBytes (v : ℤ) : Bytes :=
  let n := (v % 2 ^ 32).toNat
  [.ofNat (n % 256), .ofNat (n / 2 ^ 8 % 256), .ofNat (n / 2 ^ 16 % 256), .ofNat (n / 2 ^ 24)]

/-- The number that the bytes of a word are. -/
def wordOf (b : Bytes) : ℕ := b.foldr (fun x n => x.toNat + 256 * n) 0

/-! ## `sscanf` -/

/-- `sscanf` of `n` times `"%d"`, with a dot between two of them: the numbers it reads. -/
def scanDotted : (n : ℕ) → Bytes → List ℤ
  | 0, _ => []
  | n + 1, s =>
    match scanInt s with
    | none => []
    | some v =>
      let rest := (strtol s).2
      v :: if rest.head? = some 46 then scanDotted n rest.tail else []

/-- The first word of a text. -/
def firstToken (s : Bytes) : Bytes := (s.dropWhile isSpace).takeWhile fun b => !isSpace b

/-- `sscanf` of `"%s"`. -/
def scanStr (s : Bytes) : Option Bytes := if firstToken s = [] then none else some (firstToken s)

/-- What follows `0x`, if that is a digit. -/
def dropHexPrefix : Bytes → Bytes
  | 48 :: x :: d :: s =>
    if (x = 120 ∨ x = 88) ∧ (hexDigit d).isSome then d :: s else 48 :: x :: d :: s
  | s => s

/-- `sscanf` of `"%lx"`: the number `strtoul` reads in base 16, if it reads one. -/
def scanHex (s : Bytes) : Option ℕ :=
  let (neg, t) := signOf (s.dropWhile isSpace)
  let ds := (dropHexPrefix t).takeWhile fun b => (hexDigit b).isSome
  if ds = [] then none
  else
    let n := (hexValue ds).getD 0
    some (if 2 ^ 32 ≤ n then 2 ^ 32 - 1 else if neg then (2 ^ 32 - n) % 2 ^ 32 else n)

/-! ## The parser -/

/-- What is read of a member of an object: its name, whether its type is `cJSON_String`, and
`valuestring`. The elements of an array have no name. -/
structure CJson where
  string : Option CStr
  isString : Bool
  valuestring : Option CStr
  deriving DecidableEq

/-- `cJSON_GetObjectItem`: the first member of the name, in upper or lower case. -/
def cJSONGetObjectItem (object : List CJson) (string : Bytes) : Option CJson :=
  object.find? fun c => c.string.any fun s => s.1.map toLower == string.map toLower

/-- A store: the key it is for, where it begins, and its bytes. -/
structure InfoWrite where
  key : Bytes
  offset : ℕ
  data : Bytes
  deriving DecidableEq, Repr

/-- The memory from `info` on, and the stores so far. -/
structure InfoMem where
  mem : Bytes
  writes : List InfoWrite
  deriving DecidableEq

def InfoMem.store (key : Bytes) (info : InfoMem) (w : ℕ × Bytes) : InfoMem where
  mem := memcpy info.mem w.1 w.2
  writes := info.writes ++ [⟨key, w.1, w.2⟩]

/-- The keys of `_atcmd_fota_info_parse`. -/
def fotaInfoKeys : List Bytes :=
  [bytes "AT_SDK_VER", bytes "AT_CMD_VER", bytes "AT_HSPI_BIN", bytes "AT_HSPI_CRC",
    bytes "AT_UART_BIN", bytes "AT_UART_CRC", bytes "AT_UART_HFC_BIN", bytes "AT_UART_HFC_CRC"]

/-- The `switch` of `_atcmd_fota_info_parse`: what `sscanf` stores, and where. -/
def fotaInfoSwitch (i : ℕ) (val : Bytes) : List (ℕ × Bytes) :=
  match i with
  | 0 | 1 =>
    let ver := fwVerOffset (FwVer.sdk.index + i)
    [ver, ver + 4, ver + 8].zip ((scanDotted 3 val).map wordBytes)
  | 2 | 4 | 6 =>
    let name := fwBinOffset (FwBin.hspi.index + i / 2 - 1)
    ((scanStr val).map fun s => (name, s ++ [0])).toList
  | 3 | 5 | 7 =>
    let crc32 := fwBinOffset (FwBin.hspi.index + (i + 1) / 2 - 2) + 132
    ((scanHex val).map fun n => (crc32, wordBytes n)).toList
  | _ => []

/-- A pass of the loop of `_atcmd_fota_info_parse`. -/
def fotaInfoPass (cjson : List CJson) (info : InfoMem) (key : Bytes) (i : ℕ) : InfoMem :=
  match cJSONGetObjectItem cjson key with
  | none => info
  | some obj =>
    if !obj.isString then info
    else
      match obj.valuestring with
      | none => info
      | some val => (fotaInfoSwitch i val.1).foldl (InfoMem.store key) info

def atcmdFotaInfoParse_ (cJSONParse : Bytes → Option (List CJson)) (fotaInfo : Bytes)
    (info : InfoMem) : ℤ × InfoMem :=
  match cJSONParse fotaInfo with
  | none => (-1, info)
  | some cjson =>
    (0, fotaInfoKeys.zipIdx.foldl (fun info p => fotaInfoPass cjson info p.1 p.2) info)

/-! ## What the manifest says -/

/-- What a key names: a version, the name of a binary or its CRC. -/
inductive FotaKey where
  | version (v : FwVer)
  | bin (b : FwBin)
  | crc (b : FwBin)
  deriving DecidableEq, Repr

/-- What a record holds for a key. -/
inductive FotaContent where
  | version (major minor revision : ℤ)
  | name (s : Bytes)
  | crc32 (n : ℕ)
  deriving DecidableEq, Repr

namespace FotaKey

def all : List FotaKey :=
  [version .sdk, version .atcmd, bin .hspi, crc .hspi, bin .uart, crc .uart, bin .uartHfc,
    crc .uartHfc]

def name : FotaKey → Bytes
  | version .sdk => bytes "AT_SDK_VER"
  | version .atcmd => bytes "AT_CMD_VER"
  | bin .hspi => bytes "AT_HSPI_BIN"
  | bin .uart => bytes "AT_UART_BIN"
  | bin .uartHfc => bytes "AT_UART_HFC_BIN"
  | crc .hspi => bytes "AT_HSPI_CRC"
  | crc .uart => bytes "AT_UART_CRC"
  | crc .uartHfc => bytes "AT_UART_HFC_CRC"

/-- The fields it names: where they begin, and their sizes. -/
def fields : FotaKey → List (ℕ × ℕ)
  | version v => [0, 4, 8].map fun d => (fwVerOffset v.index + d, 4)
  | bin b => [(fwBinOffset b.index, binNameSize)]
  | crc b => [(fwBinOffset b.index + 132, 4)]

/-- What is in them. A name ends at its first NUL. -/
def content (mem : Bytes) : FotaKey → FotaContent
  | version v =>
    let int d : ℤ := (wordOf (read mem (fwVerOffset v.index + d) 4) : ℤ).bmod (2 ^ 32)
    .version (int 0) (int 4) (int 8)
  | bin b => .name ((read mem (fwBinOffset b.index) binNameSize).takeWhile (· ≠ 0))
  | crc b => .crc32 (wordOf (read mem (fwBinOffset b.index + 132) 4))

/-- The well-formed values: three numbers an `int` holds with dots between them, a name without
blanks of whatever length, one to eight hexadecimal digits with or without `0x`. -/
inductive Spells : FotaKey → Bytes → FotaContent → Prop
  | version {v : FwVer} {a b c : ℕ} : a < 2 ^ 31 → b < 2 ^ 31 → c < 2 ^ 31 →
    Spells (version v) (ofNat a ++ 46 :: (ofNat b ++ 46 :: ofNat c)) (.version a b c)
  | name {b : FwBin} {s : Bytes} : s ≠ [] → (∀ x ∈ s, isSpace x = false) →
    Spells (bin b) s (.name s)
  | crc {b : FwBin} {pre ds : Bytes} {n : ℕ} : pre = [] ∨ pre = bytes "0x" ∨ pre = bytes "0X" →
    1 ≤ ds.length → ds.length ≤ 8 → hexValue ds = some n → Spells (crc b) (pre ++ ds) (.crc32 n)

/-- The string an object has for a key. -/
def value (cjson : List CJson) (k : FotaKey) : Option Bytes :=
  match cJSONGetObjectItem cjson k.name with
  | some ⟨_, true, some val⟩ => some val.1
  | _ => none

end FotaKey

/-- A record in memory, whatever it holds and whatever follows it. -/
structure FotaRecord where
  mem : Bytes
  le : fotaInfoSize ≤ mem.length

/-- The parser stores only inside the fields that the key names, and what a well-formed value says
is there in the end. -/
structure InfoParsed (cJSONParse : Bytes → Option (List CJson)) (fotaInfo : Bytes)
    (r : FotaRecord) : Prop where
  inside : ∀ w ∈ (atcmdFotaInfoParse_ cJSONParse fotaInfo ⟨r.mem, []⟩).2.writes,
    ∃ k : FotaKey, w.key = k.name ∧ ∃ f ∈ k.fields, w.offset = f.1 ∧ w.data.length ≤ f.2
  exact : ∀ cjson ∈ cJSONParse fotaInfo, ∀ (k : FotaKey) (val : Bytes) (c : FotaContent),
    k.value cjson = some val → k.Spells val c →
      k.content (atcmdFotaInfoParse_ cJSONParse fotaInfo ⟨r.mem, []⟩).2.mem = c

/-- The first word of each name has room in front of its terminator. -/
def NamesFit (cJSONParse : Bytes → Option (List CJson)) (fotaInfo : Bytes) : Prop :=
  ∀ cjson ∈ cJSONParse fotaInfo, ∀ (b : FwBin) (val : Bytes),
    (FotaKey.bin b).value cjson = some val → (firstToken val).length < binNameSize

end NrcAtcmd
