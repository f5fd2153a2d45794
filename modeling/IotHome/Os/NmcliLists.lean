import IotHome.Lib.EscapedFields
import IotHome.Os.ShellCmd

/-!
# What the network manager lists

`NetworkManager` of `scripts-lib.js` reads the lists of `nmcli -t`, one record
in a line. Both readers put `###` in the place of every escaped colon and cut
the line at the colons that are left; only the address of an access point has
its marks made colons again. A part that is not there is `undefined`.

The other side is `nmcli` and the scripts around it: a colon or a backslash in
a field has a backslash in front of it, and `echo` ends the list with a line
end, also where there is nothing in it.
-/

namespace IotHome.Os

open IotHome.Lib
open IotHome.Server
open IotHome.Virtual

def colon : UInt16 := unit ':'

def backslash : UInt16 := unit '\\'

def newline : UInt16 := unit '\n'

/-- The text that stands in for an escaped colon. -/
def colonMark : JsString := js "###"

/-- `line.replace(/\\:/g, "###").split(":")` -/
def lineParts (line : JsString) : List JsString :=
  markedFields colon backslash colonMark line

/-! ## The readers -/

structure WifiNet where
  inUse : Bool
  bssid : JsString
  ssid : Option JsString
  mode : Option JsString
  chan : Option JsString
  rate : Option JsString
  signal : Option JsString
  bars : Option JsString
  security : Option JsString

/-- `bssid.replace(/###/g, ":")` -/
def restoreColons (bssid : JsString) : JsString :=
  replaceAll colonMark [colon] bssid

/-- One turn of the loop of `_parseWifiListResponse`. -/
def readWifiLine (line : JsString) : Except JsError WifiNet :=
  let parts := lineParts line
  match parts[1]? with
  | none => .error .typeError
  | some bssid =>
      .ok {
        inUse := parts[0]? == some (js "*")
        bssid := restoreColons bssid
        ssid := parts[2]?
        mode := parts[3]?
        chan := parts[4]?
        rate := parts[5]?
        signal := parts[6]?
        bars := parts[7]?
        security := parts[8]? }

/-- `stdout.raw.split("\n")`, without the empty lines. -/
def rawLines (stdout : Option ScriptData) : Except JsError (List JsString) :=
  match stdout with
  | none => .error .typeError
  | some stdout => .ok ((stdout.raw.splitOn newline).filter (· ≠ []))

/-- `_parseWifiListResponse`. -/
def parseWifiListResponse (stdout : Option ScriptData) :
    Except JsError (List WifiNet) := do
  let lines ← rawLines stdout
  lines.mapM readWifiLine

structure NetDevice where
  device : Option JsString
  type : Option JsString
  state : Option JsString
  connection : Option JsString

/-- One turn of the loop of `_parse_dev_list`. -/
def readDevLine (line : JsString) : NetDevice :=
  let parts := lineParts line
  ⟨parts[0]?, parts[1]?, parts[2]?, parts[3]?⟩

/-- `_parse_dev_list`. -/
def parseDevList (stdout : Option ScriptData) :
    Except JsError (List NetDevice) := do
  let lines ← rawLines stdout
  pure (lines.map readDevLine)

/-! ## The lists -/

/-- A blank or a line end, as `trim` has it. -/
def isTrimmed (u : UInt16) : Bool := isJsSpace (Char.ofNat u.toNat)

/-- The text of a field: one line, without blanks around it. -/
structure FieldText where
  text : JsString
  one_line : newline ∉ text
  head : ∀ u ∈ text.head?, isTrimmed u = false
  last : ∀ u ∈ text.getLast?, isTrimmed u = false

structure WifiRecord where
  inUse : Bool
  bssid : FieldText
  ssid : FieldText
  mode : FieldText
  chan : FieldText
  rate : FieldText
  signal : FieldText
  bars : FieldText
  security : FieldText

structure DeviceRecord where
  device : FieldText
  type : FieldText
  state : FieldText
  connection : FieldText

/-- The record as the reader should give it back. -/
def WifiRecord.net (w : WifiRecord) : WifiNet where
  inUse := w.inUse
  bssid := w.bssid.text
  ssid := some w.ssid.text
  mode := some w.mode.text
  chan := some w.chan.text
  rate := some w.rate.text
  signal := some w.signal.text
  bars := some w.bars.text
  security := some w.security.text

def DeviceRecord.netDevice (d : DeviceRecord) : NetDevice :=
  ⟨some d.device.text, some d.type.text, some d.state.text,
    some d.connection.text⟩

/-- The texts behind the sign for the connection in use. -/
def WifiRecord.texts (w : WifiRecord) : List JsString :=
  [w.ssid.text, w.mode.text, w.chan.text, w.rate.text, w.signal.text,
    w.bars.text, w.security.text]

def DeviceRecord.texts (d : DeviceRecord) : List JsString :=
  [d.device.text, d.type.text, d.state.text, d.connection.text]

def nmcliLine (fields : List JsString) : JsString :=
  escapedLine colon backslash fields

def inUseSign (inUse : Bool) : JsString := if inUse then js "*" else js " "

def WifiRecord.line (w : WifiRecord) : JsString :=
  nmcliLine (inUseSign w.inUse :: w.bssid.text :: w.texts)

def DeviceRecord.line (d : DeviceRecord) : JsString := nmcliLine d.texts

/-- What a script prints of the lines that `nmcli` printed. -/
def scriptOutput (lines : List JsString) : JsString :=
  [newline].intercalate lines ++ [newline]

/-- `nmcli-wifi-scan.sh` -/
def wifiScan (ws : List WifiRecord) : JsString :=
  scriptOutput (ws.map WifiRecord.line)

/-- `nmcli-if-list.sh` -/
def ifList (ds : List DeviceRecord) : JsString :=
  scriptOutput (ds.map DeviceRecord.line)

end IotHome.Os
