import IotHome.Os.SysPulse
import Mathlib.Data.List.Infix

/-!
# Shell scripts and what they print

`Cmd` of `scripts-lib.js`. A script that needs `sudo` runs on a
pseudo-terminal, whose output comes in pieces: each of them is parsed by
itself, and looked at for the word `password`. What is typed in answer and
what the promise is resolved with are the state here; a callback that throws
is not caught by anything, and ends the process.
-/

namespace IotHome.Os

open IotHome.Lib
open IotHome.Server

/-- What `parseData` gives: the value the text is JSON of, and the text. -/
structure ScriptData where
  obj : Json
  raw : JsString

/-- `parseData`. An empty text gives `undefined`. -/
def parseData (data : JsString) : Option ScriptData :=
  if data = [] then none
  else
    let raw := trimUnits data
    some ⟨(Json.parse (if raw = [] then js "\x7b\x7d" else raw)).getD (.obj []),
      raw⟩

/-! ## `_runBashSudo` -/

/-- What the promise is resolved with; `undefined` is `none`. -/
structure SudoState where
  written : List JsString
  resolved : Option (Option ScriptData)
  crashed : Bool

def SudoState.start : SudoState := ⟨[], none, false⟩

/-- `resolve({ stdout })`, which only counts once. -/
def SudoState.resolve (s : SudoState) (stdout : Option ScriptData) :
    SudoState :=
  { s with resolved := some (s.resolved.getD stdout) }

/-- `data.match(/password/)` -/
def asksPassword (data : JsString) : Bool := js "password" <:+: data

/-- `stdout.obj.done`, of what a piece is parsed as. -/
def readDone (data : JsString) : Except JsError JsValue :=
  match parseData data with
  | none => .error .typeError
  | some stdout => getProp (some stdout.obj) "done"

/-- `sh.onData`. -/
def SudoState.onData (sudoPassword : JsString) (s : SudoState)
    (data : JsString) : SudoState :=
  if s.crashed then s
  else
    match readDone data with
    | .error _ => { s with crashed := true }
    | .ok done =>
        if isTruthy done then s.resolve (parseData data)
        else if asksPassword data then
          { s with written := s.written ++ [sudoPassword ++ [unit '\n']] }
        else s

/-- `sh.onExit`: `parseData("")` is `undefined`. -/
def SudoState.onExit (s : SudoState) : SudoState :=
  if s.crashed then s else s.resolve (parseData [])

/-- `_runBashSudo`, given the pieces in which the output comes. -/
def runBashSudo (sudoPassword : JsString) (chunks : List JsString) :
    SudoState :=
  (chunks.foldl (SudoState.onData sudoPassword) .start).onExit

end IotHome.Os
