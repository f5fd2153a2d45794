import IotHome.Lib.JsString
import Mathlib.Data.List.Infix

/-!
# The command line of the explorer

`App.tsx` takes the text that was typed apart into arguments, unit by unit,
and completes the last of them from the list the server has for the others. A
backquote opens and closes a quotation. What is left in the word at the end is
always pushed, even when it is empty, so the last argument is the one that is
still being typed.

The answer of the server and `toLowerCase` are parameters.
-/

namespace IotHome.Cmd

open IotHome.Lib

/-- `QUOTE` -/
def quote : UInt16 := unit '`'

def space : UInt16 := unit ' '

/-! ## `parseCommand` -/

/-- The variables of `parseCommand`. -/
structure Scan where
  args : List JsString
  word : JsString
  inQuotes : Bool

def Scan.init : Scan := ⟨[], [], false⟩

/-- `word.length && args.push(word.join("")); word.length = 0;` -/
def Scan.flush (s : Scan) : Scan :=
  if s.word = [] then s else { s with args := s.args ++ [s.word], word := [] }

def Scan.read (s : Scan) (char : UInt16) : Scan :=
  if s.inQuotes = false ∧ char = space then s.flush
  else if char = quote then
    if s.inQuotes then { s.flush with inQuotes := false }
    else { s with inQuotes := true }
  else { s with word := s.word ++ [char] }

def parseCommand (command : JsString) : List JsString :=
  let s := command.foldl Scan.read .init
  s.args ++ [s.word]

/-! ## `getSuggestions` -/

/-- `text.indexOf(part) > -1` -/
def contains (text part : JsString) : Bool := part <:+: text

/-- The first of some lists that is not empty. -/
def firstNonempty : List (List JsString) → List JsString
  | [] => []
  | suggestions :: rest =>
      if suggestions = [] then firstNonempty rest else suggestions

/-- The four loops, each of which runs if those before it found nothing. -/
def getSuggestions (toLowerCase : JsString → JsString)
    (cmdlist : List JsString) (lastPartialArg : JsString) : List JsString :=
  if lastPartialArg = [] then cmdlist
  else
    let sameFirstLetter := fun cmd : JsString =>
      cmd.head? == lastPartialArg.head?
    let insensitiveMatch := fun cmd =>
      contains (toLowerCase cmd) (toLowerCase lastPartialArg)
    firstNonempty
      [cmdlist.filter fun cmd =>
          contains cmd lastPartialArg && sameFirstLetter cmd,
        cmdlist.filter fun cmd => insensitiveMatch cmd && sameFirstLetter cmd,
        cmdlist.filter insensitiveMatch,
        cmdlist]

/-! ## `onTabPressed` -/

structure ExplorerState where
  suggestions : List JsString
  command : JsString
  tabPressed : Nat

/-- `args.join(" ")` -/
def joinArgs (args : List JsString) : JsString := [space].intercalate args

/-- The arguments that are complete, `cmdArgs.slice(0, -1)`. -/
def completeCmdArgs (command : JsString) : List JsString :=
  (parseCommand command).dropLast

/-- `cmdArgs[cmdArgs.length - 1] ?? ""` -/
def lastPartialArg (command : JsString) : JsString :=
  (parseCommand command).getLast?.getD []

/-- The state after a tab, and the text that is put in the input. The list of
the server can be missing. -/
def onTabPressed (toLowerCase : JsString → JsString)
    (getHelp : List JsString → Option (List JsString)) (state : ExplorerState)
    (command : JsString) : ExplorerState × JsString :=
  let complete := completeCmdArgs command
  let cmdlist := getHelp complete
  let suggestions := getSuggestions toLowerCase (cmdlist.getD [])
    (lastPartialArg command)
  let state := { state with tabPressed := state.tabPressed + 1 }
  match suggestions with
  | [] => ({ state with suggestions := [] }, command)
  | [suggestion] =>
      let autocompleted := joinArgs (complete ++ [suggestion])
      ({ state with suggestions := [], command := autocompleted },
        autocompleted)
  | suggestions => ({ state with suggestions := suggestions }, command)

end IotHome.Cmd
