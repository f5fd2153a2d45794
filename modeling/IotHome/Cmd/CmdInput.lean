import IotHome.Cmd.CommandLine

/-!
# The input of the command line

`CmdInput` of `App.tsx`: what its handler makes of a key, and what the browser
then does with the text, unless the handler has prevented it. In `_cache`,
under the quote, it is kept whether the text is in a quotation. The same map
holds the responses of the commands, each under its text, so a command that is
a quote and nothing else is kept in the same place.

A key comes at a place of the caret. What the server answers to a tab comes
later, and the text is then put in whatever has been typed. An answer that
never comes, or fails, changes nothing. The height of the input and what the
screen shows of the responses are left out.
-/

namespace IotHome.Cmd

open IotHome.Lib

inductive Key where
  | char (c : Char)
  | backspace
  | tab
  | enter
  deriving DecidableEq

/-- `QUOTE`, as a key. -/
def quoteKey : Key := .char '`'

structure InputState where
  /-- `target.value` -/
  text : JsString
  /-- `_cache.get(QUOTE)`, as a truth value, if there is one. -/
  cached : Option Bool
  explorer : ExplorerState
  /-- The commands of the tabs that wait for their answers. -/
  pending : List JsString
  /-- What `onEnterPress` was called with. -/
  submitted : List JsString

namespace InputState

def start : InputState := ⟨[], none, ⟨[], [], 0⟩, [], []⟩

def inQuotes (s : InputState) : Bool := s.cached.getD false

def setCached (s : InputState) (inQuotes : Bool) : InputState :=
  { s with cached := some inQuotes }

/-- A rendering of `App`: a command without responses gets an empty list. -/
def render (s : InputState) : InputState :=
  if s.explorer.command = [quote] ∧ s.cached = none then s.setCached true
  else s

/-- `onEnterPress(command)` -/
def onEnterPress (s : InputState) (command : JsString) : InputState :=
  { s with
    explorer := { s.explorer with command }
    submitted := s.submitted ++ [command] }.render

/-- `_cache.set(QUOTE, ..)` for a key that is the quote. -/
def turnAt (s : InputState) (key : Key) : InputState :=
  if key = quoteKey then s.setCached (!s.inQuotes) else s

/-- `_cache.set(QUOTE, inQuotes)` if `lastLetterWasQuote`. -/
def onBackspace (s : InputState) (inQuotes : Bool) : InputState :=
  if s.text.getLast? = some quote then s.setCached inQuotes else s

/-- `handleOnKeyDown`: what it does, and whether it prevents the default. -/
def handleOnKeyDown (s : InputState) (key : Key) : InputState × Bool :=
  match s.inQuotes, key with
  | true, .tab => ({ s with text := s.text ++ [space, space] }, true)
  | true, .backspace => (s.onBackspace false, false)
  | false, .backspace => (s.onBackspace true, false)
  | false, .tab => ({ s with pending := s.pending ++ [s.text] }, true)
  | false, .enter => (s.onEnterPress s.text, true)
  | _, key => (s.turnAt key, false)

/-- Without its last character, of which there may be two units. -/
def dropLastChar (text : JsString) : JsString :=
  match text.reverse with
  | low :: high :: rest =>
      if 0xD800 ≤ high ∧ high < 0xDC00 ∧ 0xDC00 ≤ low ∧ low < 0xE000 then
        rest.reverse
      else (high :: rest).reverse
  | _ => []

/-- What the browser does with the text, the caret being behind so many
units. -/
def defaultAction (s : InputState) (key : Key) (caret : Nat) : InputState :=
  let before := s.text.take caret
  let behind := s.text.drop caret
  match key with
  | .char c => { s with text := before ++ utf16Encode c ++ behind }
  | .backspace => { s with text := dropLastChar before ++ behind }
  | .enter => { s with text := before ++ [unit '\n'] ++ behind }
  | .tab => s

def press (s : InputState) (key : Key) (caret : Nat) : InputState :=
  let (s', prevented) := s.handleOnKeyDown key
  if prevented then s' else s'.defaultAction key caret

/-- The answer to one of the tabs that wait, with the list of the server. -/
def answer (toLowerCase : JsString → JsString) (s : InputState) (i : Nat)
    (cmdlist : Option (List JsString)) : InputState :=
  match s.pending[i]? with
  | none => s
  | some command =>
      let (explorer, autoCorrected) :=
        onTabPressed toLowerCase (fun _ => cmdlist) s.explorer command
      { s with
        text := autoCorrected
        explorer
        pending := s.pending.eraseIdx i }.render

end InputState

inductive InputEvent where
  | press (key : Key) (caret : Nat)
  | answer (i : Nat) (cmdlist : Option (List JsString))

def InputState.step (toLowerCase : JsString → JsString) (s : InputState) :
    InputEvent → InputState
  | .press key caret => s.press key caret
  | .answer i cmdlist => s.answer toLowerCase i cmdlist

end IotHome.Cmd
