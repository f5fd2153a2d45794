import IotHome.Firmware.ApiHandler

/-!
# The device's web server, as far as `/api` goes

A request for `/api` is two callbacks. `_apiCgiHandler` runs when the request
line has been read: it hands the parameters to the handler, which leaves its
text in the global `_response`, and names `/response.json` as the page to
send. `ssi_handler` runs later, when that page is sent and its `json` tag is
met: it copies `_response` into the buffer of the tag. Between the two the
server may serve other connections, so a run is a list of such steps, each
on its connection.

The response goes to `snprintf` as the format. The `own` text of a
connection, what its own request was answered with, is bookkeeping of the
model; no step of the device reads it.
-/

namespace IotHome.Firmware

/-- The device: its pins and the global `_response`. -/
structure Board where
  gpio : Gpio
  response : String

/-- A request as the web server hands it over. -/
structure Request where
  iNumParams : Nat
  pcParam : Nat → CharPtr
  pcValue : Nat → CharPtr

def apiCgiHandler (b : Board) (r : Request) : Except Fault Board := do
  let (g, res) ← handleRequestParams r.iNumParams r.pcParam r.pcValue b.gpio
  pure ⟨g, res⟩

/-- `snprintf(buf, size, fmt)` for a format without directives: what stands
in the buffer, and the length it would have needed. -/
def snprintf (size : Nat) (fmt : String) : Except Fault (String × Nat) :=
  if '%' ∈ fmt.toList then .error .formatDirective
  else .ok (String.ofList (fmt.toList.take (size - 1)), fmt.length)

/-- `ssi_handler` with the index of the `json` tag. -/
def ssiHandler (iInsertLen : Nat) (b : Board) :
    Except Fault (String × Nat) := snprintf iInsertLen b.response

/-! ## Connections -/

inductive Step where
  | cgi (conn : Nat) (request : Request)
  | ssi (conn : Nat)

def Step.conn : Step → Nat
  | .cgi c _ => c
  | .ssi c => c

def Step.isCgi : Step → Bool
  | .cgi _ _ => true
  | .ssi _ => false

/-- A page sent: what the tag was replaced by, beside the response computed
from the connection's own request. -/
structure Answer where
  conn : Nat
  own : String
  inserted : String
  printed : Nat

structure Httpd where
  board : Board
  own : Nat → Option String
  answers : List Answer

/-- The server with no request in progress. -/
def Httpd.idle (b : Board) : Httpd := ⟨b, fun _ => none, []⟩

def Httpd.step (iInsertLen : Nat) (h : Httpd) : Step → Except Fault Httpd
  | .cgi c r => do
      let b ← apiCgiHandler h.board r
      pure
        { h with
          board := b
          own := fun d => if d = c then some b.response else h.own d }
  | .ssi c => do
      let (inserted, printed) ← ssiHandler iInsertLen h.board
      pure
        { h with
          own := fun d => if d = c then none else h.own d
          answers :=
            match h.own c with
            | none => h.answers
            | some own => h.answers ++ [⟨c, own, inserted, printed⟩] }

def Httpd.run (iInsertLen : Nat) (h : Httpd) (steps : List Step) :
    Except Fault Httpd := steps.foldlM (Httpd.step iInsertLen) h

end IotHome.Firmware
