import IotHome.Firmware.Leds
import IotHome.Firmware.Uri
import IotHome.Server.Device

/-!
# The server's calls and the board

`Device` of the server, the requests it sends, and the web server of the
device they come to, each of which is two callbacks there. Calls overlap, a
request the server has given up still comes to the device, the two callbacks
of other connections come in between, and other clients ask for pages, too.

The parameter arrays are those of all requests, so what stands in them behind
the parameters of one is given with its event; so are the bytes behind the
buffer of the tag, of which a response that does not fit has some sent. A
request that faults is no step.

A time is a number of writes to the pins. `shown`, `held` and the numbers in
the connections are not in the source: the times at which the response was
put together, at which what is recorded was, and at which the request of a
call was carried out.
-/

namespace IotHome.Server

open IotHome.Lib
open IotHome.Firmware

/-- How far the request of a call is, at the device. -/
inductive PinConn where
  | idle
  | sent (query : List Char)
  | computed (own : Nat)
  | answered (own shown : Nat) (body : JsString)

structure PinSystem where
  device : Device
  board : Board
  shown : Nat
  conns : Nat → PinConn
  /-- The calls that wait for an answer. -/
  waiting : Nat → Bool
  held : Option Nat

/-- The handlers of `cgi.cpp`. -/
inductive CgiPage where
  | leds
  | ledsExt
  | api

inductive PinEvent where
  | setState (call : Nat) (inStates : JsValue)
  | queryState (call : Nat)
  | cgi (call : Nat) (names values : Nat → CharPtr)
  | ssi (call : Nat) (behind : JsString)
  | other (page : CgiPage) (r : Request)
  | arrive (call : Nat)
  | fail (call : Nat)

namespace PinSystem

/-- Nothing was asked of the board yet, whose pins were in any state when
`cgi_init` took them. -/
def start (device : Device) (level out : Nat → Bool) : PinSystem :=
  ⟨device, ⟨cgiInit ⟨level, out, []⟩, "[]"⟩, 0, fun _ => .idle,
    fun _ => false, none⟩

def setConn (s : PinSystem) (call : Nat) (conn : PinConn) : PinSystem :=
  { s with conns := fun c => if c = call then conn else s.conns c }

def setWaiting (s : PinSystem) (call : Nat) (waits : Bool) : PinSystem :=
  { s with waiting := fun c => if c = call then waits else s.waiting c }

/-- A request is sent, if its query can be put together. -/
def send (s : PinSystem) (call : Nat)
    (query : Except JsError (List Char)) : Option PinSystem :=
  match s.conns call, query with
  | .idle, .ok query =>
      some ((s.setConn call (.sent query)).setWaiting call true)
  | _, _ => none

/-- The time on the board. -/
def now (s : PinSystem) : Nat := s.board.gpio.puts.length

/-- The board has put a response together. -/
def responded (s : PinSystem) (b : Board) : PinSystem :=
  { s with board := b, shown := b.gpio.puts.length }

/-- An answer is read, and recorded if there is something to record. -/
def arrived (s : PinSystem) (shown : Nat) (body : JsString) : PinSystem :=
  match s.device.recordAnswer (.response body) with
  | .ok (device, some _) => { s with device, held := some shown }
  | .ok (device, none) => { s with device }
  | .error _ => s

end PinSystem

/-- The parameters of a request over what older ones have left. -/
def overlaid (n : Nat) (own old : Nat → CharPtr) : Nat → CharPtr :=
  fun i => if i < n then own i else old i

def apiRequest (query : List Char) (names values : Nat → CharPtr) : Request :=
  let params := uriParams ((sentQuery query).getD [])
  { iNumParams := params.length
    pcParam := overlaid params.length (paramNames params) names
    pcValue := overlaid params.length (paramValues params) values }

/-- What is sent of a tag: the count that the handler has returned is that of
the whole text, whatever has fitted. -/
def sentBody (iInsertLen : Nat) (inserted : String) (printed : Nat)
    (behind : JsString) : JsString :=
  if printed < iInsertLen then js inserted
  else js inserted ++ 0 :: behind.take (printed - iInsertLen)

/-- A page that another client asks for. -/
def PinSystem.other (s : PinSystem) (page : CgiPage) (r : Request) :
    Except Fault PinSystem :=
  match page with
  | .leds => do
      let (gpio, _) ← cgiHandlerBasic r s.board.gpio
      pure { s with board := { s.board with gpio } }
  | .ledsExt => do
      let (gpio, _) ← cgiHandlerExtended r s.board.gpio
      pure { s with board := { s.board with gpio } }
  | .api => do
      let b ← apiCgiHandler s.board r
      pure (s.responded b)

/-- What can happen next. -/
def pinStep (iInsertLen : Nat) (s : PinSystem) :
    PinEvent → Option PinSystem
  | .setState call inStates => s.send call (setStateQuery inStates)
  | .queryState call => s.send call s.device.queryStateQuery
  | .cgi call names values =>
      match s.conns call with
      | .sent query =>
          match apiCgiHandler s.board (apiRequest query names values) with
          | .ok b =>
              some ((s.responded b).setConn call
                (.computed b.gpio.puts.length))
          | .error _ => none
      | _ => none
  | .ssi call behind =>
      match s.conns call with
      | .computed own =>
          match ssiHandler iInsertLen s.board with
          | .ok (inserted, printed) =>
              some (s.setConn call (.answered own s.shown
                (sentBody iInsertLen inserted printed behind)))
          | .error _ => none
      | _ => none
  | .other page r =>
      match s.other page r with
      | .ok s => some s
      | .error _ => none
  | .arrive call =>
      match s.conns call with
      | .answered _ shown body =>
          if s.waiting call then
            some ((s.arrived shown body).setWaiting call false)
          else none
      | _ => none
  | .fail call =>
      if s.waiting call then some (s.setWaiting call false) else none

end IotHome.Server
