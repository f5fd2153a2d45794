import IotHome.Firmware.HttpClient
import IotHome.Lib.CBuffer

/-!
# What the callbacks of the HTTP client print

`headers_fn` and `body_fn` copy the chain they are given to the start of
`resBuff`, all of it, and print `resBuff` with a `%s`. There is one `resBuff`
for all requests, of which there can be several at a time (nothing sets
`running`), so the buffers of their connections may come in any order. Each
connection has one chain that `headers_fn` releases, and what the client comes
to in it is a parameter.
-/

namespace IotHome.Firmware

open IotHome.Lib

/-- The size of `resBuff`. -/
def resBuffSize : Nat := 1000

/-- The chains that the callbacks are given when a buffer comes, first the
one with the headers. -/
def Httpc.calls (stale : StaleChains) (s : Httpc) (p : List Pbuf) :
    List Given :=
  if s.parseState = .rxData then [.whole p]
  else
    let s := (s.keep p).firstLine
    if s.parseState = .waitHeaders then
      match httpWaitHeaders (chainBytes s.rxHdrs) with
      | some (_, totalHeaderLen) =>
          let hidden := stale s.rxHdrs totalHeaderLen
          .whole s.rxHdrs ::
            if hidden.chain = [] then [] else [hidden.toGiven]
      | none => []
    else []

/-- The state of each connection, by its number. -/
abbrev Connections := Nat → Httpc

/-- The buffers that come, each with the number of its connection. -/
abbrev Reception := List (Nat × List Pbuf)

section

variable (stale : Nat → StaleChains)

def Connections.recv (conns : Connections) (i : Nat) (p : List Pbuf) :
    Connections :=
  fun j => if j = i then httpcTcpRecv (stale i) (conns i) p else conns j

/-- All that is given to the callbacks. -/
def Connections.calls : Connections → Reception → List Given
  | _, [] => []
  | conns, (i, p) :: rest =>
      (conns i).calls (stale i) p ++ (conns.recv stale i p).calls rest

/-- What is copied to `resBuff`, from the first request on. -/
def Reception.copied (r : Reception) : List (List UInt8) :=
  (Connections.calls stale (fun _ => .start) r).map Given.bytes

end

end IotHome.Firmware
