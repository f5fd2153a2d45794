import IotHome.Firmware.HttpClient
import IotHome.Firmware.Notifier
import Mathlib.Logic.Function.Basic

/-!
# What the HTTP client allocates, and the callbacks of lwIP

The rest of `lwip_http_client.c`: how a request is set up, goes on in the
callbacks that lwIP makes in an order of its own, and is taken down. Memory
is what is allocated at an address, and whatever is used while it is not
there is a fault. What lwIP answers is given with each event: the address of
an allocation, whether a lookup, a connection or a write starts, and whether
a pcb closes or has to be aborted.

lwIP calls back while the main loop is inside `_httpc_get_file_dns`, so that
is two steps: `httpc_init_connection_common`, which touches nothing that is
known to lwIP, and the lookup or the connection, after which the request is
not touched again. A pcb that has been closed or aborted is lwIP's own, and
is not called back for.

Received pbufs are in the response, and what is done with them is told apart
there. A buffer comes with what the client finds in its chain after
`headers_fn` has released it, if that is its turn; that it may use and release
what is another's there is not followed. `callback_arg` is a number given by
the caller, so that the reports of `result_fn` can be told apart. `started`,
`results` and `aborted` are not in the source: how many requests have been
started, what has been reported, and which pcbs have been aborted.
-/

namespace IotHome.Firmware

/-- An address that is not `NULL`. -/
abbrev Addr := Nat

/-- `err_t`. The errors of the network are not told apart. -/
inductive LwipErr where
  | ok
  | mem
  | inProgress
  | val
  | abrt
  | arg
  | network
  deriving DecidableEq

/-- `httpc_result_t` -/
inductive HttpcResult where
  | ok
  | errUnknown
  | errConnect
  | errHostname
  | errClosed
  | errTimeout
  | errSvrResp
  | errMem
  | localAbort
  | errContentLen
  deriving DecidableEq

/-- What is used and is not there. -/
inductive MemFault where
  | null
  | block (a : Addr)
  | pbuf (a : Addr)
  | pcb (a : Addr)
  deriving DecidableEq

/-- Whether `altcp_connect` has been called on a pcb, and it is connected. -/
inductive PcbPhase where
  | fresh
  | connecting
  | established
  deriving DecidableEq

/-- A pcb of lwIP whose callbacks are those of the client. -/
structure HttpcPcb where
  arg : Addr
  phase : PcbPhase

/-- `httpc_state_t`. The settings are there once it is set up. -/
structure HttpcBlock where
  pcb : Option Addr
  timeoutTicks : Nat
  request : Option Addr
  connSettings : Bool
  callbackArg : Nat
  response : Httpc

/-- What `result_fn` is called with. -/
structure HttpcReport where
  arg : Nat
  result : HttpcResult
  rxContentLen : UInt32
  srvRes : UInt16
  err : LwipErr

structure LwipClient where
  block : Addr → Option HttpcBlock
  pbuf : Addr → Bool
  pcb : Addr → Option HttpcPcb
  dns : List Addr
  starting : Option Addr
  started : Nat
  results : List HttpcReport
  aborted : List Addr

def LwipClient.start : LwipClient :=
  ⟨fun _ => none, fun _ => false, fun _ => none, [], none, 0, [], []⟩

/-! ## Memory -/

def LwipClient.deref (c : LwipClient) (a : Addr) :
    Except MemFault HttpcBlock :=
  match c.block a with
  | some b => .ok b
  | none => .error (.block a)

/-- What a pointer that may be `NULL` points to. -/
def notNull (a : Option Addr) : Except MemFault Addr :=
  match a with
  | some a => .ok a
  | none => .error .null

def LwipClient.setBlock (c : LwipClient) (a : Addr) (b : HttpcBlock) :
    LwipClient :=
  { c with block := Function.update c.block a (some b) }

def LwipClient.setPcb (c : LwipClient) (q : Addr) (pcb : Option HttpcPcb) :
    LwipClient :=
  { c with pcb := Function.update c.pcb q pcb }

def LwipClient.memFree (c : LwipClient) (a : Addr) :
    Except MemFault LwipClient := do
  let _ ← c.deref a
  pure { c with block := Function.update c.block a none }

def LwipClient.usePbuf (c : LwipClient) (p : Addr) : Except MemFault Unit :=
  if c.pbuf p then .ok () else .error (.pbuf p)

def LwipClient.freePbuf (c : LwipClient) (p : Addr) :
    Except MemFault LwipClient := do
  c.usePbuf p
  pure { c with pbuf := Function.update c.pbuf p false }

def LwipClient.usePcb (c : LwipClient) (q : Addr) :
    Except MemFault HttpcPcb :=
  match c.pcb q with
  | some pcb => .ok pcb
  | none => .error (.pcb q)

/-- The callbacks of a pcb are taken away and it is closed, or aborted if it
does not close. -/
def LwipClient.closePcb (c : LwipClient) (q : Addr) (closes : Bool) :
    Except MemFault (LwipClient × LwipErr) := do
  let _ ← c.usePcb q
  let c := c.setPcb q none
  if closes then pure (c, .ok)
  else pure ({ c with aborted := c.aborted ++ [q] }, .abrt)

/-- `pbuf_alloc` -/
def LwipClient.allocPbuf (c : LwipClient) (p : Addr) : LwipClient :=
  { c with pbuf := Function.update c.pbuf p true }

/-! ## The end of a request -/

/-- `httpc_free_state` -/
def LwipClient.freeState (c : LwipClient) (req : Addr) (closes : Bool) :
    Except MemFault (LwipClient × LwipErr) := do
  let b ← c.deref req
  let c ← match b.request with
    | some p => c.freePbuf p
    | none => pure c
  let c ← c.memFree req
  match b.pcb with
  | some q => c.closePcb q closes
  | none => pure (c, .ok)

/-- `httpc_close` -/
def LwipClient.close (c : LwipClient) (req : Addr) (result : HttpcResult)
    (serverResponse : UInt16) (err : LwipErr) (closes : Bool) :
    Except MemFault (LwipClient × LwipErr) := do
  let b ← c.deref req
  let report := ⟨b.callbackArg, result, b.response.rxContentLen,
    serverResponse, err⟩
  let c := if b.connSettings then { c with results := c.results ++ [report] }
    else c
  c.freeState req closes

/-! ## The start of a request -/

/-- What `httpc_init_connection_common` is given: the lengths that the two
calls of `httpc_create_request_string` return, what the allocations return,
and whether a pcb that is given back closes. A pbuf comes with whether there
is another one behind it. -/
structure InitAnswers where
  reqLen : Int
  reqLen2 : Int
  block : Option Addr
  request : Option (Addr × Bool)
  pcb : Option Addr
  closes : Bool

/-- The allocations give what is not in use. -/
def InitAnswers.FreshIn (i : InitAnswers) (c : LwipClient) : Prop :=
  (∀ a ∈ i.block, c.block a = none) ∧
    (∀ r ∈ i.request, c.pbuf r.1 = false) ∧ ∀ q ∈ i.pcb, c.pcb q = none

instance (i : InitAnswers) (c : LwipClient) : Decidable (i.FreshIn c) :=
  inferInstanceAs (Decidable ((∀ a ∈ i.block, c.block a = none) ∧
    (∀ r ∈ i.request, c.pbuf r.1 = false) ∧ ∀ q ∈ i.pcb, c.pcb q = none))

/-- An error of the initialisation, after which the state is freed. -/
def LwipClient.initFails (c : LwipClient) (i : InitAnswers) (req : Addr)
    (err : LwipErr) :
    Except MemFault (LwipClient × Except LwipErr Addr) := do
  let (c, _) ← c.freeState req i.closes
  pure (c, .error err)

/-- From `altcp_new` on. -/
def LwipClient.initPcb (c : LwipClient) (i : InitAnswers) (req : Addr)
    (callbackArg : Nat) :
    Except MemFault (LwipClient × Except LwipErr Addr) := do
  match i.pcb with
  | none => c.initFails i req .mem
  | some q =>
      let b ← c.deref req
      let b := { b with pcb := some q }
      let c := (c.setBlock req b).setPcb q (some ⟨req, .fresh⟩)
      if i.reqLen2 ≠ i.reqLen then c.initFails i req .val
      else
        pure (c.setBlock req { b with connSettings := true, callbackArg },
          .ok req)

/-- From `pbuf_alloc` on. -/
def LwipClient.initRequest (c : LwipClient) (i : InitAnswers) (req : Addr)
    (callbackArg : Nat) :
    Except MemFault (LwipClient × Except LwipErr Addr) := do
  match i.request with
  | none => c.initFails i req .mem
  | some (p, next) =>
      let b ← c.deref req
      let c := (c.setBlock req { b with request := some p }).allocPbuf p
      if next then c.initFails i req .mem
      else c.initPcb i req callbackArg

/-- `httpc_init_connection_common` -/
def LwipClient.initConnection (c : LwipClient) (i : InitAnswers)
    (callbackArg : Nat) :
    Except MemFault (LwipClient × Except LwipErr Addr) :=
  if i.reqLen < 0 ∨ 0xFFFF < i.reqLen then pure (c, .error .val)
  else if 0xFFFF < i.reqLen + 1 then pure (c, .error .val)
  else
    match i.block with
    | none => pure (c, .error .mem)
    | some req =>
        let c := c.setBlock req
          ⟨none, httpcPollTimeout, none, false, 0, .start⟩
        c.initRequest i req callbackArg

/-- `httpc_get_internal_addr`. `connects` is what `altcp_connect` says. -/
def LwipClient.getInternalAddr (c : LwipClient) (req : Addr)
    (connects : Bool) : Except MemFault (LwipClient × LwipErr) := do
  let b ← c.deref req
  let q ← notNull b.pcb
  let pcb ← c.usePcb q
  if connects then
    pure (c.setPcb q (some { pcb with phase := .connecting }), .ok)
  else pure (c, .network)

/-- How the address of the server is found: it is given, as the proxy's is,
or its name is looked up, and is known, is asked for, or cannot be. -/
inductive Lookup where
  | known (connects : Bool)
  | inProgress
  | failed

/-- `httpc_get_internal_dns`, or `httpc_get_internal_addr` where there is no
lookup. -/
def LwipClient.getInternal (c : LwipClient) (req : Addr) :
    Lookup → Except MemFault (LwipClient × LwipErr)
  | .known connects => c.getInternalAddr req connects
  | .inProgress => do
      let _ ← c.deref req
      pure ({ c with dns := c.dns ++ [req] }, .ok)
  | .failed => do
      let _ ← c.deref req
      pure (c, .arg)

/-- What `_httpc_get_file` and `_httpc_get_file_dns` do with a request that is
set up. -/
def LwipClient.startRequest (c : LwipClient) (req : Addr) (lookup : Lookup)
    (closes : Bool) : Except MemFault (LwipClient × LwipErr) := do
  let c := { c with starting := none }
  let (c, err) ← c.getInternal req lookup
  if err ≠ .ok then
    let (c, _) ← c.freeState req closes
    pure (c, err)
  else pure ({ c with started := c.started + 1 }, .ok)

/-! ## The callbacks -/

/-- `httpc_dns_found`. The address is there if the name was found. -/
def LwipClient.dnsFound (c : LwipClient) (req : Addr) (ipaddr : Option Bool)
    (closes : Bool) : Except MemFault (LwipClient × LwipErr) := do
  match ipaddr with
  | some connects =>
      let (c, err) ← c.getInternalAddr req connects
      if err = .ok then pure (c, .ok)
      else c.close req .errConnect 0 err closes
  | none => c.close req .errHostname 0 .arg closes

/-- `httpc_tcp_connected`. `written` is what `altcp_write` says. -/
def LwipClient.tcpConnected (c : LwipClient) (req : Addr)
    (written closes : Bool) : Except MemFault (LwipClient × LwipErr) := do
  let b ← c.deref req
  let q ← notNull b.pcb
  let p ← notNull b.request
  let _ ← c.usePcb q
  c.usePbuf p
  if written then
    let c ← c.freePbuf p
    let c := c.setBlock req { b with request := none }
    let _ ← c.usePcb q
    pure (c, .ok)
  else c.close req .errMem 0 .mem closes

/-- Whether some of a buffer is given to `body_fn`. -/
def Httpc.givesBody (stale : StaleChains) (s : Httpc) (p : List Pbuf) :
    Bool :=
  if s.parseState = .rxData then true
  else
    let s := (s.keep p).firstLine
    if s.parseState = .waitHeaders then
      match httpWaitHeaders (chainBytes s.rxHdrs) with
      | some (_, totalHeaderLen) =>
          !(stale s.rxHdrs totalHeaderLen).chain.isEmpty
      | none => false
    else false

/-- What the end of the connection means for the response. -/
def Httpc.closedResult (s : Httpc) : HttpcResult :=
  if s.parseState ≠ .rxData then .errClosed
  else if s.hdrContentLen ≠ httpcContentLenInvalid ∧
      s.hdrContentLen ≠ s.rxContentLen then .errContentLen
  else .ok

/-- `httpc_tcp_recv`. No buffer is the end of the connection. -/
def LwipClient.tcpRecv (c : LwipClient) (req : Addr)
    (p : Option (List Pbuf × StaleChains)) (closes : Bool) :
    Except MemFault (LwipClient × LwipErr) := do
  let b ← c.deref req
  match p with
  | none =>
      c.close req b.response.closedResult b.response.rxStatus .ok closes
  | some (p, stale) =>
      let timeoutTicks :=
        if b.response.givesBody stale p then httpcPollTimeout
        else b.timeoutTicks
      let response := httpcTcpRecv stale b.response p
      pure (c.setBlock req { b with timeoutTicks, response }, .ok)

/-- `httpc_tcp_err`. The pcb is gone already. -/
def LwipClient.tcpErr (c : LwipClient) (req : Addr) (err : LwipErr) :
    Except MemFault (LwipClient × LwipErr) := do
  let b ← c.deref req
  let c := c.setBlock req { b with pcb := none }
  c.close req .errClosed 0 err true

/-- `httpc_tcp_poll` -/
def LwipClient.tcpPoll (c : LwipClient) (req : Addr) (closes : Bool) :
    Except MemFault (LwipClient × LwipErr) := do
  let b ← c.deref req
  let timeoutTicks := b.timeoutTicks - 1
  let c := c.setBlock req { b with timeoutTicks }
  if timeoutTicks = 0 then c.close req .errTimeout 0 .ok closes
  else pure (c, .ok)

/-! ## What can happen -/

inductive LwipEvent where
  | init (answers : InitAnswers)
  | start (lookup : Lookup) (closes : Bool)
  | dnsFound (req : Addr) (ipaddr : Option Bool) (closes : Bool)
  | connected (q : Addr) (written closes : Bool)
  | received (q : Addr) (p : List Pbuf) (stale : StaleChains)
  | closed (q : Addr) (closes : Bool)
  | error (q : Addr) (err : LwipErr)
  | poll (q : Addr) (closes : Bool)

/-- The pcb a callback is for, and what its phase has to be. -/
def LwipEvent.callback? : LwipEvent → Option (Addr × (PcbPhase → Bool))
  | .connected q _ _ => some (q, (· = .connecting))
  | .received q _ _ => some (q, (· = .established))
  | .closed q _ => some (q, (· = .established))
  | .error q _ => some (q, (· ≠ .fresh))
  | .poll q _ => some (q, (· ≠ .fresh))
  | _ => none

/-- What lwIP calls, with the argument of the pcb. -/
def LwipClient.callback (c : LwipClient) (pcb : HttpcPcb) :
    LwipEvent → Except MemFault (LwipClient × LwipErr)
  | .connected q written closes =>
      (c.setPcb q (some { pcb with phase := .established })).tcpConnected
        pcb.arg written closes
  | .received _ p stale => c.tcpRecv pcb.arg (some (p, stale)) true
  | .closed _ closes => c.tcpRecv pcb.arg none closes
  | .error q err => (c.setPcb q none).tcpErr pcb.arg err
  | .poll _ closes => c.tcpPoll pcb.arg closes
  | _ => pure (c, .ok)

/-- What an event leaves, and what is returned to lwIP or the caller. Events
that lwIP does not make happen are none. -/
def lwipStep (c : LwipClient) (e : LwipEvent) :
    Option (Except MemFault (LwipClient × LwipErr)) :=
  match e with
  | .init i =>
      if c.starting = none ∧ i.FreshIn c then
        some do
          let (c, r) ← c.initConnection i c.started
          match r with
          | .ok req => pure ({ c with starting := some req }, .ok)
          | .error err => pure (c, err)
      else none
  | .start lookup closes =>
      c.starting.map fun req => c.startRequest req lookup closes
  | .dnsFound req ipaddr closes =>
      if req ∈ c.dns then
        some ({ c with dns := c.dns.erase req }.dnsFound req ipaddr closes)
      else none
  | e => do
      let (q, may) ← e.callback?
      let pcb ← c.pcb q
      if may pcb.phase then some (c.callback pcb e) else none

/-- What an event leaves, if it is no fault. -/
def lwipNext (c : LwipClient) (e : LwipEvent) : Option LwipClient :=
  match lwipStep c e with
  | some (.ok (c', _)) => some c'
  | _ => none

end IotHome.Firmware
