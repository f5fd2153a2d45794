import IotHome.Firmware.ApiHandler

/-!
# What the HTTP client does with the buffers it is given

The receiving side of `lwip_http_client.c`, with the `headers_fn` and
`body_fn` of `http_client_request.cpp`. A buffer comes as a chain of pbufs.
Buffers that come before the headers are complete are kept in one chain; the
rest is given to `body_fn` as it comes.

`headers_fn` releases its chain, and then `pbuf_free_header` goes through it.
The pbufs are lwIP's again by then, which links the free ones by their first
word, the `next`, and takes them for others. So what it comes to is a
parameter, `stale`.

What is asked of the client is about the calls it makes, so a state has a log
of them, which is not in the source: which pbufs are read, which are released,
and what is credited to the window. The window bounds the bytes that wait for
the headers by 11680, so that no 16-bit length wraps. What is written past
the end of `status_num`, `content_len_num` and `resBuff` is not followed.
-/

namespace IotHome.Firmware

open IotHome.Lib

structure Pbuf where
  id : Nat
  payload : List UInt8

inductive PbufOp where
  | use (id : Nat)
  | release (id : Nat)
  | recved (len : Nat)
  deriving DecidableEq

/-- The bytes of a chain. -/
def chainBytes (q : List Pbuf) : List UInt8 := q.flatMap Pbuf.payload

def asciiBytes (s : String) : List UInt8 :=
  s.toList.map fun c => UInt8.ofNat c.toNat

/-- `pbuf_memfind`, with `none` for its `0xFFFF`. -/
def pbufMemfind (p mem : List UInt8) (startOffset : Nat) : Option Nat :=
  ((List.range (p.length + 1)).drop startOffset).find? fun i =>
    mem.isPrefixOf (p.drop i)

def pbufGetAt (p : List UInt8) (offset : Nat) : UInt8 := p.getD offset 0

/-- `atoi` of bytes that were copied into an array of zeros. -/
def atoiBytes (bytes : List UInt8) : Int :=
  clampInt32 (readInt (bytes.map fun b => Char.ofNat b.toNat))

/-! ## The two parsers -/

/-- The version and the status. -/
def httpParseResponseStatus (p : List UInt8) : Option (UInt16 × UInt16) := do
  let end1 ← pbufMemfind p (asciiBytes "\r\n") 0
  let space1 ← pbufMemfind p (asciiBytes " ") 0
  if (asciiBytes "HTTP/").isPrefixOf p ∧ pbufGetAt p 6 = '.'.toUInt8 then
    let version : UInt16 :=
      ((pbufGetAt p 5).toUInt16 - '0'.toUInt8.toUInt16) <<< 8 |||
        ((pbufGetAt p 7).toUInt16 - '0'.toUInt8.toUInt16)
    let statusNumLen :=
      match pbufMemfind p (asciiBytes " ") (space1 + 1) with
      | some space2 => space2 - space1 - 1
      | none => end1 - space1 - 1
    let statusNum := (p.drop (space1 + 1)).take statusNumLen
    let status := atoiBytes statusNum
    if statusNum.length = statusNumLen ∧ 0 < status ∧ status ≤ 0xFFFF then
      some (version, UInt16.ofNat status.toNat)
    else none
  else none

/-- `HTTPC_CONTENT_LEN_INVALID`. -/
def httpcContentLenInvalid : UInt32 := 0xFFFFFFFF

def contentLength (p : List UInt8) : UInt32 :=
  match pbufMemfind p (asciiBytes "Content-Length: ") 0 with
  | none => httpcContentLenInvalid
  | some hdr =>
      match pbufMemfind p (asciiBytes "\r\n") hdr with
      | none => httpcContentLenInvalid
      | some lineEnd =>
          let len := atoiBytes ((p.drop (hdr + 16)).take (lineEnd - hdr - 16))
          if 0 ≤ len then UInt32.ofNat len.toNat else httpcContentLenInvalid

/-- The content length and the length of the headers. -/
def httpWaitHeaders (p : List UInt8) : Option (UInt32 × Nat) := do
  let end1 ← pbufMemfind p (asciiBytes "\r\n\r\n") 0
  pure (contentLength p, end1 + 4)

/-! ## The client -/

inductive HttpcParseState where
  | waitFirstLine
  | waitHeaders
  | rxData
  deriving DecidableEq

/-- `httpc_state_t`, as far as the response. The empty chain is `NULL`. -/
structure Httpc where
  parseState : HttpcParseState
  rxHdrs : List Pbuf
  rxHttpVersion : UInt16
  rxStatus : UInt16
  rxContentLen : UInt32
  hdrContentLen : UInt32
  log : List PbufOp

/-- What `httpc_init_connection_common` leaves. -/
def Httpc.start : Httpc :=
  ⟨.waitFirstLine, [], 0, 0, 0, httpcContentLenInvalid, []⟩

def Httpc.did (s : Httpc) (ops : List PbufOp) : Httpc :=
  { s with log := s.log ++ ops }

/-- What reads a chain. -/
def uses (q : List Pbuf) : List PbufOp := q.map fun p => .use p.id

/-- `pbuf_free`. The first pbuf of a chain goes, and so do those behind it,
which nothing but the chain refers to. -/
def pbufFree (q : List Pbuf) : List PbufOp := q.map fun p => .release p.id

/-- `pbuf_free_header` of a chain that is there: the calls it makes, and what
is left. -/
def pbufFreeHeader : List Pbuf → Nat → List PbufOp × List Pbuf
  | [], _ => ([], [])
  | p :: rest, size =>
      if size = 0 then ([], p :: rest)
      else if p.payload.length ≤ size then
        let (ops, q) := pbufFreeHeader rest (size - p.payload.length)
        (.use p.id :: .release p.id :: ops, q)
      else ([.use p.id], { p with payload := p.payload.drop size } :: rest)

/-- A chain as a callback is given it, with the `tot_len` of its first. -/
structure Given where
  chain : List Pbuf
  totLen : Nat

/-- A chain that has not been released. -/
def Given.whole (q : List Pbuf) : Given := ⟨q, (chainBytes q).length⟩

/-- What `pbuf_copy_partial` copies of it. -/
def Given.bytes (g : Given) : List UInt8 := (chainBytes g.chain).take g.totLen

/-- What `pbuf_free_header` comes to on a chain that has been released, and
what it has done behind the first pbuf. -/
structure StaleChain extends Given where
  ops : List PbufOp

/-- By the chain and the length that is taken off. -/
abbrev StaleChains := List Pbuf → Nat → StaleChain

/-- The pbufs are as they were. -/
def StaleChains.intact : StaleChains := fun q size =>
  let hidden := pbufFreeHeader q size
  ⟨.whole hidden.2, hidden.1.drop 1⟩

/-- `pbuf_copy_partial` and `pbuf_free`. It returns `ERR_OK`. -/
def headersFn (s : Httpc) (hdr : List Pbuf) : Httpc :=
  s.did (uses hdr ++ pbufFree hdr)

def bodyFn (s : Httpc) (p : List Pbuf) : Httpc :=
  s.did (uses p ++ pbufFree p)

/-- `rx_hdrs` gets a buffer, by `pbuf_cat` if there are others. -/
def Httpc.keep (s : Httpc) (p : List Pbuf) : Httpc :=
  if s.rxHdrs = [] then { s with rxHdrs := p }
  else { s.did (uses (s.rxHdrs ++ p)) with rxHdrs := s.rxHdrs ++ p }

/-- The first line, if it is not there yet. -/
def Httpc.firstLine (s : Httpc) : Httpc :=
  if s.parseState = .waitFirstLine then
    match httpParseResponseStatus (chainBytes s.rxHdrs) with
    | some (version, status) =>
        { s.did (uses s.rxHdrs) with
          parseState := .waitHeaders
          rxHttpVersion := version
          rxStatus := status }
    | none => s.did (uses s.rxHdrs)
  else s

/-- Body bytes. -/
def Httpc.rxData (s : Httpc) (p : Given) : Httpc :=
  bodyFn { s with
    rxContentLen := s.rxContentLen + UInt32.ofNat p.totLen } p.chain

section

variable (stale : StaleChains)

/-- The header bytes are taken off the chain, and what is behind them is the
first of the body. -/
def Httpc.hideHeaders (s : Httpc) (totalHeaderLen : Nat) : Httpc :=
  let hidden := stale s.rxHdrs totalHeaderLen
  let s := { s.did (uses (s.rxHdrs.take 1) ++ hidden.ops) with
    rxHdrs := []
    parseState := .rxData }
  if hidden.chain = [] then s else s.rxData hidden.toGiven

/-- The headers are complete: they are credited and given to `headers_fn`. -/
def Httpc.headersDone (s : Httpc) (contentLength : UInt32)
    (totalHeaderLen : Nat) : Httpc :=
  let s := { s with hdrContentLen := contentLength }
  let s := s.did [.recved totalHeaderLen]
  (headersFn s s.rxHdrs).hideHeaders stale totalHeaderLen

/-- The headers, if it is their turn. -/
def Httpc.headers (s : Httpc) : Httpc :=
  if s.parseState = .waitHeaders then
    match httpWaitHeaders (chainBytes s.rxHdrs) with
    | some (contentLength, totalHeaderLen) =>
        (s.did (uses s.rxHdrs)).headersDone stale contentLength totalHeaderLen
    | none => s.did (uses s.rxHdrs)
  else s

/-- `httpc_tcp_recv`, given a buffer. -/
def httpcTcpRecv (s : Httpc) (p : List Pbuf) : Httpc :=
  if s.parseState = .rxData then s.rxData (.whole p)
  else (s.keep p).firstLine.headers stale

end

/-- `httpc_close`, to which the end of the connection, an error and the
timeout all come. -/
def httpcClose (s : Httpc) : Httpc :=
  { s.did (pbufFree s.rxHdrs) with rxHdrs := [] }

/-- The buffers of a response, none of whose pbufs is there twice. -/
structure Delivery where
  buffers : List (List Pbuf)
  nodup : (buffers.flatten.map Pbuf.id).Nodup

/-- The client, from the first buffer to the end. -/
def Delivery.run (d : Delivery) (stale : StaleChains) : Httpc :=
  httpcClose (d.buffers.foldl (httpcTcpRecv stale) .start)

end IotHome.Firmware
