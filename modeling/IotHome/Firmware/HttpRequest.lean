import IotHome.Firmware.HttpClient

/-!
# What the HTTP client sends

The sending side of `lwip_http_client.c`, and `request` of
`http_client_request.cpp`. A string is its bytes, without the zero at its end.
What the memory and the network of lwIP answer is given, and so is the text of
its version, which comes from its headers. The state of a connection has a
size that fits, so the check of it is left out, as is the address that is
connected to.
-/

namespace IotHome.Firmware

open IotHome.Lib

/-- `httpc_connection_t`, as far as the request. -/
structure HttpcConnection where
  useProxy : Bool
  proxyPort : UInt16
  method : List UInt8
  body : List UInt8

/-! ## The text of a request -/

/-- `HTTPC_CLIENT_AGENT` -/
def httpcClientAgent (lwipVersion : List UInt8) : List UInt8 :=
  asciiBytes "lwIP/" ++ lwipVersion ++
    asciiBytes " (http://savannah.nongnu.org/projects/lwip)"

/-- What the formats have in common. They differ in the target, and in whether
there is a line for the server name. -/
def httpcReq (method target agent host contentLength body : List UInt8) :
    List UInt8 :=
  method ++ asciiBytes " " ++ target ++ asciiBytes " HTTP/1.1\r\n" ++
  asciiBytes "User-Agent: " ++ agent ++ asciiBytes "\r\n" ++
  asciiBytes "Accept: */*\r\n" ++
  host ++
  asciiBytes "Connection: Close\r\n" ++
  asciiBytes "Content-Length: " ++ contentLength ++ asciiBytes "\r\n" ++
  asciiBytes "\r\n" ++
  body

def httpcHost (srvName : List UInt8) : List UInt8 :=
  asciiBytes "Host: " ++ srvName ++ asciiBytes "\r\n"

/-- `HTTPC_REQ_11_FORMAT` -/
def httpcReq11 (agent method uri contentLength body : List UInt8) :
    List UInt8 :=
  httpcReq method uri agent [] contentLength body

/-- `HTTPC_REQ_11_HOST_FORMAT` -/
def httpcReq11Host (agent method uri srvName contentLength body : List UInt8) :
    List UInt8 :=
  httpcReq method uri agent (httpcHost srvName) contentLength body

/-- `HTTPC_REQ_11_PROXY_FORMAT` -/
def httpcReq11Proxy
    (agent method host uri srvName contentLength body : List UInt8) :
    List UInt8 :=
  httpcReq method (asciiBytes "http://" ++ host ++ uri) agent
    (httpcHost srvName) contentLength body

/-- `HTTPC_REQ_11_PROXY_PORT_FORMAT` -/
def httpcReq11ProxyPort (agent method host : List UInt8) (hostPort : Int)
    (uri srvName contentLength body : List UInt8) : List UInt8 :=
  httpcReq method
    (asciiBytes "http://" ++ host ++ asciiBytes ":" ++
      asciiBytes (toString hostPort) ++ uri)
    agent (httpcHost srvName) contentLength body

/-- `HTTP_DEFAULT_PORT` -/
def httpDefaultPort : Int := 80

/-- A `size_t` that is read as an `int`. -/
def intOfSize (n : Nat) : Int :=
  let bits := n % 4294967296
  if bits < 2147483648 then bits else bits - 4294967296

/-- What `httpc_create_request_string` prints. -/
def httpcRequestString (lwipVersion : List UInt8) (settings : HttpcConnection)
    (serverName : List UInt8) (serverPort : Int) (uri : List UInt8)
    (useHost : Bool) : List UInt8 :=
  let method := settings.method
  let body := settings.body
  let contentLength := asciiBytes (toString (intOfSize body.length))
  let agent := httpcClientAgent lwipVersion
  if settings.useProxy then
    if serverPort ≠ httpDefaultPort then
      httpcReq11ProxyPort agent method serverName serverPort uri serverName
        contentLength body
    else
      httpcReq11Proxy agent method serverName uri serverName contentLength body
  else if useHost then
    httpcReq11Host agent method uri serverName contentLength body
  else httpcReq11 agent method uri contentLength body

/-- `snprintf(buffer, size, ..)` of a text: what is in the buffer then, and the
length of the text, which is negative if it is longer than an `int` can say. -/
def snprintfText (buffer : List UInt8) (size : Nat) (text : List UInt8) :
    List UInt8 × Int :=
  if 2147483647 < text.length then (buffer, -1)
  else if size = 0 then (buffer, text.length)
  else
    let written := text.take (size - 1) ++ [0]
    (written ++ buffer.drop written.length, text.length)

def httpcCreateRequestString (lwipVersion : List UInt8)
    (settings : HttpcConnection) (serverName : List UInt8) (serverPort : Int)
    (uri : List UInt8) (useHost : Bool) (buffer : List UInt8)
    (bufferSize : Nat) : List UInt8 × Int :=
  snprintfText buffer bufferSize
    (httpcRequestString lwipVersion settings serverName serverPort uri useHost)

/-! ## The connection -/

/-- What `pbuf_alloc` gives: the payload of the first pbuf, and whether it is
the only one. -/
structure PbufRam where
  payload : List UInt8
  alone : Bool

/-- What there is memory for. A pbuf that is alone is as long as was asked. -/
structure HttpcMemory where
  state : Bool
  pbufAlloc : UInt16 → Option PbufRam
  pcb : Bool
  length_eq : ∀ len request, pbufAlloc len = some request →
    request.alone = true → request.payload.length = len.toNat

/-- The errors of lwIP. Those of the network are not told apart. -/
inductive ErrT where
  | ok
  | val
  | mem
  | network
  deriving DecidableEq

/-- `httpc_state_t`, as far as the request: the payload of its pbuf and the
`len` of it, and the port. -/
structure HttpcState where
  payload : List UInt8
  len : UInt16
  remotePort : UInt16

/-- What `httpc_init_connection_common` does when it knows the length of the
request, which `create` prints. -/
def httpcInitRequest (memory : HttpcMemory) (settings : HttpcConnection)
    (serverPort : UInt16) (create : List UInt8 → Nat → List UInt8 × Int)
    (reqLen : Int) : Except ErrT HttpcState :=
  if reqLen < 0 ∨ 0xFFFF < reqLen then .error .val
  else if 0xFFFF < reqLen + 1 then .error .val
  else if ¬ memory.state then .error .mem
  else
    let len := UInt16.ofNat (reqLen + 1).toNat
    match memory.pbufAlloc len with
    | none => .error .mem
    | some request =>
        if ¬ request.alone then .error .mem
        else if ¬ memory.pcb then .error .mem
        else
          let (payload, reqLen2) := create request.payload (reqLen + 1).toNat
          if reqLen2 ≠ reqLen then .error .val
          else
            .ok {
              payload
              len
              remotePort :=
                if settings.useProxy then settings.proxyPort else serverPort }

def httpcInitConnectionCommon (memory : HttpcMemory)
    (lwipVersion : List UInt8) (settings : HttpcConnection)
    (serverName : List UInt8) (serverPort : UInt16) (uri : List UInt8)
    (useHost : Bool) : Except ErrT HttpcState :=
  let create := httpcCreateRequestString lwipVersion settings serverName
    serverPort.toNat uri useHost
  let (_, reqLen) := create [] 0
  httpcInitRequest memory settings serverPort create reqLen

/-- What `httpc_tcp_connected` hands to `altcp_write`. -/
def httpcTcpConnected (req : HttpcState) : List UInt8 :=
  req.payload.take (req.len.toNat - 1)

/-- What becomes of a connection that is there: whether it can be started, is
established, and takes what is written. -/
structure HttpcNetwork where
  starts : Bool
  connects : Bool
  takes : Bool

/-- `_httpc_get_file_dns`, with `1` for `use_host`: what it returns, and what
is sent then. -/
def httpcGetFileDns (memory : HttpcMemory) (network : HttpcNetwork)
    (lwipVersion serverName : List UInt8) (port : UInt16) (uri : List UInt8)
    (settings : HttpcConnection) : ErrT × List (List UInt8) :=
  match httpcInitConnectionCommon memory lwipVersion settings serverName port
    uri true with
  | .error err => (err, [])
  | .ok req =>
      if ¬ network.starts then (.network, [])
      else if network.connects ∧ network.takes then
        (.ok, [httpcTcpConnected req])
      else (.ok, [])

/-- `request`. Nothing sets `running`, nor a proxy. -/
def request (memory : HttpcMemory) (network : HttpcNetwork)
    (lwipVersion method url : List UInt8) (port : UInt16)
    (path body : List UInt8) : ErrT × List (List UInt8) :=
  httpcGetFileDns memory network lwipVersion url port path
    ⟨false, 0, method, body⟩

end IotHome.Firmware
