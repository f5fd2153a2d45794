import IotHome.Firmware.HttpRequest
import IotHome.Lib.HttpMessage

/-!
# The request that is sent is the one that was asked for

Each of the four formats writes a request with its fields (`text_eq`), so that
reading the text again is `Http.readRequest_write`. The text is printed twice,
once for its length and once into a buffer that is a byte longer, and what is
sent is a byte shorter than the buffer: just the text, for every length that a
pbuf can have (`connected_of_init`). A longer text is refused before there is
a connection (`init_of_long`).
-/

namespace IotHome.Firmware

open IotHome.Lib

/-! ## What a request is made of -/

structure CString where
  bytes : List UInt8
  nonzero : 0 ∉ bytes

/-- A string without a blank or the end of a line in it. -/
structure Word where
  bytes : List UInt8
  plain : ∀ b ∈ bytes, b ≠ 0 ∧ b ≠ 10 ∧ b ≠ 13 ∧ b ≠ 32

theorem Word.cr (w : Word) : 13 ∉ w.bytes := fun h => (w.plain 13 h).2.2.1 rfl

theorem Word.space (w : Word) : 32 ∉ w.bytes :=
  fun h => (w.plain 32 h).2.2.2 rfl

structure RequestInput where
  lwipVersion : Word
  method : Word
  uri : Word
  serverName : Word
  serverPort : UInt16
  useProxy : Bool
  proxyPort : UInt16
  body : CString

namespace RequestInput

variable (c : RequestInput)

def settings : HttpcConnection :=
  ⟨c.useProxy, c.proxyPort, c.method.bytes, c.body.bytes⟩

def text (useHost : Bool) : List UInt8 :=
  httpcRequestString c.lwipVersion.bytes c.settings c.serverName.bytes
    c.serverPort.toNat c.uri.bytes useHost

def init (memory : HttpcMemory) (useHost : Bool) : Except ErrT HttpcState :=
  httpcInitConnectionCommon memory c.lwipVersion.bytes c.settings
    c.serverName.bytes c.serverPort c.uri.bytes useHost

def getFileDns (memory : HttpcMemory) (network : HttpcNetwork) :
    ErrT × List (List UInt8) :=
  httpcGetFileDns memory network c.lwipVersion.bytes c.serverName.bytes
    c.serverPort c.uri.bytes c.settings

/-- A proxy is asked for the whole address. -/
def target : List UInt8 :=
  if c.useProxy then
    asciiBytes "http://" ++ c.serverName.bytes ++
      (if c.serverPort = 80 then []
        else asciiBytes ":" ++ asciiBytes (toString c.serverPort.toNat)) ++
      c.uri.bytes
  else c.uri.bytes

/-- The bytes are one request, for the method, the target and the body. -/
def ReadsAs (bytes : List UInt8) : Prop :=
  ∃ fields, Http.readRequest bytes =
    some (⟨c.method.bytes, c.target, fields, c.body.bytes⟩, [])

end RequestInput

/-! ## The formats -/

/-- The fields of a request, with those of the server name among them. -/
def requestFields (agent : List UInt8)
    (host : List (List UInt8 × List UInt8)) (contentLength : List UInt8) :
    List (List UInt8 × List UInt8) :=
  (asciiBytes "User-Agent", agent) :: (asciiBytes "Accept", asciiBytes "*/*") ::
    host ++ [(asciiBytes "Connection", asciiBytes "Close"),
      (asciiBytes "Content-Length", contentLength)]

def hostField (srvName : List UInt8) : List UInt8 × List UInt8 :=
  (asciiBytes "Host", srvName)

theorem httpcReq_eq (method target agent : List UInt8)
    (host : List (List UInt8 × List UInt8)) (contentLength body : List UInt8) :
    httpcReq method target agent
        (host.flatMap fun field => Http.writeLine (Http.writeField field))
        contentLength body =
      Http.writeRequest
        ⟨method, target, requestFields agent host contentLength, body⟩ := by
  have hline : asciiBytes " HTTP/1.1\r\n" = 32 :: (Http.version ++ [13, 10]) :=
    by decide
  have hagent : asciiBytes "User-Agent: " =
      asciiBytes "User-Agent" ++ [58, 32] := by decide
  have haccept : asciiBytes "Accept: */*\r\n" =
      asciiBytes "Accept" ++ [58, 32] ++ asciiBytes "*/*" ++ [13, 10] := by
    decide
  have hconnection : asciiBytes "Connection: Close\r\n" =
      asciiBytes "Connection" ++ [58, 32] ++ asciiBytes "Close" ++
        [13, 10] := by
    decide
  have hlength : asciiBytes "Content-Length: " =
      asciiBytes "Content-Length" ++ [58, 32] := by decide
  have hspace : asciiBytes " " = [32] := by decide
  have hcrlf : asciiBytes "\r\n" = [13, 10] := by decide
  rw [httpcReq, hline, hagent, haccept, hconnection, hlength, hspace, hcrlf]
  simp [Http.writeRequest, Http.requestLine, requestFields, Http.writeLine,
    Http.writeField]

theorem httpcHost_eq (srvName : List UInt8) :
    httpcHost srvName = [hostField srvName].flatMap
      fun field => Http.writeLine (Http.writeField field) := by
  have hhost : asciiBytes "Host: " = asciiBytes "Host" ++ [58, 32] := by decide
  have hcrlf : asciiBytes "\r\n" = [13, 10] := by decide
  rw [httpcHost, hhost, hcrlf]
  simp [Http.writeLine, Http.writeField, hostField]

namespace RequestInput

variable (c : RequestInput)

/-- The fields of the server name, if it is sent. -/
def hostFields (useHost : Bool) : List (List UInt8 × List UInt8) :=
  if c.useProxy ∨ useHost then [hostField c.serverName.bytes] else []

def httpRequest (useHost : Bool) : Http.Request where
  method := c.method.bytes
  target := c.target
  fields := requestFields (httpcClientAgent c.lwipVersion.bytes)
    (c.hostFields useHost)
    (asciiBytes (toString (intOfSize c.body.bytes.length)))
  body := c.body.bytes

theorem port_eq_iff : (c.serverPort.toNat : Int) = httpDefaultPort ↔
    c.serverPort = 80 := by
  rw [httpDefaultPort, ← UInt16.toNat_inj]
  exact Int.ofNat_inj

theorem text_eq (useHost : Bool) :
    c.text useHost = Http.writeRequest (c.httpRequest useHost) := by
  rw [text, httpcRequestString, httpRequest, ← httpcReq_eq, hostFields, target]
  simp only [settings, ne_eq, c.port_eq_iff]
  cases c.useProxy with
  | true =>
      by_cases hdefault : c.serverPort = 80
      · simp [hdefault, httpcReq11Proxy, httpcHost_eq]
      · simp [hdefault, httpcReq11ProxyPort, httpcHost_eq]
        rfl
  | false =>
      cases useHost with
      | true => simp [httpcReq11Host, httpcHost_eq]
      | false => simp [httpcReq11]

end RequestInput

/-! ## They can be read -/

theorem asciiBytes_toString (n : Nat) :
    asciiBytes (toString n) = bytesOf (Nat.toDigits 10 n) := by
  rw [asciiBytes, Nat.toString_eq_repr, Nat.toList_repr, bytesOf]

/-- There are only digits in a number. -/
theorem notMem_number {n : Nat} {b : UInt8} (hb : b.toNat < 48) :
    b ∉ asciiBytes (toString n) := by
  rw [asciiBytes_toString]
  intro hmem
  have hbounds := Http.bytes_of_digits
    (fun c (hc : c ∈ Nat.toDigits 10 n) => isDigit_of_mem_toDigits hc) b hmem
  omega

theorem intOfSize_eq {n : Nat} (h : n < 2147483648) : intOfSize n = n := by
  have hbits : n % 4294967296 = n := Nat.mod_eq_of_lt (by omega)
  simp only [intOfSize, hbits, if_pos h]

theorem forall_requestFields {p : List UInt8 × List UInt8 → Prop}
    {agent contentLength : List UInt8}
    {host : List (List UInt8 × List UInt8)} :
    (∀ field ∈ requestFields agent host contentLength, p field) ↔
      p (asciiBytes "User-Agent", agent) ∧
        p (asciiBytes "Accept", asciiBytes "*/*") ∧ (∀ field ∈ host, p field) ∧
        p (asciiBytes "Connection", asciiBytes "Close") ∧
        p (asciiBytes "Content-Length", contentLength) := by
  rw [requestFields, List.forall_mem_append, List.forall_mem_cons,
    List.forall_mem_cons, List.forall_mem_cons, List.forall_mem_singleton,
    and_assoc, and_assoc]

theorem contentLength_requestFields (agent : List UInt8)
    {host : List (List UInt8 × List UInt8)}
    (hhost : ∀ field ∈ host, field.1 = asciiBytes "Host") (n : Nat) :
    Http.contentLength (Http.trimFields
      (requestFields agent host (asciiBytes (toString n)))) = some n := by
  have hname : ∀ name value, Http.isContentLength (name, value) =
      decide (name.map Http.toLower = bytesOf "content-length".toList) :=
    fun _ _ => rfl
  have hnone : (Http.trimFields host).filter Http.isContentLength = [] := by
    refine List.filter_eq_nil_iff.2 fun field hfield => ?_
    obtain ⟨field', hfield', rfl⟩ := List.mem_map.1 hfield
    rw [hname, hhost field' hfield']
    decide
  have hagent : decide ((asciiBytes "User-Agent").map Http.toLower =
      bytesOf "content-length".toList) = false := by decide
  have haccept : decide ((asciiBytes "Accept").map Http.toLower =
      bytesOf "content-length".toList) = false := by decide
  have hconnection : decide ((asciiBytes "Connection").map Http.toLower =
      bytesOf "content-length".toList) = false := by decide
  have hlength : decide ((asciiBytes "Content-Length").map Http.toLower =
      bytesOf "content-length".toList) = true := by decide
  have hfields : (Http.trimFields (requestFields agent host
      (asciiBytes (toString n)))).filter Http.isContentLength =
      [(asciiBytes "Content-Length",
        Http.trimBlanks (asciiBytes (toString n)))] := by
    have htrim : Http.trimFields (requestFields agent host
        (asciiBytes (toString n))) =
        (asciiBytes "User-Agent", Http.trimBlanks agent) ::
          (asciiBytes "Accept", Http.trimBlanks (asciiBytes "*/*")) ::
          (Http.trimFields host ++
            [(asciiBytes "Connection", Http.trimBlanks (asciiBytes "Close")),
              (asciiBytes "Content-Length",
                Http.trimBlanks (asciiBytes (toString n)))]) := by
      simp [requestFields, Http.trimFields]
    rw [htrim]
    simp only [List.filter_cons, List.filter_append, List.filter_nil, hname,
      hagent, haccept, hconnection, hlength, hnone, Bool.false_eq_true,
      if_false, if_true, List.nil_append]
  rw [Http.contentLength, hfields, asciiBytes_toString]
  exact Http.digitsValue_toDigits n

namespace RequestInput

variable (c : RequestInput)

theorem notMem_target {b : UInt8} (hname : b ∉ c.serverName.bytes)
    (huri : b ∉ c.uri.bytes) (hb : b.toNat < 48)
    (hfixed : b ∉ asciiBytes "http://:") : b ∉ c.target := by
  have hnumber := notMem_number (n := c.serverPort.toNat) hb
  have hhttp : b ∉ asciiBytes "http://" := fun h =>
    hfixed (List.mem_append_left (asciiBytes ":") h)
  have hcolon : b ∉ asciiBytes ":" := fun h =>
    hfixed (List.mem_append_right (asciiBytes "http://") h)
  rw [target]
  split
  · split
    · simp only [List.mem_append, hhttp, hname, huri, List.not_mem_nil,
        or_self, not_false_eq_true]
    · simp only [List.mem_append, hhttp, hcolon, hnumber, hname, huri,
        or_self, not_false_eq_true]
  · exact huri

theorem forall_hostFields {p : List UInt8 × List UInt8 → Prop}
    (h : p (hostField c.serverName.bytes)) (useHost : Bool) :
    ∀ field ∈ c.hostFields useHost, p field := by
  rw [hostFields]
  split
  · exact List.forall_mem_singleton.2 h
  · exact fun field hmem => (List.not_mem_nil hmem).elim

theorem cr_notMem_agent : 13 ∉ httpcClientAgent c.lwipVersion.bytes := by
  have hname : (13 : UInt8) ∉ asciiBytes "lwIP/" := by decide
  have haddress : (13 : UInt8) ∉
      asciiBytes " (http://savannah.nongnu.org/projects/lwip)" := by decide
  simp only [httpcClientAgent, List.mem_append, hname, haddress,
    c.lwipVersion.cr, or_self, not_false_eq_true]

/-- Its parts can be told apart. -/
theorem writable (useHost : Bool) (h : c.body.bytes.length < 2147483648) :
    (c.httpRequest useHost).Writable where
  method := ⟨c.method.space, c.method.cr⟩
  target :=
    ⟨c.notMem_target c.serverName.space c.uri.space (by decide) (by decide),
      c.notMem_target c.serverName.cr c.uri.cr (by decide) (by decide)⟩
  names := by
    have hagent : 58 ∉ asciiBytes "User-Agent" ∧ 13 ∉ asciiBytes "User-Agent" :=
      by decide
    have hhost : 58 ∉ asciiBytes "Host" ∧ 13 ∉ asciiBytes "Host" := by decide
    have hlength : 58 ∉ asciiBytes "Content-Length" ∧
        13 ∉ asciiBytes "Content-Length" := by decide
    exact forall_requestFields.2 ⟨hagent, by decide,
      c.forall_hostFields hhost useHost, by decide, hlength⟩
  values := forall_requestFields.2
    ⟨c.cr_notMem_agent, by decide,
      c.forall_hostFields c.serverName.cr useHost, by decide, by
        rw [intOfSize_eq h]
        exact notMem_number (by decide)⟩
  length := by
    rw [httpRequest, intOfSize_eq h]
    have hhost : ∀ field ∈ c.hostFields useHost,
        field.1 = asciiBytes "Host" :=
      forall_hostFields c (p := fun field => field.1 = asciiBytes "Host") rfl
        useHost
    exact contentLength_requestFields _ hhost c.body.bytes.length

theorem body_length_le (useHost : Bool) :
    c.body.bytes.length ≤ (c.text useHost).length := by
  rw [text_eq, Http.writeRequest]
  show c.body.bytes.length ≤ (_ ++ c.body.bytes).length
  rw [List.length_append]
  omega

/-- The text is read as the request. -/
theorem readsAs_text {useHost : Bool}
    (h : (c.text useHost).length < 2147483648) :
    c.ReadsAs (c.text useHost) := by
  have hbody := c.body_length_le useHost
  have hread := Http.readRequest_write (c.writable useHost (by omega)) []
  rw [List.append_nil] at hread
  rw [ReadsAs, text_eq]
  exact ⟨_, hread⟩

end RequestInput

/-! ## The buffer -/

theorem snprintfText_measure {text : List UInt8}
    (h : text.length ≤ 2147483647) :
    snprintfText [] 0 text = ([], (text.length : Int)) := by
  rw [snprintfText, if_neg (by omega), if_pos rfl]

/-- A buffer that is a byte longer has the text in it, and a zero. -/
theorem snprintfText_fits {text buffer : List UInt8}
    (h : text.length ≤ 2147483647)
    (hbuffer : buffer.length = text.length + 1) :
    snprintfText buffer (text.length + 1) text =
      (text ++ [0], (text.length : Int)) := by
  have hrest : buffer.drop (text ++ [0]).length = [] := by
    refine List.drop_eq_nil_of_le ?_
    rw [hbuffer, List.length_append]
    exact Nat.le_refl _
  rw [snprintfText, if_neg (by omega), if_neg (by omega)]
  simp only [Nat.add_sub_cancel, List.take_length, hrest, List.append_nil]

/-- There is memory for whatever is asked. -/
structure HttpcMemory.Grants (memory : HttpcMemory) : Prop where
  state : memory.state = true
  pbufAlloc : ∀ length, ∃ request, memory.pbufAlloc length = some request ∧
    request.alone = true
  pcb : memory.pcb = true

/-- The connection comes about, and takes the request. -/
structure HttpcNetwork.Delivers (network : HttpcNetwork) : Prop where
  starts : network.starts = true
  connects : network.connects = true
  takes : network.takes = true

namespace RequestInput

variable (c : RequestInput) {memory : HttpcMemory} {useHost : Bool}

theorem init_eq :
    c.init memory useHost =
      httpcInitRequest memory c.settings c.serverPort
        (fun buffer size => snprintfText buffer size (c.text useHost))
        (snprintfText [] 0 (c.text useHost)).2 := rfl

/-- A text that does not fit is refused. -/
theorem init_of_long (h : 0xFFFF < (c.text useHost).length + 1) :
    c.init memory useHost = .error .val := by
  have hlen : (snprintfText [] 0 (c.text useHost)).2 < 0 ∨
      0xFFFF < (snprintfText [] 0 (c.text useHost)).2 + 1 := by
    by_cases hint : (c.text useHost).length ≤ 2147483647
    · rw [snprintfText_measure hint]
      show ((c.text useHost).length : Int) < 0 ∨
        0xFFFF < ((c.text useHost).length : Int) + 1
      omega
    · rw [snprintfText, if_pos (by omega)]
      exact .inl (by decide)
  rw [init_eq, httpcInitRequest]
  split
  · rfl
  · next hfirst => rw [if_pos (by omega)]

/-- The state that a text that fits is put into. -/
def connection (useHost : Bool) : HttpcState where
  payload := c.text useHost ++ [0]
  len := UInt16.ofNat ((c.text useHost).length + 1)
  remotePort := if c.useProxy then c.proxyPort else c.serverPort

/-- What is left of a text that fits is a matter of memory. -/
theorem init_of_fits (h : (c.text useHost).length + 1 ≤ 0xFFFF) :
    c.init memory useHost =
      if ¬ memory.state then .error .mem
      else
        match memory.pbufAlloc
            (UInt16.ofNat ((c.text useHost).length + 1)) with
        | none => .error .mem
        | some request =>
            if ¬ request.alone then .error .mem
            else if ¬ memory.pcb then .error .mem
            else .ok (c.connection useHost) := by
  have hint : (c.text useHost).length ≤ 2147483647 := by omega
  have hlen : (UInt16.ofNat ((c.text useHost).length + 1)).toNat =
      (c.text useHost).length + 1 := by
    rw [UInt16.toNat_ofNat']
    omega
  have hnat : ((c.text useHost).length + 1 : Int).toNat =
      (c.text useHost).length + 1 := by omega
  rw [init_eq, snprintfText_measure hint, httpcInitRequest, if_neg (by omega),
    if_neg (by omega)]
  simp only [hnat]
  split
  · rfl
  · cases hrequest : memory.pbufAlloc
      (UInt16.ofNat ((c.text useHost).length + 1)) with
    | none => rfl
    | some request =>
        simp only
        split
        · rfl
        · next halone =>
            have hpayload := memory.length_eq _ request hrequest
              (not_not.1 halone)
            rw [hlen] at hpayload
            rw [snprintfText_fits hint hpayload]
            split
            · rfl
            · exact if_neg fun hne => hne rfl

theorem connected_connection (h : (c.text useHost).length + 1 ≤ 0xFFFF) :
    httpcTcpConnected (c.connection useHost) = c.text useHost := by
  have hlen : (UInt16.ofNat ((c.text useHost).length + 1)).toNat =
      (c.text useHost).length + 1 := by
    rw [UInt16.toNat_ofNat']
    omega
  rw [httpcTcpConnected, connection]
  simp only [hlen, Nat.add_sub_cancel]
  exact List.take_left

/-- A connection that there is has the text, and will send it. -/
theorem connected_of_init {req : HttpcState}
    (h : c.init memory useHost = .ok req) :
    (c.text useHost).length + 1 ≤ 0xFFFF ∧
      httpcTcpConnected req = c.text useHost := by
  by_cases hfits : (c.text useHost).length + 1 ≤ 0xFFFF
  · refine ⟨hfits, ?_⟩
    rw [c.init_of_fits hfits] at h
    split at h
    · cases h
    · split at h
      · cases h
      · split at h
        · cases h
        · split at h
          · cases h
          · cases h
            exact c.connected_connection hfits
  · rw [c.init_of_long (by omega)] at h
    cases h

theorem init_of_grants (hgrants : memory.Grants)
    (h : (c.text useHost).length + 1 ≤ 0xFFFF) :
    c.init memory useHost = .ok (c.connection useHost) := by
  obtain ⟨request, hrequest, halone⟩ :=
    hgrants.pbufAlloc (UInt16.ofNat ((c.text useHost).length + 1))
  rw [c.init_of_fits h, hrequest]
  simp [hgrants.state, halone, hgrants.pcb]

theorem readsAs_of_init {req : HttpcState}
    (h : c.init memory useHost = .ok req) :
    c.ReadsAs (httpcTcpConnected req) := by
  obtain ⟨hfits, hconnected⟩ := c.connected_of_init h
  rw [hconnected]
  exact c.readsAs_text (by omega)

theorem getFileDns_eq (network : HttpcNetwork) :
    c.getFileDns memory network =
      match c.init memory true with
      | .error err => (err, [])
      | .ok req =>
          if ¬ network.starts then (.network, [])
          else if network.connects ∧ network.takes then
            (.ok, [httpcTcpConnected req])
          else (.ok, []) := rfl

/-- A text that does not fit is an error, and nothing is sent. -/
theorem getFileDns_of_long (network : HttpcNetwork)
    (h : 0xFFFF < (c.text true).length + 1) :
    c.getFileDns memory network = (.val, []) := by
  rw [getFileDns_eq, c.init_of_long h]

/-- One that fits is sent as it is, if the network goes along. -/
theorem getFileDns_of_fits (hgrants : memory.Grants) {network : HttpcNetwork}
    (hnetwork : network.Delivers) (h : (c.text true).length + 1 ≤ 0xFFFF) :
    c.getFileDns memory network = (.ok, [c.text true]) := by
  rw [getFileDns_eq, c.init_of_grants hgrants h]
  simp [hnetwork.starts, hnetwork.connects, hnetwork.takes,
    c.connected_connection h]

/-- What is sent is the request. -/
theorem readsAs_of_sent {network : HttpcNetwork} {bytes : List UInt8}
    (h : bytes ∈ (c.getFileDns memory network).2) : c.ReadsAs bytes := by
  rw [getFileDns_eq] at h
  split at h
  · cases h
  · next req hreq =>
      split at h
      · cases h
      · split at h
        · rw [List.mem_singleton.1 h]
          exact c.readsAs_of_init hreq
        · cases h

end RequestInput

/-- The input as `request` has it, with no proxy. -/
def RequestInput.direct (c : RequestInput) : RequestInput :=
  { c with useProxy := false, proxyPort := 0 }

theorem request_eq (memory : HttpcMemory) (network : HttpcNetwork)
    (c : RequestInput) :
    request memory network c.lwipVersion.bytes c.method.bytes
        c.serverName.bytes c.serverPort c.uri.bytes c.body.bytes =
      c.direct.getFileDns memory network := rfl

/-- What holds of a request with this memory and on this network. -/
structure RequestKept (memory : HttpcMemory) (network : HttpcNetwork)
    (c : RequestInput) : Prop where
  read : ∀ useHost req, c.init memory useHost = .ok req →
    c.ReadsAs (httpcTcpConnected req)
  refused : ∀ useHost, 0xFFFF < (c.text useHost).length + 1 →
    c.init memory useHost = .error .val
  accepted : ∀ useHost, (c.text useHost).length + 1 ≤ 0xFFFF →
    memory.Grants → ∃ req, c.init memory useHost = .ok req
  sent : ∀ bytes ∈ (c.getFileDns memory network).2, c.ReadsAs bytes
  unsent : 0xFFFF < (c.text true).length + 1 →
    c.getFileDns memory network = (.val, [])
  delivered : (c.text true).length + 1 ≤ 0xFFFF → memory.Grants →
    network.Delivers → c.getFileDns memory network = (.ok, [c.text true])
  requested : ∀ bytes ∈ (request memory network c.lwipVersion.bytes
      c.method.bytes c.serverName.bytes c.serverPort c.uri.bytes
      c.body.bytes).2,
    ∃ fields, Http.readRequest bytes =
      some (⟨c.method.bytes, c.uri.bytes, fields, c.body.bytes⟩, [])

/-- A request that is sent is read as it was meant, and one that does not fit
is not sent. -/
theorem requestKept (memory : HttpcMemory) (network : HttpcNetwork)
    (c : RequestInput) : RequestKept memory network c where
  read := fun _ _ hreq => c.readsAs_of_init hreq
  refused := fun _ hlong => c.init_of_long hlong
  accepted := fun useHost hfits hgrants =>
    ⟨c.connection useHost, c.init_of_grants hgrants hfits⟩
  sent := fun _ hbytes => c.readsAs_of_sent hbytes
  unsent := c.getFileDns_of_long network
  delivered := fun hfits hgrants hnetwork =>
    c.getFileDns_of_fits hgrants hnetwork hfits
  requested := fun _ hbytes => c.direct.readsAs_of_sent hbytes

/-- `request` returns the error of a text that does not fit. -/
theorem request_of_long (memory : HttpcMemory) (network : HttpcNetwork)
    {c : RequestInput} (h : 0xFFFF < (c.direct.text true).length + 1) :
    request memory network c.lwipVersion.bytes c.method.bytes
        c.serverName.bytes c.serverPort c.uri.bytes c.body.bytes =
      (.val, []) := by
  rw [request_eq, c.direct.getFileDns_of_long network h]

/-- It sends one that fits, once. -/
theorem request_of_fits {memory : HttpcMemory} (hgrants : memory.Grants)
    {network : HttpcNetwork} (hnetwork : network.Delivers) {c : RequestInput}
    (h : (c.direct.text true).length + 1 ≤ 0xFFFF) :
    request memory network c.lwipVersion.bytes c.method.bytes
        c.serverName.bytes c.serverPort c.uri.bytes c.body.bytes =
      (.ok, [c.direct.text true]) := by
  rw [request_eq, c.direct.getFileDns_of_fits hgrants hnetwork h]

end IotHome.Firmware
