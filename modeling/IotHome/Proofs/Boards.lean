import IotHome.Lib.JsonText
import IotHome.Proofs.DeviceInfo
import IotHome.Proofs.RequestText
import IotHome.Server.Boards

/-!
# Each device is known as it last reported itself

The body that a device writes is read as what it is (`parse_body`), and is
small and plain enough to come through the request. Two devices with different
addresses write different texts for them (`getMacAddrStr_inj`), so none takes
the place of another.
-/

namespace IotHome.Server

open IotHome.Firmware
open IotHome.Lib

/-! ## Texts of one byte for each character -/

/-- A character that stands for itself in a request and in JSON. -/
def PlainChar (c : Char) : Bool :=
  32 < c.toNat && c.toNat < 128 && c != '"' && c != '\\'

/-- The number that hexadecimal digits are written for. -/
def readHex (digits : List Char) : Nat :=
  digits.foldl (fun n c => 16 * n + "0123456789abcdef".toList.idxOf c) 0

theorem hexStr_spec : ∀ n : Fin 256,
    (hexStr (UInt8.ofNat n)).length = 2 ∧
      (hexStr (UInt8.ofNat n)).all PlainChar = true ∧
      readHex (hexStr (UInt8.ofNat n)) = n := by
  decide +kernel

theorem ofNat_toFin (b : UInt8) : UInt8.ofNat b.toFin = b :=
  UInt8.ofNat_toNat

theorem length_hexStr (b : UInt8) : (hexStr b).length = 2 :=
  ofNat_toFin b ▸ (hexStr_spec b.toFin).1

theorem plain_hexStr (b : UInt8) : ∀ c ∈ hexStr b, PlainChar c = true :=
  ofNat_toFin b ▸ List.all_eq_true.1 (hexStr_spec b.toFin).2.1

theorem hexStr_inj {b b' : UInt8} (h : hexStr b = hexStr b') : b = b' := by
  have hb := (hexStr_spec b.toFin).2.2
  have hb' := (hexStr_spec b'.toFin).2.2
  rw [ofNat_toFin] at hb hb'
  exact UInt8.toFin_inj.1 (Fin.ext (hb.symm.trans (h ▸ hb')))

theorem getMacAddrStr_eq (mac : MacBytes) :
    getMacAddrStr mac = hexStr mac.b0 ++ ':' :: (hexStr mac.b1 ++ ':' ::
      (hexStr mac.b2 ++ ':' :: (hexStr mac.b3 ++ ':' ::
        (hexStr mac.b4 ++ ':' :: hexStr mac.b5)))) := by
  simp [getMacAddrStr]

theorem getMacAddrStr_inj {mac mac' : MacBytes}
    (h : getMacAddrStr mac = getMacAddrStr mac') : mac = mac' := by
  have hcons : ∀ {b b' : UInt8} {rest rest' : List Char},
      hexStr b ++ ':' :: rest = hexStr b' ++ ':' :: rest' →
        b = b' ∧ rest = rest' := by
    intro b b' rest rest' heq
    obtain ⟨hhex, hrest⟩ := List.append_inj heq
      ((length_hexStr b).trans (length_hexStr b').symm)
    exact ⟨hexStr_inj hhex, (List.cons.inj hrest).2⟩
  rw [getMacAddrStr_eq, getMacAddrStr_eq] at h
  obtain ⟨h0, h⟩ := hcons h
  obtain ⟨h1, h⟩ := hcons h
  obtain ⟨h2, h⟩ := hcons h
  obtain ⟨h3, h⟩ := hcons h
  obtain ⟨h4, h⟩ := hcons h
  have h5 := hexStr_inj h
  obtain ⟨_, _, _, _, _, _⟩ := mac
  obtain ⟨_, _, _, _, _, _⟩ := mac'
  simp only at h0 h1 h2 h3 h4 h5
  subst h0 h1 h2 h3 h4 h5
  rfl

theorem plain_getMacAddrStr (mac : MacBytes) :
    ∀ c ∈ getMacAddrStr mac, PlainChar c = true := by
  have hcolon : PlainChar ':' = true := by decide
  rw [getMacAddrStr_eq]
  simp only [List.forall_mem_append, List.forall_mem_cons, hcolon,
    true_and]
  exact ⟨plain_hexStr _, plain_hexStr _, plain_hexStr _, plain_hexStr _,
    plain_hexStr _, plain_hexStr _⟩

theorem plain_of_isDigit {c : Char} (h : c.isDigit = true) :
    PlainChar c = true := by
  have hdigit : 48 ≤ c.toNat ∧ c.toNat ≤ 57 := by
    simpa [Char.isDigit, UInt32.le_iff_toNat_le] using h
  have hquote : c ≠ '"' := by
    rintro rfl
    exact absurd h (by decide)
  have hslash : c ≠ '\\' := by
    rintro rfl
    exact absurd h (by decide)
  simp [PlainChar, hquote, hslash]
  omega

theorem plain_dotted {a b c d : Nat} :
    ∀ x ∈ dotted [a, b, c, d], PlainChar x = true := by
  have hdot : PlainChar '.' = true := by decide
  have hdigits : ∀ n, ∀ x ∈ Nat.toDigits 10 n, PlainChar x = true :=
    fun n x hx => plain_of_isDigit (isDigit_of_mem_toDigits hx)
  simp only [dotted, List.intercalate, List.map_cons, List.map_nil,
    List.intersperse, List.flatten_cons, List.flatten_nil,
    List.forall_mem_append, List.forall_mem_singleton, hdot, true_and]
  exact ⟨hdigits a, hdigits b, hdigits c, hdigits d, List.forall_mem_nil _⟩

/-! ## The body -/

/-- A text as JavaScript has it. -/
def jsText (cs : List Char) : JsString := cs.flatMap utf16Encode

theorem bytesOf_lt {cs : List Char} (h : ∀ c ∈ cs, c.toNat < 128) :
    (bytesOf cs).all (· < 128) = true := by
  simp only [bytesOf, List.all_map, List.all_eq_true, Function.comp_apply,
    decide_eq_true_eq]
  intro c hc
  have hlt := h c hc
  rw [UInt8.lt_iff_toNat_lt, UInt8.toNat_ofNat']
  show c.toNat % 256 < 128
  omega

theorem map_bytesOf {cs : List Char} (h : ∀ c ∈ cs, c.toNat < 128) :
    (bytesOf cs).map UInt8.toUInt16 = jsText cs := by
  induction cs with
  | nil => rfl
  | cons c cs ih =>
      rw [List.forall_mem_cons] at h
      have hrest := ih h.2
      have hunit : (UInt8.ofNat c.toNat).toUInt16 = unit c := by
        refine UInt16.toNat_inj.1 ?_
        rw [UInt8.toNat_toUInt16, UInt8.toNat_ofNat', unit,
          UInt16.toNat_ofNat']
        have hlt := h.1
        omega
      have hencode : utf16Encode c = [unit c] := by
        rw [utf16Encode, if_pos (by omega)]
      rw [jsText, List.flatMap_cons, hencode]
      show (UInt8.ofNat c.toNat).toUInt16 :: (bytesOf cs).map _ = _
      rw [hunit, hrest]
      rfl

theorem bufferText_bytesOf {cs : List Char} (h : ∀ c ∈ cs, c.toNat < 128) :
    bufferText (bytesOf cs) = some (jsText cs) := by
  rw [bufferText, if_pos (bytesOf_lt h), map_bytesOf h]

theorem plainString_jsText {cs : List Char}
    (h : ∀ c ∈ cs, PlainChar c = true) : Json.PlainString (jsText cs) := by
  have hascii : ∀ c ∈ cs, c.toNat < 128 := by
    intro c hc
    have hplain := h c hc
    simp only [PlainChar, Bool.and_eq_true, decide_eq_true_eq] at hplain
    omega
  intro u hu
  rw [← map_bytesOf hascii, bytesOf, List.map_map] at hu
  obtain ⟨c, hc, rfl⟩ := List.mem_map.1 hu
  have hplain := h c hc
  simp only [PlainChar, Bool.and_eq_true, decide_eq_true_eq, bne_iff_ne,
    ne_eq] at hplain
  obtain ⟨⟨⟨hlow, hhigh⟩, hquote⟩, hslash⟩ := hplain
  have hunit : ((UInt8.ofNat c.toNat).toUInt16).toNat = c.toNat := by
    rw [UInt8.toNat_toUInt16, UInt8.toNat_ofNat']
    omega
  have hne : ∀ d : Char, d.toNat < 128 → c ≠ d →
      (UInt8.ofNat c.toNat).toUInt16 ≠ unit d := by
    intro d hd hcd heq
    have hd' : (unit d).toNat = d.toNat := by
      rw [unit, UInt16.toNat_ofNat']
      omega
    have hnat : c.toNat = d.toNat :=
      hunit.symm.trans ((congrArg UInt16.toNat heq).trans hd')
    exact hcd (Char.ext (UInt32.toNat_inj.1 hnat))
  have hquote' : '"'.toNat < 128 := by decide
  have hslash' : '\\'.toNat < 128 := by decide
  refine ⟨hne _ hquote' hquote, hne _ hslash' hslash, ?_⟩
  rw [UInt16.lt_iff_toNat_lt]
  show ¬ ((UInt8.ofNat c.toNat).toUInt16).toNat < 32
  omega

/-- What a device says of itself. -/
def notificationJson (mac ip : List Char) : Json :=
  .obj [(js "mac", .str (jsText mac)), (js "ip", .str (jsText ip))]

theorem text_notificationJson (mac ip : List Char) :
    Json.text (notificationJson mac ip) =
      js "\x7b\"mac\":\"" ++ (jsText mac ++ (js "\",\"ip\":\"" ++
        (jsText ip ++ js "\"\x7d"))) := by
  have hfirst : js "\x7b\"mac\":\"" =
      unit '\x7b' :: unit '"' :: (js "mac" ++ [unit '"', unit ':', unit '"']) :=
    by decide
  have hsecond : js "\",\"ip\":\"" =
      unit '"' :: unit ',' :: unit '"' ::
        (js "ip" ++ [unit '"', unit ':', unit '"']) := by decide
  have hlast : js "\"\x7d" =
      [unit '"', unit '\x7d'] := by decide
  rw [hfirst, hsecond, hlast, notificationJson, Json.text, Json.textField,
    Json.text, Json.textFields, Json.textField, Json.text, Json.textFields]
  simp only [List.append_assoc, List.cons_append, List.nil_append]

theorem jsText_append (a b : List Char) :
    jsText (a ++ b) = jsText a ++ jsText b := List.flatMap_append

theorem jsText_notificationBody (mac ip : List Char) :
    jsText (notificationBody mac ip) =
      Json.text (notificationJson mac ip) := by
  have hjs : ∀ s : String, jsText s.toList = js s := fun _ => rfl
  rw [text_notificationJson, ← hjs, ← hjs, ← hjs, ← jsText_append,
    ← jsText_append, ← jsText_append, ← jsText_append]
  refine congrArg jsText ?_
  unfold notificationBody
  simp only [List.append_assoc]

theorem parse_body {mac ip : List Char} (hmac : ∀ c ∈ mac, PlainChar c = true)
    (hip : ∀ c ∈ ip, PlainChar c = true) :
    Json.parse (jsText (notificationBody mac ip)) =
      some (notificationJson mac ip) := by
  rw [jsText_notificationBody]
  refine Json.parse_text ?_
  have hname : ∀ name ∈ ["mac", "ip"], Json.PlainString (js name) := by
    simp only [List.forall_mem_cons]
    exact ⟨Json.plainString_of_all (by decide),
      Json.plainString_of_all (by decide), List.forall_mem_nil _⟩
  rw [notificationJson, Json.Regular]
  refine ⟨?_, by show [js "mac", js "ip"].Nodup; decide⟩
  simp only [Json.RegularFields, Json.Regular]
  exact ⟨hname _ (by decide), plainString_jsText hmac, hname _ (by decide),
    plainString_jsText hip, trivial⟩

/-- The device that the body makes. -/
theorem declaredDevice_body {mac ip : List Char}
    (hmac : ∀ c ∈ mac, PlainChar c = true)
    (hip : ∀ c ∈ ip, PlainChar c = true) (now : JsString) :
    ∃ d, declaredDevice (jsText (notificationBody mac ip)) now = .ok d ∧
      d.mac = .str (jsText mac) ∧ d.ip = some (.str (jsText ip)) ∧
      d.port = some (.num (Dec.ofInt 80)) ∧
      d.description = writtenInfo (jsText mac) := by
  rw [declaredDevice, parse_body hmac hip]
  exact ⟨_, rfl, rfl, rfl, rfl, rfl⟩

/-! ## The request -/

theorem plain_bytes {cs : List Char} (h : ∀ c ∈ cs, PlainChar c = true) :
    ∀ b ∈ bytesOf cs, b ≠ 0 ∧ b ≠ 10 ∧ b ≠ 13 ∧ b ≠ 32 := by
  intro b hb
  obtain ⟨c, hc, rfl⟩ := List.mem_map.1 hb
  have hplain := h c hc
  simp only [PlainChar, Bool.and_eq_true, decide_eq_true_eq] at hplain
  have hne : ∀ n : Nat, n ≤ 32 → UInt8.ofNat c.toNat ≠ UInt8.ofNat n := by
    intro n hn heq
    have hnat := congrArg UInt8.toNat heq
    rw [UInt8.toNat_ofNat', UInt8.toNat_ofNat'] at hnat
    omega
  exact ⟨hne 0 (by omega), hne 10 (by omega), hne 13 (by omega),
    hne 32 (by omega)⟩

theorem plain_asciiBytes {s : String} (h : s.toList.all PlainChar = true) :
    ∀ b ∈ asciiBytes s, b ≠ 0 ∧ b ≠ 10 ∧ b ≠ 13 ∧ b ≠ 32 :=
  plain_bytes (List.all_eq_true.1 h)

theorem ascii_body (t : Turn) : ∀ c ∈ t.body, 0 < c.toNat ∧ c.toNat < 128 := by
  have hplain : ∀ {cs : List Char}, (∀ c ∈ cs, PlainChar c = true) →
      ∀ c ∈ cs, 0 < c.toNat ∧ c.toNat < 128 := by
    intro cs h c hc
    have hc' := h c hc
    simp only [PlainChar, Bool.and_eq_true, decide_eq_true_eq] at hc'
    omega
  have hliteral : ∀ {s : String}, (s.toList.all fun c =>
      decide (0 < c.toNat ∧ c.toNat < 128)) = true →
      ∀ c ∈ s.toList, 0 < c.toNat ∧ c.toNat < 128 :=
    fun h c hc => of_decide_eq_true (List.all_eq_true.1 h c hc)
  unfold Turn.body notificationBody
  simp only [List.forall_mem_append]
  exact ⟨⟨⟨⟨hliteral (by decide), hplain (plain_getMacAddrStr t.mac)⟩,
    hliteral (by decide)⟩, hplain plain_dotted⟩, hliteral (by decide)⟩

theorem nonzero_body (t : Turn) : 0 ∉ bytesOf t.body := by
  intro hmem
  obtain ⟨c, hc, heq⟩ := List.mem_map.1 hmem
  have hnat := congrArg UInt8.toNat heq
  rw [UInt8.toNat_ofNat'] at hnat
  have hascii := ascii_body t c hc
  have hzero : c.toNat % 2 ^ 8 = 0 := hnat
  omega

theorem plain_localServer (wm : WifiManager) (ipAddr : UInt32) :
    ∀ c ∈ (getLocalServerIpAddrStr wm ipAddr).2, PlainChar c = true := by
  have hstr : ∀ b : IpBytes, ∀ c ∈ getIpAddrStr b, PlainChar c = true := by
    intro b
    rw [getIpAddrStr_eq]
    exact plain_dotted
  exact hstr _

/-- What the request of a turn is made of. -/
def turnInput (t : Turn) : RequestInput where
  lwipVersion := ⟨t.lwipVersion, t.word⟩
  method := ⟨asciiBytes "POST", plain_asciiBytes (by decide)⟩
  uri := ⟨asciiBytes "/device-notifications/set-is-online",
    plain_asciiBytes (by decide)⟩
  serverName := ⟨bytesOf (getLocalServerIpAddrStr t.wm t.ipAddr).2,
    plain_bytes (plain_localServer t.wm t.ipAddr)⟩
  serverPort := 3335
  useProxy := false
  proxyPort := 0
  body := ⟨bytesOf t.body, nonzero_body t⟩

/-- What is sent is read as the body for that path. -/
theorem read_sent {t : Turn} {bytes : List UInt8} (h : bytes ∈ t.run.2) :
    ∃ fields, Http.readRequest bytes = some (⟨asciiBytes "POST",
      asciiBytes "/device-notifications/set-is-online", fields,
      bytesOf t.body⟩, []) :=
  (turnInput t).readsAs_of_sent h

theorem fullReqBody_sent (t : Turn) {chunks : List (List UInt8)}
    (h : chunks.flatten = bytesOf t.body) :
    fullReqBody chunks = some (jsText t.body) := by
  rw [fullReqBody, h]
  exact bufferText_bytesOf fun c hc => (ascii_body t c hc).2

/-! ## What the server knows -/

/-- The key of a device in the store. -/
def macKey (mac : MacBytes) : MapKey := .str (jsText (getMacAddrStr mac))

theorem macKey_inj {mac mac' : MacBytes} (h : macKey mac = macKey mac') :
    mac = mac' := by
  have htext : js (String.ofList (getMacAddrStr mac)) =
      js (String.ofList (getMacAddrStr mac')) := by
    rw [js, js, String.toList_ofList, String.toList_ofList]
    exact MapKey.str.inj h
  exact getMacAddrStr_inj (String.ofList_inj.1 (js_inj htext))

/-- What is kept of a device until it reports itself again. -/
def DeclaredDevice.reported (d : DeclaredDevice) :
    Json × JsValue × JsValue × JsValue := (d.mac, d.ip, d.port, d.description)

/-- What a device with these addresses has reported. -/
def reportOf (mac : MacBytes) (ipAddr : UInt32) :
    Json × JsValue × JsValue × JsValue :=
  (.str (jsText (getMacAddrStr mac)),
    some (.str (jsText (ip4addrNtoa ipAddr))), some (.num (Dec.ofInt 80)),
    writtenInfo (jsText (getMacAddrStr mac)))

theorem setIsOnline_body (s : DeclaredDevices) (t : Turn) (now : JsString) :
    ∃ d, d.reported = reportOf t.mac t.ipAddr ∧
      (s.setIsOnline (jsText t.body) now).deviceStore =
        s.deviceStore.set (macKey t.mac) d := by
  obtain ⟨d, hd, hmac, hip, hport, hdescr⟩ :=
    @declaredDevice_body (getMacAddrStr t.mac) (ip4addrNtoa t.ipAddr)
      (plain_getMacAddrStr t.mac) plain_dotted now
  refine ⟨d, ?_, ?_⟩
  · rw [DeclaredDevice.reported, hmac, hip, hport, hdescr]
    rfl
  · have hbody : declaredDevice (jsText t.body) now = .ok d := hd
    rw [DeclaredDevices.setIsOnline, hbody]
    show s.deviceStore.set (mapKey s.notifications (some d.mac)) d = _
    rw [hmac]
    rfl

theorem reported_queried (d : DeclaredDevice) (net : Network)
    (isOnline : Bool) : (d.queried net isOnline).reported = d.reported := by
  rcases queryCaught_cases net (fun _ => isOnline) d.toDevice with
    hsame | ⟨states, _, hset⟩
  · rw [DeclaredDevice.queried, hsame]
    rfl
  · rw [DeclaredDevice.queried, hset]
    rfl

/-- What the server has of the devices that have reported themselves. -/
structure BoardsKnown (es : List BoardEvent) (s : DeclaredDevices) :
    Prop where
  /-- Each is known as it last reported itself, -/
  known : ∀ mac, (s.deviceStore.get (macKey mac)).map
    DeclaredDevice.reported = (lastFor mac (reports es)).map (reportOf mac)
  /-- and there is no other. -/
  only : ∀ k d, s.deviceStore.get k = some d →
    ∃ mac ∈ (reports es).map Prod.fst, k = macKey mac

theorem BoardsKnown.notified {es : List BoardEvent} {s : DeclaredDevices}
    (h : BoardsKnown es s) (t : Turn) (chunks : List (List UInt8))
    (now : JsString) :
    BoardsKnown (es ++ [.notified t chunks now])
      (s.setIsOnline (jsText t.body) now) := by
  obtain ⟨d, hd, hstore⟩ := setIsOnline_body s t now
  have hreports : reports (es ++ [.notified t chunks now]) =
      reports es ++ [(t.mac, t.ipAddr)] := List.filterMap_append
  refine ⟨fun mac => ?_, fun k d' hget => ?_⟩
  · rw [hstore, hreports, lastFor_append, lastFor_cons, lastFor_nil,
      Option.none_or]
    by_cases hmac : t.mac = mac
    · subst hmac
      rw [OrderedMap.get_set_self, if_pos rfl]
      exact congrArg some hd
    · rw [OrderedMap.get_set_ne _ (fun heq => hmac (macKey_inj heq)),
        if_neg hmac, Option.none_or]
      exact h.known mac
  · rw [hreports, List.map_append]
    rw [hstore] at hget
    rcases OrderedMap.get_set_cases hget with ⟨hk, _⟩ | ⟨_, hold⟩
    · exact ⟨t.mac, by simp, hk.symm⟩
    · obtain ⟨mac, hmem, hk⟩ := h.only k d' hold
      exact ⟨mac, List.mem_append_left _ hmem, hk⟩

theorem BoardsKnown.queried {es : List BoardEvent} {s : DeclaredDevices}
    (h : BoardsKnown es s) (mac : MapKey) (net : Network) (isOnline : Bool) :
    BoardsKnown (es ++ [.queried mac net isOnline])
      (s.apply (.queried mac net isOnline)) := by
  have hreports : reports (es ++ [.queried mac net isOnline]) =
      reports es := by
    rw [reports, List.filterMap_append]
    exact List.append_nil _
  rw [DeclaredDevices.apply]
  cases hdevice : s.deviceStore.get mac with
  | none => exact ⟨hreports ▸ h.known, hreports ▸ h.only⟩
  | some device =>
      refine ⟨fun mac' => ?_, fun k d hget => ?_⟩
      · rw [hreports, ← h.known mac']
        by_cases hk : mac = macKey mac'
        · rw [← hk, OrderedMap.get_set_self, hdevice, Option.map_some,
            Option.map_some, reported_queried]
        · rw [OrderedMap.get_set_ne _ hk]
      · rw [hreports]
        rcases OrderedMap.get_set_cases hget with ⟨rfl, _⟩ | ⟨_, hold⟩
        · exact h.only _ device hdevice
        · exact h.only k d hold

/-- What holds in every run. -/
structure BoardsOfRun (es : List BoardEvent) (s : DeclaredDevices) : Prop
    extends BoardsKnown es s where
  /-- Whatever is sent is a request of which the server knows the device,
  in whatever chunks its body comes. -/
  arrives : ∀ (t : Turn) bytes, bytes ∈ t.run.2 → ∃ req,
    Http.readRequest bytes = some (req, []) ∧
    req.method = asciiBytes "POST" ∧
    req.target = asciiBytes "/device-notifications/set-is-online" ∧
    ∀ chunks now, chunks.flatten = req.body →
      ∃ s', BoardStep s (.notified t chunks now) s'

theorem BoardsKnown.step {es : List BoardEvent} {s s' : DeclaredDevices}
    {e : BoardEvent} (h : BoardsKnown es s) (hstep : BoardStep s e s') :
    BoardsKnown (es ++ [e]) s' := by
  cases hstep with
  | @notified t bytes req chunks body now hsent hread hchunks hbody =>
      obtain ⟨fields, hfields⟩ := read_sent hsent
      obtain ⟨rfl, _⟩ :=
        Prod.mk.inj (Option.some.inj (hread.symm.trans hfields))
      obtain rfl := Option.some.inj
        ((fullReqBody_sent t hchunks).symm.trans hbody)
      exact h.notified t chunks now
  | queried mac net isOnline => exact h.queried mac net isOnline

theorem boards_of_run {es : List BoardEvent} {s : DeclaredDevices}
    (h : BoardRun es s) : BoardsOfRun es s where
  toBoardsKnown := by
    refine Run.history (P := BoardsKnown) (fun hs hstep => hs.step hstep) ?_ h
    exact ⟨fun _ => rfl, fun _ _ hget => by cases hget⟩
  arrives t bytes hsent := by
    obtain ⟨fields, hread⟩ := read_sent hsent
    exact ⟨_, hread, rfl, rfl, fun chunks now hchunks =>
      ⟨_, .notified hsent hread hchunks (fullReqBody_sent t hchunks)⟩⟩

def roomyMemory : HttpcMemory where
  state := true
  pbufAlloc len := some ⟨List.replicate len.toNat 0, true⟩
  pcb := true
  length_eq len request h _ := by
    obtain rfl := Option.some.inj h
    exact List.length_replicate

/-- A device reports itself. -/
def lampTurn : Turn where
  wm := none
  mac := ⟨0x28, 0xcd, 0xc1, 0x04, 0xef, 0x0e⟩
  ipAddr := 0x0700A8C0
  lwipVersion := asciiBytes "2.1.3"
  word := plain_asciiBytes (by decide)
  memory := roomyMemory
  network := ⟨true, true, true⟩

theorem boards_of_run_lamp : ∃ s,
    BoardRun [.notified lampTurn [bytesOf lampTurn.body] []] s ∧
    BoardsOfRun [.notified lampTurn [bytesOf lampTurn.body] []] s := by
  have hgrants : roomyMemory.Grants := ⟨rfl, fun _ => ⟨_, rfl, rfl⟩, rfl⟩
  have hinit : (turnInput lampTurn).init roomyMemory true = .ok _ :=
    (turnInput lampTurn).init_of_grants hgrants (by decide +kernel)
  have hsent : ∃ bytes, bytes ∈ lampTurn.run.2 := by
    show ∃ bytes, bytes ∈
      ((turnInput lampTurn).getFileDns roomyMemory ⟨true, true, true⟩).2
    rw [RequestInput.getFileDns_eq, hinit]
    exact ⟨_, List.mem_singleton_self _⟩
  obtain ⟨bytes, hsent⟩ := hsent
  obtain ⟨fields, hread⟩ := read_sent hsent
  have hbody : [bytesOf lampTurn.body].flatten = bytesOf lampTurn.body :=
    List.append_nil _
  have hstep : BoardStep .start
      (.notified lampTurn [bytesOf lampTurn.body] []) _ :=
    .notified hsent hread hbody (fullReqBody_sent lampTurn hbody)
  have hrun := Run.cons hstep (.nil _)
  exact ⟨_, hrun, boards_of_run hrun⟩

end IotHome.Server
