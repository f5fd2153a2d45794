import IotHome.Lib.JsonText
import IotHome.Proofs.DeviceRegistry
import IotHome.Proofs.HelpQuery

/-!
# Which device is controlled

A control message and a `select` name a device by its address, and the first
device of `getDeviceList` gets the request. Both take whatever they are given
to that function, for which `*` is every device; and `select` has its name out
of an argument, which is cut at every `=`. `LooksUp` says when a name that is
looked up finds the device of another, or none: `controlTarget_iff`, in every
state of every run.
-/

namespace IotHome.Server

open IotHome.Lib
open IotHome.Cmd

/-! ## Looking a name up -/

/-- `getDeviceList(name)[0]`. -/
def Registry.target (r : Registry) (name : JsString) : Option Nat :=
  (r.getDeviceList (some (.str name))).head?

/-- Under a name that is looked up there is the device of `mac`, or none. -/
def Registry.LooksUp (r : Registry) (name mac : JsString) : Prop :=
  if name = js "*" then ∀ e ∈ r.deviceStore.entries.head?, e.1 = mac
  else name = mac ∨ r.deviceStore.get name = none

theorem target_eq (r : Registry) (name : JsString) :
    r.target name =
      if name = js "*" then r.deviceStore.entries.head?.map Prod.snd
      else r.deviceStore.get name := by
  rw [Registry.target, Registry.getDeviceList]
  by_cases hname : name = js "*"
  · simp [isText, hname, OrderedMap.values]
  · cases r.deviceStore.get name with
    | none => simp [isText, hname]
    | some p => simp [isText, hname]

theorem Registry.Ok.exists_target {db : DevicesDb} {r : Registry}
    (h : r.Ok db) {name : JsString} {p : Nat} (hp : r.target name = some p) :
    ∃ d, r.heap[p]? = some d := by
  rw [target_eq] at hp
  split at hp
  · obtain ⟨e, he, rfl⟩ := Option.map_eq_some_iff.1 hp
    exact h.exists_heap e (List.mem_of_mem_head? he)
  · exact h.exists_heap (name, p) (mem_of_lastFor hp)

/-- A device is in the store under one address. -/
theorem get_eq_iff {db : DevicesDb} {r : Registry} (h : r.Ok db)
    {name mac : JsString} {p : Nat} (hp : r.deviceStore.get name = some p) :
    r.deviceStore.get mac = some p ↔ name = mac := by
  constructor
  · intro hmac
    exact h.place_inj (mem_of_lastFor hp) (mem_of_lastFor hmac)
  · rintro rfl
    exact hp

theorem looksUp_iff {db : DevicesDb} {r : Registry} (h : r.Ok db)
    (name mac : JsString) :
    (∀ p ∈ r.target name, r.deviceStore.get mac = some p) ↔
      r.LooksUp name mac := by
  rw [target_eq, Registry.LooksUp]
  split
  · cases hentries : r.deviceStore.entries with
    | nil => simp
    | cons e rest =>
        have hget : r.deviceStore.get e.1 = some e.2 :=
          r.deviceStore.get_of_mem (hentries ▸ List.mem_cons_self)
        simpa using get_eq_iff h hget
  · cases hget : r.deviceStore.get name with
    | none => simp
    | some p => simpa using get_eq_iff h hget

/-! ## Messages -/

/-- A control message for a device of this name. -/
def NamesMac (mac data : JsString) : Prop :=
  isCtrlDevMsg (parseMsg data) = true ∧
    getProp? (parseMsg data) "mac" = some (.str mac)

/-- The devices that have been sent a request since. -/
def App.asked (s s' : App) : List Nat :=
  (s'.tasks.drop s.tasks.length).filterMap fun t =>
    match t.stage with
    | .setting device _ => some device
    | _ => none

theorem asked_message {s : App} (side : Side) (data : JsString) :
    s.asked (s.message side data) =
      ((s.controlRequest data).map Prod.fst).toList := by
  rw [App.asked, App.message]
  split
  · next hnone => simp [hnone]
  · next device query hsome => simp [hsome]

theorem asked_names {s : App} {mac data : JsString} (side : Side)
    (h : NamesMac mac data) :
    ∀ p ∈ s.asked (s.message side data), s.registry.target mac = some p := by
  intro p hp
  rw [asked_message, Option.mem_toList, Option.map_eq_some_iff] at hp
  obtain ⟨⟨device, query⟩, hrequest, rfl⟩ := hp
  rw [App.controlRequest, if_pos h.1, h.2] at hrequest
  rw [Registry.target]
  split at hrequest
  · cases hrequest
  · next device' rest hlist =>
      rw [hlist, List.head?_cons]
      split at hrequest
      · next query' _ =>
          exact congrArg some (Prod.mk.inj (Option.some.inj hrequest)).1
      · cases hrequest

/-- A message for all devices. -/
def allDevicesMsg : Json :=
  .obj [(js "type", .str (js "CTRL_DEV")), (js "mac", .str (js "*")),
    (js "states", .arr [])]

theorem regular_allDevicesMsg : Json.Regular allDevicesMsg := by
  have hplain : ∀ text ∈ [js "type", js "CTRL_DEV", js "mac", js "*",
      js "states"], Json.PlainString text := by
    simp only [List.forall_mem_cons]
    exact ⟨Json.plainString_of_all (by decide),
      Json.plainString_of_all (by decide),
      Json.plainString_of_all (by decide),
      Json.plainString_of_all (by decide),
      Json.plainString_of_all (by decide), List.forall_mem_nil _⟩
  rw [allDevicesMsg, Json.Regular]
  refine ⟨?_, by decide⟩
  simp only [Json.RegularFields, Json.Regular, Json.RegularElems]
  exact ⟨hplain _ (by decide), hplain _ (by decide), hplain _ (by decide),
    hplain _ (by decide), hplain _ (by decide), trivial, trivial⟩

theorem parseMsg_allDevicesMsg :
    parseMsg (Json.text allDevicesMsg) = some allDevicesMsg := by
  rw [parseMsg, Json.parse_text regular_allDevicesMsg]
  rfl

theorem namesMac_allDevicesMsg :
    NamesMac (js "*") (Json.text allDevicesMsg) := by
  rw [NamesMac, parseMsg_allDevicesMsg]
  exact ⟨rfl, rfl⟩

theorem asked_allDevicesMsg (s : App) (side : Side) :
    s.asked (s.message side (Json.text allDevicesMsg)) =
      (s.registry.target (js "*")).toList := by
  have hquery : setStateQuery
      (getProp? (parseMsg (Json.text allDevicesMsg)) "states") = .ok [] := by
    rw [parseMsg_allDevicesMsg]
    rfl
  obtain ⟨hctrl, hmac⟩ := namesMac_allDevicesMsg
  rw [asked_message, App.controlRequest, if_pos hctrl, hmac, hquery,
    Registry.target]
  cases s.registry.getDeviceList (some (.str (js "*"))) with
  | nil => rfl
  | cons p rest => rfl

/-! ## Commands -/

/-- What the commands find. -/
def Registry.appState (r : Registry) (hasUrl : Device → Bool)
    (sysClient : Bool) : AppState where
  getDeviceList mac := ((r.getDeviceList (some (.str mac))).filterMap
    (r.heap[·]?)).map StoredDevice.toDevice
  hasUrl := hasUrl
  sysClient := sysClient

/-- The device that a `select` sends a request to. -/
def Registry.selected (r : Registry) (hasUrl : Device → Bool)
    (args : List JsString) : Option Nat :=
  if selectSends (r.appState hasUrl false) args = [] then none
  else r.target (selectedDeviceMac args)

/-- A line with this name for the device, and no other. -/
abbrev NamesDevice (mac : JsString) (args : List JsString) : Prop :=
  GivesOnly (js "--dev-name") mac args

/-- A name in an argument ends at its first `=`. -/
theorem selectedDeviceMac_eq {mac : JsString} {args : List JsString}
    (h : NamesDevice mac args) : selectedDeviceMac args = beforeEquals mac := by
  rw [selectedDeviceMac, h.getValueOf (by decide) (by decide)]
  split
  · next hempty => rw [hempty]; rfl
  · rfl

/-- A line with nothing but a name. -/
def onlyName (mac : JsString) : List JsString :=
  [js "--dev-name" ++ unit '=' :: mac]

theorem namesDevice_onlyName (mac : JsString) :
    NamesDevice mac (onlyName mac) where
  mem := List.mem_singleton_self _
  only _ ha _ := List.mem_singleton.1 ha

theorem selectGoesOn_onlyName {app : AppState} {mac : JsString} (dev : Device)
    (hdev : (app.getDeviceList (beforeEquals mac)).head? = some dev)
    (hurl : app.hasUrl dev = true) : SelectGoesOn app (onlyName mac) where
  notDryRun := by
    refine hasName_singleton rfl ?_
    rw [nameOf_named (by decide)]
    decide
  writable := by
    have hpins : (Arg.ofArgs (onlyName mac)).getListValueOf (js "--pin") =
        [] := by
      rw [getListValueOf_eq, List.eq_nil_iff_forall_not_mem]
      intro pin hpin
      obtain ⟨a, ha, _, hname, _⟩ := mem_valuesOf.1 hpin
      rw [List.mem_singleton.1 ha, nameOf_named (by decide)] at hname
      exact absurd hname (by decide)
    intro fields hfields
    rw [selectParams, hpins] at hfields
    cases hfields
  device := ⟨dev, by
    rw [selectedDeviceMac_eq (namesDevice_onlyName mac)]
    exact hdev, hurl⟩

theorem getArgNeedHelp_onlyName (mac : JsString) :
    (Arg.ofArgs (onlyName mac)).getArgNeedHelp = none := by
  have hne : js "--dev-name" ++ unit '=' :: mac ≠ js "help" := by
    intro heq
    exact absurd (List.cons.inj heq).1 (by decide)
  have hflag : (Arg.ofArgs (onlyName mac)).flags.get (js "help") = none := by
    show ((Arg.empty (onlyName mac)).read (js "--dev-name" ++ unit '=' :: mac)
      0).flags.get (js "help") = none
    rw [flags_read, if_neg hne]
    rfl
  rw [Arg.getArgNeedHelp, hflag]

theorem selected_names {r : Registry} (hasUrl : Device → Bool)
    {mac : JsString} {args : List JsString}
    (hnames : NamesDevice mac args) :
    ∀ p ∈ r.selected hasUrl args, r.target (beforeEquals mac) = some p := by
  intro p hp
  rw [Registry.selected] at hp
  split at hp
  · cases hp
  · rwa [selectedDeviceMac_eq hnames] at hp

theorem selected_onlyName {db : DevicesDb} {r : Registry} (h : r.Ok db)
    (mac : JsString) :
    r.selected (fun _ => true) (onlyName mac) =
      r.target (beforeEquals mac) := by
  rw [Registry.selected, selectedDeviceMac_eq (namesDevice_onlyName mac)]
  cases htarget : r.target (beforeEquals mac) with
  | none => exact ite_self none
  | some p =>
      obtain ⟨rest, hlist⟩ := List.head?_eq_some_iff.1 htarget
      obtain ⟨d, hd⟩ := h.exists_target htarget
      refine if_neg (selectSends_ne_nil.2 ⟨getArgNeedHelp_onlyName mac, ?_⟩)
      refine selectGoesOn_onlyName d.toDevice ?_ rfl
      show (((r.getDeviceList _).filterMap _).map _).head? = _
      rw [hlist, List.filterMap_cons, hd]
      rfl

/-! ## Both -/

/-- In every state of every run, a request for the device of an address goes to
no other device just if the address, and what `select` makes of it, look up
this device or none. -/
theorem controlTarget_iff {db : DevicesDb} {port : Nat} {es : List AppEvent}
    {s : App} (h : AppRun db port .start es s) (mac : JsString) :
    ((∀ side data s', NamesMac mac data →
        appStep db port s (.message side data) = some s' →
        ∀ p ∈ s.asked s', s.registry.deviceStore.get mac = some p) ∧
      (∀ hasUrl args, NamesDevice mac args →
        ∀ p ∈ s.registry.selected hasUrl args,
          s.registry.deviceStore.get mac = some p)) ↔
      s.registry.LooksUp mac mac ∧
        s.registry.LooksUp (beforeEquals mac) mac := by
  have hok : s.registry.Ok db := ok_of_run h
  rw [← looksUp_iff hok, ← looksUp_iff hok]
  refine and_congr ?_ ?_
  · constructor
    · intro hall p hp
      by_cases hmac : mac = js "*"
      · subst hmac
        refine hall .homePage _ _ namesMac_allDevicesMsg rfl p ?_
        rwa [asked_allDevicesMsg, Option.mem_toList]
      · rwa [target_eq, if_neg hmac] at hp
    · rintro hall side data s' hnames hstep p hp
      obtain rfl := Option.some.inj hstep
      exact hall p (asked_names side hnames p hp)
  · constructor
    · intro hall p hp
      refine hall (fun _ => true) _ (namesDevice_onlyName mac) p ?_
      rwa [selected_onlyName hok]
    · intro hall hasUrl args hnames p hp
      exact hall p (selected_names hasUrl hnames p hp)

/-- The server knows one device, `a`. -/
def knowsA : App := App.start.act (fun _ => none) (.setDevice reportA)

theorem appRun_knowsA :
    AppRun (fun _ => none) 80 .start [.setDevice reportA] knowsA :=
  .cons rfl (.nil _)

theorem controlTarget_a :
    (∀ side data s', NamesMac (js "a") data →
        appStep (fun _ => none) 80 knowsA (.message side data) = some s' →
        ∀ p ∈ knowsA.asked s',
          knowsA.registry.deviceStore.get (js "a") = some p) ∧
      (∀ hasUrl args, NamesDevice (js "a") args →
        ∀ p ∈ knowsA.registry.selected hasUrl args,
          knowsA.registry.deviceStore.get (js "a") = some p) := by
  have hname : js "a" ≠ js "*" := by decide
  have hlooks : knowsA.registry.LooksUp (js "a") (js "a") := by
    rw [Registry.LooksUp, if_neg hname]
    exact .inl rfl
  exact (controlTarget_iff appRun_knowsA (js "a")).2 ⟨hlooks, hlooks⟩

/-- There is no device of the name `*`, and `a` gets the request. -/
theorem asked_other :
    ∃ s s' data, AppRun (fun _ => none) 80 .start [.setDevice reportA] s ∧
      NamesMac (js "*") data ∧
      appStep (fun _ => none) 80 s (.message .homePage data) = some s' ∧
      s.asked s' = [0] ∧
      (s.registry.heap[0]?).map StoredDevice.mac = some (js "a") ∧
      s.registry.deviceStore.get (js "*") = none :=
  ⟨knowsA, _, Json.text allDevicesMsg, appRun_knowsA, namesMac_allDevicesMsg,
    rfl, asked_allDevicesMsg knowsA .homePage, rfl, rfl⟩

end IotHome.Server
