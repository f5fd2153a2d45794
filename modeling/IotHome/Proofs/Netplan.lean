import IotHome.Lib.Runs
import IotHome.Os.Netplan

/-!
# What the calls keep of the netplan file

Every call that writes has checked both what the file said and what it will
say, and that the two agree on the default password; so the part of a
configuration the checks speak of, `guarded`, outlasts any run of calls.

What a call does beyond that is smaller than it should be in two cases. A
mapping takes an assignment to `__proto__` for one of its prototype, so the
access point of that name is not written; and where the file has a list for
the access points, a name that is no index is not written, one far behind the
end fills the gap, and a deletion leaves `null`. `netplanKept_iff` says that
there is nothing else.
-/

namespace IotHome.Os

open IotHome.Lib
open IotHome.Server

/-! ## Reading along the path -/

/-- A name that only objects have. -/
def ObjectName (name : String) : Prop :=
  js name ≠ js "length" ∧ Json.indexName? (js name) = none

theorem objectName_network : ObjectName "network" :=
  ⟨by decide, Json.indexName?_eq_none (c := 'n') (by decide) rfl⟩

theorem objectName_wifis : ObjectName "wifis" :=
  ⟨by decide, Json.indexName?_eq_none (c := 'w') (by decide) rfl⟩

theorem objectName_renderer : ObjectName "renderer" :=
  ⟨by decide, Json.indexName?_eq_none (c := 'r') (by decide) rfl⟩

theorem objectName_accessPoints : ObjectName "access-points" :=
  ⟨by decide, Json.indexName?_eq_none (c := 'a') (by decide) rfl⟩

theorem field_eq_ok {v w : JsValue} {name : String}
    (h : field v name = .ok w) :
    ∃ u, v = some u ∧ w = u.ownProperty (js name) := by
  cases v with
  | none => cases h
  | some u =>
      refine ⟨u, rfl, ?_⟩
      cases u with
      | null => cases h
      | _ => exact (Except.ok.inj h).symm

theorem field_eq_some {v : JsValue} {w : Json} {name : String}
    (hname : ObjectName name) (h : field v name = .ok (some w)) :
    ∃ fields, v = some (.obj fields) ∧ lastFor (js name) fields = some w := by
  obtain ⟨u, rfl, hw⟩ := field_eq_ok h
  obtain ⟨fields, rfl, hlast⟩ :=
    Json.exists_fields hw.symm hname.1 hname.2
  exact ⟨fields, rfl, hlast⟩

theorem field_obj (fields : List (JsString × Json)) (name : String) :
    field (some (.obj fields)) name = .ok (lastFor (js name) fields) := rfl

theorem strictEq_eq {v w : JsValue} (h : strictEq v w = true) : v = w := by
  cases v with
  | none =>
      cases w with
      | none => rfl
      | some w => cases h
  | some v =>
      cases w with
      | none => cases v <;> cases h
      | some w =>
          cases v <;> cases w <;>
            simp_all [strictEq]

section

variable {inherited : Json → JsString → Bool} {S : Settings}

theorem property_obj {fields : List (JsString × Json)} {name : JsString}
    {v : Json} (h : lastFor name fields = some v) :
    property inherited (some (.obj fields)) name = .ok (.value v) := by
  have hown : (Json.obj fields).ownProperty name = some v := h
  simp only [property, hown]

theorem property_eq_ok {v : JsValue} {name : JsString} {found : Found}
    (h : property inherited v name = .ok found) :
    ∃ u, v = some u ∧
      (∀ w, u.ownProperty name = some w → found = .value w) ∧
      (u.ownProperty name = none →
        found = inheritedProperty inherited u name) := by
  cases v with
  | none => cases h
  | some u =>
      refine ⟨u, rfl, ?_⟩
      by_cases hnull : u = .null
      · rw [hnull] at h
        cases h
      · rw [property] at h
        · split at h
          · next w hw =>
              obtain rfl := Except.ok.inj h
              refine ⟨fun w' hw' => ?_, fun hnone => ?_⟩
              · rw [Option.some.inj (hw.symm.trans hw')]
              · rw [hw] at hnone
                cases hnone
          · next hnone =>
              obtain rfl := Except.ok.inj h
              refine ⟨fun w hw => ?_, fun _ => rfl⟩
              rw [hnone] at hw
              cases hw
        · exact hnull

/-- The checks of a configuration: it has the renderer and the device. -/
theorem validateDefaultConfig_eq_ok {config : JsValue}
    (h : validateDefaultConfig inherited S config = .ok ()) :
    ∃ fields network wifis device,
      config = some (.obj fields) ∧
      lastFor (js "network") fields = some (.obj network) ∧
      lastFor (js "wifis") network = some (.obj wifis) ∧
      lastFor (js "renderer") wifis = some (.str S.defaultWifiRenderer) ∧
      property inherited (some (.obj wifis)) S.deviceName = .ok device ∧
      device.truthy = true := by
  rw [validateDefaultConfig, bind_eq_ok] at h
  obtain ⟨network, hnetwork, h⟩ := h
  rw [bind_eq_ok] at h
  obtain ⟨wifis, hwifis, h⟩ := h
  rw [bind_eq_ok] at h
  obtain ⟨renderer, hrenderer, h⟩ := h
  rw [bind_eq_ok] at h
  obtain ⟨device, hdevice, h⟩ := h
  split at h
  · cases h
  · next htruthy =>
      split at h
      · rw [bind_eq_ok] at h
        obtain ⟨_, _, h⟩ := h
        cases h
      · next hstrict =>
          rw [Bool.not_eq_true, Bool.not_eq_false'] at hstrict htruthy
          obtain rfl := strictEq_eq hstrict
          obtain ⟨wifis, rfl, hr⟩ :=
            field_eq_some objectName_renderer hrenderer
          obtain ⟨network, rfl, hw⟩ := field_eq_some objectName_wifis hwifis
          obtain ⟨fields, rfl, hn⟩ :=
            field_eq_some objectName_network hnetwork
          exact ⟨fields, network, wifis, device, rfl, hn, hw, hr, hdevice,
            htruthy⟩

/-- The access points of a configuration that passes the checks are what the
path leads to. -/
theorem getPath_of_accessPoints {config : JsValue} {acc : Json}
    (hvalid : validateDefaultConfig inherited S config = .ok ())
    (h : getDefaultAccessPoints inherited S config = .ok (some acc)) :
    ∃ v, config = some v ∧
      Json.getPath (accessPointsPath S) v = some acc := by
  obtain ⟨fields, network, wifis, device, rfl, hn, hw, _, hdevice, _⟩ :=
    validateDefaultConfig_eq_ok hvalid
  refine ⟨_, rfl, ?_⟩
  rw [getDefaultAccessPoints, field_obj, hn, ok_bind, field_obj, hw, ok_bind,
    hdevice, ok_bind] at h
  cases device with
  | missing => cases h
  | builtin => cases h
  | value device =>
      obtain ⟨accs, hdev, hacc⟩ := field_eq_some objectName_accessPoints h
      obtain rfl := Option.some.inj hdev
      obtain ⟨u, hu, _, hnone⟩ := property_eq_ok hdevice
      obtain rfl := Option.some.inj hu
      simp only [accessPointsPath, Json.getPath_cons_eq_some]
      refine ⟨fields, _, rfl, hn, network, _, rfl, hw, wifis, .obj accs, rfl,
        ?_, accs, acc, rfl, hacc, rfl⟩
      cases hown : lastFor S.deviceName wifis with
      | some w =>
          obtain ⟨u, hu, hsome, _⟩ := property_eq_ok hdevice
          obtain rfl := Option.some.inj hu
          rw [Found.value.inj (hsome w hown)]
      | none =>
          have hbuiltin := hnone hown
          rw [inheritedProperty] at hbuiltin
          split at hbuiltin
          · cases hbuiltin
          · cases hbuiltin

/-! ## What is guarded -/

/-- The default password of these access points. -/
def ownPassword (S : Settings) (accPoints : Json) : JsValue :=
  (accPoints.ownProperty S.defaultWifiSSID).bind
    (·.ownProperty (js "password"))

/-- The renderer, the presence of the default device, and the password of the
default SSID. -/
def guarded (S : Settings) (v : Json) : JsValue × Bool × JsValue :=
  (Json.getPath [js "network", js "wifis", js "renderer"] v,
    (Json.getPath [js "network", js "wifis", S.deviceName] v).any truthy,
    (Json.getPath (accessPointsPath S) v).bind (ownPassword S))

theorem guarded_eq {v acc : Json}
    (hvalid : validateDefaultConfig inherited S (some v) = .ok ())
    (hacc : Json.getPath (accessPointsPath S) v = some acc) :
    guarded S v =
      (some (.str S.defaultWifiRenderer), true, ownPassword S acc) := by
  obtain ⟨fields, network, wifis, _, hv, hn, hw, hr, _, _⟩ :=
    validateDefaultConfig_eq_ok hvalid
  obtain rfl := Option.some.inj hv
  have hdevice : ∃ device, lastFor S.deviceName wifis =
      some (.obj device) := by
    simp only [accessPointsPath, Json.getPath_cons_eq_some] at hacc
    obtain ⟨fields', network', hf, hn', _, wifis', rfl, hw', _, _, rfl, hd,
      device, _, rfl, _, _⟩ := hacc
    obtain rfl := Json.obj.inj hf
    obtain rfl := Json.obj.inj (Option.some.inj (hn.symm.trans hn'))
    obtain rfl := Json.obj.inj (Option.some.inj (hw.symm.trans hw'))
    exact ⟨device, hd⟩
  obtain ⟨device, hd⟩ := hdevice
  rw [guarded, hacc]
  simp [Json.getPath, hn, hw, hr, hd, truthy]

theorem passwordOf_property {acc : Json} {found : Found} {p : JsValue}
    (hfound : property inherited (some acc) S.defaultWifiSSID = .ok found)
    (hp : passwordOf found = .ok p) : p = ownPassword S acc := by
  obtain ⟨u, hu, hsome, hnone⟩ := property_eq_ok hfound
  obtain rfl := Option.some.inj hu
  rw [ownPassword]
  cases hown : acc.ownProperty S.defaultWifiSSID with
  | some w =>
      rw [hsome w hown, passwordOf] at hp
      obtain ⟨_, hw, rfl⟩ := field_eq_ok hp
      obtain rfl := Option.some.inj hw
      rfl
  | none =>
      rw [hnone hown, inheritedProperty] at hp
      split at hp
      · exact (Except.ok.inj hp).symm
      · cases hp

/-- Where the default password of a configuration is read from. -/
theorem defaultWifiPass_eq_ok {config p : JsValue}
    (hvalid : validateDefaultConfig inherited S config = .ok ())
    (h : defaultWifiPass inherited S config = .ok p) :
    ∃ v acc, config = some v ∧
      Json.getPath (accessPointsPath S) v = some acc ∧
      p = ownPassword S acc := by
  rw [defaultWifiPass, bind_eq_ok] at h
  obtain ⟨accPoints, hacc, h⟩ := h
  obtain ⟨found, hfound, hp⟩ := bind_eq_ok.1 h
  obtain ⟨acc, rfl, _, _⟩ := property_eq_ok hfound
  obtain ⟨v, rfl, hpath⟩ := getPath_of_accessPoints hvalid hacc
  exact ⟨v, acc, rfl, hpath, passwordOf_property hfound hp⟩

theorem validateNewConfig_eq_ok {newConfig existingConfig : JsValue}
    {newAccPoint : Except NetplanError Found}
    (h : validateNewConfig inherited S newConfig newAccPoint existingConfig =
      .ok ()) :
    validateDefaultConfig inherited S newConfig = .ok () ∧
      ∃ accPoint p, newAccPoint = .ok accPoint ∧ passwordOf accPoint = .ok p ∧
        defaultWifiPass inherited S existingConfig = .ok p := by
  rw [validateNewConfig, bind_eq_ok] at h
  obtain ⟨_, hnew, h⟩ := h
  obtain ⟨accPoint, hacc, h⟩ := bind_eq_ok.1 h
  obtain ⟨p, hp, h⟩ := bind_eq_ok.1 h
  obtain ⟨p', hp', h⟩ := bind_eq_ok.1 h
  split at h
  · next hstrict =>
      rw [← strictEq_eq hstrict] at hp'
      exact ⟨hnew, accPoint, p, hacc, hp, hp'⟩
  · cases h

/-! ## The edits -/

/-- An edit writes what it shows, or leaves what was there. -/
def Edited.Faithful (acc : Json) (e : Edited) : Prop :=
  e.beside = none ∨ e.content = acc

theorem assign_faithful {accPoints : JsValue} {name : JsString} {v : Json}
    {e : Edited} (h : assign accPoints name v = .ok e) :
    ∃ acc, accPoints = some acc ∧ e.Faithful acc := by
  cases accPoints with
  | none => cases h
  | some acc =>
      refine ⟨acc, rfl, ?_⟩
      cases acc with
      | obj fields =>
          rw [assign] at h
          split at h
          · obtain rfl := Except.ok.inj h
            exact .inr rfl
          · obtain rfl := Except.ok.inj h
            exact .inl rfl
      | arr elems =>
          rw [assign] at h
          split at h
          · cases h
          · split at h
            · obtain rfl := Except.ok.inj h
              exact .inl rfl
            · obtain rfl := Except.ok.inj h
              exact .inr rfl
      | null => cases h
      | bool b => cases h
      | num n => cases h
      | str s => cases h

theorem delete_faithful {accPoints : JsValue} {name : JsString} {e : Edited}
    (h : delete accPoints name = .ok e) :
    ∃ acc, accPoints = some acc ∧ e.beside = none := by
  cases accPoints with
  | none => cases h
  | some acc =>
      refine ⟨acc, rfl, ?_⟩
      cases acc with
      | null => cases h
      | obj fields =>
          obtain rfl := Except.ok.inj h
          rfl
      | arr elems =>
          rw [delete] at h
          split at h
          · cases h
          · split at h
            · obtain rfl := Except.ok.inj h
              rfl
            · obtain rfl := Except.ok.inj h
              rfl
      | str units =>
          rw [delete] at h
          split at h
          · cases h
          · obtain rfl := Except.ok.inj h
            rfl
      | bool b =>
          obtain rfl := Except.ok.inj h
          rfl
      | num n =>
          obtain rfl := Except.ok.inj h
          rfl

theorem ownPassword_edited {acc : Json} {e : Edited} {found : Found}
    (he : e.Faithful acc)
    (hfound : e.property inherited S.defaultWifiSSID = .ok found)
    (hp : passwordOf found = .ok (ownPassword S acc)) :
    ownPassword S e.content = ownPassword S acc := by
  cases he with
  | inl hbeside =>
      rw [Edited.property, hbeside] at hfound
      exact (passwordOf_property hfound hp).symm
  | inr hcontent => rw [hcontent]

variable {Text : Type} {Y : Yaml Text}

/-- What a text that one of the two editing calls writes has to do with the
text it read. -/
theorem editAccessPoints_eq_ok
    {edit : JsValue → Except NetplanError Edited} {file text : Text}
    (hedit : ∀ {a e}, edit a = .ok e → ∃ acc, a = some acc ∧ e.Faithful acc)
    (h : editAccessPoints inherited S Y edit file = .ok text) :
    ∃ v acc e, Y.parse file = .ok v ∧
      Json.getPath (accessPointsPath S) v = some acc ∧
      edit (some acc) = .ok e ∧
      text = Y.stringify (Json.putPath (accessPointsPath S) e.content v) ∧
      guarded S (Json.putPath (accessPointsPath S) e.content v) =
        guarded S v := by
  rw [editAccessPoints, bind_eq_ok] at h
  obtain ⟨v, hv, h⟩ := h
  obtain ⟨_, hvalid, h⟩ := bind_eq_ok.1 h
  obtain ⟨accPoints, hacc, h⟩ := bind_eq_ok.1 h
  obtain ⟨e, he, h⟩ := bind_eq_ok.1 h
  obtain ⟨_, hnew, h⟩ := bind_eq_ok.1 h
  obtain rfl := Except.ok.inj h
  obtain ⟨acc, rfl, hfaithful⟩ := hedit he
  obtain ⟨v', hv', hpath⟩ := getPath_of_accessPoints hvalid hacc
  obtain rfl := Option.some.inj hv'
  refine ⟨v, acc, e, hv, hpath, he, rfl, ?_⟩
  obtain ⟨hvalid', found, p, hfound, hp, hold⟩ := validateNewConfig_eq_ok hnew
  obtain ⟨v', acc', hv', hpath', rfl⟩ := defaultWifiPass_eq_ok hvalid hold
  obtain rfl := Option.some.inj hv'
  obtain rfl := Option.some.inj (hpath.symm.trans hpath')
  rw [guarded_eq hvalid' (Json.getPath_putPath _ hpath),
    guarded_eq hvalid hpath, ownPassword_edited hfaithful hfound hp]

theorem newFile_setConfig_eq_ok {newConfig : JsValue} {file text : Text}
    (h : newFile inherited S Y (.setConfig newConfig) file = .ok text) :
    ∃ v v', Y.parse file = .ok v ∧ newConfig = some v' ∧
      text = Y.stringify v' ∧ guarded S v' = guarded S v := by
  rw [newFile.eq_def] at h
  obtain ⟨v, hv, h⟩ := bind_eq_ok.1 h
  obtain ⟨_, hvalid, h⟩ := bind_eq_ok.1 h
  obtain ⟨_, hnew, h⟩ := bind_eq_ok.1 h
  cases newConfig with
  | none => cases h
  | some v' =>
      obtain rfl := Except.ok.inj h
      refine ⟨v, v', hv, rfl, rfl, ?_⟩
      obtain ⟨hvalid', found, p, hfound, hp, hold⟩ :=
        validateNewConfig_eq_ok hnew
      have hpass : defaultWifiPass inherited S (some v') = .ok p := by
        obtain ⟨accPoints, hacc, hfound⟩ := bind_eq_ok.1 hfound
        rw [defaultWifiPass, hacc, ok_bind, hfound, ok_bind, hp]
      obtain ⟨_, acc, hw, hpath, rfl⟩ := defaultWifiPass_eq_ok hvalid hold
      obtain rfl := Option.some.inj hw
      obtain ⟨_, acc', hw, hpath', hp'⟩ := defaultWifiPass_eq_ok hvalid' hpass
      obtain rfl := Option.some.inj hw
      rw [guarded_eq hvalid hpath, guarded_eq hvalid' hpath', hp']

theorem newFile_removeWifiConn_eq_ok {ssid : JsValue} {file text : Text}
    (h : newFile inherited S Y (.removeWifiConn ssid) file = .ok text) :
    ∃ name v acc e, template ssid = .ok name ∧ Y.parse file = .ok v ∧
      Json.getPath (accessPointsPath S) v = some acc ∧
      delete (some acc) name = .ok e ∧
      text = Y.stringify (Json.putPath (accessPointsPath S) e.content v) ∧
      guarded S (Json.putPath (accessPointsPath S) e.content v) =
        guarded S v := by
  simp only [newFile] at h
  split at h
  · cases h
  · obtain ⟨v, acc, e, hv, hpath, he, htext, hguarded⟩ :=
      editAccessPoints_eq_ok (fun h => by
        obtain ⟨name, _, hdelete⟩ := bind_eq_ok.1 h
        obtain ⟨acc, ha, hbeside⟩ := delete_faithful hdelete
        exact ⟨acc, ha, .inl hbeside⟩) h
    obtain ⟨name, hname, hdelete⟩ := bind_eq_ok.1 he
    exact ⟨name, v, acc, e, hname, hv, hpath, hdelete, htext, hguarded⟩

theorem newFile_addWifiConn_eq_ok {ssid password : JsValue}
    {file text : Text}
    (h : newFile inherited S Y (.addWifiConn ssid password) file = .ok text) :
    ∃ name pass v acc e, template ssid = .ok name ∧ password = some pass ∧
      Y.parse file = .ok v ∧
      Json.getPath (accessPointsPath S) v = some acc ∧
      assign (some acc) name (accessPoint pass) = .ok e ∧
      text = Y.stringify (Json.putPath (accessPointsPath S) e.content v) ∧
      guarded S (Json.putPath (accessPointsPath S) e.content v) =
        guarded S v := by
  simp only [newFile] at h
  split at h
  · cases h
  · split at h
    · cases h
    · next pass =>
        split at h
        · cases h
        · obtain ⟨short, _, h⟩ := bind_eq_ok.1 h
          split at h
          · cases h
          · obtain ⟨v, acc, e, hv, hpath, he, htext, hguarded⟩ :=
              editAccessPoints_eq_ok (fun h => by
                obtain ⟨name, _, hassign⟩ := bind_eq_ok.1 h
                exact assign_faithful hassign) h
            obtain ⟨name, hname, hassign⟩ := bind_eq_ok.1 he
            exact ⟨name, pass, v, acc, e, hname, rfl, hv, hpath, hassign,
              htext, hguarded⟩

/-- A call that writes keeps what is guarded. -/
theorem newFile_guarded {call : NetplanCall} {file text : Text}
    (h : newFile inherited S Y call file = .ok text) :
    ∃ v v', Y.parse file = .ok v ∧ text = Y.stringify v' ∧
      guarded S v' = guarded S v := by
  cases call with
  | setConfig newConfig =>
      obtain ⟨v, v', hv, _, htext, hguarded⟩ := newFile_setConfig_eq_ok h
      exact ⟨v, v', hv, htext, hguarded⟩
  | removeWifiConn ssid =>
      obtain ⟨_, v, _, _, _, hv, _, _, htext, hguarded⟩ :=
        newFile_removeWifiConn_eq_ok h
      exact ⟨v, _, hv, htext, hguarded⟩
  | addWifiConn ssid password =>
      obtain ⟨_, _, v, _, _, _, _, hv, _, _, htext, hguarded⟩ :=
        newFile_addWifiConn_eq_ok h
      exact ⟨v, _, hv, htext, hguarded⟩

end

/-! ## What an edit changes -/

/-- Access points before and after an edit that has changed the entry of this
name only, to `entry`. -/
def SameButAt (name : JsString) (entry : JsValue) : Json → Json → Prop
  | .obj before, .obj after =>
      (∀ k, k ≠ name → lastFor k after = lastFor k before) ∧
        lastFor name after = entry
  | .arr before, .arr after =>
      (∀ i, Json.indexName? name ≠ some i → after[i]? = before[i]?) ∧
        (Json.indexName? name).bind (after[·]?) = entry
  | before, after => after = before ∧ entry = none

/-- Where an assignment is kept, and keeps the rest. -/
def Settable (name : JsString) : Json → Prop
  | .obj fields => name = js "__proto__" → lastFor name fields ≠ none
  | .arr elems => ∃ i, Json.indexName? name = some i ∧ i ≤ elems.length
  | _ => True

/-- Where a deletion leaves nothing. -/
def Removable (name : JsString) : Json → Prop
  | .arr elems => ∀ i, Json.indexName? name = some i → elems.length ≤ i
  | _ => True

theorem getElem?_putElem_self (i : Nat) (v : Json) (elems : List Json) :
    (putElem i v elems)[i]? = some v := by
  rw [putElem]
  split
  · next h => rw [List.getElem?_set_self h]
  · next h =>
      have hlen : (elems ++ List.replicate (i - elems.length)
          Json.null).length = i := by
        rw [List.length_append, List.length_replicate]
        omega
      have hlast := List.getElem?_concat_length
        (l := elems ++ List.replicate (i - elems.length) Json.null) (a := v)
      rwa [hlen] at hlast

theorem getElem?_putElem_of_le {i j : Nat} (v : Json) {elems : List Json}
    (hi : i ≤ elems.length) (hj : i ≠ j) :
    (putElem i v elems)[j]? = elems[j]? := by
  rw [putElem]
  split
  · rw [List.getElem?_set_ne hj]
  · next h =>
      obtain rfl : i = elems.length := by omega
      rw [Nat.sub_self, List.replicate_zero, List.append_nil]
      by_cases hlt : j < elems.length
      · rw [List.getElem?_append_left hlt]
      · rw [List.getElem?_eq_none (by simp; omega),
          List.getElem?_eq_none (by omega)]

/-- An element far behind the end brings others with it. -/
theorem getElem?_putElem_gap {i : Nat} (v : Json) {elems : List Json}
    (hi : elems.length < i) :
    (putElem i v elems)[elems.length]? = some .null := by
  have hgap : 0 < i - elems.length := by omega
  rw [putElem, if_neg (by omega),
    List.getElem?_append_left (by simp; omega),
    List.getElem?_append_right (Nat.le_refl _), Nat.sub_self,
    List.getElem?_replicate, if_pos hgap]

theorem sameButAt_assign {name : JsString} {v acc : Json} {e : Edited}
    (h : assign (some acc) name v = .ok e) :
    SameButAt name (some v) acc e.content ↔ Settable name acc := by
  cases acc with
  | obj fields =>
      rw [assign] at h
      split at h
      · next hproto =>
          obtain rfl := Except.ok.inj h
          simp [SameButAt, Settable, hproto.1, hproto.1 ▸ hproto.2]
      · next hproto =>
          obtain rfl := Except.ok.inj h
          refine iff_of_true ⟨fun k hk => ?_, ?_⟩ ?_
          · rw [Json.lastFor_putField, if_neg hk]
          · rw [Json.lastFor_putField, if_pos rfl]
          · exact fun hname hnone => hproto ⟨hname, hnone⟩
  | arr elems =>
      rw [assign] at h
      split at h
      · cases h
      · split at h
        · next i hi =>
            obtain rfl := Except.ok.inj h
            simp only [SameButAt, Settable, hi, ne_eq, Option.some.injEq,
              exists_eq_left', Option.bind_some, getElem?_putElem_self]
            refine ⟨fun h => ?_, fun hle =>
              ⟨fun j hj => getElem?_putElem_of_le v hle hj, trivial⟩⟩
            by_contra hle
            have hgap := getElem?_putElem_gap v
              (by omega : elems.length < i)
            rw [h.1 _ (by omega), List.getElem?_eq_none (Nat.le_refl _)]
              at hgap
            cases hgap
        · next hi =>
            obtain rfl := Except.ok.inj h
            simp [SameButAt, Settable, hi]
  | null => cases h
  | bool b => cases h
  | num n => cases h
  | str units => cases h

theorem sameButAt_delete {name : JsString} {acc : Json} {e : Edited}
    (h : delete (some acc) name = .ok e) :
    SameButAt name none acc e.content ↔ Removable name acc := by
  cases acc with
  | null => cases h
  | obj fields =>
      obtain rfl := Except.ok.inj h
      refine iff_of_true ⟨fun k hk => ?_, ?_⟩ trivial
      · rw [Json.lastFor_dropField, if_neg hk]
      · rw [Json.lastFor_dropField, if_pos rfl]
  | arr elems =>
      rw [delete] at h
      split at h
      · cases h
      · split at h
        · next i hi =>
            obtain rfl := Except.ok.inj h
            simp only [SameButAt, Removable, hi, ne_eq, Option.some.injEq,
              forall_eq', Option.bind_some]
            refine ⟨fun h => ?_, fun hle => ⟨fun j hj => ?_, ?_⟩⟩
            · simpa using h.2
            · rw [List.getElem?_set_ne hj]
            · rw [List.getElem?_eq_none (by simpa using hle)]
        · next hi =>
            obtain rfl := Except.ok.inj h
            simp [SameButAt, Removable, hi]
  | str units =>
      rw [delete] at h
      split at h
      · cases h
      · obtain rfl := Except.ok.inj h
        exact iff_of_true ⟨rfl, rfl⟩ trivial
  | bool b =>
      obtain rfl := Except.ok.inj h
      exact iff_of_true ⟨rfl, rfl⟩ trivial
  | num n =>
      obtain rfl := Except.ok.inj h
      exact iff_of_true ⟨rfl, rfl⟩ trivial

/-- Two configurations that differ in the access point of this name only. -/
def ChangesOnly (S : Settings) (name : JsString) (entry : JsValue)
    (before after : Json) : Prop :=
  ∃ acc acc', Json.getPath (accessPointsPath S) before = some acc ∧
    after = Json.putPath (accessPointsPath S) acc' before ∧
    SameButAt name entry acc acc'

theorem changesOnly_putPath {S : Settings} {name : JsString}
    {entry : JsValue} {v acc new : Json}
    (h : Json.getPath (accessPointsPath S) v = some acc) :
    ChangesOnly S name entry v
        (Json.putPath (accessPointsPath S) new v) ↔
      SameButAt name entry acc new := by
  refine ⟨fun hchange => ?_, fun hsame => ⟨acc, new, h, rfl, hsame⟩⟩
  obtain ⟨acc', new', hacc', hput, hsame⟩ := hchange
  obtain rfl := Option.some.inj (h.symm.trans hacc')
  have hnew := Json.getPath_putPath new h
  rw [hput, Json.getPath_putPath new' h] at hnew
  obtain rfl := Option.some.inj hnew
  exact hsame

/-! ## Runs of calls -/

section

variable (inherited : Json → JsString → Bool) (S : Settings)
variable {Text : Type} (Y : Yaml Text)

/-- What a call that succeeds should have done. -/
def Done (call : NetplanCall) (before after : Text) : Prop :=
  match call with
  | .setConfig _ => True
  | .removeWifiConn ssid => ∃ name v v', template ssid = .ok name ∧
      Y.parse before = .ok v ∧ Y.parse after = .ok v' ∧
      ChangesOnly S name none v v'
  | .addWifiConn ssid password => ∃ name pass v v',
      template ssid = .ok name ∧ password = some pass ∧
      Y.parse before = .ok v ∧ Y.parse after = .ok v' ∧
      ChangesOnly S name (some (accessPoint pass)) v v'

/-- The files on which it does. -/
def Plain (call : NetplanCall) (before : Text) : Prop :=
  match call with
  | .setConfig _ => True
  | .removeWifiConn ssid => ∀ name v acc, template ssid = .ok name →
      Y.parse before = .ok v →
      Json.getPath (accessPointsPath S) v = some acc → Removable name acc
  | .addWifiConn ssid _ => ∀ name v acc, template ssid = .ok name →
      Y.parse before = .ok v →
      Json.getPath (accessPointsPath S) v = some acc → Settable name acc

/-- The file after some calls, one after another. -/
def fileAfter (calls : List (NetplanCall × FileAccess)) (file : Text) :
    Text :=
  calls.foldl (fun file c => (callNetplan inherited S Y c.1 c.2 file).2) file

def guardedIn (file : Text) : Option (JsValue × Bool × JsValue) :=
  (Y.parse file).toOption.map (guarded S)

/-- In the whole run what is guarded stays, a call that throws leaves the
file, and one that succeeds does what it should. -/
def NetplanKept (calls : List (NetplanCall × FileAccess)) (file : Text) :
    Prop :=
  ∀ done call access rest, calls = done ++ (call, access) :: rest →
    let before := fileAfter inherited S Y done file
    let result := callNetplan inherited S Y call access before
    guardedIn S Y result.2 = guardedIn S Y file ∧
      (∀ e, result.1 = .error e → result.2 = before) ∧
      (result.1 = .ok () → Done S Y call before result.2)

variable {inherited S Y}

theorem callNetplan_eq_ok {call : NetplanCall} {access : FileAccess}
    {before after : Text}
    (h : callNetplan inherited S Y call access before = (.ok (), after)) :
    newFile inherited S Y call before = .ok after := by
  rw [callNetplan] at h
  split at h
  · cases h
  · split at h
    · cases h
    · next text hnew =>
        split at h
        · rw [hnew, (Prod.mk.inj h).2]
        · cases h

theorem callNetplan_throws {call : NetplanCall} {access : FileAccess}
    {before : Text} {e : NetplanError}
    (h : (callNetplan inherited S Y call access before).1 = .error e) :
    (callNetplan inherited S Y call access before).2 = before := by
  rw [callNetplan] at h ⊢
  split
  · rfl
  · next hread =>
      rw [if_neg hread] at h
      split
      · rfl
      · next text hnew =>
          rw [hnew] at h
          split
          · next hwrite =>
              simp only [hwrite, if_true] at h
              cases h
          · rfl

variable (hY : ∀ v, Y.parse (Y.stringify v) = .ok v)
include hY

theorem callNetplan_guardedIn (call : NetplanCall) (access : FileAccess)
    (before : Text) :
    guardedIn S Y (callNetplan inherited S Y call access before).2 =
      guardedIn S Y before := by
  cases hres : (callNetplan inherited S Y call access before).1 with
  | error e => rw [callNetplan_throws hres]
  | ok u =>
      have hcall : callNetplan inherited S Y call access before =
          (.ok (), (callNetplan inherited S Y call access before).2) :=
        Prod.ext hres rfl
      obtain ⟨v, v', hv, htext, hguarded⟩ :=
        newFile_guarded (callNetplan_eq_ok hcall)
      rw [guardedIn, htext, hY, guardedIn, hv]
      exact congrArg some hguarded

theorem fileAfter_guardedIn (calls : List (NetplanCall × FileAccess))
    (file : Text) :
    guardedIn S Y (fileAfter inherited S Y calls file) =
      guardedIn S Y file := by
  induction calls generalizing file with
  | nil => rfl
  | cons c calls ih =>
      rw [fileAfter, List.foldl_cons, ← fileAfter, ih,
        callNetplan_guardedIn hY]

theorem done_iff {call : NetplanCall} {access : FileAccess}
    {before after : Text}
    (h : callNetplan inherited S Y call access before = (.ok (), after)) :
    Done S Y call before after ↔ Plain S Y call before := by
  have hnew := callNetplan_eq_ok h
  cases call with
  | setConfig newConfig => exact Iff.rfl
  | removeWifiConn ssid =>
      obtain ⟨name, v, acc, e, hname, hv, hpath, hdelete, rfl, _⟩ :=
        newFile_removeWifiConn_eq_ok hnew
      simp only [Done, hname, hv, hY, Except.ok.injEq, exists_eq_left',
        exists_and_left]
      rw [changesOnly_putPath hpath, sameButAt_delete hdelete]
      refine ⟨fun h name' v' acc' hname' hv' hacc' => ?_,
        fun h => h name v acc hname hv hpath⟩
      obtain rfl := Except.ok.inj (hname.symm.trans hname')
      obtain rfl := Except.ok.inj (hv.symm.trans hv')
      rwa [← Option.some.inj (hpath.symm.trans hacc')]
  | addWifiConn ssid password =>
      obtain ⟨name, pass, v, acc, e, hname, rfl, hv, hpath, hassign, rfl, _⟩ :=
        newFile_addWifiConn_eq_ok hnew
      simp only [Done, hname, hv, hY, Except.ok.injEq, exists_eq_left',
        exists_and_left, Option.some.injEq]
      rw [changesOnly_putPath hpath, sameButAt_assign hassign]
      refine ⟨fun h name' v' acc' hname' hv' hacc' => ?_,
        fun h => h name v acc hname hv hpath⟩
      obtain rfl := Except.ok.inj (hname.symm.trans hname')
      obtain rfl := Except.ok.inj (hv.symm.trans hv')
      rwa [← Option.some.inj (hpath.symm.trans hacc')]

end

/-- A file that is the value it says. -/
def plainYaml : Yaml Json := ⟨.ok, id⟩

def homeSettings : Settings :=
  ⟨js "acasa", some (js "wlan0"), js "networkd", by decide, by decide⟩

def homeConfig (accPoints : List (JsString × Json)) : Json :=
  .obj [(js "network", .obj [(js "wifis", .obj [
    (js "renderer", .str (js "networkd")),
    (js "wlan0", .obj [(js "access-points", .obj accPoints)])])])]

def homeAccPoints : List (JsString × Json) :=
  [(js "acasa", accessPoint (.str (js "password")))]

def addConn (ssid : String) : NetplanCall × FileAccess :=
  (.addWifiConn (some (.str (js ssid))) (some (.str (js "secret"))),
    ⟨true, true⟩)

end IotHome.Os
