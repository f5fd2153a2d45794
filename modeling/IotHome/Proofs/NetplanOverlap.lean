import IotHome.Lib.ReadModifyWrite
import IotHome.Proofs.Netplan

/-!
# Calls on the netplan file that overlap

`addWifiConn` and `removeWifiConn` read the file, edit what they read, and
write it, with awaits in between and no lock; the scripts that call them are
processes of their own. `serialisable_iff` says of a schedule of their reads
and writes that the calls come out as if made one after the other just where
none of them writes between another's read and write.
-/

namespace IotHome.Os

open IotHome.Lib
open IotHome.Server

section

variable (inherited : Json → JsString → Bool) {Text : Type} (Y : Yaml Text)

def EditsAccessPoints : NetplanCall → Prop
  | .setConfig _ => False
  | .removeWifiConn _ => True
  | .addWifiConn _ _ => True

/-- What a call makes of the text that it read. -/
def callEdit (S : Settings) (calls : Nat → NetplanCall) (i : Nat)
    (file : Text) : Option Text :=
  (newFile inherited S Y (calls i) file).toOption

def accessPointIn (S : Settings) (file : Text) (ssid : JsString) :
    Option Json :=
  (Y.parse file).toOption.bind fun v =>
    (Json.getPath (accessPointsPath S) v).bind (·.ownProperty ssid)

/-- Calls that all succeed in these reads and writes leave the access points
they leave one after another, in some order. -/
def Serialisable (es : List Access) : Prop :=
  ∀ (S : Settings) (calls : Nat → NetplanCall) (file : Text)
    (s : Shared Text), (∀ i, EditsAccessPoints (calls i)) →
    AccessRun (callEdit inherited Y S calls) (.start file) es s →
    ∃ order file', order.Perm (writers es) ∧
      serial (callEdit inherited Y S calls) file order = some file' ∧
      ∀ ssid, accessPointIn Y S file' ssid = accessPointIn Y S s.content ssid

end

/-! ## Calls that add a name each -/

def apart (i : Nat) : JsString := List.replicate (i + 1) (unit 'x')

theorem apart_inj {i j : Nat} (h : apart i = apart j) : i = j := by
  have hlen := congrArg List.length h
  rw [apart, apart, List.length_replicate, List.length_replicate] at hlen
  omega

theorem apart_ne {i : Nat} {s : JsString} (h : s.head? ≠ some (unit 'x')) :
    apart i ≠ s := by
  intro heq
  rw [← heq] at h
  exact h rfl

def secret : Json := accessPoint (.str (js "secret"))

def addsApart (i : Nat) : NetplanCall :=
  .addWifiConn (some (.str (apart i))) (some (.str (js "secret")))

def addApart (accPoints : List (JsString × Json)) (i : Nat) :
    List (JsString × Json) := Json.putField (apart i) secret accPoints

theorem lastFor_addApart (name : JsString) (i : Nat)
    (accPoints : List (JsString × Json)) :
    lastFor name (addApart accPoints i) =
      if name = apart i then some secret else lastFor name accPoints :=
  Json.lastFor_putField _ _ _ _

/-- The added names are those of the calls. -/
theorem lastFor_foldl_addApart (i : Nat) (calls : List Nat)
    (accPoints : List (JsString × Json)) :
    lastFor (apart i) (calls.foldl addApart accPoints) =
      if i ∈ calls then some secret else lastFor (apart i) accPoints := by
  induction calls generalizing accPoints with
  | nil => simp
  | cons j calls ih =>
      rw [List.foldl_cons, ih, lastFor_addApart]
      by_cases hij : i = j
      · simp [hij]
      · have hname : apart i ≠ apart j := fun h => hij (apart_inj h)
        simp [hij, hname]

section

variable {inherited : Json → JsString → Bool} {Text : Type} {Y : Yaml Text}

theorem validateDefaultConfig_home (accPoints : List (JsString × Json)) :
    validateDefaultConfig inherited homeSettings
      (some (homeConfig accPoints)) = .ok () := rfl

theorem getDefaultAccessPoints_home (accPoints : List (JsString × Json)) :
    getDefaultAccessPoints inherited homeSettings
      (some (homeConfig accPoints)) = .ok (some (.obj accPoints)) := rfl

theorem property_home {accPoints : List (JsString × Json)} {v : Json}
    (h : lastFor (js "acasa") accPoints = some v) :
    property inherited (some (.obj accPoints)) homeSettings.defaultWifiSSID =
      .ok (.value v) := property_obj h

theorem validateNewConfig_home {accPoints accPoints' : List (JsString × Json)}
    {password : JsString}
    (h : lastFor (js "acasa") accPoints =
      some (accessPoint (.str password)))
    (h' : lastFor (js "acasa") accPoints' =
      some (accessPoint (.str password))) :
    validateNewConfig inherited homeSettings (some (homeConfig accPoints'))
      (property inherited (some (.obj accPoints'))
        homeSettings.defaultWifiSSID) (some (homeConfig accPoints)) =
      .ok () := by
  have hfield : passwordOf (.value (accessPoint (.str password))) =
      .ok (some (.str password)) := rfl
  rw [validateNewConfig, validateDefaultConfig_home, ok_bind,
    property_home h', ok_bind, hfield, ok_bind, defaultWifiPass,
    getDefaultAccessPoints_home, ok_bind, property_home h, ok_bind, hfield,
    ok_bind, strictEq]
  simp

variable (hY : ∀ v, Y.parse (Y.stringify v) = .ok v)
include hY

theorem accessPointIn_home (accPoints : List (JsString × Json))
    (ssid : JsString) :
    accessPointIn Y homeSettings (Y.stringify (homeConfig accPoints)) ssid =
      lastFor ssid accPoints := by
  rw [accessPointIn, hY]
  rfl

theorem callEdit_addsApart {accPoints : List (JsString × Json)}
    {password : JsString} (hown : lastFor (js "acasa") accPoints =
      some (accessPoint (.str password))) (i : Nat) :
    callEdit inherited Y homeSettings addsApart i
        (Y.stringify (homeConfig accPoints)) =
      some (Y.stringify (homeConfig (addApart accPoints i))) := by
  have hown' : lastFor (js "acasa") (addApart accPoints i) =
      some (accessPoint (.str password)) := by
    rw [lastFor_addApart, if_neg (Ne.symm (apart_ne (by decide))), hown]
  have hassign : assign (some (.obj accPoints)) (apart i) secret =
      .ok ⟨.obj (addApart accPoints i), none⟩ := by
    rw [assign, if_neg fun h => apart_ne (by decide) h.1]
    rfl
  have hput : Json.putPath (accessPointsPath homeSettings)
      (.obj (addApart accPoints i)) (homeConfig accPoints) =
      homeConfig (addApart accPoints i) := rfl
  have hafter : Edited.property inherited
      ⟨.obj (addApart accPoints i), none⟩ homeSettings.defaultWifiSSID =
      property inherited (some (.obj (addApart accPoints i)))
        homeSettings.defaultWifiSSID := rfl
  have hedit : editAccessPoints inherited homeSettings Y (fun accPoints => do
        let name ← template (some (.str (apart i)))
        assign accPoints name secret) (Y.stringify (homeConfig accPoints)) =
      .ok (Y.stringify (homeConfig (addApart accPoints i))) := by
    rw [editAccessPoints, hY, ok_bind, validateDefaultConfig_home, ok_bind,
      getDefaultAccessPoints_home, ok_bind]
    show (assign (some (.obj accPoints)) (apart i) secret >>= _) = _
    rw [hassign, ok_bind]
    simp only [hput]
    rw [hafter, validateNewConfig_home hown hown', ok_bind]
    rfl
  have hnew : newFile inherited homeSettings Y (addsApart i)
      (Y.stringify (homeConfig accPoints)) =
      .ok (Y.stringify (homeConfig (addApart accPoints i))) := hedit
  rw [callEdit, hnew]
  rfl

theorem serial_addsApart {accPoints : List (JsString × Json)}
    {password : JsString} (hown : lastFor (js "acasa") accPoints =
      some (accessPoint (.str password))) (calls : List Nat) :
    serial (callEdit inherited Y homeSettings addsApart)
        (Y.stringify (homeConfig accPoints)) calls =
      some (Y.stringify (homeConfig (calls.foldl addApart accPoints))) := by
  induction calls generalizing accPoints with
  | nil => rfl
  | cons i calls ih =>
      have hown' : lastFor (js "acasa") (addApart accPoints i) =
          some (accessPoint (.str password)) := by
        rw [lastFor_addApart, if_neg (Ne.symm (apart_ne (by decide))), hown]
      rw [serial, List.foldlM_cons, callEdit_addsApart hY hown]
      exact ih hown'

theorem exists_run_addsApart {es : List Access} (hes : Schedule es) :
    ∃ s, AccessRun (callEdit inherited Y homeSettings addsApart)
      (.start (Y.stringify (homeConfig homeAccPoints))) es s := by
  refine exists_run (P := fun file => ∃ accPoints,
    file = Y.stringify (homeConfig accPoints) ∧
    lastFor (js "acasa") accPoints =
      some (accessPoint (.str (js "password")))) ?_
    ⟨homeAccPoints, rfl, rfl⟩ hes.readFirst
  rintro i file ⟨accPoints, rfl, hown⟩
  refine ⟨_, callEdit_addsApart hY hown i, _, rfl, ?_⟩
  rw [lastFor_addApart, if_neg (Ne.symm (apart_ne (by decide))), hown]

/-- Of two calls that add a name each, the one that writes between the
other's read and write leaves no trace. -/
theorem noWriteBetween_of_serialisable {es : List Access}
    (hes : Schedule es) (hserial : Serialisable inherited Y es) :
    NoWriteBetween es := by
  intro pre k mid post heq j hj
  obtain ⟨s, hrun⟩ := @exists_run_addsApart inherited _ _ hY _ hes
  obtain ⟨order, file', hperm, hfile, hsame⟩ :=
    hserial homeSettings addsApart _ s (fun _ => trivial) hrun
  obtain ⟨t, htrun, hlineage⟩ := lineage_of_run hrun
  rw [serial_addsApart hY rfl] at hfile hlineage
  -- Every call that wrote has its access point in the file at the end, so it
  -- is in the file's lineage.
  have hboth : ∀ i, .write i ∈ es → i ∈ t.content := by
    intro i hi
    have hin := hsame (apart i)
    rw [← Option.some.inj hfile, ← Option.some.inj hlineage,
      accessPointIn_home hY, accessPointIn_home hY, lastFor_foldl_addApart,
      lastFor_foldl_addApart,
      if_pos (hperm.mem_iff.2 (mem_writers.2 hi))] at hin
    by_contra hnot
    have hnone : lastFor (apart i) homeAccPoints = none := by
      refine lastFor_eq_none.2 fun w hw => ?_
      obtain rfl := List.mem_singleton.1 hw
      exact Ne.symm (apart_ne (by decide))
    rw [if_neg hnot, hnone] at hin
    cases hin
  subst heq
  exact not_both_in_lineage htrun hes.nodup hj
    ⟨hboth j (by simp [hj]), hboth k (by simp)⟩

/-- Whatever the calls are, a schedule of them serialises just where no call
writes between another's read and its write. -/
theorem serialisable_iff {es : List Access} (hes : Schedule es) :
    Serialisable inherited Y es ↔ NoWriteBetween es := by
  refine ⟨noWriteBetween_of_serialisable hY hes, fun hno => ?_⟩
  intro S calls file s _ hrun
  exact ⟨writers es, s.content, .refl _, serial_of_noWriteBetween hrun hno,
    fun _ => rfl⟩

end

theorem schedule_in_turn :
    Schedule [.read 0, .write 0, .read 1, .write 1] := by
  refine ⟨by decide, fun pre i post heq => ?_, by simp_all⟩
  rcases pre with _ | ⟨a, _ | ⟨b, _ | ⟨c, _ | ⟨d, pre⟩⟩⟩⟩ <;>
    simp_all <;> grind

theorem schedule_overlapping :
    Schedule [.read 0, .read 1, .write 0, .write 1] := by
  refine ⟨by decide, fun pre i post heq => ?_, by simp_all⟩
  rcases pre with _ | ⟨a, _ | ⟨b, _ | ⟨c, _ | ⟨d, pre⟩⟩⟩⟩ <;>
    simp_all <;> grind

/-- Two calls, the second after the first. -/
theorem serialisable_in_turn : Serialisable (fun _ _ => false) plainYaml
    [.read 0, .write 0, .read 1, .write 1] := by
  refine (serialisable_iff (fun _ => rfl) schedule_in_turn).2 ?_
  intro pre i mid post heq j hj
  rcases pre with _ | ⟨a, _ | ⟨b, _ | ⟨c, _ | ⟨d, pre⟩⟩⟩⟩ <;>
    rcases mid with _ | ⟨a', _ | ⟨b', _ | ⟨c', mid⟩⟩⟩ <;>
    simp_all
  omega

/-- Two calls that both read before either writes. -/
theorem not_serialisable_overlapping : ¬ Serialisable (fun _ _ => false)
    plainYaml [.read 0, .read 1, .write 0, .write 1] := by
  intro hserial
  exact noWriteBetween_of_serialisable (fun _ => rfl) schedule_overlapping
    hserial [.read 0] 1 [.write 0] [] rfl 0 List.mem_cons_self

end IotHome.Os
