import IotHome.Server.App
import Mathlib.Data.List.Induction

/-!
# What a notification does to a device

A device reports itself about once a second, and meanwhile handlers ask it
for its pins and record what it says. What the reports are for is said by
`Known`: the devices in the order in which they first came, where a report of
one that is known changes its address, its port and when it was seen, and an
answer is recorded for the device it came from.

The store does not work like that. It puts a new object in the place of the
old one, without what was recorded, and an answer to a request that was under
way goes to the object nobody asks any more. `registryKept_iff` says when this
makes no difference, over every run of the server.
-/

namespace IotHome.Server

open IotHome.Lib

/-! ## What a report is for -/

/-- The devices that have reported themselves. -/
abbrev Known := List StoredDevice

def Known.setDevice (db : DevicesDb) (known : Known) (n : Notification) :
    Known :=
  if n.mac ∈ known.map StoredDevice.mac then
    known.map fun d =>
      if d.mac = n.mac then
        { d with
          ip := (newDevice db n).ip
          port := (newDevice db n).port
          lastSeen := n.lastSeen }
      else d
  else known ++ [newDevice db n]

/-- `macOf` says whose answer it is that is recorded. -/
def Known.apply (db : DevicesDb) (macOf : Nat → Option JsString)
    (known : Known) : RegistryOp → Known
  | .setDevice n => known.setDevice db n
  | .checkIsOnline online =>
      known.map fun d => { d with isOnline := some (online d.lastSeen) }
  | .record device states =>
      known.map fun d =>
        if macOf device = some d.mac then
          { d with devPinStates := some states }
        else d

/-! ## What the store lists -/

variable {db : DevicesDb}

/-- What `getDeviceList("*")` gives. -/
def Registry.listed (r : Registry) : Known :=
  (r.getDeviceList (some (.str (js "*")))).filterMap (r.heap[·]?)

def Registry.macOf (r : Registry) (device : Nat) : Option JsString :=
  (r.heap[device]?).map StoredDevice.mac

theorem getDeviceList_all (r : Registry) :
    r.getDeviceList (some (.str (js "*"))) = r.deviceStore.values := by
  simp [Registry.getDeviceList, isText]

theorem listed_eq (r : Registry) :
    r.listed = r.deviceStore.entries.filterMap fun e => r.heap[e.2]? := by
  rw [Registry.listed, getDeviceList_all, OrderedMap.values,
    List.filterMap_map]
  rfl

/-- Every entry of the store is listed. -/
theorem map_some_filterMap {α β : Type} {f : α → Option β} {xs : List α}
    (h : ∀ x ∈ xs, ∃ y, f x = some y) :
    (xs.filterMap f).map some = xs.map f := by
  induction xs with
  | nil => rfl
  | cons x xs ih =>
      obtain ⟨y, hy⟩ := h x List.mem_cons_self
      rw [List.filterMap_cons, hy, List.map_cons, List.map_cons, hy,
        ih fun x hx => h x (List.mem_cons_of_mem _ hx)]

/-- Two ways to list the entries of a store give the same just if they give
the same for each entry. -/
theorem filterMap_eq_iff {α β : Type} {f g : α → Option β} {xs : List α}
    (hf : ∀ x ∈ xs, ∃ y, f x = some y) (hg : ∀ x ∈ xs, ∃ y, g x = some y) :
    xs.filterMap f = xs.filterMap g ↔ ∀ x ∈ xs, f x = g x := by
  rw [← List.map_inj_left, ← map_some_filterMap hf, ← map_some_filterMap hg]
  exact (List.map_injective_iff.2 (Option.some_injective β)).eq_iff.symm

/-- The operations that the store follows: a device that reports itself again
has nothing that the new object would lack, and an answer is recorded for the
object in the store, or says what that one has already. -/
def Registry.Keeps (r : Registry) : RegistryOp → Prop
  | .setDevice n => ∀ p d, r.deviceStore.get n.mac = some p →
      r.heap[p]? = some d → d.isOnline = none ∧ d.devPinStates = none
  | .checkIsOnline _ => True
  | .record device states => ∀ mac p, r.macOf device = some mac →
      r.deviceStore.get mac = some p → p = device ∨
        ∀ d, r.heap[p]? = some d → d.devPinStates = some states

/-- A change of each known device, against the devices at the same places
afterwards. -/
theorem listed_map_iff {r : Registry} (h : r.Ok db)
    {heap : List StoredDevice} {entries : List (JsString × Nat)}
    (place : JsString × Nat → Nat) (g : StoredDevice → StoredDevice)
    (hentries : entries = r.deviceStore.entries.map fun e => (e.1, place e))
    (hheap : ∀ e ∈ r.deviceStore.entries, ∃ d, heap[place e]? = some d) :
    (entries.filterMap fun e => heap[e.2]?) = r.listed.map g ↔
      ∀ e ∈ r.deviceStore.entries,
        heap[place e]? = (r.heap[e.2]?).map g := by
  rw [listed_eq, hentries, List.filterMap_map, List.map_filterMap]
  refine filterMap_eq_iff hheap fun e he => ?_
  obtain ⟨d, hd⟩ := h.exists_heap e he
  exact ⟨g d, by rw [hd]; rfl⟩

theorem mem_macs_iff {r : Registry} (h : r.Ok db) (mac : JsString) :
    mac ∈ r.listed.map StoredDevice.mac ↔
      mac ∈ r.deviceStore.entries.map Prod.fst := by
  rw [listed_eq, List.mem_map, List.mem_map]
  constructor
  · rintro ⟨d, hd, rfl⟩
    obtain ⟨e, he, hget⟩ := List.mem_filterMap.1 hd
    obtain ⟨d', hd', hmac⟩ := h.stored e.1 e.2 he
    rw [hget] at hd'
    obtain rfl := Option.some.inj hd'
    exact ⟨e, he, hmac.symm⟩
  · rintro ⟨e, he, rfl⟩
    obtain ⟨d, hd, hmac⟩ := h.stored e.1 e.2 he
    exact ⟨d, List.mem_filterMap.2 ⟨e, he, hd⟩, hmac⟩

/-- The device a report would leave is the new one just if nothing had been
found out about the old one. -/
theorem newDevice_eq_iff {d : StoredDevice} {n : Notification}
    (hmac : d.mac = n.mac) (hinfo : d.info = (db d.mac).map DeviceInfo.pins)
    (hdescr : d.description = (db d.mac).map DeviceInfo.content) :
    newDevice db n = { d with
      ip := (newDevice db n).ip
      port := (newDevice db n).port
      lastSeen := n.lastSeen } ↔
      d.isOnline = none ∧ d.devPinStates = none := by
  obtain ⟨⟨ip, port, info, states⟩, mac, descr, lastSeen, isOnline⟩ := d
  simp only at hmac hinfo hdescr
  subst hmac hinfo hdescr
  simp [newDevice, eq_comm, and_comm]

/-- The new object comes behind those that are there. -/
theorem heap_setDevice {r : Registry} (h : r.Ok db) (n : Notification)
    {e : JsString × Nat} (he : e ∈ r.deviceStore.entries) :
    (r.setDevice db n).heap[e.2]? = r.heap[e.2]? := by
  obtain ⟨d, hd⟩ := h.exists_heap e he
  exact List.getElem?_append_left (List.getElem?_eq_some_iff.1 hd).1

theorem heap_setDevice_new (r : Registry) (n : Notification) :
    (r.setDevice db n).heap[r.heap.length]? = some (newDevice db n) :=
  List.getElem?_concat_length

/-- A device that is not known comes last. -/
theorem listed_setDevice_unknown {r : Registry} (h : r.Ok db)
    {n : Notification} (hnew : n.mac ∉ r.deviceStore.entries.map Prod.fst) :
    (r.setDevice db n).listed = r.listed ++ [newDevice db n] := by
  have hentries : (r.setDevice db n).deviceStore.entries =
      r.deviceStore.entries ++ [(n.mac, r.heap.length)] :=
    OrderedMap.setEntry_of_notMem hnew
  have hlast : (r.setDevice db n).heap[r.heap.length]? =
      some (newDevice db n) := heap_setDevice_new r n
  rw [listed_eq, listed_eq, hentries, List.filterMap_append,
    List.filterMap_congr fun e he => heap_setDevice h n he]
  simp [hlast]

/-- Of a known device the new object is the old one with the report just if
nothing had been found out. -/
theorem listed_setDevice_known_iff {r : Registry} (h : r.Ok db)
    {n : Notification} (hknown : n.mac ∈ r.deviceStore.entries.map Prod.fst) :
    (r.setDevice db n).listed = (r.listed.map fun d =>
        if d.mac = n.mac then
          { d with
            ip := (newDevice db n).ip
            port := (newDevice db n).port
            lastSeen := n.lastSeen }
        else d) ↔
      r.Keeps (.setDevice n) := by
  rw [listed_eq]
  refine (listed_map_iff h
    (fun e => if e.1 = n.mac then r.heap.length else e.2) _
    (OrderedMap.setEntry_of_mem _ r.deviceStore.nodup hknown) ?_).trans ?_
  · intro e he
    split
    · exact ⟨_, heap_setDevice_new r n⟩
    · rw [heap_setDevice h n he]
      exact h.exists_heap e he
  · constructor
    · intro hall p d hp hd
      have he := hall (n.mac, p) (mem_of_lastFor hp)
      obtain ⟨d', hd', hmac⟩ := h.stored _ _ (mem_of_lastFor hp)
      obtain rfl := Option.some.inj (hd.symm.trans hd')
      obtain ⟨hinfo, hdescr⟩ := h.described d (List.mem_of_getElem? hd)
      simp only [if_true] at he
      rw [heap_setDevice_new, hd, Option.map_some, if_pos hmac] at he
      exact (newDevice_eq_iff hmac hinfo hdescr).1 (Option.some.inj he)
    · intro hkeeps e he
      obtain ⟨d, hd, hmac⟩ := h.stored _ _ he
      by_cases hname : e.1 = n.mac
      · obtain ⟨hinfo, hdescr⟩ := h.described d (List.mem_of_getElem? hd)
        have hget : r.deviceStore.get n.mac = some e.2 := by
          rw [← hname]
          exact r.deviceStore.get_of_mem he
        have hsame := (newDevice_eq_iff (hmac.trans hname) hinfo hdescr).2
          (hkeeps e.2 d hget hd)
        rw [if_pos hname, heap_setDevice_new, hd, Option.map_some,
          if_pos (hmac.trans hname)]
        exact congrArg some hsame
      · rw [if_neg hname, heap_setDevice h n he, hd, Option.map_some,
          if_neg fun hd => hname (hmac.symm.trans hd)]

theorem listed_setDevice_iff {r : Registry} (h : r.Ok db)
    (n : Notification) :
    (r.setDevice db n).listed = Known.setDevice db r.listed n ↔
      r.Keeps (.setDevice n) := by
  rw [Known.setDevice]
  by_cases hmem : n.mac ∈ r.deviceStore.entries.map Prod.fst
  · rw [if_pos ((mem_macs_iff h _).2 hmem)]
    exact listed_setDevice_known_iff h hmem
  · rw [if_neg fun hin => hmem ((mem_macs_iff h _).1 hin)]
    refine iff_of_true (listed_setDevice_unknown h hmem) fun p d hp _ => ?_
    exact absurd (List.mem_map_of_mem (mem_of_lastFor hp)) hmem

/-- What is done to devices where they are changes what is listed if it
changes what is known in the same way. -/
theorem listed_heap_iff {r : Registry} (h : r.Ok db)
    {heap : List StoredDevice} (hlength : heap.length = r.heap.length)
    (g : StoredDevice → StoredDevice) :
    ({ r with heap := heap } : Registry).listed = r.listed.map g ↔
      ∀ e ∈ r.deviceStore.entries,
        heap[e.2]? = (r.heap[e.2]?).map g := by
  rw [listed_eq]
  refine listed_map_iff h Prod.snd g (List.map_id _).symm fun e he => ?_
  obtain ⟨d, hd⟩ := h.exists_heap e he
  have hlt : e.2 < heap.length := by
    rw [hlength]
    exact (List.getElem?_eq_some_iff.1 hd).1
  exact ⟨heap[e.2], List.getElem?_eq_getElem hlt⟩

theorem listed_checkIsOnline {r : Registry} (h : r.Ok db)
    (online : JsString → Bool) :
    (r.checkIsOnline online).listed = r.listed.map fun d =>
      { d with isOnline := some (online d.lastSeen) } := by
  refine (listed_heap_iff h (List.length_mapIdx ..) _).2 fun e he => ?_
  have hmem : e.2 ∈ r.deviceStore.values := List.mem_map_of_mem he
  rw [List.getElem?_mapIdx]
  simp [hmem]

theorem listed_record_iff {r : Registry} (h : r.Ok db) (device : Nat)
    (states : PinStates) :
    (r.record device states).listed =
        Known.apply db r.macOf r.listed (.record device states) ↔
      r.Keeps (.record device states) := by
  refine (listed_heap_iff h (List.length_modify ..) _).trans ?_
  constructor
  · intro hall mac p hmac hp
    obtain ⟨d, hd, rfl⟩ := h.stored mac p (mem_of_lastFor hp)
    have he := hall _ (mem_of_lastFor hp)
    by_cases hplace : p = device
    · exact .inl hplace
    · refine .inr fun d' hd' => ?_
      obtain rfl := Option.some.inj (hd.symm.trans hd')
      dsimp only at he
      rw [List.getElem?_modify, hd, Option.map_eq_map, Option.map_some,
        if_neg (Ne.symm hplace), Option.map_some, if_pos hmac] at he
      rw [Option.some.inj he]
  · intro hkeeps e he
    obtain ⟨d, hd, hmac⟩ := h.stored _ _ he
    rw [List.getElem?_modify, hd, Option.map_eq_map, Option.map_some,
      Option.map_some]
    refine congrArg some ?_
    by_cases hplace : device = e.2
    · have hown : r.macOf device = some d.mac := by
        rw [Registry.macOf, hplace, hd]
        rfl
      rw [if_pos hplace, if_pos hown]
    · rw [if_neg hplace]
      split
      · next hown =>
          have hget : r.deviceStore.get d.mac = some e.2 := by
            rw [hmac]
            exact r.deviceStore.get_of_mem he
          rcases hkeeps d.mac e.2 hown hget with heq | hsame
          · exact absurd heq.symm hplace
          · rw [← hsame d hd]
      · rfl

/-- The store follows an operation just if the operation is one of those. -/
theorem listed_apply_iff {r : Registry} (h : r.Ok db) (op : RegistryOp) :
    (r.apply db op).listed = Known.apply db r.macOf r.listed op ↔
      r.Keeps op := by
  cases op with
  | setDevice n => exact listed_setDevice_iff h n
  | checkIsOnline online =>
      exact iff_of_true (listed_checkIsOnline h online) trivial
  | record device states => exact listed_record_iff h device states

/-! ## Runs -/

/-- The store, and what is known, after some operations. -/
def follow (db : DevicesDb) (ops : List RegistryOp) : Registry × Known :=
  ops.foldl (fun s op =>
    (s.1.apply db op, Known.apply db s.1.macOf s.2 op)) (.empty, [])

theorem follow_concat (ops : List RegistryOp) (op : RegistryOp) :
    follow db (ops ++ [op]) =
      ((follow db ops).1.apply db op,
        Known.apply db (follow db ops).1.macOf (follow db ops).2 op) := by
  rw [follow, List.foldl_append]
  rfl

theorem fst_follow (ops : List RegistryOp) :
    (follow db ops).1 = ops.foldl (Registry.apply db) .empty := by
  induction ops using List.reverseRecOn with
  | nil => rfl
  | append_singleton ops op ih =>
      rw [follow_concat, ih, List.foldl_append]
      rfl

theorem ok_follow (ops : List RegistryOp) : (follow db ops).1.Ok db := by
  rw [fst_follow]
  exact (Registry.ok_empty db).foldl ops

/-- After each of the operations the store lists what is known. -/
def StoreFollows (db : DevicesDb) (ops : List RegistryOp) : Prop :=
  ∀ before, before <+: ops →
    (follow db before).1.listed = (follow db before).2

theorem storeFollows_iff (ops : List RegistryOp) :
    StoreFollows db ops ↔ ∀ before op, before ++ [op] <+: ops →
      (follow db before).1.Keeps op := by
  constructor
  · intro hlisted before op hpre
    have hbefore := hlisted before ((List.prefix_append _ _).trans hpre)
    have hafter := hlisted _ hpre
    rw [follow_concat] at hafter
    refine (listed_apply_iff (ok_follow before) op).1 ?_
    rw [hbefore]
    exact hafter
  · intro hkeeps before hpre
    induction before using List.reverseRecOn with
    | nil => rfl
    | append_singleton before op ih =>
        have hbefore := ih ((List.prefix_append _ _).trans hpre)
        rw [follow_concat, ← hbefore]
        exact (listed_apply_iff (ok_follow before) op).2
          (hkeeps before op hpre)

/-- In every run of the server, the store lists what is known after all that
is done to the devices just if each report finds a device about which nothing
has been found out, and each answer is recorded for the object in the
store. -/
theorem registryKept_iff {port : Nat} {es : List AppEvent} {s : App}
    (h : AppRun db port .start es s) :
    s.registry = (follow db s.log).1 ∧
      (StoreFollows db s.log ↔ ∀ before op, before ++ [op] <+: s.log →
        (follow db before).1.Keeps op) :=
  ⟨(registry_of_run h).trans (fst_follow s.log).symm, storeFollows_iff s.log⟩

def reportA : Notification :=
  ⟨js "a", js "10.0.0.2", js "80", js "2022-10-01T00:00:00.000Z"⟩

/-- A device that reports itself twice, before anybody asks for it. -/
theorem registryKept_twice : ∃ s,
    AppRun (fun _ => none) 80 .start [.setDevice reportA, .setDevice reportA]
      s ∧ StoreFollows (fun _ => none) s.log := by
  have hrun : AppRun (fun _ => none) 80 .start
      [.setDevice reportA, .setDevice reportA] _ :=
    .cons rfl (.cons rfl (.nil _))
  refine ⟨_, hrun, (registryKept_iff hrun).2.2 ?_⟩
  rintro before op ⟨rest, hrest⟩
  rcases before with _ | ⟨first, _ | ⟨second, before⟩⟩
  · obtain ⟨rfl, _⟩ := List.cons.inj hrest
    exact fun p d hp _ => by cases hp
  · obtain ⟨hfirst, hrest⟩ := List.cons.inj hrest
    obtain ⟨rfl, _⟩ := List.cons.inj hrest
    rw [hfirst]
    intro p d hp hd
    have hplace : (follow (fun _ => none)
        [.setDevice reportA]).1.deviceStore.get reportA.mac = some 0 := rfl
    obtain rfl := Option.some.inj (hp.symm.trans hplace)
    obtain rfl := Option.some.inj hd
    exact ⟨rfl, rfl⟩
  · have hlength := congrArg List.length hrest
    simp [App.act, App.start] at hlength

/-- A device whose pins are recorded reports itself again. -/
def reportAgain : List AppEvent :=
  [.setDevice reportA,
    .message .homePage (js ("\x7b\"type\":\"CTRL_DEV\"," ++
      "\"mac\":\"a\",\"states\":[]\x7d")),
    .answered 0 (fun _ _ _ => .response (js "[\x7b\"pin\":2\x7d]"))
      (fun _ => true),
    .setDevice reportA]

/-- What was recorded is gone. -/
theorem states_lost : ∃ s, AppRun (fun _ => none) 80 .start reportAgain s ∧
    ¬ StoreFollows (fun _ => none) s.log := by
  have hend : (reportAgain.foldlM (appStep (fun _ => none) 80) .start).map
      (fun s => ((follow (fun _ => none) s.log).1.listed.map
          fun d => d.devPinStates.isSome,
        (follow (fun _ => none) s.log).2.map
          fun d => d.devPinStates.isSome)) = some ([false], [true]) := by
    decide +kernel
  obtain ⟨s, hs, hlists⟩ := Option.map_eq_some_iff.1 hend
  refine ⟨s, run_iff_foldlM_option.1 hs, fun hfollows => ?_⟩
  obtain ⟨hstore, hknown⟩ := Prod.mk.inj hlists
  rw [hfollows _ (List.prefix_refl _), hknown] at hstore
  cases hstore

end IotHome.Server
