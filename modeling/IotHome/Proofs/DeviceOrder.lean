import IotHome.HomepageFe.Server

/-!
# The order of the devices of a server

The comparator never returns zero: of two devices with one name, each comes
before the other. So it is consistent just on lists in which no name is there
twice (`ordersDevices_iff`). On others a sort may turn the devices round at
every rendering, and the one by insertion does.
-/

namespace IotHome.HomepageFe

open IotHome.Lib
open List

/-- The comparator is an order on these devices, and renderings after the
first leave them as they are, however the language sorts. -/
structure OrdersDevices (devices : List TDevice) : Prop where
  consistent : Consistent compareDevices devices
  zero : ∀ d1 d2, [d1, d2] <+~ devices → dName d1 = dName d2 →
    compareDevices d1 d2 = 0
  sorted : ∀ engine : ArraySort TDevice,
    engine.sort compareDevices (engine.sort compareDevices devices) =
      engine.sort compareDevices devices
  stays : ∀ (engine : ArraySort TDevice) (n : Nat),
    rerenderDevices engine devices (n + 1) = renderDevices engine devices

/-! ## The comparator -/

theorem compareDevices_ne_zero (d1 d2 : TDevice) :
    compareDevices d1 d2 ≠ 0 := by
  rw [compareDevices]
  split
  · decide
  · decide

theorem textLess_iff (a b : JsString) :
    textLess a b = true ↔ a.map UInt16.toNat < b.map UInt16.toNat :=
  decide_eq_true_iff

theorem map_toNat_inj {a b : JsString}
    (h : a.map UInt16.toNat = b.map UInt16.toNat) : a = b :=
  List.map_injective_iff.2 (fun _ _ => UInt16.toNat_inj.1) h

theorem textLess_asymm {a b : JsString} (h : textLess a b = true) :
    textLess b a = false := by
  rw [Bool.eq_false_iff]
  intro h'
  exact lt_asymm ((textLess_iff a b).1 h) ((textLess_iff b a).1 h')

theorem textLess_of_not {a b : JsString} (hne : a ≠ b)
    (h : textLess b a = false) : textLess a b = true := by
  rw [textLess_iff]
  rw [Bool.eq_false_iff, ne_eq, textLess_iff, not_lt] at h
  exact lt_of_le_of_ne h fun heq => hne (map_toNat_inj heq)

theorem compareDevices_le_zero (d1 d2 : TDevice) :
    compareDevices d1 d2 ≤ 0 ↔ textLess (dName d2) (dName d1) = false := by
  rw [compareDevices]
  cases textLess (dName d2) (dName d1) with
  | true => simp
  | false => simp

/-- Of two devices with different names one comes first. -/
theorem compareDevices_sign {d1 d2 : TDevice} (hne : dName d1 ≠ dName d2) :
    (compareDevices d1 d2).sign = -(compareDevices d2 d1).sign := by
  cases h : textLess (dName d2) (dName d1) with
  | true =>
      have h' := textLess_asymm h
      simp [compareDevices, h, h']
  | false =>
      have h' := textLess_of_not hne h
      simp [compareDevices, h, h']

theorem compareDevices_trans {d1 d2 d3 : TDevice}
    (h12 : compareDevices d1 d2 ≤ 0) (h23 : compareDevices d2 d3 ≤ 0) :
    compareDevices d1 d3 ≤ 0 := by
  rw [compareDevices_le_zero, Bool.eq_false_iff, ne_eq, textLess_iff,
    not_lt] at h12 h23 ⊢
  exact h12.trans h23

/-! ## A list of devices -/

theorem nodup_iff_pairs (devices : List TDevice) :
    (devices.map dName).Nodup ↔
      ∀ d1 d2, [d1, d2] <+~ devices → dName d1 ≠ dName d2 := by
  constructor
  · intro h d1 d2 hpair
    obtain ⟨pair, hperm, hsub⟩ := hpair
    have hnodup : ([d1, d2].map dName).Nodup :=
      (hperm.map dName).nodup_iff.1 (h.sublist (hsub.map dName))
    simpa using hnodup
  · intro h
    rw [List.Nodup, List.pairwise_map, List.pairwise_iff_forall_sublist]
    intro d1 d2 hsub
    exact h d1 d2 hsub.subperm

theorem consistent_of_nodup {devices : List TDevice}
    (h : (devices.map dName).Nodup) : Consistent compareDevices devices where
  antisymm d1 d2 hpair :=
    compareDevices_sign ((nodup_iff_pairs devices).1 h d1 d2 hpair)
  trans _ _ _ _ h12 h23 := compareDevices_trans h12 h23

theorem noTies (devices : List TDevice) : NoTies compareDevices devices :=
  fun d1 d2 _ => compareDevices_ne_zero d1 d2

theorem length_renderDevices (engine : ArraySort TDevice)
    (devices : List TDevice) :
    (renderDevices engine devices).length = devices.length := by
  rw [renderDevices]
  split
  · exact (engine.perm compareDevices devices).length_eq
  · rfl

theorem renderDevices_renderDevices (engine : ArraySort TDevice)
    {devices : List TDevice} (h : (devices.map dName).Nodup) :
    renderDevices engine (renderDevices engine devices) =
      renderDevices engine devices := by
  rw [renderDevices, length_renderDevices]
  split
  · next hlength =>
      rw [renderDevices, if_pos hlength]
      exact engine.sort_sort (consistent_of_nodup h) (noTies devices)
  · rfl

theorem rerenderDevices_succ (engine : ArraySort TDevice)
    {devices : List TDevice} (h : (devices.map dName).Nodup) (n : Nat) :
    rerenderDevices engine devices (n + 1) = renderDevices engine devices := by
  induction n with
  | zero => rfl
  | succ n ih =>
      rw [rerenderDevices, ih]
      exact renderDevices_renderDevices engine h

/-- The comparator orders the devices just if no two have the same name. -/
theorem ordersDevices_iff (devices : List TDevice) :
    OrdersDevices devices ↔ (devices.map dName).Nodup := by
  constructor
  · intro h
    rw [nodup_iff_pairs]
    intro d1 d2 hpair hname
    exact compareDevices_ne_zero d1 d2 (h.zero d1 d2 hpair hname)
  · intro h
    have hpairs := (nodup_iff_pairs devices).1 h
    exact ⟨consistent_of_nodup h,
      fun d1 d2 hpair hname => absurd hname (hpairs d1 d2 hpair),
      fun engine => engine.sort_sort (consistent_of_nodup h) (noTies devices),
      fun engine => rerenderDevices_succ engine h⟩

/-- Two devices without a name change places at every rendering. -/
theorem not_ordersDevices : ¬ ∀ devices, OrdersDevices devices := by
  intro h
  have hstays := (h [⟨[], [], none⟩, ⟨js "m", [], none⟩]).stays .insertion 1
  have hmac := congrArg (List.map TDevice.mac) hstays
  exact absurd hmac (by decide)

end IotHome.HomepageFe
