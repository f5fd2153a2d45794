import IotHome.Firmware.Httpd
import IotHome.Proofs.ApiParams
import Mathlib.Algebra.Order.BigOperators.Group.List
import Mathlib.Algebra.Order.Ring.Nat

/-!
# Whether a response fits the tag's buffer

`ssi_handler` hands `snprintf` the length of the buffer and gives back what
`snprintf` returns, which is the length of the whole text and not of what was
put down. The server sends that many bytes from the buffer, so the count has
to stay below the length of the buffer.

A pin costs 33 characters and those of its value (`length_responseText`), and
`jsonTag_fits_iff` says for which requests the sum is small enough.
-/

namespace IotHome.Firmware

open IotHome.Lib

/-- `LWIP_HTTPD_MAX_TAG_INSERT_LEN`, which `lwipopts.h` leaves as it is. -/
def maxTagInsertLen : Nat := 192

/-- The characters of a command's object, with the comma or bracket behind
it. -/
def reportWidth (c : Command) : Nat := 33 + (toString c.2).length

/-- The objects of the commands that count, and the bracket in front, leave
room for the NUL. -/
def Fits (cs : List Command) : Prop :=
  1 + ((requested cs).map reportWidth).sum < maxTagInsertLen

/-! ## The length of a response -/

theorem length_toString_pin {p : Nat} (h : p < 10) :
    (toString p).length = 1 := by
  have hall : ∀ q, q < 10 → (toString q).length = 1 := by decide
  exact hall p h

theorem length_toString_bit (b : Bool) : (toString b.toNat).length = 1 := by
  cases b with
  | true => rfl
  | false => rfl

theorem length_objText {pin : Nat} (h : pin < 10) (val : Int)
    (dir sta : Bool) :
    (objText pin val dir sta).length = 32 + (toString val).length := by
  simp only [objText, String.length_append, length_toString_pin h,
    length_toString_bit]
  simp only [show ("\x7b" : String).length = 1 from rfl,
    show ("\"pin\":" : String).length = 6 from rfl,
    show (",\"val\":" : String).length = 7 from rfl,
    show (",\"dir\":" : String).length = 7 from rfl,
    show (",\"sta\":" : String).length = 7 from rfl,
    show ("\x7d" : String).length = 1 from rfl]
  omega

theorem length_foldl_comma (xs : List String) (x : String) :
    (xs.foldl (fun acc y => acc ++ "," ++ y) x).length =
      x.length + (xs.map fun y => 1 + y.length).sum := by
  induction xs generalizing x with
  | nil => rfl
  | cons y ys ih =>
      rw [List.foldl_cons, ih, String.length_append, String.length_append,
        List.map_cons, List.sum_cons, show ("," : String).length = 1 from rfl]
      omega

theorem length_responseText {g : Gpio} {rs : List Command}
    (h : ∀ c ∈ rs, c.1 < 10) :
    (responseText g rs).length = max 2 (1 + (rs.map reportWidth).sum) := by
  have hwidth : ∀ c ∈ rs, 1 + (commandText g c).length = reportWidth c := by
    intro c hc
    rw [commandText, length_objText (h c hc), reportWidth]
    omega
  cases rs with
  | nil =>
      rw [responseText, String.length_append, String.length_append]
      rfl
  | cons c rs =>
      have hrest : (rs.map (commandText g)).map (fun y => 1 + y.length) =
          rs.map reportWidth := by
        rw [List.map_map]
        exact List.map_congr_left fun d hd =>
          hwidth d (List.mem_cons_of_mem c hd)
      have hfirst := hwidth c List.mem_cons_self
      have hpos : 33 ≤ reportWidth c := Nat.le_add_right 33 _
      rw [responseText, String.length_append, String.length_append,
        List.map_cons, joinComma, length_foldl_comma, hrest, List.map_cons,
        List.sum_cons, show ("[" : String).length = 1 from rfl,
        show ("]" : String).length = 1 from rfl]
      omega

/-! ## The response is no format -/

theorem percent_notMem_toString (n : Int) : '%' ∉ (toString n).toList := by
  have hdigits : ∀ m : Nat, '%' ∉ (Nat.repr m).toList := by
    intro m hmem
    rw [Nat.toList_repr] at hmem
    exact absurd (isDigit_of_mem_toDigits hmem) (by decide)
  rw [Int.toString_eq_repr]
  cases n with
  | ofNat m => exact hdigits m
  | negSucc m =>
      rw [Int.repr, String.toList_append, List.mem_append, not_or]
      exact ⟨by decide, hdigits _⟩

theorem percent_notMem_objText (pin : Nat) (val : Int) (dir sta : Bool) :
    '%' ∉ (objText pin val dir sta).toList := by
  have hnat : ∀ n : Nat, '%' ∉ (toString n).toList :=
    fun n => percent_notMem_toString n
  simp only [objText, String.toList_append, List.mem_append, not_or]
  exact ⟨⟨⟨⟨⟨by decide, by decide, hnat pin⟩, by decide,
    percent_notMem_toString val⟩, by decide, hnat _⟩, by decide, hnat _⟩,
    by decide⟩

theorem percent_notMem_responseText (g : Gpio) (rs : List Command) :
    '%' ∉ (responseText g rs).toList := by
  have hjoin : ∀ (xs : List String) (x : String), '%' ∉ x.toList →
      (∀ y ∈ xs, '%' ∉ y.toList) →
      '%' ∉ (xs.foldl (fun acc y => acc ++ "," ++ y) x).toList := by
    intro xs
    induction xs with
    | nil => intro x hx _; exact hx
    | cons y ys ih =>
        intro x hx hys
        rw [List.forall_mem_cons] at hys
        refine ih _ ?_ hys.2
        simp only [String.toList_append, List.mem_append, not_or]
        exact ⟨⟨hx, by decide⟩, hys.1⟩
  have hbody : '%' ∉ (joinComma (rs.map (commandText g))).toList := by
    cases rs with
    | nil => exact List.not_mem_nil
    | cons c rs =>
        refine hjoin _ _ (percent_notMem_objText _ _ _ _) ?_
        rw [List.forall_mem_map]
        exact fun d _ => percent_notMem_objText _ _ _ _
  simp only [responseText, String.toList_append, List.mem_append, not_or]
  exact ⟨⟨by decide, hbody⟩, by decide⟩

/-! ## The count -/

theorem requested_pin_lt {cs : List Command} :
    ∀ c ∈ requested cs, c.1 < 10 := by
  intro c hc
  rw [requested, List.mem_filterMap] at hc
  obtain ⟨p, hp, hc⟩ := hc
  obtain ⟨v, _, rfl⟩ := Option.map_eq_some_iff.1 hc
  have hbounds := mem_apiPins.1 hp
  show p < 10
  omega

/-- What a request that was handled makes `ssi_handler` put down and
return. -/
theorem ssiHandler_apiCgiHandler {b b' : Board} {r : Request} {L : Nat}
    (h : apiCgiHandler b r = .ok b') :
    ∃ cs, commandsFrom r.pcParam r.pcValue r.iNumParams 0 = .ok cs ∧
      b'.response.length =
        max 2 (1 + ((requested cs).map reportWidth).sum) ∧
      ssiHandler L b' = .ok
        (String.ofList (b'.response.toList.take (L - 1)),
          b'.response.length) := by
  rw [apiCgiHandler, bind_eq_ok] at h
  obtain ⟨⟨g, res⟩, hrun, h⟩ := h
  obtain rfl := Except.ok.inj h
  rw [handleRequestParams_eq, map_eq_ok] at hrun
  obtain ⟨cs, hcs, hres⟩ := hrun
  obtain rfl := (Prod.mk.inj hres).2
  refine ⟨cs, hcs, length_responseText requested_pin_lt, ?_⟩
  rw [ssiHandler, snprintf, if_neg (percent_notMem_responseText _ _)]

/-- A 32-bit value takes at most eleven characters. -/
theorem length_toString_int32 {v : Int} (hlow : -2147483648 ≤ v)
    (hhigh : v ≤ 2147483647) : (toString v).length ≤ 11 := by
  rw [Int.toString_eq_repr]
  cases v with
  | ofNat m =>
      refine Nat.le_trans ((Nat.length_repr_le_iff (k := 10) (by decide)).2 ?_)
        (by decide)
      have hm : (m : Int) ≤ 2147483647 := hhigh
      omega
  | negSucc m =>
      have hm : m < 2147483648 := by omega
      rw [Int.repr, String.length_append]
      have hlen := (Nat.length_repr_le_iff (n := m.succ) (k := 10)
        (by decide)).2 (by omega)
      show 1 + _ ≤ 11
      omega

/-- No response comes near the 16 bits that `ssi_handler` asserts. -/
theorem length_response_le {cs : List Command}
    (h : ∀ d ∈ cs, d.1 < 10 ∧ -2147483648 ≤ d.2 ∧ d.2 ≤ 2147483647) :
    1 + ((requested cs).map reportWidth).sum ≤ 397 := by
  have hsum : ((requested cs).map reportWidth).sum ≤
      ((requested cs).map reportWidth).length * 44 := by
    refine List.sum_le_card_nsmul _ 44 ?_
    rw [List.forall_mem_map]
    intro c hc
    obtain ⟨_, hlow, hhigh⟩ := h c (mem_requested hc)
    have hlen := length_toString_int32 hlow hhigh
    rw [reportWidth]
    omega
  have hcard : (requested cs).length ≤ 9 := List.length_filterMap_le _ _
  rw [List.length_map] at hsum
  omega

/-- The count `ssi_handler` returns for a request that was handled is one of
16 bits, and it is smaller than the length of the buffer, with the whole
response in it, exactly when the request's pins and values fit. -/
theorem jsonTag_fits_iff {b b' : Board} {r : Request}
    (h : apiCgiHandler b r = .ok b') :
    ∃ cs inserted printed,
      commandsFrom r.pcParam r.pcValue r.iNumParams 0 = .ok cs ∧
      ssiHandler maxTagInsertLen b' = .ok (inserted, printed) ∧
      printed ≤ 0xFFFF ∧
      ((printed < maxTagInsertLen ∧ inserted = b'.response ∧
        printed = b'.response.length) ↔ Fits cs) := by
  obtain ⟨cs, hcs, hlen, hssi⟩ :=
    ssiHandler_apiCgiHandler (L := maxTagInsertLen) h
  have hle := length_response_le
    (forall_commandsFrom (fun _ _ hc => commandAt_bounds hc) _ _ _ hcs)
  refine ⟨cs, _, _, hcs, hssi, by omega, ?_⟩
  rw [Fits, maxTagInsertLen]
  constructor
  · intro h'
    omega
  · intro h'
    have hshort : b'.response.toList.length ≤ 192 - 1 := by
      rw [String.length_toList]
      omega
    rw [List.take_of_length_le hshort, String.ofList_toList]
    exact ⟨by omega, rfl, rfl⟩

/-- `pin=2&val=1` fits, and the response is sent whole. -/
theorem jsonTag_fits_one_pin :
    ∃ b' inserted printed, Fits [(2, 1)] ∧
      ssiHandler maxTagInsertLen b' = .ok (inserted, printed) ∧
      printed < maxTagInsertLen ∧ inserted = b'.response ∧
      printed = b'.response.length := by
  obtain ⟨b', hb'⟩ : ∃ b', apiCgiHandler
      ⟨⟨fun _ => false, fun _ => false, []⟩, "[]"⟩
      ⟨2, slots [some "pin", some "val"] [],
        slots [some "2", some "1"] []⟩ = .ok b' := ⟨_, rfl⟩
  have hfits : Fits [(2, 1)] := by
    show 1 + _ < _
    decide +kernel
  obtain ⟨cs, inserted, printed, hcs, hssi, _, hiff⟩ := jsonTag_fits_iff hb'
  obtain rfl : cs = [(2, 1)] := Except.ok.inj (hcs.symm.trans rfl)
  exact ⟨b', inserted, printed, hfits, hssi, hiff.2 hfits⟩

/-- Six pins are read: the count is 211, the buffer of 192 holds 191 of the
characters, and the server sends what stands behind it. -/
theorem jsonTag_overruns_six_pins :
    ∃ b' inserted, apiCgiHandler
        ⟨⟨fun _ => false, fun _ => false, []⟩, "[]"⟩
        ⟨7, slots [some "pin", some "pin", some "pin", some "pin",
            some "pin", some "pin", some "x"] [],
          slots [some "1", some "2", some "3", some "4", some "5",
            some "6", none] []⟩ = .ok b' ∧
      ssiHandler maxTagInsertLen b' = .ok (inserted, 211) ∧
      inserted.length = 191 ∧ b'.response.length = 211 ∧
      ¬ 211 < maxTagInsertLen := by
  obtain ⟨b', hb'⟩ : ∃ b', apiCgiHandler
      ⟨⟨fun _ => false, fun _ => false, []⟩, "[]"⟩
      ⟨7, slots [some "pin", some "pin", some "pin", some "pin",
          some "pin", some "pin", some "x"] [],
        slots [some "1", some "2", some "3", some "4", some "5",
          some "6", none] []⟩ = .ok b' := ⟨_, rfl⟩
  obtain ⟨cs, hcs, hlen, hssi⟩ :=
    ssiHandler_apiCgiHandler (L := maxTagInsertLen) hb'
  have hsix : cs =
      [(1, -1), (2, -1), (3, -1), (4, -1), (5, -1), (6, -1)] :=
    Except.ok.inj (hcs.symm.trans rfl)
  have h211 : b'.response.length = 211 := by
    rw [hlen, hsix]
    decide +kernel
  rw [h211] at hssi
  refine ⟨b', _, hb', hssi, ?_, h211, by decide⟩
  rw [String.length_ofList, List.length_take, String.length_toList, h211]
  rfl

end IotHome.Firmware
