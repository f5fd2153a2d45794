import IotHome.Firmware.Uri
import IotHome.Proofs.ApiParams

/-!
# Which requests stay inside the tables

The handler takes the number behind `pin` as an index as it stands, and the
strings it compares and reads are those of the URL, where a parameter without
`=` has none. Whether it gets through a request without a fault is a matter of
its `pin` parameters alone, each with the one entry behind it, and
`handleRequestParams_terminates_iff` says which of them are harmless. There is
no other way for it to fail: the loops are bounded by the parameter count.

The entry behind the last parameter counts, up to the tenth. It is no
parameter of the request, so a list that ends in a `pin` is harmless or not
by what older requests have left there.
-/

namespace IotHome.Firmware

open IotHome.Lib

/-- The handler gets through a parameter list without a fault exactly when
every `pin` among its first ten parameters is harmless. -/
theorem handleRequestParams_terminates_iff {params : List Param}
    {pcParam pcValue : Nat → CharPtr} (h : Holds params pcParam pcValue)
    (g : Gpio) :
    (∃ r, handleRequestParams params.length pcParam pcValue g = .ok r) ↔
      ∀ i, i < params.length → i < 10 → SafeAt pcParam pcValue i := by
  rw [isOk_handle, exists_commandsFrom_iff _ 0 (Nat.zero_add _)
    (Nat.zero_le 10)]
  constructor
  · intro hsafe i hi hten
    exact (hsafe i (Nat.zero_le i) hi hten).2
  · intro hsafe i _ hi hten
    refine ⟨?_, hsafe i hi hten⟩
    rw [(h i hi).1]
    exact Option.some_ne_none _

/-- `pin=2&val=1`, in fresh arrays. -/
theorem handleRequestParams_terminates_set :
    (∃ r, handleRequestParams 2
        (paramNames [("pin", some "2"), ("val", some "1")])
        (paramValues [("pin", some "2"), ("val", some "1")])
        ⟨fun _ => false, fun _ => false, []⟩ = .ok r) ↔
      ∀ i, i < 2 → i < 10 → SafeAt
        (paramNames [("pin", some "2"), ("val", some "1")])
        (paramValues [("pin", some "2"), ("val", some "1")]) i :=
  handleRequestParams_terminates_iff
    (holds_fresh [("pin", some "2"), ("val", some "1")]) _

/-- `pin=10` writes behind the tables, `pin=-1` before them, `pin` without a
value hands NULL to `atoi`, and `pin=2` in fresh arrays NULL to `strcmp`. -/
theorem handleRequestParams_faults :
    (∀ value ∈ ["10", "-1"],
      handleRequestParams 2 (slots [some "pin", some "val"] [])
        (slots [some value, some "1"] [])
        ⟨fun _ => false, fun _ => false, []⟩ = .error .outOfBounds) ∧
    handleRequestParams 1 (slots [some "pin"] []) (slots [none] [])
      ⟨fun _ => false, fun _ => false, []⟩ = .error .nullPointer ∧
    handleRequestParams 1 (slots [some "pin"] []) (slots [some "2"] [])
      ⟨fun _ => false, fun _ => false, []⟩ = .error .nullPointer := by
  refine ⟨?_, rfl, rfl⟩
  intro value hvalue
  simp only [List.mem_cons, List.not_mem_nil, or_false] at hvalue
  rcases hvalue with rfl | rfl
  · rfl
  · rfl

end IotHome.Firmware
