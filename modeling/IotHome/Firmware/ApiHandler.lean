import IotHome.Lib.Numeral

/-!
# The device's `/api` handler

`ApiHandler.cpp`, function by function. The web server hands the handler a
parameter count and two arrays of C strings that are longer than the count
and are reused from one request to the next, so what stands behind the count
is whatever older requests left there. An array is therefore a total function
here, and an entry is a `char *` that may be NULL.

What C leaves undefined is an error of the model. `Fault` names the ways this
code can get there: a NULL pointer given to `strcmp` or `atoi`, an index
outside the ten entries of `pins` and `vals`, and, in the web server's other
callback, a `%` in the text it gives to `snprintf` as a format. Nothing is
computed past a fault.

The GPIO bank is what the handler's SDK calls can see of it: the level and
the direction of each pin, and the record of the writes that were made.
-/

namespace IotHome.Firmware

open IotHome.Lib

/-- Undefined behaviour the handler can run into. -/
inductive Fault where
  | nullPointer
  | outOfBounds
  | formatDirective
  deriving DecidableEq, Repr

/-- A `char *`: a NUL-terminated string, or NULL. -/
abbrev CharPtr := Option String

/-- `strcmp(p, lit) == 0`. -/
def strcmpEq (p : CharPtr) (lit : String) : Except Fault Bool :=
  match p with
  | none => .error .nullPointer
  | some s => .ok (s == lit)

/-- The bounds of a 32-bit `long`, at which `strtol` stops. -/
def clampInt32 (n : Int) : Int := max (-2147483648) (min n 2147483647)

/-- `atoi` of the firmware's C library, `(int) strtol(s, NULL, 10)`. -/
def atoi (p : CharPtr) : Except Fault Int :=
  match p with
  | none => .error .nullPointer
  | some s => .ok (clampInt32 (readInt s.toList))

/-! ## The GPIO bank -/

/-- The pins, with the `gpio_put` calls made so far, oldest first. -/
structure Gpio where
  level : Nat → Bool
  out : Nat → Bool
  puts : List (Nat × Bool)

def Gpio.gpioSetDir (g : Gpio) (pin : Nat) (out : Bool) : Gpio :=
  { g with out := fun p => if p = pin then out else g.out p }

def Gpio.gpioPut (g : Gpio) (pin : Nat) (value : Bool) : Gpio :=
  { g with
    level := fun p => if p = pin then value else g.level p
    puts := g.puts ++ [(pin, value)] }

def Gpio.gpioGet (g : Gpio) (pin : Nat) : Bool := g.level pin

/-- `ApiHandler::gpio`. A negative value only reads the pin. -/
def gpio (g : Gpio) (pinNumber : Nat) (direction : Bool) (value : Int) :
    Gpio × Bool :=
  let g := if direction then g.gpioSetDir pinNumber true
    else g.gpioSetDir pinNumber false
  let g := if value ≥ 0 then g.gpioPut pinNumber (value != 0) else g
  (g, g.gpioGet pinNumber)

/-! ## The parameter loop -/

/-- The two static arrays, `int pins[10]` and `int vals[10]`. -/
structure Tables where
  pins : Nat → Int
  vals : Nat → Int

/-- The two arrays as the first loop leaves them, all zero. -/
def Tables.zero : Tables := ⟨fun _ => 0, fun _ => 0⟩

/-- An index into an array of ten. -/
def arrayIndex (i : Int) : Except Fault Nat :=
  if 0 ≤ i ∧ i < 10 then .ok i.toNat else .error .outOfBounds

def Tables.setPin (t : Tables) (i : Int) (x : Int) : Except Fault Tables := do
  let i ← arrayIndex i
  pure { t with pins := fun p => if p = i then x else t.pins p }

def Tables.setVal (t : Tables) (i : Int) (x : Int) : Except Fault Tables := do
  let i ← arrayIndex i
  pure { t with vals := fun p => if p = i then x else t.vals p }

/-- One turn of the parameter loop. The look-ahead reads the name at `i + 1`
whether or not the request has that many parameters. -/
def paramStep (pcParam pcValue : Nat → CharPtr) (i : Nat) (t : Tables) :
    Except Fault Tables := do
  if ← strcmpEq (pcParam i) "pin" then
    let pin ← atoi (pcValue i)
    let t ← t.setPin pin 1
    if i + 1 < 10 then
      if ← strcmpEq (pcParam (i + 1)) "val" then
        let val ← atoi (pcValue (i + 1))
        t.setVal pin val
      else
        t.setVal pin (-1)
    else
      t.setVal pin (-1)
  else
    pure t

/-- The parameter loop from index `i`, with `left` parameters still to come:
`i + left` is `iNumParams` throughout. -/
def paramLoop (pcParam pcValue : Nat → CharPtr) :
    (left i : Nat) → Tables → Except Fault Tables
  | 0, _, t => pure t
  | left + 1, i, t =>
      if i = 10 then pure t
      else do
        let t ← paramStep pcParam pcValue i t
        paramLoop pcParam pcValue left (i + 1) t

/-! ## The response -/

/-- What the report loop carries: the bank, the object counter, the text. -/
structure Report where
  gpio : Gpio
  objI : Nat
  res : String

/-- The text of one pin's object. -/
def objText (pin : Nat) (val : Int) (dir sta : Bool) : String :=
  "\x7b" ++ ("\"pin\":" ++ toString pin) ++ (",\"val\":" ++ toString val)
    ++ (",\"dir\":" ++ toString dir.toNat)
    ++ (",\"sta\":" ++ toString sta.toNat) ++ "\x7d"

/-- One turn of the report loop. -/
def reportStep (t : Tables) (r : Report) (pin : Nat) : Report :=
  if t.pins pin = 0 then r
  else
    let val := t.vals pin
    let dir := true
    let (g, sta) := gpio r.gpio pin dir val
    let res := if r.objI ≠ 0 then r.res ++ "," else r.res
    ⟨g, r.objI + 1, res ++ objText pin val dir sta⟩

/-- The pins the report loop visits, `1` up to `9`. -/
def apiPins : List Nat := [1, 2, 3, 4, 5, 6, 7, 8, 9]

/-- `ApiHandler::handleRequestParams`: the bank after the request and the
text given to `setResponse`. -/
def handleRequestParams (iNumParams : Nat) (pcParam pcValue : Nat → CharPtr)
    (g : Gpio) : Except Fault (Gpio × String) := do
  let t ← paramLoop pcParam pcValue iNumParams 0 Tables.zero
  let r := apiPins.foldl (reportStep t) ⟨g, 0, "["⟩
  pure (r.gpio, r.res ++ "]")

end IotHome.Firmware
