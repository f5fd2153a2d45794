import IotHome.Lib.Assoc
import IotHome.Lib.Decimal

/-!
# The virtual device

`device-control.module.ts`: a device without pins that keeps a state for each
pin number it was asked about and answers `/api` like the real one. The query
parser gives a name that is repeated as the array of its values, so pins and
values reach the handler as two lists, and it puts them side by side by
index.

`toNumber` is the language's `Number(text)`. A number is exact here, or one
of the three that are not numbers of digits.
-/

namespace IotHome.Virtual

open IotHome.Lib

/-! ## Numbers -/

inductive JsNumber where
  | nan
  | infinity (neg : Bool)
  | dec (d : Dec)
  deriving DecidableEq

def isJsSpace (c : Char) : Bool :=
  c ∈ [' ', '\t', '\n', '\r', '\x0b', '\x0c', '\u00a0', '\ufeff', '\u1680',
    '\u2028', '\u2029', '\u202f', '\u205f', '\u3000'] ||
    ('\u2000' ≤ c && c ≤ '\u200a')

def trim (cs : List Char) : List Char :=
  ((cs.dropWhile isJsSpace).reverse.dropWhile isJsSpace).reverse

def digitValue (c : Char) : Nat :=
  if c.isDigit then c.toNat - 48
  else if 'a' ≤ c ∧ c ≤ 'f' then c.toNat - 87
  else if 'A' ≤ c ∧ c ≤ 'F' then c.toNat - 55
  else 16

/-- The digits of a literal with a radix. -/
def radixLiteral (radix : Nat) (ds : List Char) : JsNumber :=
  if ds = [] ∨ ds.any (radix ≤ digitValue ·) then .nan
  else .dec (.ofInt (ds.foldl (fun n c => n * radix + digitValue c) 0 : Nat))

/-- A decimal literal without its sign. -/
def decimalLiteral (neg : Bool) (cs : List Char) : JsNumber :=
  let int := cs.takeWhile Char.isDigit
  let rest := cs.dropWhile Char.isDigit
  let (frac, rest) := match rest with
    | '.' :: cs => (cs.takeWhile Char.isDigit, cs.dropWhile Char.isDigit)
    | cs => ([], cs)
  if cs = "Infinity".toList then .infinity neg
  else if int ++ frac = [] then .nan
  else
    match exponent rest with
    | none => .nan
    | some exp => .dec (.ofParts neg (int ++ frac) (exp - frac.length))

/-- `Number(text)`. -/
def toNumber (text : List Char) : JsNumber :=
  match trim text with
  | [] => .dec (.ofInt 0)
  | '0' :: 'x' :: ds => radixLiteral 16 ds
  | '0' :: 'X' :: ds => radixLiteral 16 ds
  | '0' :: 'o' :: ds => radixLiteral 8 ds
  | '0' :: 'O' :: ds => radixLiteral 8 ds
  | '0' :: 'b' :: ds => radixLiteral 2 ds
  | '0' :: 'B' :: ds => radixLiteral 2 ds
  | '-' :: cs => decimalLiteral true cs
  | '+' :: cs => decimalLiteral false cs
  | cs => decimalLiteral false cs

/-- `Number.isInteger`, and the integer. -/
def JsNumber.integer? : JsNumber → Option Int
  | .dec d => if d.scale = 0 then some d.mantissa else none
  | _ => none

/-- `n > 0`. -/
def JsNumber.isPositive : JsNumber → Bool
  | .nan => false
  | .infinity neg => !neg
  | .dec d => 0 < d.mantissa

/-! ## The pins -/

structure PinState where
  pin : Int
  val : JsNumber
  dir : Nat
  sta : Nat

/-- `_state`. -/
abbrev Pins := OrderedMap Int PinState

def defaultState (pinNumber : Int) : PinState :=
  ⟨pinNumber, .dec (.ofInt 0), 0, 0⟩

/-- `_initPins`. -/
def initPins : Pins :=
  [2, 3].foldl (fun m pin => m.set pin (defaultState pin)) .empty

def getState (s : Pins) (pinNumber : Int) : Pins × PinState :=
  match s.get pinNumber with
  | some current => (s, current)
  | none => (s.set pinNumber (defaultState pinNumber), defaultState pinNumber)

def setState (s : Pins) (pinNumber : Int) (val : JsNumber) :
    Pins × PinState :=
  let sta := if val.isPositive then 1 else 0
  let (s, currentState) := getState s pinNumber
  let newState := { currentState with pin := pinNumber, val := val, sta := sta }
  (s.set pinNumber newState, newState)

/-! ## A request -/

/-- `req.query[name]`, as an array: the values of a name, in order. -/
def queryArr (query : List (String × String)) (name : String) : List String :=
  query.filterMap fun p => if p.1 = name then some p.2 else none

/-- `_getControlParams`. A value that is empty counts as none. -/
def getControlParams (query : List (String × String)) :
    List (Int × Option JsNumber) :=
  let valQueryArr := queryArr query "val"
  (queryArr query "pin").zipIdx.filterMap fun p =>
    match (toNumber p.1.toList).integer? with
    | none => none
    | some pin =>
        match valQueryArr[p.2]? with
        | none => some (pin, none)
        | some valQuery =>
            if valQuery = "" then some (pin, none)
            else some (pin, some (toNumber valQuery.toList))

/-- One turn of the loop in `pin_ctrl`. -/
def ctrlStep (r : Pins × List PinState) (param : Int × Option JsNumber) :
    Pins × List PinState :=
  match param.2 with
  | none =>
      let (s, currentState) := getState r.1 param.1
      (s, r.2 ++ [currentState])
  | some val =>
      let (s, newState) := setState r.1 param.1 val
      (s, r.2 ++ [newState])

/-- `pin_ctrl`: the pins after the request, and the states answered. -/
def pinCtrl (s : Pins) (query : List (String × String)) :
    Pins × List PinState :=
  (getControlParams query).foldl ctrlStep (s, [])

end IotHome.Virtual
