import IotHome.Lib.EscapedFields
import IotHome.Lib.Numeral

/-!
# Requests as HTTP/1.1 reads them

A request is a line with the method and the target, fields up to the first
empty line, and as many bytes as the field `Content-Length` says. A line ends
with CR and LF. The blanks around the value of a field are not part of it, and
the letters of its name may be large or small.

`readRequest_write` reads a request that was written, whatever comes behind it.
-/

namespace IotHome.Lib

/-- Bytes as characters, and back. -/
def textOf (bytes : List UInt8) : List Char :=
  bytes.map fun b => Char.ofNat b.toNat

def bytesOf (text : List Char) : List UInt8 :=
  text.map fun c => UInt8.ofNat c.toNat

namespace Http

structure Request where
  method : List UInt8
  target : List UInt8
  fields : List (List UInt8 × List UInt8)
  body : List UInt8
  deriving DecidableEq

/-- `HTTP/1.1` -/
def version : List UInt8 := bytesOf "HTTP/1.1".toList

def isBlank (b : UInt8) : Bool := b = 32 || b = 9

def trimBlanks (value : List UInt8) : List UInt8 :=
  ((value.dropWhile isBlank).reverse.dropWhile isBlank).reverse

/-! ## Reading -/

/-- The lines up to the first empty one, and what is behind it. The first of
them begins with `line`. -/
def headLines (line : List UInt8) :
    List UInt8 → Option (List (List UInt8) × List UInt8)
  | [] => none
  | 13 :: 10 :: rest =>
      if line = [] then some ([], rest)
      else (headLines [] rest).map fun r => (line :: r.1, r.2)
  | b :: rest => headLines (line ++ [b]) rest

def readRequestLine (line : List UInt8) : Option (List UInt8 × List UInt8) :=
  match line.splitOn 32 with
  | [method, target, v] => if v = version then some (method, target) else none
  | _ => none

def readField (line : List UInt8) : Option (List UInt8 × List UInt8) :=
  match line.dropWhile (· != 58) with
  | [] => none
  | _ :: value => some (line.takeWhile (· != 58), trimBlanks value)

def toLower (b : UInt8) : UInt8 := if 65 ≤ b ∧ b ≤ 90 then b + 32 else b

def isContentLength (field : List UInt8 × List UInt8) : Bool :=
  field.1.map toLower = bytesOf "content-length".toList

/-- The length of the body, which is nothing without the field. -/
def contentLength (fields : List (List UInt8 × List UInt8)) : Option Nat :=
  match fields.filter isContentLength with
  | [] => some 0
  | [field] => digitsValue (textOf field.2)
  | _ => none

/-- The request at the start of the bytes, and what is behind it. -/
def readRequest (bytes : List UInt8) : Option (Request × List UInt8) := do
  let (lines, rest) ← headLines [] bytes
  let line ← lines.head?
  let (method, target) ← readRequestLine line
  let fields ← lines.tail.mapM readField
  let length ← contentLength fields
  if rest.length < length then none
  else some (⟨method, target, fields, rest.take length⟩, rest.drop length)

/-! ## Writing -/

def writeField (field : List UInt8 × List UInt8) : List UInt8 :=
  field.1 ++ [58, 32] ++ field.2

/-- A line, and what ends it. -/
def writeLine (line : List UInt8) : List UInt8 := line ++ [13, 10]

def requestLine (r : Request) : List UInt8 :=
  r.method ++ [32] ++ r.target ++ [32] ++ version

def writeRequest (r : Request) : List UInt8 :=
  writeLine (requestLine r) ++
    r.fields.flatMap (fun field => writeLine (writeField field)) ++
    writeLine [] ++ r.body

/-- The value of each field without the blanks around it. -/
def trimFields (fields : List (List UInt8 × List UInt8)) :
    List (List UInt8 × List UInt8) :=
  fields.map fun field => (field.1, trimBlanks field.2)

/-- A request that can be written: no part has in it what ends the part, and
the length is the one of the body. -/
structure Request.Writable (r : Request) : Prop where
  method : 32 ∉ r.method ∧ 13 ∉ r.method
  target : 32 ∉ r.target ∧ 13 ∉ r.target
  names : ∀ field ∈ r.fields, 58 ∉ field.1 ∧ 13 ∉ field.1
  values : ∀ field ∈ r.fields, 13 ∉ field.2
  length : contentLength (trimFields r.fields) = some r.body.length

/-! ## The round trip -/

theorem headLines_cons {line : List UInt8} {b : UInt8} (hb : b ≠ 13)
    (rest : List UInt8) :
    headLines line (b :: rest) = headLines (line ++ [b]) rest := by
  rw [headLines]
  exact fun _ hcr => absurd hcr hb

/-- A line without a CR in it is read as it is. -/
theorem headLines_append {text : List UInt8} (h : 13 ∉ text)
    (line rest : List UInt8) :
    headLines line (writeLine text ++ rest) =
      if line ++ text = [] then some ([], rest)
      else (headLines [] rest).map fun r => ((line ++ text) :: r.1, r.2) := by
  induction text generalizing line with
  | nil => rw [List.append_nil]; rfl
  | cons b text ih =>
      rw [List.mem_cons, not_or] at h
      have hcons : writeLine (b :: text) ++ rest =
          b :: (writeLine text ++ rest) := rfl
      rw [hcons, headLines_cons (Ne.symm h.1), ih h.2, List.append_assoc,
        List.singleton_append]

theorem headLines_line {text : List UInt8} (h : 13 ∉ text) (hne : text ≠ [])
    (rest : List UInt8) :
    headLines [] (writeLine text ++ rest) =
      (headLines [] rest).map fun r => (text :: r.1, r.2) := by
  rw [headLines_append h, List.nil_append, if_neg hne]

theorem headLines_fields {fields : List (List UInt8 × List UInt8)}
    (h : ∀ field ∈ fields, 13 ∉ writeField field) (rest : List UInt8) :
    headLines []
        (fields.flatMap (fun field => writeLine (writeField field)) ++
          (writeLine [] ++ rest)) =
      some (fields.map writeField, rest) := by
  induction fields with
  | nil => rfl
  | cons field fields ih =>
      rw [List.forall_mem_cons] at h
      have hne : writeField field ≠ [] := by simp [writeField]
      rw [List.flatMap_cons, List.append_assoc, headLines_line h.1 hne, ih h.2]
      rfl

theorem splitOn_cons {part : List UInt8} {sep : UInt8} (h : sep ∉ part)
    (rest : List UInt8) :
    (part ++ sep :: rest).splitOn sep = part :: rest.splitOn sep := by
  rw [splitOn_append h, List.splitOn_cons_eq_if_modifyHead,
    if_pos (beq_self_eq_true sep), List.modifyHead_cons, List.append_nil]

theorem readRequestLine_write {r : Request} (h : r.Writable) :
    readRequestLine (requestLine r) = some (r.method, r.target) := by
  have hline : requestLine r =
      r.method ++ 32 :: (r.target ++ 32 :: version) := by
    simp [requestLine]
  rw [readRequestLine, hline, splitOn_cons h.method.1, splitOn_cons h.target.1]
  rfl

theorem readField_write {field : List UInt8 × List UInt8} (h : 58 ∉ field.1) :
    readField (writeField field) = some (field.1, trimBlanks field.2) := by
  have hname : ∀ b ∈ field.1, (b != 58) = true :=
    fun b hb => bne_iff_ne.2 fun heq => h (heq ▸ hb)
  have hfield : writeField field = field.1 ++ 58 :: 32 :: field.2 := by
    simp [writeField]
  rw [readField, hfield, List.dropWhile_append_of_pos hname,
    List.takeWhile_append_of_pos hname]
  simp [trimBlanks, isBlank]

theorem mapM_readField {fields : List (List UInt8 × List UInt8)}
    (h : ∀ field ∈ fields, 58 ∉ field.1) :
    (fields.map writeField).mapM readField = some (trimFields fields) := by
  induction fields with
  | nil => rfl
  | cons field fields ih =>
      rw [List.forall_mem_cons] at h
      rw [List.map_cons, List.mapM_cons, readField_write h.1, ih h.2]
      rfl

theorem cr_notMem_requestLine {r : Request} (h : r.Writable) :
    13 ∉ requestLine r := by
  have hversion : (13 : UInt8) ∉ version := by decide
  simp [requestLine, h.method.2, h.target.2, hversion]

theorem cr_notMem_writeField {field : List UInt8 × List UInt8}
    (hname : 13 ∉ field.1) (hvalue : 13 ∉ field.2) :
    13 ∉ writeField field := by
  simp [writeField, hname, hvalue]

/-- What was written is read, and nothing behind it. -/
theorem readRequest_write {r : Request} (h : r.Writable) (rest : List UInt8) :
    readRequest (writeRequest r ++ rest) =
      some ({ r with fields := trimFields r.fields }, rest) := by
  have hfields : ∀ field ∈ r.fields, 13 ∉ writeField field := fun field hf =>
    cr_notMem_writeField (h.names field hf).2 (h.values field hf)
  have hne : requestLine r ≠ [] := by simp [requestLine]
  have hhead : headLines [] (writeRequest r ++ rest) =
      some (requestLine r :: r.fields.map writeField, r.body ++ rest) := by
    rw [writeRequest, List.append_assoc, List.append_assoc, List.append_assoc,
      headLines_line (cr_notMem_requestLine h) hne, headLines_fields hfields]
    rfl
  have hlong : ¬ (r.body ++ rest).length < r.body.length := by
    rw [List.length_append]
    omega
  rw [readRequest, hhead]
  simp only [Option.bind_eq_bind, Option.bind_some, List.head?_cons,
    List.tail_cons, readRequestLine_write h,
    mapM_readField fun field hf => (h.names field hf).1, h.length]
  rw [if_neg hlong, List.take_left, List.drop_left]

/-- What is behind the body is another request. -/
example : readRequest (bytesOf
      "PUT /a HTTP/1.1\r\ncontent-length:2 \r\n\r\nokPUT".toList) =
    some (⟨bytesOf "PUT".toList, bytesOf "/a".toList,
      [(bytesOf "content-length".toList, bytesOf "2".toList)],
      bytesOf "ok".toList⟩, bytesOf "PUT".toList) := by decide

/-! ## The length, in digits -/

theorem trimBlanks_eq_self {value : List UInt8}
    (h : ∀ b ∈ value, isBlank b = false) : trimBlanks value = value := by
  have hkeep : ∀ v : List UInt8, (∀ b ∈ v, isBlank b = false) →
      v.dropWhile isBlank = v := by
    intro v hv
    cases v with
    | nil => rfl
    | cons b v =>
        refine List.dropWhile_cons_of_neg ?_
        rw [hv b List.mem_cons_self]
        decide
  rw [trimBlanks, hkeep value h, hkeep value.reverse fun b hb =>
    h b (List.mem_reverse.1 hb), List.reverse_reverse]

theorem isDigit_bounds {c : Char} (h : c.isDigit = true) :
    48 ≤ c.toNat ∧ c.toNat ≤ 57 := by
  rw [Char.isDigit, Bool.and_eq_true, decide_eq_true_eq,
    decide_eq_true_eq] at h
  exact ⟨UInt32.le_iff_toNat_le.1 h.1, UInt32.le_iff_toNat_le.1 h.2⟩

theorem toNat_ofDigit {c : Char} (h : c.isDigit = true) :
    (UInt8.ofNat c.toNat).toNat = c.toNat := by
  have hbounds := isDigit_bounds h
  rw [UInt8.toNat_ofNat']
  omega

theorem textOf_bytesOf {digits : List Char}
    (h : ∀ c ∈ digits, c.isDigit = true) :
    textOf (bytesOf digits) = digits := by
  rw [textOf, bytesOf, List.map_map]
  refine (List.map_congr_left fun c hc => ?_).trans (List.map_id digits)
  show Char.ofNat (UInt8.ofNat c.toNat).toNat = c
  rw [toNat_ofDigit (h c hc), Char.ofNat_toNat]

theorem bytes_of_digits {digits : List Char}
    (h : ∀ c ∈ digits, c.isDigit = true) :
    ∀ b ∈ bytesOf digits, 48 ≤ b.toNat ∧ b.toNat ≤ 57 := by
  intro b hb
  obtain ⟨c, hc, rfl⟩ := List.mem_map.1 hb
  rw [toNat_ofDigit (h c hc)]
  exact isDigit_bounds (h c hc)

/-- A length that was written is read. -/
theorem digitsValue_toDigits (n : Nat) :
    digitsValue (textOf (trimBlanks (bytesOf (Nat.toDigits 10 n)))) =
      some n := by
  have hdigits : ∀ c ∈ Nat.toDigits 10 n, c.isDigit = true :=
    fun c hc => isDigit_of_mem_toDigits hc
  have hblank : ∀ b ∈ bytesOf (Nat.toDigits 10 n), isBlank b = false := by
    intro b hb
    have hbounds := bytes_of_digits hdigits b hb
    rw [isBlank, Bool.or_eq_false_iff, decide_eq_false_iff_not,
      decide_eq_false_iff_not]
    refine ⟨fun heq => ?_, fun heq => ?_⟩
    · rw [heq] at hbounds
      exact absurd hbounds.1 (by decide)
    · rw [heq] at hbounds
      exact absurd hbounds.1 (by decide)
  rw [trimBlanks_eq_self hblank, textOf_bytesOf hdigits, digitsValue,
    if_pos ⟨Nat.toDigits_ne_nil, List.all_eq_true.2 hdigits⟩,
    Nat.ofDigitChars_ten_toDigits]

end Http

end IotHome.Lib
