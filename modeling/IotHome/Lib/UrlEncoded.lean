import Mathlib.Data.List.Basic

/-!
# Query strings

A query string travels through three encoders before a server splits it: the
one that escaped the values, the URL parser, which escapes what may not stand
in a query, and `URLSearchParams`, which reads the query back into pairs and
writes it anew in its own alphabet. All of them percent-encode the UTF-8
bytes of a character and differ only in the characters they leave alone, so
there is one `percentEncode`, over the alphabet it keeps.

`formParse_query` is the round trip: escaped pairs come out of the parser as
they went in. With it the three steps are one, and `reserialize_join` says
which text they make of queries that were joined together.
-/

namespace IotHome.Lib

/-! ## Percent encoding -/

def hexDigit (n : Nat) : Char :=
  if n < 10 then Char.ofNat (48 + n) else Char.ofNat (55 + n)

def percentByte (b : UInt8) : List Char :=
  ['%', hexDigit (b.toNat / 16), hexDigit (b.toNat % 16)]

/-- One character: itself, or its UTF-8 bytes as `%XX`. -/
def percentChar (keep : Char → Bool) (c : Char) : List Char :=
  if keep c then [c] else (String.utf8EncodeChar c).flatMap percentByte

def percentEncode (keep : Char → Bool) (cs : List Char) : List Char :=
  cs.flatMap (percentChar keep)

def hexValue (c : Char) : Option Nat :=
  if '0' ≤ c ∧ c ≤ '9' then some (c.toNat - 48)
  else if 'A' ≤ c ∧ c ≤ 'F' then some (c.toNat - 55)
  else if 'a' ≤ c ∧ c ≤ 'f' then some (c.toNat - 87)
  else none

/-- The bytes of a percent-encoded text. A `%` without two hex digits behind
it stands for itself. -/
def percentDecode : List Char → List UInt8
  | [] => []
  | c :: rest =>
      if c = '%' then
        match rest with
        | a :: b :: rest' =>
            match hexValue a, hexValue b with
            | some x, some y => UInt8.ofNat (16 * x + y) :: percentDecode rest'
            | _, _ => String.utf8EncodeChar c ++ percentDecode (a :: b :: rest')
        | rest => String.utf8EncodeChar c ++ percentDecode rest
      else String.utf8EncodeChar c ++ percentDecode rest

def utf8Decode (bytes : List UInt8) : Option (List Char) :=
  bytes.toByteArray.utf8Decode?.map Array.toList

/-! ## The three encoders -/

/-- What node's `querystring.escape` leaves alone. -/
def isUnescaped (c : Char) : Bool :=
  c.isAlphanum || c ∈ ['-', '_', '.', '!', '~', '*', '\'', '(', ')']

/-- `querystring.escape`. -/
def escape (cs : List Char) : List Char := percentEncode isUnescaped cs

/-- What the URL parser leaves alone in the query of an `http` URL. -/
def isQueryChar (c : Char) : Bool :=
  '!' ≤ c && c ≤ '~' && c ∉ ['"', '#', '<', '>', '\'']

/-- What the serializer of `URLSearchParams` leaves alone. -/
def isFormChar (c : Char) : Bool :=
  c.isAlphanum || c ∈ ['*', '-', '.', '_']

def formEncodeChar (c : Char) : List Char :=
  if c = ' ' then ['+'] else percentChar isFormChar c

def formEncode (cs : List Char) : List Char := cs.flatMap formEncodeChar

def formDecode (cs : List Char) : Option (List Char) :=
  utf8Decode (percentDecode (cs.map fun c => if c = '+' then ' ' else c))

/-- A name and its value. -/
abbrev Pair := List Char × List Char

/-- `escape`d pairs joined by `&`, each `name=value`. -/
def queryOf (pairs : List Pair) : List Char :=
  ['&'].intercalate (pairs.map fun p => escape p.1 ++ '=' :: escape p.2)

/-- The two sides of the first `=`. -/
def splitPair (cs : List Char) : Pair :=
  (cs.takeWhile (· ≠ '='), (cs.dropWhile (· ≠ '=')).tail)

def decodePair (cs : List Char) : Option Pair := do
  let name ← formDecode (splitPair cs).1
  let value ← formDecode (splitPair cs).2
  pure (name, value)

/-- The pairs `URLSearchParams` reads off a query. A text that is not UTF-8
once decoded has none here. -/
def formParse (query : List Char) : Option (List Pair) :=
  ((query.splitOn '&').filter (· ≠ [])).mapM decodePair

def formSerialize (pairs : List Pair) : List Char :=
  ['&'].intercalate (pairs.map fun p => formEncode p.1 ++ '=' :: formEncode p.2)

/-- A query after the URL parser and `URLSearchParams`. -/
def reserialize (query : List Char) : Option (List Char) :=
  (formParse (percentEncode isQueryChar query)).map formSerialize

/-! ## Decoding what was encoded -/

theorem hexDigit_spec : ∀ n, n < 16 →
    hexValue (hexDigit n) = some n ∧ (hexDigit n).isAlphanum = true ∧
      isQueryChar (hexDigit n) = true := by
  decide

theorem percentDecode_percentByte (b : UInt8) (rest : List Char) :
    percentDecode (percentByte b ++ rest) = b :: percentDecode rest := by
  have hb : b.toNat < 256 := UInt8.toNat_lt_size b
  have hhi := (hexDigit_spec (b.toNat / 16) (by omega)).1
  have hlo := (hexDigit_spec (b.toNat % 16) (by omega)).1
  rw [percentByte, List.cons_append, List.cons_append, List.cons_append,
    List.nil_append, percentDecode, if_pos rfl]
  simp only [hhi, hlo]
  rw [Nat.div_add_mod, UInt8.ofNat_toNat]

theorem percentDecode_bytes (bs : List UInt8) (rest : List Char) :
    percentDecode (bs.flatMap percentByte ++ rest) =
      bs ++ percentDecode rest := by
  induction bs with
  | nil => rfl
  | cons b bs ih =>
      rw [List.flatMap_cons, List.append_assoc, percentDecode_percentByte, ih,
        List.cons_append]

theorem percentDecode_cons {c : Char} (hc : c ≠ '%') (rest : List Char) :
    percentDecode (c :: rest) =
      String.utf8EncodeChar c ++ percentDecode rest := by
  rw [percentDecode.eq_def]
  simp only [if_neg hc]

theorem ne_of_keep {keep : Char → Bool} {c d : Char} (hc : keep c = true)
    (hd : keep d = false) : c ≠ d := by
  rintro rfl
  rw [hc] at hd
  cases hd

theorem percentDecode_percentChar {keep : Char → Bool}
    (hkeep : keep '%' = false) (c : Char) (rest : List Char) :
    percentDecode (percentChar keep c ++ rest) =
      String.utf8EncodeChar c ++ percentDecode rest := by
  rw [percentChar]
  split
  · next hc => exact percentDecode_cons (ne_of_keep hc hkeep) rest
  · exact percentDecode_bytes _ rest

theorem percentDecode_percentEncode {keep : Char → Bool}
    (hkeep : keep '%' = false) (cs : List Char) :
    percentDecode (percentEncode keep cs) =
      cs.flatMap String.utf8EncodeChar := by
  induction cs with
  | nil => rfl
  | cons c cs ih =>
      rw [percentEncode, List.flatMap_cons, ← percentEncode,
        percentDecode_percentChar hkeep, ih, List.flatMap_cons]

theorem utf8Decode_encode (cs : List Char) :
    utf8Decode (cs.flatMap String.utf8EncodeChar) = some cs := by
  rw [utf8Decode, ← List.utf8Encode, List.utf8Decode?_utf8Encode]
  rfl

/-! ## The alphabets -/

theorem mem_percentChar {keep : Char → Bool} {c d : Char}
    (h : d ∈ percentChar keep c) :
    keep d = true ∨ d = '%' ∨ (d.isAlphanum = true ∧ isQueryChar d = true) := by
  rw [percentChar] at h
  split at h
  · next hc =>
      obtain rfl := List.mem_singleton.1 h
      exact .inl hc
  · obtain ⟨b, _, hb⟩ := List.mem_flatMap.1 h
    have hlt : b.toNat < 256 := UInt8.toNat_lt_size b
    right
    simp only [percentByte, List.mem_cons, List.not_mem_nil, or_false] at hb
    rcases hb with rfl | rfl | rfl
    · exact .inl rfl
    · exact .inr (hexDigit_spec (b.toNat / 16) (by omega)).2
    · exact .inr (hexDigit_spec (b.toNat % 16) (by omega)).2

theorem notMem_percentEncode {keep : Char → Bool} {d : Char}
    (hkeep : keep d = false) (hd : d ≠ '%') (halnum : d.isAlphanum = false)
    (cs : List Char) : d ∉ percentEncode keep cs := by
  intro h
  obtain ⟨c, _, hc⟩ := List.mem_flatMap.1 h
  rcases mem_percentChar hc with hk | hp | ⟨ha, _⟩
  · rw [hkeep] at hk
    cases hk
  · exact hd hp
  · rw [halnum] at ha
    cases ha

theorem notMem_formEncode {d : Char} (hkeep : isFormChar d = false)
    (hd : d ≠ '%') (hplus : d ≠ '+') (halnum : d.isAlphanum = false)
    (cs : List Char) : d ∉ formEncode cs := by
  intro h
  obtain ⟨c, _, hc⟩ := List.mem_flatMap.1 h
  rw [formEncodeChar] at hc
  split at hc
  · exact hplus (List.mem_singleton.1 hc)
  · refine notMem_percentEncode hkeep hd halnum [c] ?_
    rwa [percentEncode, List.flatMap_singleton]

/-! ## Escaping for the query twice

The URL parser meets an escaped text. Of what `escape` leaves, it encodes the
apostrophe and nothing else, so that the two are one encoding. -/

/-- What is left alone by both. -/
def isPlain (c : Char) : Bool := isUnescaped c && isQueryChar c

theorem percentEncode_cons (keep : Char → Bool) (c : Char) (cs : List Char) :
    percentEncode keep (c :: cs) =
      percentChar keep c ++ percentEncode keep cs := List.flatMap_cons

theorem percentEncode_append (keep : Char → Bool) (as bs : List Char) :
    percentEncode keep (as ++ bs) =
      percentEncode keep as ++ percentEncode keep bs := List.flatMap_append

theorem percentEncode_eq_self {keep : Char → Bool} {cs : List Char}
    (h : ∀ c ∈ cs, keep c = true) : percentEncode keep cs = cs := by
  induction cs with
  | nil => rfl
  | cons c cs ih =>
      rw [percentEncode_cons, percentChar,
        if_pos (h c List.mem_cons_self),
        ih fun d hd => h d (List.mem_cons_of_mem c hd)]
      rfl

theorem percentEncode_escape (cs : List Char) :
    percentEncode isQueryChar (escape cs) = percentEncode isPlain cs := by
  induction cs with
  | nil => rfl
  | cons c cs ih =>
      rw [escape, percentEncode_cons, percentEncode_append, ← escape, ih,
        percentEncode_cons]
      congr 1
      rw [percentChar, percentChar]
      cases hu : isUnescaped c with
      | true =>
          rw [if_pos rfl, isPlain, hu, Bool.true_and, percentEncode,
            List.flatMap_singleton, percentChar]
      | false =>
          rw [if_neg (by decide), isPlain, hu, Bool.false_and,
            if_neg (by decide)]
          refine percentEncode_eq_self fun d hd => ?_
          have hmem : d ∈ percentChar (fun _ => false) c := hd
          rcases mem_percentChar hmem with hk | rfl | ⟨_, hq⟩
          · cases hk
          · decide
          · exact hq

theorem percentEncode_intercalate (keep : Char → Bool) {sep : Char}
    (hsep : keep sep = true) (parts : List (List Char)) :
    percentEncode keep ([sep].intercalate parts) =
      [sep].intercalate (parts.map (percentEncode keep)) := by
  have hself : percentEncode keep [sep] = [sep] :=
    percentEncode_eq_self fun c hc => List.mem_singleton.1 hc ▸ hsep
  induction parts with
  | nil => rfl
  | cons p parts ih =>
      cases parts with
      | nil => simp
      | cons q parts =>
          rw [List.intercalate_cons_cons, percentEncode_append,
            percentEncode_append, ih, hself, List.map_cons, List.map_cons,
            List.map_cons, List.intercalate_cons_cons]

/-! ## The round trip -/

theorem formDecode_plain (cs : List Char) :
    formDecode (percentEncode isPlain cs) = some cs := by
  have hplus : (percentEncode isPlain cs).map
      (fun c => if c = '+' then ' ' else c) = percentEncode isPlain cs := by
    refine (List.map_congr_left fun c hc => if_neg ?_).trans (List.map_id _)
    rintro rfl
    exact notMem_percentEncode (by decide) (by decide) (by decide) cs hc
  rw [formDecode, hplus, percentDecode_percentEncode (by decide),
    utf8Decode_encode]

theorem splitPair_append {name : List Char} (h : '=' ∉ name)
    (value : List Char) : splitPair (name ++ '=' :: value) = (name, value) := by
  have hname : ∀ c ∈ name, decide (c ≠ '=') = true := by
    intro c hc
    rw [decide_eq_true_eq]
    rintro rfl
    exact h hc
  rw [splitPair, List.takeWhile_append_of_pos hname,
    List.dropWhile_append_of_pos hname, List.takeWhile_cons_of_neg (by simp),
    List.dropWhile_cons_of_neg (by simp), List.append_nil, List.tail_cons]

theorem decodePair_plain (p : Pair) :
    decodePair (percentEncode isPlain p.1 ++ '=' ::
      percentEncode isPlain p.2) = some p := by
  have heq : '=' ∉ percentEncode isPlain p.1 :=
    notMem_percentEncode (by decide) (by decide) (by decide) p.1
  rw [decodePair, splitPair_append heq, formDecode_plain, formDecode_plain]
  rfl

theorem mapM_map_some {α β : Type} {f : α → β} {g : β → Option α}
    (h : ∀ a, g (f a) = some a) (as : List α) :
    (as.map f).mapM g = some as := by
  induction as with
  | nil => rfl
  | cons a as ih =>
      rw [List.map_cons, List.mapM_cons, h, ih]
      rfl

/-- What the URL parser makes of a query is read back as the pairs it was
made from. -/
theorem formParse_query (pairs : List Pair) :
    formParse (percentEncode isQueryChar (queryOf pairs)) = some pairs := by
  have hparts : (pairs.map fun p => escape p.1 ++ '=' :: escape p.2).map
      (percentEncode isQueryChar) =
      pairs.map fun p =>
        percentEncode isPlain p.1 ++ '=' :: percentEncode isPlain p.2 := by
    rw [List.map_map]
    refine List.map_congr_left fun p _ => ?_
    show percentEncode isQueryChar (escape p.1 ++ '=' :: escape p.2) = _
    rw [percentEncode_append, percentEncode_cons, percentEncode_escape,
      percentEncode_escape]
    rfl
  rw [queryOf, percentEncode_intercalate isQueryChar (by decide), hparts,
    formParse]
  cases pairs with
  | nil => rfl
  | cons p pairs =>
      rw [List.splitOn_intercalate, List.filter_eq_self.2]
      · exact mapM_map_some decodePair_plain (p :: pairs)
      · intro part hpart
        obtain ⟨q, _, rfl⟩ := List.mem_map.1 hpart
        simp
      · intro part hpart
        obtain ⟨q, _, rfl⟩ := List.mem_map.1 hpart
        have hfst : '&' ∉ percentEncode isPlain q.1 :=
          notMem_percentEncode (by decide) (by decide) (by decide) q.1
        have hsnd : '&' ∉ percentEncode isPlain q.2 :=
          notMem_percentEncode (by decide) (by decide) (by decide) q.2
        simp [hfst, hsnd]
      · simp

theorem formParse_append (as bs : List Char) :
    formParse (as ++ '&' :: bs) =
      (do
        let ps ← formParse as
        let qs ← formParse bs
        pure (ps ++ qs)) := by
  rw [formParse, List.splitOn_append_cons_self, List.filter_append,
    List.mapM_append]
  rfl

/-- Queries joined once more, empty ones among them. -/
theorem formParse_join (queries : List (List Pair)) :
    formParse (percentEncode isQueryChar
      (['&'].intercalate (queries.map queryOf))) = some queries.flatten := by
  rw [percentEncode_intercalate isQueryChar (by decide)]
  induction queries with
  | nil => rfl
  | cons ps queries ih =>
      cases queries with
      | nil => simpa using formParse_query ps
      | cons qs queries =>
          rw [List.map_cons, List.map_cons, List.map_cons, List.map_cons,
            List.intercalate_cons_cons, List.append_assoc,
            List.singleton_append, formParse_append, formParse_query,
            ← List.map_cons, ← List.map_cons, ih]
          rfl

theorem reserialize_join (queries : List (List Pair)) :
    reserialize (['&'].intercalate (queries.map queryOf)) =
      some (formSerialize queries.flatten) := by
  rw [reserialize, formParse_join]
  rfl

/-- Splitting the serialized query at each `&` again. -/
theorem splitOn_formSerialize {pairs : List Pair} (hne : pairs ≠ []) :
    (formSerialize pairs).splitOn '&' =
      pairs.map fun p => formEncode p.1 ++ '=' :: formEncode p.2 := by
  rw [formSerialize, List.splitOn_intercalate]
  · intro part hpart
    obtain ⟨p, _, rfl⟩ := List.mem_map.1 hpart
    have hfst : '&' ∉ formEncode p.1 :=
      notMem_formEncode (by decide) (by decide) (by decide) (by decide) p.1
    have hsnd : '&' ∉ formEncode p.2 :=
      notMem_formEncode (by decide) (by decide) (by decide) (by decide) p.2
    simp [hfst, hsnd]
  · simpa using hne

end IotHome.Lib
