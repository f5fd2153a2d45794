import IotHome.Lib.JsonCanonical
import IotHome.Lib.Stringify
import Mathlib.Data.List.Forall2

/-!
# Reading back the text of a value

The machine of `Json.lean` is followed over the text of a value, unit by
unit for the words and strings and by induction for the rest. A number or a
name is only complete when something else comes behind it, so what holds
after a value is `Settled`: either the stack has the value already, or the
lexer is in a word that the next token's first unit will turn into it.

`Reads` is what a text does wherever a value may stand. An array and an object
read as what the texts in them read as, however these were put together;
`parse_stringify` is the round trip that comes of it.
-/

namespace IotHome.Lib

namespace Json

/-! ## Between tokens -/

/-- The stack is ready for a value. -/
def Awaits (s : Stack) (frames : List Frame) : Prop :=
  ∀ t, t ≠ .closeArr → s.push t = startValue frames t

/-- Whatever comes next, it will find the stack `s`. -/
def Settled (m : Machine) (s : Stack) : Prop :=
  m = ⟨.idle, s⟩ ∨
    ∃ units t, m.lexer = .word units ∧ classify units = some t ∧
      m.stack.push t = some s

theorem awaits_value (frames : List Frame) :
    Awaits ⟨frames, .value⟩ frames := fun _ _ => rfl

theorem awaits_arrStart (frames : List Frame) :
    Awaits ⟨frames, .arrStart⟩ (.arr [] :: frames) := by
  intro t ht
  cases t with
  | closeArr => exact absurd rfl ht
  | _ => rfl

theorem step_settled {m : Machine} {s : Stack} {u : UInt16}
    (h : Settled m s) (hu : endsWord u = true) :
    m.step u = start s u := by
  rcases h with rfl | ⟨units, t, hword, ht, hs⟩
  · rfl
  · rw [Machine.step, hword]
    simp only [hu, if_true, ht, Option.bind_eq_bind, Option.bind_some, hs]

theorem finish_settled {m : Machine} {v : Json}
    (h : Settled m ⟨[], .after v⟩) : m.finish = some v := by
  rcases h with rfl | ⟨units, t, hword, ht, hs⟩
  · rfl
  · rw [Machine.finish, hword]
    simp only [ht, Option.bind_eq_bind, Option.bind_some, hs]

/-- A punctuation mark that the stack takes. -/
theorem step_punctuation {m : Machine} {s s' : Stack} {u : UInt16} {t : Token}
    (h : Settled m s) (hu : punctuation u = some t)
    (hblank : isBlank u = false) (hpush : s.push t = some s') :
    m.step u = some ⟨.idle, s'⟩ := by
  rw [step_settled h (by rw [endsWord, hu]; simp), start, hblank]
  simp only [Bool.false_eq_true, if_false, hu, hpush]
  rfl

/-! ## Words and strings -/

/-- A unit a word goes on with. -/
def isWordUnit (u : UInt16) : Bool := !endsWord u && u != unit '"'

theorem isWordUnit_iff {u : UInt16} :
    isWordUnit u = true ↔ endsWord u = false ∧ u ≠ unit '"' := by
  rw [isWordUnit, Bool.and_eq_true, Bool.not_eq_true', bne_iff_ne]

theorem foldlM_word {units : JsString} (h : ∀ u ∈ units, isWordUnit u = true)
    (read : JsString) (s : Stack) :
    units.foldlM Machine.step ⟨.word read, s⟩ =
      some ⟨.word (read ++ units), s⟩ := by
  induction units generalizing read with
  | nil => rw [List.append_nil]; rfl
  | cons u units ih =>
      have hu := (isWordUnit_iff.1 (h u List.mem_cons_self)).1
      have hstep : Machine.step ⟨.word read, s⟩ u =
          some ⟨.word (read ++ [u]), s⟩ := by
        rw [Machine.step]
        simp only [hu, Bool.false_eq_true, if_false]
      rw [List.foldlM_cons, hstep, Option.bind_eq_bind, Option.bind_some,
        ih (fun v hv => h v (List.mem_cons_of_mem u hv)), List.append_assoc,
        List.singleton_append]

/-- A word read where a value may stand. -/
theorem reads_word {units : JsString} {v : Json} {s : Stack}
    {frames : List Frame} (hs : Awaits s frames) (hne : units ≠ [])
    (h : ∀ u ∈ units, isWordUnit u = true)
    (hv : classify units = some (.lit v)) :
    ∃ m, units.foldlM Machine.step ⟨.idle, s⟩ = some m ∧
      Settled m ⟨frames, .after v⟩ := by
  refine ⟨⟨.word units, s⟩, ?_, .inr ⟨units, _, rfl, hv, ?_⟩⟩
  · cases units with
    | nil => exact absurd rfl hne
    | cons u units =>
        obtain ⟨hend, hquote⟩ :=
          isWordUnit_iff.1 (h u List.mem_cons_self)
        rw [endsWord, Bool.or_eq_false_iff] at hend
        have hpunct : punctuation u = none := by
          cases hp : punctuation u with
          | none => rfl
          | some t => rw [hp] at hend; cases hend.2
        have hstep : Machine.step ⟨.idle, s⟩ u = some ⟨.word [u], s⟩ := by
          show start s u = _
          rw [start, hend.1]
          simp only [Bool.false_eq_true, if_false, hpunct, if_neg hquote]
        rw [List.foldlM_cons, hstep]
        exact foldlM_word (fun v hv => h v (List.mem_cons_of_mem u hv)) [u] s
  · rw [hs _ (by simp)]
    rfl

theorem step_stringUnit {u : UInt16} (hquote : u ≠ unit '"')
    (hslash : u ≠ unit '\\') (hctrl : ¬ u < 0x20) (read : JsString)
    (s : Stack) :
    Machine.step ⟨.str read, s⟩ u = some ⟨.str (read ++ [u]), s⟩ := by
  rw [Machine.step]
  simp only [if_neg hquote, if_neg hslash, if_neg hctrl]

/-! ## Escapes -/

theorem hexUnit_lowerHexDigit : ∀ n, n < 16 →
    hexUnit (unit (lowerHexDigit n)) = some n := by decide

theorem hexEscape_eq (u : UInt16) :
    hexEscape u = [unit '\\', unit 'u'] ++ ([12, 8, 4, 0].map fun shift =>
      unit (lowerHexDigit ((u.toNat >>> shift) % 16))) := rfl

theorem foldlM_hexEscape (u : UInt16) (read : JsString) (s : Stack) :
    (hexEscape u).foldlM Machine.step ⟨.str read, s⟩ =
      some ⟨.str (read ++ [u]), s⟩ := by
  have hdigit : ∀ shift left value, left ≠ 1 →
      Machine.step ⟨.hex read left value, s⟩
        (unit (lowerHexDigit ((u.toNat >>> shift) % 16))) =
      some ⟨.hex read (left - 1)
        (16 * value + (u.toNat >>> shift) % 16), s⟩ := by
    intro shift left value hleft
    rw [Machine.step]
    simp only [hexUnit_lowerHexDigit _ (Nat.mod_lt _ (by decide)),
      Option.bind_eq_bind, Option.bind_some, if_neg hleft]
    rfl
  have hlast : ∀ value, Machine.step ⟨.hex read 1 value, s⟩
      (unit (lowerHexDigit ((u.toNat >>> 0) % 16))) =
      some ⟨.str (read ++ [UInt16.ofNat (16 * value + u.toNat % 16)]), s⟩ := by
    intro value
    rw [Machine.step]
    simp only [hexUnit_lowerHexDigit _ (Nat.mod_lt _ (by decide)),
      Option.bind_eq_bind, Option.bind_some, if_true]
    rfl
  have hvalue : 16 * (16 * (16 * (16 * 0 + (u.toNat >>> 12) % 16) +
      (u.toNat >>> 8) % 16) + (u.toNat >>> 4) % 16) + u.toNat % 16 =
      u.toNat := by
    have hlt := u.toNat_lt
    simp only [Nat.shiftRight_eq_div_pow]
    omega
  have hopen : [unit '\\', unit 'u'].foldlM Machine.step ⟨.str read, s⟩ =
      some ⟨.hex read 4 0, s⟩ := rfl
  rw [hexEscape_eq, List.foldlM_append, hopen, Option.bind_eq_bind,
    Option.bind_some]
  simp only [List.map_cons, List.map_nil, List.foldlM_cons, List.foldlM_nil]
  simp only [hdigit 12 4 _ (by decide), hdigit 8 3 _ (by decide),
    hdigit 4 2 _ (by decide), hlast, Option.bind_eq_bind, Option.bind_some,
    hvalue, UInt16.ofNat_toNat]
  rfl

theorem foldlM_escapeUnit (u : UInt16) (read : JsString) (s : Stack) :
    (escapeUnit u).foldlM Machine.step ⟨.str read, s⟩ =
      some ⟨.str (read ++ [u]), s⟩ := by
  rw [escapeUnit]
  split
  · subst_vars; rfl
  split
  · subst_vars; rfl
  split
  · subst_vars; rfl
  split
  · subst_vars; rfl
  split
  · subst_vars; rfl
  split
  · subst_vars; rfl
  split
  · subst_vars; rfl
  split
  · exact foldlM_hexEscape u read s
  split
  · exact foldlM_hexEscape u read s
  · rw [List.foldlM_cons, step_stringUnit ‹_› ‹_› ‹_›]
    rfl

/-- The half of a character is nothing a string has to escape. -/
theorem step_surrogate {u : UInt16} (hu : 0xD800 ≤ u) (read : JsString)
    (s : Stack) :
    Machine.step ⟨.str read, s⟩ u = some ⟨.str (read ++ [u]), s⟩ := by
  refine step_stringUnit ?_ ?_ ?_ read s
  · rintro rfl
    exact absurd hu (by decide)
  · rintro rfl
    exact absurd hu (by decide)
  · intro hlt
    exact absurd (UInt16.lt_of_le_of_lt hu hlt) (by decide)

theorem foldlM_escapeUnits (units read : JsString) (s : Stack) :
    (escapeUnits units).foldlM Machine.step ⟨.str read, s⟩ =
      some ⟨.str (read ++ units), s⟩ := by
  induction units using escapeUnits.induct generalizing read with
  | case1 => rw [escapeUnits, List.append_nil]; rfl
  | case2 u => rw [escapeUnits, foldlM_escapeUnit]
  | case3 u v rest h ih =>
      rw [escapeUnits, if_pos h, List.foldlM_cons, step_surrogate h.1,
        Option.bind_eq_bind, Option.bind_some, List.foldlM_cons,
        step_surrogate (UInt16.le_trans (by decide) h.2.2.1),
        Option.bind_eq_bind, Option.bind_some, ih]
      simp
  | case4 u v rest h ih =>
      rw [escapeUnits, if_neg h, List.foldlM_append, foldlM_escapeUnit,
        Option.bind_eq_bind, Option.bind_some, ih]
      simp

theorem step_openQuote (s : Stack) :
    Machine.step ⟨.idle, s⟩ (unit '"') = some ⟨.str [], s⟩ := rfl

theorem step_closeQuote {units : JsString} {s s' : Stack}
    (hpush : s.push (.str units) = some s') :
    Machine.step ⟨.str units, s⟩ (unit '"') = some ⟨.idle, s'⟩ := by
  rw [Machine.step]
  simp only [if_true, hpush]
  rfl

/-- A quoted string, where the stack takes one. -/
theorem foldlM_quote {units : JsString} {s s' : Stack}
    (hpush : s.push (.str units) = some s') :
    (quote units).foldlM Machine.step ⟨.idle, s⟩ = some ⟨.idle, s'⟩ := by
  rw [quote, List.foldlM_cons, step_openQuote, Option.bind_eq_bind,
    Option.bind_some, List.foldlM_append, foldlM_escapeUnits,
    List.nil_append, Option.bind_eq_bind, Option.bind_some,
    List.foldlM_cons, step_closeQuote hpush]
  rfl

/-! ## Numbers -/

/-- The units a number is written with. -/
theorem numeralUnit_spec : ∀ n, n < 102 →
    (48 ≤ n ∧ n ≤ 57 ∨ n = 43 ∨ n = 45 ∨ n = 46 ∨ n = 101) →
    isWordUnit (UInt16.ofNat n) = true ∧ (UInt16.ofNat n).toNat = n := by
  decide

theorem numeralChar_bounds {c : Char} (h : isNumeralChar c = true) :
    48 ≤ c.toNat ∧ c.toNat ≤ 57 ∨ c.toNat = 43 ∨ c.toNat = 45 ∨
      c.toNat = 46 ∨ c.toNat = 101 := by
  simp only [isNumeralChar, Bool.or_eq_true, decide_eq_true_eq,
    Char.isDigit, Bool.and_eq_true] at h
  rcases h with (((h | rfl) | rfl) | rfl) | rfl
  · exact .inl ⟨UInt32.le_iff_toNat_le.1 h.1, UInt32.le_iff_toNat_le.1 h.2⟩
  · decide
  · decide
  · decide
  · decide

theorem flatMap_numeral {cs : List Char}
    (h : ∀ c ∈ cs, isNumeralChar c = true) :
    cs.flatMap utf16Encode = cs.map unit ∧
      (cs.map unit).map (fun u => Char.ofNat u.toNat) = cs ∧
      ∀ u ∈ cs.map unit, isWordUnit u = true := by
  induction cs with
  | nil => exact ⟨rfl, rfl, fun u hu => by cases hu⟩
  | cons c cs ih =>
      obtain ⟨henc, hdec, hword⟩ :=
        ih fun d hd => h d (List.mem_cons_of_mem c hd)
      have hbounds := numeralChar_bounds (h c List.mem_cons_self)
      obtain ⟨hcword, hnat⟩ := numeralUnit_spec c.toNat (by omega) hbounds
      refine ⟨?_, ?_, ?_⟩
      · rw [List.flatMap_cons, henc, utf16Encode, if_pos (by omega)]
        rfl
      · rw [List.map_cons, List.map_cons, hdec, unit, hnat, Char.ofNat_toNat]
      · intro u hu
        rcases List.mem_cons.1 hu with rfl | hu
        · exact hcword
        · exact hword u hu

/-- A name is no numeral. -/
theorem classify_numeral {units : JsString} {n : Dec}
    (h : parseNumeral (units.map fun u => Char.ofNat u.toNat) = some n) :
    classify units = some (.lit (.num n)) := by
  have hname : ∀ name, parseNumeral
      ((js name).map fun u => Char.ofNat u.toNat) = none →
        units ≠ js name := by
    intro name hnone heq
    rw [heq, hnone] at h
    cases h
  rw [classify, if_neg (hname "null" (by decide)),
    if_neg (hname "true" (by decide)), if_neg (hname "false" (by decide)), h]
  rfl

/-! ## Values -/

/-- Wherever a value may stand, the text is read as `v`. -/
def Reads (units : JsString) (v : Json) : Prop :=
  ∀ {s : Stack} {frames : List Frame}, Awaits s frames →
    ∃ m, units.foldlM Machine.step ⟨.idle, s⟩ = some m ∧
      Settled m ⟨frames, .after v⟩

theorem parse_of_reads {units : JsString} {v : Json} (h : Reads units v) :
    parse units = some v := by
  obtain ⟨m, hm, hset⟩ := h (awaits_value [])
  rw [parse, hm]
  exact finish_settled hset

theorem reads_null : Reads (js "null") .null := fun hs =>
  reads_word hs (by decide) (List.all_eq_true.1 (by decide)) rfl

theorem reads_bool (b : Bool) :
    Reads (if b then js "true" else js "false") (.bool b) := fun hs => by
  cases b with
  | true =>
      exact reads_word hs (by decide) (List.all_eq_true.1 (by decide)) rfl
  | false =>
      exact reads_word hs (by decide) (List.all_eq_true.1 (by decide)) rfl

theorem reads_num {n : Dec} (h : n.Normal) :
    Reads (n.text.flatMap utf16Encode) (.num n) := fun hs => by
  obtain ⟨henc, hdec, hword⟩ := flatMap_numeral fun c => mem_text (d := n) c
  rw [henc]
  refine reads_word hs ?_ hword (classify_numeral ?_)
  · rw [ne_eq, List.map_eq_nil_iff]
    exact text_ne_nil
  · rw [hdec, parseNumeral_text h]

theorem reads_quote (units : JsString) : Reads (quote units) (.str units) :=
  fun hs => ⟨_, foldlM_quote (hs _ (by simp)), .inl rfl⟩

theorem commaSeparated_cons (t : JsString) (ts : List JsString) :
    commaSeparated (t :: ts) = t ++ ts.flatMap (unit ',' :: ·) := by
  induction ts generalizing t with
  | nil => simp [commaSeparated]
  | cons u ts ih =>
      have hrest := ih u
      rw [commaSeparated] at hrest ⊢
      rw [List.flatMap_cons, List.cons_append, ← hrest]
      simp [List.intercalate]

theorem reads_elems {ts : List JsString} {vs : List Json}
    (h : List.Forall₂ Reads ts vs) {m : Machine} {v : Json}
    {done : List Json} {frames : List Frame}
    (hm : Settled m ⟨.arr done :: frames, .after v⟩) :
    ∃ m', (ts.flatMap (unit ',' :: ·) ++ [unit ']']).foldlM Machine.step m =
        some m' ∧
      Settled m' ⟨frames, .after (.arr (done ++ v :: vs))⟩ := by
  induction h generalizing m v done with
  | nil =>
      refine ⟨_, ?_, .inl rfl⟩
      rw [List.flatMap_nil, List.nil_append, List.foldlM_cons,
        step_punctuation (t := .closeArr) hm rfl rfl rfl]
      rfl
  | @cons t w ts vs hw _ ih =>
      obtain ⟨m₁, hm₁, hset₁⟩ :=
        hw (awaits_value (.arr (done ++ [v]) :: frames))
      obtain ⟨m₂, hm₂, hset₂⟩ := ih hset₁
      rw [List.append_assoc, List.singleton_append] at hset₂
      refine ⟨m₂, ?_, hset₂⟩
      rw [List.flatMap_cons, List.append_assoc, List.cons_append,
        List.foldlM_cons, step_punctuation (t := .comma) hm rfl rfl rfl,
        Option.bind_eq_bind, Option.bind_some, List.foldlM_append, hm₁]
      exact hm₂

/-- An array, from the texts of its elements. -/
theorem reads_array {ts : List JsString} {vs : List Json}
    (h : List.Forall₂ Reads ts vs) : Reads (arrayText ts) (.arr vs) := by
  intro s frames hs
  have hopen : s.push .openArr = some ⟨frames, .arrStart⟩ := hs _ (by simp)
  rw [arrayText, List.foldlM_cons,
    step_punctuation (.inl rfl) rfl rfl hopen, Option.bind_eq_bind,
    Option.bind_some]
  cases h with
  | nil => exact ⟨⟨.idle, ⟨frames, .after (.arr [])⟩⟩, rfl, .inl rfl⟩
  | cons hv hvs =>
      obtain ⟨m, hm, hset⟩ := hv (awaits_arrStart frames)
      obtain ⟨m', hm', hset'⟩ := reads_elems hvs hset
      refine ⟨m', ?_, hset'⟩
      rw [commaSeparated_cons, List.append_assoc, List.foldlM_append, hm]
      exact hm'

/-- Wherever a key may stand, the text is read as the field `f`. -/
def ReadsField (units : JsString) (f : JsString × Json) : Prop :=
  ∀ {s : Stack} {done : List (JsString × Json)},
    s.push (.str f.1) = some ⟨s.frames, .objColon done f.1⟩ →
    ∃ m, units.foldlM Machine.step ⟨.idle, s⟩ = some m ∧
      Settled m ⟨.obj done f.1 :: s.frames, .after f.2⟩

theorem readsField_of_key {key units : JsString} {f : JsString × Json}
    (hkey : ∀ s s', s.push (.str f.1) = some s' →
      key.foldlM Machine.step ⟨.idle, s⟩ = some ⟨.idle, s'⟩)
    (h : Reads units f.2) : ReadsField (key ++ unit ':' :: units) f := by
  intro s done hpush
  obtain ⟨m, hm, hset⟩ := h (awaits_value (.obj done f.1 :: s.frames))
  refine ⟨m, ?_, hset⟩
  rw [List.foldlM_append, hkey _ _ hpush, Option.bind_eq_bind,
    Option.bind_some, List.foldlM_cons,
    step_punctuation (t := .colon) (.inl rfl) rfl rfl rfl]
  exact hm

theorem reads_fieldText {units : JsString} {f : JsString × Json}
    (h : Reads units f.2) : ReadsField (fieldText (f.1, units)) f :=
  readsField_of_key (fun _ _ hpush => foldlM_quote hpush) h

theorem reads_fields {ts : List JsString} {fs : List (JsString × Json)}
    (h : List.Forall₂ ReadsField ts fs) {m : Machine}
    (done : List (JsString × Json)) {f : JsString × Json}
    {frames : List Frame} (hnodup : ((done ++ f :: fs).map Prod.fst).Nodup)
    (hm : Settled m ⟨.obj done f.1 :: frames, .after f.2⟩) :
    ∃ m', (ts.flatMap (unit ',' :: ·) ++ [unit '\x7d']).foldlM
        Machine.step m = some m' ∧
      Settled m' ⟨frames, .after (.obj (done ++ f :: fs))⟩ := by
  induction h generalizing m done f with
  | nil =>
      have hset := OrderedMap.setEntry_of_notMem (v := f.2)
        (OrderedMap.notMem_of_nodup_append hnodup)
      refine ⟨_, ?_, .inl rfl⟩
      rw [List.flatMap_nil, List.nil_append, List.foldlM_cons,
        step_punctuation (t := .closeObj) hm rfl rfl rfl, ← hset]
      rfl
  | @cons t g ts fs hg _ ih =>
      have hset := OrderedMap.setEntry_of_notMem (v := f.2)
        (OrderedMap.notMem_of_nodup_append hnodup)
      obtain ⟨m₁, hm₁, hset₁⟩ :=
        hg (s := ⟨frames, .objKey (OrderedMap.setEntry f.1 f.2 done)⟩) rfl
      have happ : done ++ f :: g :: fs =
          OrderedMap.setEntry f.1 f.2 done ++ g :: fs := by
        rw [hset, List.append_assoc, List.singleton_append]
      rw [happ] at hnodup ⊢
      obtain ⟨m₂, hm₂, hset₂⟩ := ih _ hnodup hset₁
      refine ⟨m₂, ?_, hset₂⟩
      rw [List.flatMap_cons, List.append_assoc, List.cons_append,
        List.foldlM_cons, step_punctuation (t := .comma) hm rfl rfl rfl,
        Option.bind_eq_bind, Option.bind_some, List.foldlM_append, hm₁]
      exact hm₂

/-- An object, from the texts of its fields. -/
theorem reads_braces {ts : List JsString} {fs : List (JsString × Json)}
    (hnodup : (fs.map Prod.fst).Nodup) (h : List.Forall₂ ReadsField ts fs) :
    Reads (unit '\x7b' :: (commaSeparated ts ++ [unit '\x7d'])) (.obj fs) := by
  intro s frames hs
  have hopen : s.push .openObj = some ⟨frames, .objStart⟩ := hs _ (by simp)
  rw [List.foldlM_cons, step_punctuation (.inl rfl) rfl rfl hopen,
    Option.bind_eq_bind, Option.bind_some]
  cases h with
  | nil => exact ⟨⟨.idle, ⟨frames, .after (.obj [])⟩⟩, rfl, .inl rfl⟩
  | cons hf hfs =>
      obtain ⟨m, hm, hset⟩ := @hf ⟨frames, .objStart⟩ [] rfl
      obtain ⟨m', hm', hset'⟩ := reads_fields hfs [] hnodup hset
      refine ⟨m', ?_, hset'⟩
      rw [commaSeparated_cons, List.append_assoc, List.foldlM_append, hm]
      exact hm'

/-- An object, from its keys and the texts of its values. -/
theorem reads_object {fields : List (JsString × JsString)}
    {fs : List (JsString × Json)} (hnodup : (fs.map Prod.fst).Nodup)
    (h : List.Forall₂ (fun field f => field.1 = f.1 ∧ Reads field.2 f.2)
      fields fs) :
    Reads (objectText fields) (.obj fs) := by
  refine reads_braces hnodup (List.forall₂_map_left_iff.2 (h.imp ?_))
  rintro ⟨key, units⟩ f ⟨rfl, hunits⟩
  exact reads_fieldText hunits

/-! ## What `JSON.stringify` writes -/

theorem stringifyElems_eq (vs : List Json) :
    stringifyElems vs = vs.map stringify := by
  induction vs with
  | nil => rfl
  | cons v vs ih => rw [stringifyElems, ih, List.map_cons]

theorem stringifyFields_eq (fs : List (JsString × Json)) :
    stringifyFields fs = fs.map fun f => (f.1, stringify f.2) := by
  induction fs with
  | nil => rfl
  | cons f fs ih => rw [stringifyFields, ih, List.map_cons]

theorem reads_stringify {v : Json} (h : Canonical v) :
    Reads (stringify v) v := by
  induction h with
  | null => exact reads_null
  | bool b => exact reads_bool b
  | num h => exact reads_num h
  | str s => exact reads_quote s
  | arr h ih =>
      rw [stringify, stringifyElems_eq]
      refine reads_array (List.forall₂_map_left_iff.2 ?_)
      exact List.forall₂_same.2 ih
  | obj hnodup h ih =>
      rw [stringify, stringifyFields_eq]
      refine reads_object hnodup (List.forall₂_map_left_iff.2 ?_)
      exact List.forall₂_same.2 fun f hf => ⟨rfl, ih f hf⟩

/-- What was written is read back. -/
theorem parse_stringify {v : Json} (h : Canonical v) :
    parse (stringify v) = some v := parse_of_reads (reads_stringify h)

end Json

end IotHome.Lib
