import IotHome.Lib.JsonRead

/-!
# Reading back the compact text of a value

The text that is put together without escapes. For the values whose numbers
are integers, and whose strings need none, it is the one `JSON.stringify`
writes, and is read back with it.
-/

namespace IotHome.Lib

namespace Json

/-- A string that is written without escapes. -/
def PlainString (s : JsString) : Prop :=
  ∀ u ∈ s, u ≠ unit '"' ∧ u ≠ unit '\\' ∧ ¬ u < 0x20

mutual

/-- A value whose numbers are integers below `10 ^ 21`, whose strings are
plain, and whose objects have no key twice. -/
def Regular : Json → Prop
  | .null => True
  | .bool _ => True
  | .num n => ∃ i : Int, n = Dec.ofInt i ∧ i.natAbs < 10 ^ 21
  | .str s => PlainString s
  | .arr elems => RegularElems elems
  | .obj fields => RegularFields fields ∧ (fields.map Prod.fst).Nodup

def RegularElems : List Json → Prop
  | [] => True
  | v :: vs => Regular v ∧ RegularElems vs

def RegularFields : List (JsString × Json) → Prop
  | [] => True
  | (k, v) :: fs => PlainString k ∧ Regular v ∧ RegularFields fs

end

theorem plainString_of_all {s : JsString}
    (h : (s.all fun u =>
      u != unit '"' && u != unit '\\' && !decide (u < 0x20)) = true) :
    PlainString s := by
  intro u hu
  simpa [and_assoc] using List.all_eq_true.1 h u hu

theorem foldlM_string {units : JsString} (h : PlainString units)
    (read : JsString) (s : Stack) :
    units.foldlM Machine.step ⟨.str read, s⟩ =
      some ⟨.str (read ++ units), s⟩ := by
  induction units generalizing read with
  | nil => rw [List.append_nil]; rfl
  | cons u units ih =>
      obtain ⟨hquote, hslash, hctrl⟩ := h u List.mem_cons_self
      rw [List.foldlM_cons, step_stringUnit hquote hslash hctrl,
        Option.bind_eq_bind, Option.bind_some,
        ih (fun v hv => h v (List.mem_cons_of_mem u hv)), List.append_assoc,
        List.singleton_append]

/-- A plain string between quotes, where the stack takes one. -/
theorem foldlM_quoted {units : JsString} (h : PlainString units)
    {s s' : Stack} (hpush : s.push (.str units) = some s') :
    (unit '"' :: (units ++ [unit '"'])).foldlM Machine.step ⟨.idle, s⟩ =
      some ⟨.idle, s'⟩ := by
  rw [List.foldlM_cons, step_openQuote, Option.bind_eq_bind,
    Option.bind_some, List.foldlM_append, foldlM_string h, List.nil_append,
    Option.bind_eq_bind, Option.bind_some, List.foldlM_cons,
    step_closeQuote hpush]
  rfl

/-! ## The text as elements and fields -/

theorem textElems_eq (vs : List Json) :
    textElems vs = (vs.map text).flatMap (unit ',' :: ·) ++ [unit ']'] := by
  induction vs with
  | nil => rfl
  | cons v vs ih => simp [textElems, ih]

theorem textFields_eq (fs : List (JsString × Json)) :
    textFields fs =
      (fs.map textField).flatMap (unit ',' :: ·) ++ [unit '\x7d'] := by
  induction fs with
  | nil => rfl
  | cons f fs ih => simp [textFields, ih]

theorem text_arr (vs : List Json) :
    text (.arr vs) = arrayText (vs.map text) := by
  cases vs with
  | nil => rw [text]; decide
  | cons v vs =>
      rw [text, textElems_eq, arrayText, List.map_cons, commaSeparated_cons,
        List.append_assoc]

theorem text_obj (fs : List (JsString × Json)) :
    text (.obj fs) =
      unit '\x7b' :: (commaSeparated (fs.map textField) ++ [unit '\x7d']) := by
  cases fs with
  | nil => rw [text]; decide
  | cons f fs =>
      rw [text, textFields_eq, List.map_cons, commaSeparated_cons,
        List.append_assoc]

/-! ## Values -/

mutual

theorem reads_text : ∀ v : Json, Regular v → Reads (text v) v
  | .null, _ => by
      rw [text]
      exact reads_null
  | .bool b, _ => by
      rw [text]
      exact reads_bool b
  | .num n, h => by
      rw [Regular] at h
      obtain ⟨i, rfl, _⟩ := h
      rw [text]
      exact reads_num (Dec.ofInt_normal i)
  | .str t, h => by
      rw [Regular] at h
      rw [text]
      exact fun hs => ⟨_, foldlM_quoted h (hs _ (by simp)), .inl rfl⟩
  | .arr vs, h => by
      rw [Regular] at h
      rw [text_arr]
      exact reads_array (reads_textElems vs h)
  | .obj fs, h => by
      rw [Regular] at h
      rw [text_obj]
      exact reads_braces h.2 (reads_textFields fs h.1)

theorem reads_textElems : ∀ vs : List Json, RegularElems vs →
    List.Forall₂ Reads (vs.map text) vs
  | [], _ => .nil
  | v :: vs, h => by
      rw [RegularElems] at h
      exact .cons (reads_text v h.1) (reads_textElems vs h.2)

theorem reads_textFields : ∀ fs : List (JsString × Json),
    RegularFields fs → List.Forall₂ ReadsField (fs.map textField) fs
  | [], _ => .nil
  | (k, v) :: fs, h => by
      rw [RegularFields] at h
      obtain ⟨hk, hv, hfs⟩ := h
      have htext : textField (k, v) =
          (unit '"' :: (k ++ [unit '"'])) ++ unit ':' :: text v := by
        rw [textField]
        simp
      rw [List.map_cons, htext]
      exact .cons (readsField_of_key (fun _ _ hpush => foldlM_quoted hk hpush)
        (reads_text v hv)) (reads_textFields fs hfs)

end

/-- A regular value is read back from its text. -/
theorem parse_text {v : Json} (h : Regular v) : parse (text v) = some v :=
  parse_of_reads (reads_text v h)

end Json

end IotHome.Lib
