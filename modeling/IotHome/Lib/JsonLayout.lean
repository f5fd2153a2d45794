import IotHome.Lib.JsonRead

/-!
# Texts over several lines

`JSON.stringify` with a space. Each element and each property stands on a line
of its own, indented by one gap more than the brackets around it. Blanks
around a value do not matter to its reader, so such a text reads as the
compact one does: `parse_layout` is the round trip.
-/

namespace IotHome.Lib

namespace Json

/-! ## The layout -/

def newline (indent : JsString) : JsString := unit '\n' :: indent

/-- What stands between two brackets: one text a line, indented by `gap`
more than the brackets. -/
def textLines (gap indent : JsString) (texts : List JsString) : JsString :=
  if texts = [] then []
  else
    commaSeparated (texts.map fun text => newline (indent ++ gap) ++ text) ++
      newline indent

def spacedField (field : JsString × JsString) : JsString :=
  quote field.1 ++ unit ':' :: unit ' ' :: field.2

mutual

/-- The text of a value that stands behind `indent`. -/
def layout (gap : JsString) : (indent : JsString) → Json → JsString
  | _, .null => js "null"
  | _, .bool b => if b then js "true" else js "false"
  | _, .num n => n.text.flatMap utf16Encode
  | _, .str s => quote s
  | indent, .arr elems =>
      unit '[' :: (textLines gap indent
        (layoutElems gap (indent ++ gap) elems) ++ [unit ']'])
  | indent, .obj fields =>
      unit '\x7b' :: (textLines gap indent
        ((layoutFields gap (indent ++ gap) fields).map spacedField) ++
          [unit '\x7d'])

def layoutElems (gap : JsString) :
    (indent : JsString) → List Json → List JsString
  | _, [] => []
  | indent, v :: vs => layout gap indent v :: layoutElems gap indent vs

def layoutFields (gap : JsString) :
    (indent : JsString) → List (JsString × Json) → List (JsString × JsString)
  | _, [] => []
  | indent, (k, v) :: fs =>
      (k, layout gap indent v) :: layoutFields gap indent fs

end

theorem layoutElems_eq (gap indent : JsString) (vs : List Json) :
    layoutElems gap indent vs = vs.map (layout gap indent) := by
  induction vs with
  | nil => rfl
  | cons v vs ih => rw [layoutElems, ih, List.map_cons]

theorem layoutFields_eq (gap indent : JsString) (fs : List (JsString × Json)) :
    layoutFields gap indent fs =
      fs.map fun f => (f.1, layout gap indent f.2) := by
  induction fs with
  | nil => rfl
  | cons f fs ih => rw [layoutFields, ih, List.map_cons]

/-! ## Blanks -/

def Blanks (units : JsString) : Prop := ∀ u ∈ units, isBlank u = true

/-- Blanks leave what the reader has found as it is. -/
theorem foldlM_blanks {units : JsString} (h : Blanks units) {m : Machine}
    {s : Stack} (hm : Settled m s) :
    ∃ m', units.foldlM Machine.step m = some m' ∧ Settled m' s := by
  induction units generalizing m with
  | nil => exact ⟨m, rfl, hm⟩
  | cons u units ih =>
      have hu := h u List.mem_cons_self
      have hstep : m.step u = some ⟨.idle, s⟩ := by
        rw [step_settled hm (by rw [endsWord, hu, Bool.true_or]), start,
          if_pos hu]
      rw [List.foldlM_cons, hstep, Option.bind_eq_bind, Option.bind_some]
      exact ih (fun w hw => h w (List.mem_cons_of_mem _ hw)) (.inl rfl)

theorem foldlM_blanks_idle {units : JsString} (h : Blanks units) (s : Stack) :
    units.foldlM Machine.step ⟨.idle, s⟩ = some ⟨.idle, s⟩ := by
  induction units with
  | nil => rfl
  | cons u units ih =>
      have hu := h u List.mem_cons_self
      rw [List.foldlM_cons, Machine.step, start, if_pos hu,
        Option.bind_eq_bind, Option.bind_some]
      exact ih fun w hw => h w (List.mem_cons_of_mem _ hw)

/-- The text with blanks before and behind it. -/
def Padded (text padded : JsString) : Prop :=
  ∃ before behind, Blanks before ∧ Blanks behind ∧
    padded = before ++ text ++ behind

theorem Reads.padded {text padded : JsString} {v : Json}
    (h : Reads text v) (hpad : Padded text padded) : Reads padded v := by
  intro s frames hs
  obtain ⟨before, behind, hbefore, hbehind, rfl⟩ := hpad
  obtain ⟨m, hm, hset⟩ := h hs
  obtain ⟨m', hm', hset'⟩ := foldlM_blanks hbehind hset
  refine ⟨m', ?_, hset'⟩
  rw [List.foldlM_append, List.foldlM_append, foldlM_blanks_idle hbefore,
    Option.bind_eq_bind, Option.bind_some, hm]
  exact hm'

theorem ReadsField.padded {text padded : JsString} {f : JsString × Json}
    (h : ReadsField text f) (hpad : Padded text padded) :
    ReadsField padded f := by
  intro s done hpush
  obtain ⟨before, behind, hbefore, hbehind, rfl⟩ := hpad
  obtain ⟨m, hm, hset⟩ := h hpush
  obtain ⟨m', hm', hset'⟩ := foldlM_blanks hbehind hset
  refine ⟨m', ?_, hset'⟩
  rw [List.foldlM_append, List.foldlM_append, foldlM_blanks_idle hbefore,
    Option.bind_eq_bind, Option.bind_some, hm]
  exact hm'

/-! ## Reading the layout -/

theorem blanks_newline {indent : JsString} (h : Blanks indent) :
    Blanks (newline indent) :=
  List.forall_mem_cons.2 ⟨rfl, h⟩

theorem blanks_append {as bs : JsString} (ha : Blanks as) (hb : Blanks bs) :
    Blanks (as ++ bs) := List.forall_mem_append.2 ⟨ha, hb⟩

theorem padded_before {before text : JsString} (h : Blanks before) :
    Padded text (before ++ text) :=
  ⟨before, [], h, fun _ hu => (List.not_mem_nil hu).elim,
    (List.append_nil _).symm⟩

section

variable {β : Type} {reads : JsString → β → Prop}

/-- The blanks behind the last text become a part of it. -/
theorem exists_padded_cons
    (hpad : ∀ t u v, reads t v → Padded t u → reads u v)
    {before behind : JsString} (hbefore : Blanks before)
    (hbehind : Blanks behind) {texts : List JsString} {vs : List β}
    (h : List.Forall₂ reads texts vs) {text : JsString} {v : β}
    (hv : reads text v) :
    ∃ padded, commaSeparated ((text :: texts).map (before ++ ·)) ++ behind =
        commaSeparated padded ∧ List.Forall₂ reads padded (v :: vs) := by
  induction h generalizing text v with
  | nil =>
      refine ⟨[before ++ text ++ behind], by simp [commaSeparated], ?_⟩
      exact .cons (hpad _ _ _ hv ⟨before, behind, hbefore, hbehind, rfl⟩) .nil
  | @cons next w texts vs hw _ ih =>
      obtain ⟨padded, heq, hreads⟩ := ih hw
      refine ⟨(before ++ text) :: padded, ?_,
        .cons (hpad _ _ _ hv (padded_before hbefore)) hreads⟩
      cases hreads with
      | cons _ _ =>
          rw [List.map_cons, commaSeparated_cons] at heq ⊢
          rw [commaSeparated_cons] at heq ⊢
          rw [List.map_cons, List.flatMap_cons, List.flatMap_cons,
            List.append_assoc, List.cons_append, List.append_assoc,
            List.cons_append, List.append_assoc, List.cons_append, ← heq]
          simp

/-- The lines are texts with commas between them, but for the blanks. -/
theorem exists_padded
    (hpad : ∀ t u v, reads t v → Padded t u → reads u v)
    {gap indent : JsString} (hgap : Blanks gap) (hindent : Blanks indent)
    {texts : List JsString} {vs : List β} (h : List.Forall₂ reads texts vs) :
    ∃ padded, textLines gap indent texts = commaSeparated padded ∧
      List.Forall₂ reads padded vs := by
  cases h with
  | nil => exact ⟨[], rfl, .nil⟩
  | cons hv hvs =>
      rw [textLines, if_neg (List.cons_ne_nil _ _)]
      exact exists_padded_cons hpad
        (blanks_newline (blanks_append hindent hgap))
        (blanks_newline hindent) hvs hv

end

theorem reads_spacedField {units : JsString} {f : JsString × Json}
    (h : Reads units f.2) : ReadsField (spacedField (f.1, units)) f := by
  have hspace : Blanks [unit ' '] := List.forall_mem_singleton.2 rfl
  have hread : Reads ([unit ' '] ++ units) f.2 :=
    Reads.padded h (padded_before hspace)
  intro s done hpush
  exact reads_fieldText hread hpush

theorem reads_layout {gap : JsString} (hgap : Blanks gap) {v : Json}
    (h : Canonical v) {indent : JsString} (hindent : Blanks indent) :
    Reads (layout gap indent v) v := by
  induction h generalizing indent with
  | null => exact reads_null
  | bool b => exact reads_bool b
  | num h => exact reads_num h
  | str s => exact reads_quote s
  | @arr elems h ih =>
      have hreads : List.Forall₂ Reads
          (elems.map (layout gap (indent ++ gap))) elems :=
        List.forall₂_map_left_iff.2 (List.forall₂_same.2 fun w hw =>
          ih w hw (blanks_append hindent hgap))
      obtain ⟨padded, heq, hpadded⟩ :=
        @exists_padded _ Reads (fun _ _ _ => Reads.padded) _ _ hgap
          hindent _ _ hreads
      rw [layout, layoutElems_eq, heq]
      intro s frames hs
      exact reads_array hpadded hs
  | @obj fields hnodup h ih =>
      have hreads : List.Forall₂ ReadsField
          (fields.map fun f =>
            spacedField (f.1, layout gap (indent ++ gap) f.2)) fields :=
        List.forall₂_map_left_iff.2 (List.forall₂_same.2 fun f hf =>
          reads_spacedField (ih f hf (blanks_append hindent hgap)))
      obtain ⟨padded, heq, hpadded⟩ :=
        @exists_padded _ ReadsField (fun _ _ _ => ReadsField.padded) _ _ hgap
          hindent _ _ hreads
      rw [layout, layoutFields_eq, List.map_map, Function.comp_def, heq]
      intro s frames hs
      exact reads_braces hnodup hpadded hs

/-- What was written over several lines is read back. -/
theorem parse_layout {gap : JsString} (hgap : Blanks gap) {v : Json}
    (h : Canonical v) : parse (layout gap [] v) = some v :=
  parse_of_reads (reads_layout hgap h fun _ hu => (List.not_mem_nil hu).elim)

end Json

end IotHome.Lib
