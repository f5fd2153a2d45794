import Mathlib.Data.List.Basic

/-!
# Fields with a separator, and replacing texts

`replaceAll` goes through a text from the left and puts one text in the place
of every occurrence of another, as a global replacement of a fixed text does.

The second part is about lines of fields in which a separator or an escape
sign within a field has an escape sign in front of it. A reader that puts a
mark in the place of every escaped separator and then cuts the line at the
separators gets the fields back with the marks in them, and with the other
escapes still there. One thing can go wrong on the way: an escape sign at the
end of a field stands right before a real separator. Then there are fewer
parts than there were fields (`markedFields_escapedLine` has both).
-/

namespace IotHome.Lib

variable {α : Type} [DecidableEq α]

/-! ## Replacing -/

/-- The replacement, with some of the text still to be passed over. -/
def replaceFrom (pat rep : List α) : Nat → List α → List α
  | _, [] => []
  | skip + 1, _ :: xs => replaceFrom pat rep skip xs
  | 0, x :: xs =>
      if pat <+: x :: xs then
        rep ++ replaceFrom pat rep (pat.length - 1) xs
      else x :: replaceFrom pat rep 0 xs

def replaceAll (pat rep xs : List α) : List α := replaceFrom pat rep 0 xs

theorem replaceAll_nil (pat rep : List α) : replaceAll pat rep [] = [] := rfl

theorem replaceFrom_length (pat rep : List α) (ys xs : List α) :
    replaceFrom pat rep ys.length (ys ++ xs) = replaceAll pat rep xs := by
  induction ys with
  | nil => rfl
  | cons y ys ih => exact ih

theorem replaceAll_match {pat : List α} (hne : pat ≠ []) (rep xs : List α) :
    replaceAll pat rep (pat ++ xs) = rep ++ replaceAll pat rep xs := by
  cases pat with
  | nil => exact absurd rfl hne
  | cons p pat =>
      rw [replaceAll, List.cons_append, replaceFrom,
        if_pos ⟨xs, List.cons_append⟩, List.length_cons, Nat.add_sub_cancel,
        replaceFrom_length]

theorem replaceAll_skip {pat : List α} {x : α} {xs : List α}
    (h : ¬ pat <+: x :: xs) (rep : List α) :
    replaceAll pat rep (x :: xs) = x :: replaceAll pat rep xs := by
  rw [replaceAll, replaceFrom, if_neg h]
  rfl

/-- A text is empty, or begins with an occurrence, or with a unit that stays. -/
theorem replaceAll_cases {pat : List α} (hne : pat ≠ []) (rep xs : List α) :
    xs = [] ∨
    (∃ ys, xs = pat ++ ys ∧
      replaceAll pat rep xs = rep ++ replaceAll pat rep ys) ∨
    ∃ x ys, xs = x :: ys ∧ ¬ pat <+: xs ∧
      replaceAll pat rep xs = x :: replaceAll pat rep ys := by
  by_cases hpre : pat <+: xs
  · obtain ⟨ys, rfl⟩ := hpre
    exact .inr (.inl ⟨ys, rfl, replaceAll_match hne rep ys⟩)
  · cases xs with
    | nil => exact .inl rfl
    | cons x ys =>
        exact .inr (.inr ⟨x, ys, rfl, hpre, replaceAll_skip hpre rep⟩)

/-- What holds of the empty text, and is kept by an occurrence and by a unit
that stays, holds of every text and its replacement. -/
theorem replaceAll_induction {pat rep : List α} (hne : pat ≠ [])
    {P : List α → List α → Prop} (hnil : P [] [])
    (hmatch : ∀ ys, P ys (replaceAll pat rep ys) →
      P (pat ++ ys) (rep ++ replaceAll pat rep ys))
    (hskip : ∀ x ys, ¬ pat <+: x :: ys → P ys (replaceAll pat rep ys) →
      P (x :: ys) (x :: replaceAll pat rep ys)) (xs : List α) :
    P xs (replaceAll pat rep xs) := by
  have hpos : 0 < pat.length := List.length_pos_iff.2 hne
  have hall : ∀ n (xs : List α), xs.length ≤ n →
      P xs (replaceAll pat rep xs) := by
    intro n
    induction n with
    | zero =>
        intro xs hxs
        obtain rfl := List.length_eq_zero_iff.1 (Nat.le_zero.1 hxs)
        exact hnil
    | succ n ih =>
        intro xs hxs
        rcases replaceAll_cases hne rep xs with rfl | ⟨ys, rfl, heq⟩ |
          ⟨x, ys, rfl, hpre, heq⟩
        · exact hnil
        · rw [heq]
          rw [List.length_append] at hxs
          exact hmatch ys (ih ys (by omega))
        · rw [heq]
          rw [List.length_cons] at hxs
          exact hskip x ys hpre (ih ys (by omega))
  exact hall xs.length xs (Nat.le_refl _)

theorem replaceAll_skip_head {p x : α} (h : x ≠ p) (pat rep xs : List α) :
    replaceAll (p :: pat) rep (x :: xs) =
      x :: replaceAll (p :: pat) rep xs := by
  refine replaceAll_skip (fun hpre => ?_) rep
  rw [List.cons_prefix_cons] at hpre
  exact h hpre.1.symm

/-! ## Escaping -/

section

variable (sep esc : α) (mark : List α)

def escapeUnit (u : α) : List α := if u = sep ∨ u = esc then [esc, u] else [u]

def escapeField (field : List α) : List α := field.flatMap (escapeUnit sep esc)

def escapedLine (fields : List (List α)) : List α :=
  [sep].intercalate (fields.map (escapeField sep esc))

def markUnit (u : α) : List α :=
  if u = sep then mark else if u = esc then [esc, esc] else [u]

/-- What a field becomes: a mark for each separator in it, and two escape
signs for each one. -/
def markField (field : List α) : List α := field.flatMap (markUnit sep esc mark)

/-- The parts of a line, once its escaped separators are marks. -/
def markedFields (line : List α) : List (List α) :=
  (replaceAll [esc, sep] mark line).splitOn sep

end

variable {sep esc : α} {mark : List α}

theorem head?_escapeField (hne : sep ≠ esc) (field : List α) :
    (escapeField sep esc field).head? ≠ some sep := by
  cases field with
  | nil => simp [escapeField]
  | cons u field =>
      rw [escapeField, List.flatMap_cons, escapeUnit]
      by_cases hu : u = sep ∨ u = esc
      · simp [hu, hne.symm]
      · rw [not_or] at hu
        simp [hu]

/-- An escape sign with no separator behind it stays. -/
theorem replaceAll_escape {t : List α} (h : t.head? ≠ some sep) :
    replaceAll [esc, sep] mark (esc :: t) =
      esc :: replaceAll [esc, sep] mark t := by
  refine replaceAll_skip (fun hpre => ?_) mark
  rw [List.cons_prefix_cons] at hpre
  obtain ⟨rest, rfl⟩ := hpre.2
  exact h rfl

theorem replaceAll_escapeField (hne : sep ≠ esc) {field t : List α}
    (h : field.getLast? = some esc → t.head? ≠ some sep) :
    replaceAll [esc, sep] mark (escapeField sep esc field ++ t) =
      markField sep esc mark field ++ replaceAll [esc, sep] mark t := by
  induction field with
  | nil => rfl
  | cons u field ih =>
      have hrest := ih fun hlast => h (by
        rw [List.getLast?_cons, hlast]
        rfl)
      rw [escapeField, List.flatMap_cons, ← escapeField, markField,
        List.flatMap_cons, ← markField, List.append_assoc, List.append_assoc,
        ← hrest, escapeUnit, markUnit]
      by_cases hsep : u = sep
      · rw [if_pos (.inl hsep), if_pos hsep, hsep]
        exact replaceAll_match (List.cons_ne_nil esc [sep]) mark _
      · by_cases hesc : u = esc
        · have hhead : (escapeField sep esc field ++ t).head? ≠ some sep := by
            cases field with
            | nil => exact h (by rw [hesc]; rfl)
            | cons v field =>
                have hfirst := head?_escapeField hne (v :: field)
                cases hw : escapeField sep esc (v :: field) with
                | nil =>
                    rw [escapeField, List.flatMap_cons, escapeUnit] at hw
                    split at hw <;> cases hw
                | cons w rest => rwa [hw] at hfirst
          have hesc' : (esc :: (escapeField sep esc field ++ t)).head? ≠
              some sep := by simp [hne.symm]
          rw [if_pos (.inr hesc), if_neg hsep, if_pos hesc, hesc]
          simp only [List.cons_append, List.nil_append]
          rw [replaceAll_escape hesc', replaceAll_escape hhead]
        · rw [if_neg (not_or.2 ⟨hsep, hesc⟩), if_neg hsep, if_neg hesc]
          exact replaceAll_skip_head hesc [sep] mark _

theorem sep_notMem_markField (hne : sep ≠ esc) (hmark : sep ∉ mark)
    (field : List α) : sep ∉ markField sep esc mark field := by
  intro hmem
  obtain ⟨u, _, hu⟩ := List.mem_flatMap.1 hmem
  rw [markUnit] at hu
  split at hu
  · exact hmark hu
  · split at hu
    · simp [hne] at hu
    · next hsep _ => exact hsep (List.mem_singleton.1 hu).symm

/-! ## The parts of a line -/

theorem escapedLine_cons (f g : List α) (rest : List (List α)) :
    escapedLine sep esc (f :: g :: rest) =
      escapeField sep esc f ++ sep :: escapedLine sep esc (g :: rest) := by
  rw [escapedLine, List.map_cons, List.intercalate_cons_of_ne_nil (by simp),
    ← escapedLine, List.append_assoc]
  rfl

/-- Without a separator in front the first part gets longer. -/
theorem splitOn_append {x : List α} (h : sep ∉ x) (y : List α) :
    (x ++ y).splitOn sep = (y.splitOn sep).modifyHead (x ++ ·) := by
  induction x with
  | nil => rw [List.nil_append]; cases y.splitOn sep <;> rfl
  | cons u x ih =>
      rw [List.mem_cons, not_or] at h
      rw [List.cons_append, List.splitOn_cons_eq_if_modifyHead,
        if_neg (by simpa using Ne.symm h.1), ih h.2]
      cases hy : y.splitOn sep <;> rfl

theorem markedFields_cons (hne : sep ≠ esc) (hmark : sep ∉ mark)
    {f : List α} (hf : f.getLast? ≠ some esc) (g : List α)
    (rest : List (List α)) :
    markedFields sep esc mark (escapedLine sep esc (f :: g :: rest)) =
      markField sep esc mark f ::
        markedFields sep esc mark (escapedLine sep esc (g :: rest)) := by
  rw [markedFields, escapedLine_cons,
    replaceAll_escapeField hne fun h => absurd h hf,
    replaceAll_skip_head hne,
    List.splitOn_append_cons_self_of_not_mem
      (sep_notMem_markField hne hmark f), ← markedFields]

/-- An escape sign at the end of a field joins it with the next one. -/
theorem length_markedFields_cons (hne : sep ≠ esc) (hmark : sep ∉ mark)
    {f : List α} (hf : f.getLast? = some esc) (g : List α)
    (rest : List (List α)) :
    (markedFields sep esc mark (escapedLine sep esc (f :: g :: rest))).length =
      (markedFields sep esc mark (escapedLine sep esc (g :: rest))).length := by
  obtain ⟨front, rfl⟩ := List.getLast?_eq_some_iff.1 hf
  have hesc : escapeField sep esc [esc] = [esc, esc] := by
    simp [escapeField, escapeUnit]
  have hescape : escapeField sep esc (front ++ [esc]) ++
      sep :: escapedLine sep esc (g :: rest) =
      escapeField sep esc front ++ esc :: ([esc, sep] ++
        escapedLine sep esc (g :: rest)) := by
    rw [escapeField, List.flatMap_append, ← escapeField, ← escapeField, hesc]
    simp
  have hplain : sep ∉ markField sep esc mark front ++ (esc :: mark) := by
    simp only [List.mem_append, List.mem_cons, not_or]
    exact ⟨sep_notMem_markField hne hmark front, hne, hmark⟩
  have hhead : (esc :: ([esc, sep] ++ escapedLine sep esc (g :: rest))).head? ≠
      some sep := by simp [hne.symm]
  have hnext : ([esc, sep] ++ escapedLine sep esc (g :: rest)).head? ≠
      some sep := by simp [hne.symm]
  rw [markedFields, escapedLine_cons, hescape,
    replaceAll_escapeField hne fun _ => hhead, replaceAll_escape hnext,
    replaceAll_match (List.cons_ne_nil esc [sep]), ← List.cons_append,
    ← List.append_assoc, splitOn_append hplain, List.length_modifyHead,
    markedFields]

/-- Either no field but the last ends in an escape sign, and the parts are the
fields with their marks, or there are fewer parts than fields. -/
theorem markedFields_escapedLine (hne : sep ≠ esc) (hmark : sep ∉ mark)
    (f : List α) (rest : List (List α)) :
    ((∀ g ∈ (f :: rest).dropLast, g.getLast? ≠ some esc) ∧
      markedFields sep esc mark (escapedLine sep esc (f :: rest)) =
        (f :: rest).map (markField sep esc mark)) ∨
    ((∃ g ∈ (f :: rest).dropLast, g.getLast? = some esc) ∧
      (markedFields sep esc mark (escapedLine sep esc (f :: rest))).length <
        (f :: rest).length) := by
  induction rest generalizing f with
  | nil =>
      have hfield := @replaceAll_escapeField _ _ sep esc mark hne f []
        fun _ => by simp
      rw [List.append_nil, replaceAll_nil, List.append_nil] at hfield
      refine .inl ⟨List.forall_mem_nil _, ?_⟩
      rw [markedFields, escapedLine, List.map_singleton,
        List.intercalate_singleton, hfield,
        List.splitOn_eq_singleton (sep_notMem_markField hne hmark f)]
      rfl
  | cons g rest ih =>
      rw [List.dropLast_cons_of_ne_nil (List.cons_ne_nil g rest)]
      by_cases hf : f.getLast? = some esc
      · refine .inr ⟨⟨f, List.mem_cons_self, hf⟩, ?_⟩
        have hlen : (markedFields sep esc mark
            (escapedLine sep esc (g :: rest))).length ≤ (g :: rest).length := by
          rcases ih g with ⟨_, heq⟩ | ⟨_, hlt⟩
          · exact Nat.le_of_eq (by rw [heq, List.length_map])
          · exact Nat.le_of_lt hlt
        rw [length_markedFields_cons hne hmark hf, List.length_cons]
        exact Nat.lt_succ_of_le hlen
      · rw [markedFields_cons hne hmark hf, List.length_cons,
          List.length_cons (a := f)]
        rcases ih g with ⟨hall, heq⟩ | ⟨⟨w, hw, hlast⟩, hlt⟩
        · exact .inl ⟨List.forall_mem_cons.2 ⟨hf, hall⟩, by rw [heq]; rfl⟩
        · exact .inr ⟨⟨w, List.mem_cons_of_mem f hw, hlast⟩,
            Nat.succ_lt_succ hlt⟩

/-- A field that is left as it was has nothing that is escaped. -/
theorem markField_eq_self_iff (hmark : 1 < mark.length) (field : List α) :
    markField sep esc mark field = field ↔ sep ∉ field ∧ esc ∉ field := by
  have hlen : ∀ u, 1 ≤ (markUnit sep esc mark u).length := by
    intro u
    rw [markUnit]
    split
    · omega
    · split
      · exact Nat.le_succ 1
      · exact Nat.le_refl 1
  have hlong : ∀ field : List α,
      field.length ≤ (markField sep esc mark field).length := by
    intro field
    induction field with
    | nil => exact Nat.le_refl 0
    | cons u field ih =>
        have hu := hlen u
        rw [markField, List.flatMap_cons, List.length_append, ← markField,
          List.length_cons]
        omega
  induction field with
  | nil => simp [markField]
  | cons u field ih =>
      have hrest := hlong field
      rw [markField, List.flatMap_cons, ← markField, markUnit]
      by_cases hsep : u = sep
      · refine iff_of_false (fun heq => ?_) (by simp [hsep])
        have heq := congrArg List.length heq
        simp only [if_pos hsep, List.length_append, List.length_cons] at heq
        omega
      · by_cases hesc : u = esc
        · refine iff_of_false (fun heq => ?_) (by simp [hesc])
          have heq := congrArg List.length heq
          simp only [if_neg hsep, if_pos hesc, List.length_append,
            List.length_cons] at heq
          omega
        · rw [if_neg hsep, if_neg hesc, List.singleton_append]
          simp [ih, Ne.symm hsep, Ne.symm hesc]

end IotHome.Lib
