import IotHome.Lib.JsString

/-!
# Words of the shell

How the POSIX shell takes a text apart, as far as this is one command of
nothing but words that stand for themselves: words with blanks between them,
with what the three kinds of quotation make of their text. Empty lines and
comments behind the command add nothing to it. `words` fails where there is
an operator or another command, and where the shell would put something in
the place of a text, that is at a parameter, a command, a pattern of file
names, or a home directory. A `$` with none of these behind it stands for
itself, and so does a bracket that is not closed in its segment of the path. A
backslash at the very end is kept.

`Word` says the same of one word by the form of its text.
`run_eq_some_iff` is that the reader takes a text as one more word just if it
has this form.
-/

namespace IotHome.Lib

namespace Shell

/-- The units of a word, each with whether it is outside of quotation. -/
abbrev Marked := List (UInt16 × Bool)

def units (m : Marked) : JsString := m.map Prod.fst

def isBlank (u : UInt16) : Bool := u = unit ' ' || u = unit '\t'

/-- What is an operator, or puts a command in the place of a text. -/
def isOperator (u : UInt16) : Bool :=
  u ∈ [unit '&', unit '|', unit ';', unit '<', unit '>', unit '(', unit ')',
    unit '`']

/-- What a backslash takes its meaning from within double quotes. -/
def isEscapable (u : UInt16) : Bool :=
  u = unit '$' || u = unit '`' || u = unit '"' || u = unit '\\'

/-! ## What is replaced -/

/-- What the name of a parameter or another expansion begins with. -/
def startsExpansion (u : UInt16) : Bool :=
  (unit 'a' ≤ u && u ≤ unit 'z') || (unit 'A' ≤ u && u ≤ unit 'Z') ||
    (unit '0' ≤ u && u ≤ unit '9') ||
    u ∈ [unit '_', unit '@', unit '*', unit '#', unit '?', unit '-', unit '$',
      unit '!', unit '{', unit '(']

/-- Whether a `$` in front of the text is replaced. A backslash with a line
end behind it is not there. -/
def expands : JsString → Bool
  | [] => false
  | [u] => startsExpansion u
  | u :: u' :: t =>
      if u = unit '\\' ∧ u' = unit '\n' then expands t else startsExpansion u

/-- Whether a bracket in front of the units is closed: something is between
the two, and no slash. -/
def closesBracket (m : Marked) : Bool :=
  let m := if m.head? = some (unit '!', true) then m.tail else m
  (m.takeWhile fun u => u.1 ≠ unit '/').tail.contains (unit ']', true)

/-- The word is a pattern of file names. -/
def isPattern : Marked → Bool
  | [] => false
  | (u, bare) :: m =>
      (bare && (u = unit '*' || u = unit '?' ||
        (u = unit '[' && closesBracket m))) || isPattern m

/-! ## The reader -/

inductive Quoting where
  | plain
  | escaped
  | single
  | double
  | doubleEscaped
  | comment

/-- The words that are complete, the one that is being read, and whether the
line of the command has ended. -/
structure Lexer where
  words : List Marked
  word : Option Marked
  quoting : Quoting
  ended : Bool

/-- More of the word, which begins here if none has begun. -/
def Lexer.add (l : Lexer) (units : JsString) (bare : Bool)
    (quoting : Quoting) : Lexer :=
  { l with
    word := some (l.word.getD [] ++ units.map fun u => (u, bare))
    quoting := quoting }

def Lexer.endWord (l : Lexer) : Lexer :=
  ⟨l.words ++ l.word.toList, none, .plain, l.ended⟩

/-- A line end completes the command, if there is one. -/
def Lexer.endLine (l : Lexer) : Lexer :=
  ⟨l.words ++ l.word.toList, none, .plain,
    decide (l.words ++ l.word.toList ≠ [])⟩

/-- One unit, with the text that is behind it. -/
def Lexer.step (l : Lexer) (u : UInt16) (rest : JsString) : Option Lexer :=
  match l.quoting with
  | .plain =>
      if isBlank u then some l.endWord
      else if u = unit '\n' then some l.endLine
      else if isOperator u then none
      else if u = unit '\\' then some { l with quoting := .escaped }
      else if l.word = none ∧ u = unit '#' then
        some { l with quoting := .comment }
      else if l.ended then none
      else if u = unit '\'' then some (l.add [] true .single)
      else if u = unit '"' then some (l.add [] true .double)
      else if l.word = none ∧ u = unit '~' then none
      else if u = unit '$' ∧ expands rest then none
      else some (l.add [u] true .plain)
  | .escaped =>
      if u = unit '\n' then some { l with quoting := .plain }
      else if l.ended then none
      else some (l.add [u] false .plain)
  | .single =>
      if u = unit '\'' then some { l with quoting := .plain }
      else some (l.add [u] false .single)
  | .double =>
      if u = unit '"' then some { l with quoting := .plain }
      else if u = unit '\\' then some { l with quoting := .doubleEscaped }
      else if u = unit '`' ∨ (u = unit '$' ∧ expands rest) then none
      else some (l.add [u] false .double)
  | .doubleEscaped =>
      if isEscapable u then some (l.add [u] false .double)
      else if u = unit '\n' then some { l with quoting := .double }
      else some (l.add [unit '\\', u] false .double)
  | .comment => if u = unit '\n' then some l.endLine else some l

/-- The end of the text. -/
def Lexer.finish (l : Lexer) : Option (List Marked) :=
  match l.quoting with
  | .plain => some (l.words ++ l.word.toList)
  | .comment => some (l.words ++ l.word.toList)
  | .escaped =>
      if l.ended then none
      else some (l.words ++ [l.word.getD [] ++ [(unit '\\', false)]])
  | .single => none
  | .double => none
  | .doubleEscaped => none

def Lexer.run (l : Lexer) : JsString → Option (List Marked)
  | [] => l.finish
  | u :: t => (l.step u t).bind fun l' => l'.run t

/-- The words of a text, if it is a command of words and nothing else. -/
def words (text : JsString) : Option (List JsString) := do
  let ws ← Lexer.run ⟨[], none, .plain, false⟩ text
  if ws.any isPattern then none else some (ws.map units)

/-! ## The form of a word -/

/-- Text within double quotes, and what it stands for. -/
inductive DoubleQuoted : JsString → JsString → Prop where
  | nil : DoubleQuoted [] []
  | plain {u : UInt16} {q w : JsString} (hu : isEscapable u = false)
      (h : DoubleQuoted q w) : DoubleQuoted (u :: q) (u :: w)
  | dollar {q w : JsString} (hq : expands q = false) (h : DoubleQuoted q w) :
      DoubleQuoted (unit '$' :: q) (unit '$' :: w)
  | escaped {u : UInt16} {q w : JsString} (hu : isEscapable u = true)
      (h : DoubleQuoted q w) : DoubleQuoted (unit '\\' :: u :: q) (u :: w)
  | continued {q w : JsString} (h : DoubleQuoted q w) :
      DoubleQuoted (unit '\\' :: unit '\n' :: q) w
  | backslash {u : UInt16} {q w : JsString} (hu : isEscapable u = false)
      (hline : u ≠ unit '\n') (h : DoubleQuoted q w) :
      DoubleQuoted (unit '\\' :: u :: q) (unit '\\' :: u :: w)

/-- What can follow a word and a blank or a line end without adding to the
command. -/
inductive Tail : JsString → Prop where
  | nil : Tail []
  | blank {u : UInt16} {t : JsString} (hu : isBlank u = true) (h : Tail t) :
      Tail (u :: t)
  | line {t : JsString} (h : Tail t) : Tail (unit '\n' :: t)
  | continued {t : JsString} (h : Tail t) :
      Tail (unit '\\' :: unit '\n' :: t)
  | comment {c : JsString} (hc : unit '\n' ∉ c) : Tail (unit '#' :: c)
  | commentLine {c t : JsString} (hc : unit '\n' ∉ c) (h : Tail t) :
      Tail (unit '#' :: (c ++ unit '\n' :: t))

/-- A unit that stands for itself outside of quotation. -/
def isOrdinary (u : UInt16) : Bool :=
  !isBlank u && u != unit '\n' && !isOperator u && u != unit '\\' &&
    u != unit '\'' && u != unit '"' && u != unit '$'

/-- The text of one word, or what is left of it, and what it stands for. -/
inductive Word : JsString → Marked → Prop where
  | nil : Word [] []
  | tail {u : UInt16} {t : JsString} (hu : isBlank u = true) (h : Tail t) :
      Word (u :: t) []
  | line {t : JsString} (h : Tail t) : Word (unit '\n' :: t) []
  | ordinary {u : UInt16} {t : JsString} {m : Marked}
      (hu : isOrdinary u = true) (h : Word t m) :
      Word (u :: t) ((u, true) :: m)
  | dollar {t : JsString} {m : Marked} (ht : expands t = false)
      (h : Word t m) : Word (unit '$' :: t) ((unit '$', true) :: m)
  | escaped {u : UInt16} {t : JsString} {m : Marked} (hu : u ≠ unit '\n')
      (h : Word t m) : Word (unit '\\' :: u :: t) ((u, false) :: m)
  | continued {t : JsString} {m : Marked} (h : Word t m) :
      Word (unit '\\' :: unit '\n' :: t) m
  | backslash : Word [unit '\\'] [(unit '\\', false)]
  | single {q t : JsString} {m : Marked} (hq : unit '\'' ∉ q)
      (h : Word t m) :
      Word (unit '\'' :: (q ++ unit '\'' :: t))
        ((q.map fun u => (u, false)) ++ m)
  | double {q w t : JsString} {m : Marked} (hq : DoubleQuoted q w)
      (h : Word t m) :
      Word (unit '"' :: (q ++ unit '"' :: t))
        ((w.map fun u => (u, false)) ++ m)

/-- The text is one word, which is no pattern, and this is what it stands
for. -/
def Literal (text path : JsString) : Prop :=
  ∃ m, Word text m ∧ isPattern m = false ∧ units m = path

/-! ## What the reader does -/

section

variable (ws : List Marked) (o : Option Marked) (e : Bool) (u : UInt16)
  (rest : JsString)

theorem step_plain :
    Lexer.step ⟨ws, o, .plain, e⟩ u rest =
      if isBlank u then some ⟨ws ++ o.toList, none, .plain, e⟩
      else if u = unit '\n' then
        some ⟨ws ++ o.toList, none, .plain, decide (ws ++ o.toList ≠ [])⟩
      else if isOperator u then none
      else if u = unit '\\' then some ⟨ws, o, .escaped, e⟩
      else if o = none ∧ u = unit '#' then some ⟨ws, o, .comment, e⟩
      else if e then none
      else if u = unit '\'' then
        some ⟨ws, some (o.getD [] ++ []), .single, e⟩
      else if u = unit '"' then some ⟨ws, some (o.getD [] ++ []), .double, e⟩
      else if o = none ∧ u = unit '~' then none
      else if u = unit '$' ∧ expands rest then none
      else some ⟨ws, some (o.getD [] ++ [(u, true)]), .plain, e⟩ := rfl

theorem step_escaped :
    Lexer.step ⟨ws, o, .escaped, e⟩ u rest =
      if u = unit '\n' then some ⟨ws, o, .plain, e⟩
      else if e then none
      else some ⟨ws, some (o.getD [] ++ [(u, false)]), .plain, e⟩ := rfl

theorem step_single :
    Lexer.step ⟨ws, o, .single, e⟩ u rest =
      if u = unit '\'' then some ⟨ws, o, .plain, e⟩
      else some ⟨ws, some (o.getD [] ++ [(u, false)]), .single, e⟩ := rfl

theorem step_double :
    Lexer.step ⟨ws, o, .double, e⟩ u rest =
      if u = unit '"' then some ⟨ws, o, .plain, e⟩
      else if u = unit '\\' then some ⟨ws, o, .doubleEscaped, e⟩
      else if u = unit '`' ∨ (u = unit '$' ∧ expands rest) then none
      else some ⟨ws, some (o.getD [] ++ [(u, false)]), .double, e⟩ := rfl

theorem step_doubleEscaped :
    Lexer.step ⟨ws, o, .doubleEscaped, e⟩ u rest =
      if isEscapable u then
        some ⟨ws, some (o.getD [] ++ [(u, false)]), .double, e⟩
      else if u = unit '\n' then some ⟨ws, o, .double, e⟩
      else some ⟨ws, some (o.getD [] ++ [(unit '\\', false), (u, false)]),
        .double, e⟩ := rfl

theorem step_comment :
    Lexer.step ⟨ws, o, .comment, e⟩ u rest =
      if u = unit '\n' then
        some ⟨ws ++ o.toList, none, .plain, decide (ws ++ o.toList ≠ [])⟩
      else some ⟨ws, o, .comment, e⟩ := rfl

end

theorem run_nil (l : Lexer) : l.run [] = l.finish := rfl

theorem run_cons (l : Lexer) (u : UInt16) (t : JsString) :
    l.run (u :: t) = (l.step u t).bind fun l' => l'.run t := rfl

theorem length_lt_cons_cons {u u' : UInt16} {t : JsString} :
    t.length < (u :: u' :: t).length := by
  rw [List.length_cons, List.length_cons]
  omega

theorem expands_cons_cons (u u' : UInt16) (t : JsString) :
    expands (u :: u' :: t) =
      if u = unit '\\' ∧ u' = unit '\n' then expands t
      else startsExpansion u := rfl

/-- A closing quote is nothing to expand. -/
theorem expands_append (q t : JsString) :
    expands (q ++ unit '"' :: t) = expands q := by
  have hquote : startsExpansion (unit '"') = false := by decide
  induction hn : q.length using Nat.strongRecOn generalizing q with
  | _ n ih =>
      match q with
      | [] =>
          cases t with
          | nil => exact hquote
          | cons u t =>
              rw [List.nil_append, expands_cons_cons,
                if_neg fun h => absurd h.1 (by decide), hquote, expands]
      | [u] =>
          rw [List.singleton_append, expands_cons_cons,
            if_neg fun h => absurd h.2 (by decide), expands]
      | u :: u' :: q =>
          subst hn
          rw [List.cons_append, List.cons_append, expands_cons_cons,
            expands_cons_cons, ih _ length_lt_cons_cons q rfl]

/-! ## Texts of the form are read -/

section

variable (ws : List Marked) (w : Marked) (e : Bool)

theorem run_comment {c : JsString} (h : unit '\n' ∉ c) :
    Lexer.run ⟨ws, none, .comment, e⟩ c = some ws := by
  induction c with
  | nil => simp [run_nil, Lexer.finish]
  | cons u c ih =>
      rw [List.mem_cons, not_or] at h
      rw [run_cons, step_comment, if_neg (Ne.symm h.1), Option.bind_some]
      exact ih h.2

theorem run_commentLine {c : JsString} (h : unit '\n' ∉ c) (t : JsString) :
    Lexer.run ⟨ws, none, .comment, e⟩ (c ++ unit '\n' :: t) =
      Lexer.run ⟨ws, none, .plain, decide (ws ≠ [])⟩ t := by
  induction c with
  | nil =>
      rw [List.nil_append, run_cons, step_comment, if_pos rfl,
        Option.bind_some, Option.toList_none, List.append_nil]
  | cons u c ih =>
      rw [List.mem_cons, not_or] at h
      rw [List.cons_append, run_cons, step_comment, if_neg (Ne.symm h.1),
        Option.bind_some]
      exact ih h.2

theorem run_tail {t : JsString} (h : Tail t) :
    Lexer.run ⟨ws, none, .plain, e⟩ t = some ws := by
  induction h generalizing e with
  | nil => simp [run_nil, Lexer.finish]
  | blank hu h ih =>
      rw [run_cons, step_plain, if_pos hu, Option.bind_some,
        Option.toList_none, List.append_nil]
      exact ih e
  | line h ih =>
      rw [run_cons, step_plain, if_neg (by decide), if_pos rfl,
        Option.bind_some, Option.toList_none, List.append_nil]
      exact ih _
  | @continued t h ih =>
      rw [run_cons]
      show Lexer.run ⟨ws, none, .escaped, e⟩ (unit '\n' :: t) = some ws
      rw [run_cons]
      exact ih e
  | @comment c hc =>
      rw [run_cons]
      exact run_comment ws e hc
  | @commentLine c t hc h ih =>
      rw [run_cons]
      show Lexer.run ⟨ws, none, .comment, e⟩ (c ++ unit '\n' :: t) = some ws
      rw [run_commentLine ws e hc]
      exact ih _

theorem run_single {q : JsString} (h : unit '\'' ∉ q) (t : JsString) :
    Lexer.run ⟨ws, some w, .single, e⟩ (q ++ unit '\'' :: t) =
      Lexer.run ⟨ws, some (w ++ q.map fun u => (u, false)), .plain, e⟩ t := by
  induction q generalizing w with
  | nil =>
      rw [List.nil_append, run_cons, step_single, if_pos rfl,
        Option.bind_some, List.map_nil, List.append_nil]
  | cons u q ih =>
      rw [List.mem_cons, not_or] at h
      rw [List.cons_append, run_cons, step_single, if_neg (Ne.symm h.1),
        Option.bind_some, Option.getD_some, ih _ h.2, List.append_assoc]
      rfl

theorem step_inDouble {u : UInt16} (h : isEscapable u = false)
    (t : JsString) :
    Lexer.step ⟨ws, some w, .double, e⟩ u t =
      some ⟨ws, some (w ++ [(u, false)]), .double, e⟩ := by
  simp only [isEscapable, Bool.or_eq_false_iff, decide_eq_false_iff_not] at h
  obtain ⟨⟨⟨hdollar, hback⟩, hquote⟩, hslash⟩ := h
  rw [step_double, if_neg hquote, if_neg hslash,
    if_neg fun h => h.elim hback fun h => hdollar h.1]
  rfl

theorem run_double {q v : JsString} (h : DoubleQuoted q v) (t : JsString) :
    Lexer.run ⟨ws, some w, .double, e⟩ (q ++ unit '"' :: t) =
      Lexer.run ⟨ws, some (w ++ v.map fun u => (u, false)), .plain, e⟩ t := by
  induction h generalizing w with
  | nil =>
      rw [List.nil_append, run_cons, step_double, if_pos rfl,
        Option.bind_some, List.map_nil, List.append_nil]
  | @plain u q v hu h ih =>
      rw [List.cons_append, run_cons, step_inDouble ws w e hu,
        Option.bind_some, ih, List.append_assoc]
      rfl
  | @dollar q v hq h ih =>
      rw [List.cons_append, run_cons, step_double, expands_append, hq,
        if_neg (by decide), if_neg (by decide), if_neg (by decide),
        Option.bind_some, Option.getD_some, ih, List.append_assoc]
      rfl
  | @escaped u q v hu h ih =>
      rw [List.cons_append, run_cons]
      show Lexer.run ⟨ws, some w, .doubleEscaped, e⟩
        (u :: (q ++ unit '"' :: t)) = _
      rw [run_cons, step_doubleEscaped, if_pos hu, Option.bind_some,
        Option.getD_some, ih, List.append_assoc]
      rfl
  | @continued q v h ih =>
      rw [List.cons_append, run_cons]
      show Lexer.run ⟨ws, some w, .doubleEscaped, e⟩
        (unit '\n' :: (q ++ unit '"' :: t)) = _
      rw [run_cons]
      exact ih w
  | @backslash u q v hu hline h ih =>
      rw [List.cons_append, run_cons]
      show Lexer.run ⟨ws, some w, .doubleEscaped, e⟩
        (u :: (q ++ unit '"' :: t)) = _
      rw [run_cons, step_doubleEscaped, hu, if_neg Bool.false_ne_true,
        if_neg hline, Option.bind_some, Option.getD_some, ih,
        List.append_assoc]
      rfl

theorem step_ordinary {u : UInt16} (h : isOrdinary u = true)
    (t : JsString) :
    Lexer.step ⟨ws, some w, .plain, false⟩ u t =
      some ⟨ws, some (w ++ [(u, true)]), .plain, false⟩ := by
  simp only [isOrdinary, Bool.and_eq_true, Bool.not_eq_true', bne_iff_ne] at h
  obtain ⟨⟨⟨⟨⟨⟨hblank, hline⟩, hoperator⟩, hslash⟩, hsingle⟩, hdouble⟩,
    hdollar⟩ := h
  rw [step_plain]
  simp only [hblank, hline, hoperator, hslash, hsingle, hdouble, hdollar,
    Bool.false_eq_true, reduceCtorEq, false_and, if_false]
  rfl

theorem step_dollar {t : JsString} (ht : expands t = false) :
    Lexer.step ⟨ws, some w, .plain, false⟩ (unit '$') t =
      some ⟨ws, some (w ++ [(unit '$', true)]), .plain, false⟩ := by
  have hblank : isBlank (unit '$') = false := by decide
  have hoperator : isOperator (unit '$') = false := by decide
  rw [step_plain, ht]
  simp only [hblank, hoperator, Bool.false_eq_true, reduceCtorEq, false_and,
    and_false, if_false]
  rfl

theorem run_word {t : JsString} {m : Marked} (h : Word t m) :
    Lexer.run ⟨ws, some w, .plain, false⟩ t = some (ws ++ [w ++ m]) := by
  induction h generalizing w with
  | nil => simp [run_nil, Lexer.finish]
  | tail hu h =>
      rw [run_cons, step_plain, if_pos hu, Option.bind_some,
        Option.toList_some, List.append_nil]
      exact run_tail (ws ++ [w]) _ h
  | line h =>
      rw [run_cons, step_plain, if_neg (by decide), if_pos rfl,
        Option.bind_some, Option.toList_some, List.append_nil]
      exact run_tail (ws ++ [w]) _ h
  | ordinary hu h ih =>
      rw [run_cons, step_ordinary ws w hu, Option.bind_some, ih,
        List.append_assoc]
      rfl
  | dollar ht h ih =>
      rw [run_cons, step_dollar ws w ht, Option.bind_some, ih,
        List.append_assoc]
      rfl
  | @escaped u t m hu h ih =>
      rw [run_cons]
      show Lexer.run ⟨ws, some w, .escaped, false⟩ (u :: t) = _
      rw [run_cons, step_escaped, if_neg hu, if_neg Bool.false_ne_true,
        Option.bind_some, Option.getD_some, ih, List.append_assoc]
      rfl
  | @continued t m h ih =>
      rw [run_cons]
      show Lexer.run ⟨ws, some w, .escaped, false⟩ (unit '\n' :: t) = _
      rw [run_cons]
      exact ih w
  | backslash => rfl
  | @single q t m hq h ih =>
      rw [run_cons]
      show Lexer.run ⟨ws, some (w ++ []), .single, false⟩
        (q ++ unit '\'' :: t) = _
      rw [run_single ws _ false hq, ih, List.append_nil, List.append_assoc]
  | @double q x t m hq h ih =>
      rw [run_cons]
      show Lexer.run ⟨ws, some (w ++ []), .double, false⟩
        (q ++ unit '"' :: t) = _
      rw [run_double ws _ false hq, ih, List.append_nil, List.append_assoc]

end

/-! ## What is read has the form -/

/-- The words there are at least. -/
def Lexer.count (l : Lexer) : Nat := l.words.length + l.word.toList.length

/-- Words that are complete stay, and a word that has begun is completed. -/
theorem grows_step {l l' : Lexer} {u : UInt16} {t : JsString}
    (h : l.step u t = some l') :
    l.words <+: l'.words ∧ l.count ≤ l'.count := by
  obtain ⟨ws, o, quoting, e⟩ := l
  have hone := @Option.length_toList_le _ o
  cases quoting with
  | plain =>
      rw [step_plain] at h
      split_ifs at h
      all_goals
        obtain rfl := Option.some.inj h
        simp [Lexer.count, hone]
  | escaped =>
      rw [step_escaped] at h
      split_ifs at h
      all_goals
        obtain rfl := Option.some.inj h
        simp [Lexer.count, hone]
  | single =>
      rw [step_single] at h
      split_ifs at h
      all_goals
        obtain rfl := Option.some.inj h
        simp [Lexer.count, hone]
  | double =>
      rw [step_double] at h
      split_ifs at h
      all_goals
        obtain rfl := Option.some.inj h
        simp [Lexer.count, hone]
  | doubleEscaped =>
      rw [step_doubleEscaped] at h
      split_ifs at h
      all_goals
        obtain rfl := Option.some.inj h
        simp [Lexer.count, hone]
  | comment =>
      rw [step_comment] at h
      split_ifs at h
      all_goals
        obtain rfl := Option.some.inj h
        simp [Lexer.count]

theorem grows_run {l : Lexer} {text : JsString} {r : List Marked}
    (h : l.run text = some r) : l.words <+: r ∧ l.count ≤ r.length := by
  induction text generalizing l with
  | nil =>
      obtain ⟨ws, o, quoting, e⟩ := l
      rw [run_nil] at h
      have hone := @Option.length_toList_le _ o
      cases quoting with
      | plain =>
          obtain rfl := Option.some.inj h
          simp [Lexer.count]
      | comment =>
          obtain rfl := Option.some.inj h
          simp [Lexer.count]
      | escaped =>
          cases e with
          | true => cases h
          | false =>
              obtain rfl := Option.some.inj h
              simp [Lexer.count, hone]
      | single => cases h
      | double => cases h
      | doubleEscaped => cases h
  | cons u t ih =>
      rw [run_cons] at h
      obtain ⟨l', hstep, hrun⟩ := Option.bind_eq_some_iff.1 h
      obtain ⟨hbegin, hcount⟩ := grows_step hstep
      obtain ⟨hbegin', hcount'⟩ := ih hrun
      exact ⟨hbegin.trans hbegin', Nat.le_trans hcount hcount'⟩

/-- A word that has begun is not lost. -/
theorem run_begun_ne {ws : List Marked} {w : Marked} {q : Quoting} {e : Bool}
    {t : JsString} : Lexer.run ⟨ws, some w, q, e⟩ t ≠ some ws := by
  intro h
  have hcount := (grows_run h).2
  rw [Lexer.count, Option.toList_some, List.length_singleton] at hcount
  exact Nat.not_succ_le_self _ hcount

section

variable {ws : List Marked} {e : Bool}

/-- A comment goes on to the end of the text, or of its line. -/
theorem comment_of_run {t : JsString} {r : List Marked}
    (h : Lexer.run ⟨ws, none, .comment, e⟩ t = some r) :
    unit '\n' ∉ t ∨ ∃ c t', t = c ++ unit '\n' :: t' ∧ unit '\n' ∉ c ∧
      Lexer.run ⟨ws, none, .plain, decide (ws ≠ [])⟩ t' = some r := by
  induction t with
  | nil => exact .inl List.not_mem_nil
  | cons u t ih =>
      rw [run_cons, step_comment] at h
      split_ifs at h with hu
      · rw [Option.bind_some, Option.toList_none, List.append_nil] at h
        exact .inr ⟨[], t, by rw [hu]; rfl, List.not_mem_nil, h⟩
      · rcases ih h with hnone | ⟨c, t', rfl, hc, hrun⟩
        · left
          rw [List.mem_cons, not_or]
          exact ⟨Ne.symm hu, hnone⟩
        · refine .inr ⟨u :: c, t', rfl, ?_, hrun⟩
          rw [List.mem_cons, not_or]
          exact ⟨Ne.symm hu, hc⟩

theorem tail_of_run {t : JsString}
    (h : Lexer.run ⟨ws, none, .plain, e⟩ t = some ws) : Tail t := by
  induction hn : t.length using Nat.strongRecOn generalizing t e with
  | _ n ih =>
      cases t with
      | nil => exact .nil
      | cons u t =>
          subst hn
          rw [run_cons, step_plain] at h
          split_ifs at h with hblank hline hoperator hslash hhash hended
            hsingle hdouble htilde hdollar
          · rw [Option.bind_some, Option.toList_none, List.append_nil] at h
            exact .blank hblank (ih _ (Nat.lt_succ_self _) h rfl)
          · rw [Option.bind_some, Option.toList_none, List.append_nil] at h
            exact hline ▸ .line (ih _ (Nat.lt_succ_self _) h rfl)
          · cases h
          · subst hslash
            rw [Option.bind_some] at h
            cases t with
            | nil =>
                rw [run_nil, Lexer.finish] at h
                simp only at h
                split_ifs at h
                have hlength := congrArg List.length (Option.some.inj h)
                simp at hlength
            | cons u t =>
                rw [run_cons, step_escaped] at h
                split_ifs at h with hline' hended
                · subst hline'
                  exact .continued (ih _ length_lt_cons_cons h rfl)
                · cases h
                · exact absurd h run_begun_ne
          · rw [hhash.2]
            rcases comment_of_run h with hnone | ⟨c, t', rfl, hc, hrun⟩
            · exact .comment hnone
            · exact .commentLine hc (ih _ (by simp; omega) hrun rfl)
          · cases h
          · exact absurd h run_begun_ne
          · exact absurd h run_begun_ne
          · cases h
          · cases h
          · exact absurd h run_begun_ne

variable {w : Marked} {r : List Marked}

theorem single_of_run {t : JsString}
    (h : Lexer.run ⟨ws, some w, .single, e⟩ t = some r) :
    ∃ q t', t = q ++ unit '\'' :: t' ∧ unit '\'' ∉ q ∧
      Lexer.run ⟨ws, some (w ++ q.map fun u => (u, false)), .plain, e⟩ t' =
        some r := by
  induction t generalizing w with
  | nil => cases h
  | cons u t ih =>
      rw [run_cons, step_single] at h
      split_ifs at h with hu
      · refine ⟨[], t, by rw [hu]; rfl, List.not_mem_nil, ?_⟩
        rw [List.map_nil, List.append_nil]
        exact h
      · obtain ⟨q, t', rfl, hq, hrun⟩ := ih h
        refine ⟨u :: q, t', rfl, ?_, ?_⟩
        · rw [List.mem_cons, not_or]
          exact ⟨Ne.symm hu, hq⟩
        · rw [Option.getD_some, List.append_assoc] at hrun
          exact hrun

theorem double_of_run {t : JsString}
    (h : Lexer.run ⟨ws, some w, .double, e⟩ t = some r) :
    ∃ q v t', t = q ++ unit '"' :: t' ∧ DoubleQuoted q v ∧
      Lexer.run ⟨ws, some (w ++ v.map fun u => (u, false)), .plain, e⟩ t' =
        some r := by
  induction hn : t.length using Nat.strongRecOn
    generalizing t w with
  | _ n ih =>
      cases t with
      | nil => cases h
      | cons u t =>
          subst hn
          rw [run_cons, step_double] at h
          split_ifs at h with hquote hslash hexpand
          · refine ⟨[], [], t, by rw [hquote]; rfl, .nil, ?_⟩
            rw [List.map_nil, List.append_nil]
            exact h
          · subst hslash
            rw [Option.bind_some] at h
            cases t with
            | nil => cases h
            | cons u t =>
                rw [run_cons, step_doubleEscaped] at h
                split_ifs at h with hu hline
                · obtain ⟨q, v, t', rfl, hq, hrun⟩ :=
                    ih _ length_lt_cons_cons h rfl
                  rw [Option.getD_some, List.append_assoc] at hrun
                  exact ⟨_, _, t', rfl, .escaped hu hq, hrun⟩
                · subst hline
                  obtain ⟨q, v, t', rfl, hq, hrun⟩ :=
                    ih _ length_lt_cons_cons h rfl
                  exact ⟨_, _, t', rfl, .continued hq, hrun⟩
                · obtain ⟨q, v, t', rfl, hq, hrun⟩ :=
                    ih _ length_lt_cons_cons h rfl
                  rw [Option.getD_some, List.append_assoc] at hrun
                  exact ⟨_, _, t', rfl,
                    .backslash (Bool.eq_false_iff.2 hu) hline hq, hrun⟩
          · cases h
          · obtain ⟨q, v, t', rfl, hq, hrun⟩ := ih _ (Nat.lt_succ_self _) h rfl
            rw [Option.getD_some, List.append_assoc] at hrun
            rw [not_or, not_and, expands_append] at hexpand
            by_cases hdollar : u = unit '$'
            · subst hdollar
              exact ⟨_, _, t', rfl,
                .dollar (Bool.eq_false_iff.2 (hexpand.2 rfl)) hq, hrun⟩
            · have hplain : isEscapable u = false := by
                simp [isEscapable, hquote, hslash, hexpand.1, hdollar]
              exact ⟨_, _, t', rfl, .plain hplain hq, hrun⟩

theorem word_of_run {t : JsString} {x : Marked}
    (h : Lexer.run ⟨ws, some w, .plain, false⟩ t = some (ws ++ [x])) :
    ∃ m, x = w ++ m ∧ Word t m := by
  induction hn : t.length using Nat.strongRecOn
    generalizing t w with
  | _ n ih =>
      cases t with
      | nil =>
          have hw : w = x := by simpa using Option.some.inj h
          exact ⟨[], by rw [hw, List.append_nil], .nil⟩
      | cons u t =>
          subst hn
          rw [run_cons, step_plain, if_neg Bool.false_ne_true] at h
          split_ifs at h with hblank hline hoperator hslash hhash
            hsingle hdouble htilde hdollar
          · rw [Option.bind_some, Option.toList_some] at h
            have hw : ws ++ [w] = ws ++ [x] :=
              (grows_run h).1.eq_of_length (by simp)
            rw [← hw] at h
            have hwx : w = x := by simpa using hw
            exact ⟨[], by rw [hwx, List.append_nil],
              .tail hblank (tail_of_run h)⟩
          · rw [Option.bind_some, Option.toList_some] at h
            have hw : ws ++ [w] = ws ++ [x] :=
              (grows_run h).1.eq_of_length (by simp)
            rw [← hw] at h
            have hwx : w = x := by simpa using hw
            exact ⟨[], by rw [hwx, List.append_nil],
              hline ▸ .line (tail_of_run h)⟩
          · cases h
          · subst hslash
            rw [Option.bind_some] at h
            cases t with
            | nil =>
                have hw : w ++ [(unit '\\', false)] = x := by
                  simpa [run_nil, Lexer.finish] using h
                exact ⟨_, hw.symm, .backslash⟩
            | cons u t =>
                rw [run_cons, step_escaped, if_neg Bool.false_ne_true] at h
                split_ifs at h with hline'
                · subst hline'
                  obtain ⟨m, hx, hm⟩ := ih _ length_lt_cons_cons h rfl
                  exact ⟨m, hx, .continued hm⟩
                · obtain ⟨m, hx, hm⟩ := ih _ length_lt_cons_cons h rfl
                  rw [Option.getD_some, List.append_assoc] at hx
                  exact ⟨_, hx, .escaped hline' hm⟩
          · cases hhash.1
          · subst hsingle
            obtain ⟨q, t', rfl, hq, hrun⟩ := single_of_run h
            rw [Option.getD_some, List.append_nil] at hrun
            obtain ⟨m, hx, hm⟩ := ih _ (by simp; omega) hrun rfl
            rw [List.append_assoc] at hx
            exact ⟨_, hx, .single hq hm⟩
          · subst hdouble
            obtain ⟨q, y, t', rfl, hq, hrun⟩ := double_of_run h
            rw [Option.getD_some, List.append_nil] at hrun
            obtain ⟨m, hx, hm⟩ := ih _ (by simp; omega) hrun rfl
            rw [List.append_assoc] at hx
            exact ⟨_, hx, .double hq hm⟩
          · cases h
          · cases h
          · obtain ⟨m, hx, hm⟩ := ih _ (Nat.lt_succ_self _) h rfl
            rw [Option.getD_some, List.append_assoc] at hx
            rw [not_and] at hdollar
            by_cases hu : u = unit '$'
            · subst hu
              exact ⟨_, hx, .dollar (Bool.eq_false_iff.2 (hdollar rfl)) hm⟩
            · have hordinary : isOrdinary u = true := by
                simp [isOrdinary, hblank, hline, hoperator, hslash, hsingle,
                  hdouble, hu]
              exact ⟨_, hx, .ordinary hordinary hm⟩

/-- The reader completes the word, and reads nothing else, just if what is
left has the form of a word. -/
theorem run_eq_some_iff {t : JsString} {x : Marked} :
    Lexer.run ⟨ws, some w, .plain, false⟩ t = some (ws ++ [x]) ↔
      ∃ m, x = w ++ m ∧ Word t m := by
  refine ⟨word_of_run, ?_⟩
  rintro ⟨m, rfl, h⟩
  exact run_word ws w h

end

end Shell

end IotHome.Lib
