import IotHome.Lib.Assoc
import IotHome.Lib.JsString

/-!
# Command line arguments

The `Arg` class: one pass over the arguments that counts each of them, files
the dashed ones that have a value under their name, and remembers the last
index of all others. An argument is cut at every `=`, so what counts as its
value is what stands between the first and the second.

`getListValueOf_eq` says what the pass collects under a name, without the
maps.
-/

namespace IotHome.Cmd

open IotHome.Lib

structure Arg where
  args : List JsString
  flags : OrderedMap JsString Nat
  dashedWithValue : OrderedMap JsString (List JsString)
  full : OrderedMap JsString Nat

def Arg.empty (args : List JsString) : Arg := ⟨args, .empty, .empty, .empty⟩

/-- `text.split("=")[0]`. -/
def nameOf (arg : JsString) : JsString := (arg.splitOn (unit '=')).headD []

/-- `text.split("=")[1]`, if it is there and not empty. -/
def valueOf (arg : JsString) : Option JsString :=
  match (arg.splitOn (unit '='))[1]? with
  | some (u :: us) => some (u :: us)
  | _ => none

def isDashed (arg : JsString) : Bool := arg.head? = some (unit '-')

/-! ## The constructor -/

def Arg.count (A : Arg) (fullArg : JsString) : Arg :=
  match A.full.get fullArg with
  | some count => { A with full := A.full.set fullArg (count + 1) }
  | none => { A with full := A.full.set fullArg 1 }

def Arg.push (A : Arg) (dashArg currValue : JsString) : Arg :=
  match A.dashedWithValue.get dashArg with
  | none =>
      { A with dashedWithValue := A.dashedWithValue.set dashArg [currValue] }
  | some prevValue =>
      { A with
        dashedWithValue :=
          A.dashedWithValue.set dashArg (prevValue ++ [currValue]) }

def Arg.flag (A : Arg) (name : JsString) (argIndex : Nat) : Arg :=
  { A with flags := A.flags.set name argIndex }

/-- One turn of the constructor's loop. -/
def Arg.read (A : Arg) (fullArg : JsString) (argIndex : Nat) : Arg :=
  let A := A.count fullArg
  if isDashed fullArg then
    match valueOf fullArg with
    | some currValue => A.push (nameOf fullArg) currValue
    | none => A.flag (nameOf fullArg) argIndex
  else A.flag fullArg argIndex

/-- `new Arg(args)`. -/
def Arg.ofArgs (args : List JsString) : Arg :=
  args.zipIdx.foldl (fun A a => A.read a.1 a.2) (.empty args)

def Arg.getListValueOf (A : Arg) (dashedArgName : JsString) : List JsString :=
  (A.dashedWithValue.get dashedArgName).getD []

def Arg.getValueOf (A : Arg) (dashedArgName : JsString) : Option JsString :=
  ((A.dashedWithValue.get dashedArgName).getD []).head?

def Arg.has (A : Arg) (arg : JsString) : Bool := (A.full.get arg).isSome

def Arg.hasName (A : Arg) (argName : JsString) : Bool :=
  (A.flags.get argName).isSome || (A.dashedWithValue.get argName).isSome

/-- The name of the argument in front of `help`. An empty one counts as
none. -/
def Arg.getArgNeedHelp (A : Arg) : Option JsString :=
  match A.flags.get (js "help") with
  | none => none
  | some helpIndex =>
      let full :=
        if helpIndex = 0 then js " "
        else (A.args[helpIndex - 1]?).getD (js " ")
      if full = [] then none else some (nameOf full)

/-! ## What the pass collects -/

/-- The name and the value of an argument `--name=value`. -/
def dashedValue (arg : JsString) : Option (JsString × JsString) :=
  if isDashed arg then (valueOf arg).map fun v => (nameOf arg, v) else none

/-- The values given for a name, in order. -/
def valuesOf (name : JsString) (args : List JsString) : List JsString :=
  args.filterMap fun a =>
    match dashedValue a with
    | some (n, v) => if n = name then some v else none
    | none => none

theorem count_eq (A : Arg) (a : JsString) :
    ∃ n, A.count a = { A with full := A.full.set a n } := by
  rw [Arg.count]
  split
  · exact ⟨_, rfl⟩
  · exact ⟨_, rfl⟩

theorem push_eq (A : Arg) (n v : JsString) :
    A.push n v = { A with
      dashedWithValue :=
        A.dashedWithValue.set n (A.getListValueOf n ++ [v]) } := by
  rw [Arg.push, Arg.getListValueOf]
  cases A.dashedWithValue.get n with
  | none => rfl
  | some prev => rfl

theorem getListValueOf_count (A : Arg) (a name : JsString) :
    (A.count a).getListValueOf name = A.getListValueOf name := by
  obtain ⟨n, hn⟩ := count_eq A a
  rw [hn]
  rfl

theorem getListValueOf_push (A : Arg) (n v name : JsString) :
    (A.push n v).getListValueOf name =
      if n = name then A.getListValueOf name ++ [v]
      else A.getListValueOf name := by
  rw [push_eq, Arg.getListValueOf, OrderedMap.get_set]
  split
  · next hn =>
      rw [hn]
      rfl
  · rfl

theorem getListValueOf_read (A : Arg) (a : JsString) (i : Nat)
    (name : JsString) :
    (A.read a i).getListValueOf name =
      A.getListValueOf name ++ valuesOf name [a] := by
  rw [Arg.read, valuesOf, List.filterMap_cons, List.filterMap_nil,
    dashedValue]
  split
  · next hd =>
      cases hv : valueOf a with
      | none =>
          show ((A.count a).flag _ i).getListValueOf name = _ ++ []
          rw [List.append_nil]
          exact getListValueOf_count A a name
      | some v =>
          show ((A.count a).push (nameOf a) v).getListValueOf name = _
          rw [getListValueOf_push, getListValueOf_count]
          simp only [Option.map_some]
          split
          · rfl
          · rw [List.append_nil]
  · show ((A.count a).flag _ i).getListValueOf name = _ ++ []
    rw [List.append_nil]
    exact getListValueOf_count A a name

/-- What is collected under a name is the values given for it, in order. -/
theorem getListValueOf_eq (args : List JsString) (name : JsString) :
    (Arg.ofArgs args).getListValueOf name = valuesOf name args := by
  have hfrom : ∀ (rest : List JsString) (i : Nat) (A : Arg),
      ((rest.zipIdx i).foldl (fun A a => A.read a.1 a.2)
        A).getListValueOf name =
        A.getListValueOf name ++ valuesOf name rest := by
    intro rest
    induction rest with
    | nil => intro i A; rw [valuesOf, List.filterMap_nil, List.append_nil]; rfl
    | cons a rest ih =>
        intro i A
        have hsplit : valuesOf name (a :: rest) =
            valuesOf name [a] ++ valuesOf name rest := by
          rw [valuesOf, ← List.singleton_append, List.filterMap_append]
          rfl
        rw [List.zipIdx_cons, List.foldl_cons, ih, getListValueOf_read,
          List.append_assoc, hsplit]
  exact hfrom args 0 (.empty args)

theorem full_read (A : Arg) (a : JsString) (i : Nat) (arg : JsString) :
    (A.read a i).has arg = (a == arg || A.has arg) := by
  have hcount : (A.count a).has arg = (a == arg || A.has arg) := by
    obtain ⟨n, hn⟩ := count_eq A a
    rw [hn, Arg.has, OrderedMap.get_set]
    split
    · next h => simp [h]
    · next h =>
        rw [beq_false_of_ne h]
        rfl
  rw [← hcount, Arg.read]
  split
  · cases valueOf a with
    | none => rfl
    | some v =>
        show ((A.count a).push (nameOf a) v).has arg = _
        rw [push_eq]
        rfl
  · rfl

/-- `has` asks whether an argument is there as it stands. -/
theorem has_ofArgs (args : List JsString) (arg : JsString) :
    (Arg.ofArgs args).has arg = true ↔ arg ∈ args := by
  have hfrom : ∀ (rest : List JsString) (i : Nat) (A : Arg),
      ((rest.zipIdx i).foldl (fun A a => A.read a.1 a.2) A).has arg = true ↔
        A.has arg = true ∨ arg ∈ rest := by
    intro rest
    induction rest with
    | nil => intro i A; simp
    | cons a rest ih =>
        intro i A
        rw [List.zipIdx_cons, List.foldl_cons, ih, full_read, List.mem_cons,
          Bool.or_eq_true, beq_iff_eq, eq_comm (a := a)]
        exact ⟨fun h => h.elim (fun h => h.elim (fun h => .inr (.inl h)) .inl)
          (fun h => .inr (.inr h)), fun h => h.elim (fun h => .inl (.inr h))
          (fun h => h.elim (fun h => .inl (.inl h)) .inr)⟩
  rw [Arg.ofArgs, hfrom]
  constructor
  · rintro (h | h)
    · cases h
    · exact h
  · exact .inr

/-! ## An argument with a value -/

/-- What is in front of the first `=`. -/
def beforeEquals (text : JsString) : JsString :=
  text.takeWhile (· != unit '=')

theorem head?_splitOn (text : JsString) :
    (text.splitOn (unit '=')).head? = some (beforeEquals text) := by
  induction text with
  | nil => rfl
  | cons u text ih =>
      obtain ⟨first, rest, hsplit⟩ := List.exists_cons_of_ne_nil
        (List.splitOn_ne_nil (unit '=') text)
      rw [hsplit, List.head?_cons] at ih
      rw [List.splitOn_cons_eq_if_modifyHead, hsplit, beforeEquals,
        List.takeWhile_cons]
      by_cases hu : u = unit '='
      · simp [hu]
      · simp [hu, Option.some.inj ih, beforeEquals]

theorem nameOf_named {name : JsString} (h : unit '=' ∉ name)
    (text : JsString) : nameOf (name ++ unit '=' :: text) = name := by
  rw [nameOf, List.splitOn_append_cons_self_of_not_mem h, List.headD_cons]

theorem valueOf_named {name : JsString} (h : unit '=' ∉ name)
    (text : JsString) : valueOf (name ++ unit '=' :: text) =
      if beforeEquals text = [] then none else some (beforeEquals text) := by
  rw [valueOf, List.splitOn_append_cons_self_of_not_mem h,
    List.getElem?_cons_succ, ← List.head?_eq_getElem?, head?_splitOn]
  cases beforeEquals text with
  | nil => rfl
  | cons u us => rfl

/-- An argument with a value is its name, a `=`, and more. -/
theorem eq_named {arg value : JsString} (h : valueOf arg = some value) :
    ∃ text, arg = nameOf arg ++ unit '=' :: text := by
  rw [valueOf] at h
  have hjoin : [unit '='].intercalate (arg.splitOn (unit '=')) = arg :=
    List.intercalate_splitOn _
  cases hsplit : arg.splitOn (unit '=') with
  | nil => exact absurd hsplit (List.splitOn_ne_nil _ _)
  | cons first rest =>
      cases rest with
      | nil => rw [hsplit] at h; cases h
      | cons second rest =>
          rw [hsplit] at hjoin
          refine ⟨[unit '='].intercalate (second :: rest), ?_⟩
          rw [nameOf, hsplit, List.headD_cons, ← hjoin]
          simp [List.intercalate]

/-- The line has one `name=…`, as often as it likes. -/
structure GivesOnly (name text : JsString) (args : List JsString) : Prop where
  mem : name ++ unit '=' :: text ∈ args
  only : ∀ a ∈ args, name ++ [unit '='] <+: a → a = name ++ unit '=' :: text

theorem mem_valuesOf {name value : JsString} {args : List JsString} :
    value ∈ valuesOf name args ↔
      ∃ a ∈ args, isDashed a = true ∧ nameOf a = name ∧
        valueOf a = some value := by
  rw [valuesOf, List.mem_filterMap]
  refine exists_congr fun a => and_congr_right fun _ => ?_
  rw [dashedValue]
  cases hdashed : isDashed a with
  | false => simp
  | true =>
      cases hvalue : valueOf a with
      | none => simp
      | some v =>
          by_cases hname : nameOf a = name
          · simp [hname]
          · simp [hname]

/-- What is found under a name is the text given for it, up to the first
`=`. -/
theorem GivesOnly.getValueOf {name text : JsString} {args : List JsString}
    (h : GivesOnly name text args) (hname : unit '=' ∉ name)
    (hdash : isDashed name = true) :
    (Arg.ofArgs args).getValueOf name =
      if beforeEquals text = [] then none else some (beforeEquals text) := by
  have hget : (Arg.ofArgs args).getValueOf name =
      (valuesOf name args).head? := by
    rw [← getListValueOf_eq]
    rfl
  have hall : ∀ value ∈ valuesOf name args,
      valueOf (name ++ unit '=' :: text) = some value := by
    intro value hvalue
    obtain ⟨a, ha, _, haname, havalue⟩ := mem_valuesOf.1 hvalue
    obtain ⟨rest, hrest⟩ := eq_named havalue
    rw [haname] at hrest
    have hpre : name ++ [unit '='] <+: a := ⟨rest, by rw [hrest]; simp⟩
    rw [← h.only a ha hpre]
    exact havalue
  rw [hget, ← valueOf_named hname]
  cases hvalue : valueOf (name ++ unit '=' :: text) with
  | none =>
      cases hvalues : valuesOf name args with
      | nil => rfl
      | cons value values =>
          have hfound := hall value (hvalues ▸ List.mem_cons_self)
          rw [hvalue] at hfound
          cases hfound
  | some value =>
      have hdashed : isDashed (name ++ unit '=' :: text) = true := by
        cases name with
        | nil => cases hdash
        | cons u us => exact hdash
      have hmem : value ∈ valuesOf name args :=
        mem_valuesOf.2 ⟨_, h.mem, hdashed, nameOf_named hname text, hvalue⟩
      cases hvalues : valuesOf name args with
      | nil => rw [hvalues] at hmem; cases hmem
      | cons first values =>
          have hfound := hall first (hvalues ▸ List.mem_cons_self)
          rw [List.head?_cons, ← hfound, hvalue]

/-- One dashed argument has no name but its own. -/
theorem hasName_singleton {a name : JsString} (hdashed : isDashed a = true)
    (hne : nameOf a ≠ name) : (Arg.ofArgs [a]).hasName name = false := by
  obtain ⟨n, hn⟩ := count_eq (Arg.empty [a]) a
  show ((Arg.empty [a]).read a 0).hasName name = false
  rw [Arg.read, hn, if_pos hdashed]
  cases valueOf a with
  | none =>
      simp [Arg.flag, Arg.hasName, Arg.empty, OrderedMap.get_set, hne]
  | some value =>
      simp [push_eq, Arg.hasName, Arg.empty, OrderedMap.get_set, hne]

/-! ## Which argument needs help -/

theorem nameOf_of_isDashed {arg : JsString} (h : isDashed arg = true) :
    (nameOf arg).head? = some (unit '-') := by
  cases arg with
  | nil => cases h
  | cons u us =>
      obtain rfl : u = unit '-' := by simpa [isDashed] using h
      have hne : ¬ (unit '-' == unit '=') = true := by decide
      obtain ⟨x, xs, hsplit⟩ := List.exists_cons_of_ne_nil
        (List.splitOnP_ne_nil (· == unit '=') us)
      rw [nameOf, List.splitOn, List.splitOnP_cons_eq_if_modifyHead,
        if_neg hne, hsplit]
      rfl

theorem args_read (A : Arg) (a : JsString) (i : Nat) :
    (A.read a i).args = A.args := by
  obtain ⟨n, hn⟩ := count_eq A a
  rw [Arg.read, hn]
  split
  · split
    · rw [push_eq]
    · rfl
  · rfl

/-- Only the word itself is filed as `help`. -/
theorem flags_read (A : Arg) (a : JsString) (i : Nat) :
    (A.read a i).flags.get (js "help") =
      if a = js "help" then some i else A.flags.get (js "help") := by
  obtain ⟨n, hn⟩ := count_eq A a
  rw [Arg.read, hn]
  split
  · next hdashed =>
      have hne : a ≠ js "help" := by
        rintro rfl
        exact absurd hdashed (by decide)
      rw [if_neg hne]
      split
      · rw [push_eq]
      · have hname : nameOf a ≠ js "help" := by
          intro heq
          have hhead := nameOf_of_isDashed hdashed
          rw [heq] at hhead
          exact absurd hhead (by decide)
        rw [Arg.flag, OrderedMap.get_set, if_neg hname]
  · rw [Arg.flag, OrderedMap.get_set]

theorem args_ofArgs (args : List JsString) : (Arg.ofArgs args).args = args := by
  have hfrom : ∀ (rest : List JsString) (i : Nat) (A : Arg),
      ((rest.zipIdx i).foldl (fun A a => A.read a.1 a.2) A).args = A.args := by
    intro rest
    induction rest with
    | nil => intro i A; rfl
    | cons a rest ih =>
        intro i A
        rw [List.zipIdx_cons, List.foldl_cons, ih, args_read]
  exact hfrom args 0 (.empty args)

/-- What is filed for `help` is the index of the last one. -/
theorem flags_ofArgs {pre post : List JsString} (h : js "help" ∉ post) :
    (Arg.ofArgs (pre ++ js "help" :: post)).flags.get (js "help") =
      some pre.length := by
  have hrest : ∀ (rest : List JsString) (i : Nat) (A : Arg),
      js "help" ∉ rest → ((rest.zipIdx i).foldl (fun A a => A.read a.1 a.2)
        A).flags.get (js "help") = A.flags.get (js "help") := by
    intro rest
    induction rest with
    | nil => intro i A _; rfl
    | cons a rest ih =>
        intro i A hnot
        rw [List.mem_cons, not_or] at hnot
        rw [List.zipIdx_cons, List.foldl_cons, ih _ _ hnot.2, flags_read,
          if_neg (Ne.symm hnot.1)]
  rw [Arg.ofArgs, List.zipIdx_append, List.foldl_append, List.zipIdx_cons,
    List.foldl_cons, hrest _ _ _ h, flags_read, if_pos rfl, Nat.zero_add]

/-- No argument needs help where there is no `help`, and where the last one
has the empty word in front of it. -/
theorem getArgNeedHelp_eq_none {pre post : List JsString}
    (h : js "help" ∉ post) :
    (Arg.ofArgs (pre ++ js "help" :: post)).getArgNeedHelp = none ↔
      ∃ front, pre = front ++ [[]] := by
  rw [Arg.getArgNeedHelp, flags_ofArgs h, args_ofArgs]
  rcases List.eq_nil_or_concat pre with rfl | ⟨front, last, rfl⟩
  · have hspace : js " " ≠ [] := by decide
    simp [hspace]
  · simp

end IotHome.Cmd
