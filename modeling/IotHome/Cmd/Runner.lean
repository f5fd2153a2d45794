import IotHome.Lib.JsHeap

/-!
# The command runner

`cmd-runner.ts`: the walk from the root of a command tree along the words of
a command line to the first function, which is called with the words that are
left. The walk reads properties and looks at nothing else, so where it can
get to is a matter of the whole heap. A function is bound by the `bind` of
the language; none has one of its own.

The two functions that list commands are `help`, for plain objects, and the
method of `CmdTreeBase`, for instances. `cmdlist` is what a node's own `help`
lists, whichever of the two it is.
-/

namespace IotHome.Cmd

open IotHome.Lib

/-- A heap with the functions of the module in it. -/
structure CmdHeap extends JsHeap where
  helpFunction : Nat
  baseHelpFunction : Nat
  baseHelp_ne : baseHelpFunction ≠ helpFunction

variable (h : CmdHeap)

/-! ## The walk -/

/-- `_getExecutor`: the function, the value it is bound to, and the words
behind it. -/
def getExecutor (commands : Value) :
    List JsString → Option (Nat × Value × List JsString)
  | [] => none
  | arg :: args =>
      if commands.truthy then
        let commandsOrExecutor := h.get commands arg
        match h.function? commandsOrExecutor with
        | some executor => some (executor, commands, args)
        | none => getExecutor commandsOrExecutor args
      else none

/-- `Object.assign(executor, commandsOrExecutor)` throws if it comes to a
property that a bound function has read-only. -/
def canAssign (f : Nat) : Bool :=
  js "name" ∉ h.objectKeys f && js "length" ∉ h.objectKeys f

/-- `executor.canBeCalledWithHelp`, of the bound function: what has been
copied to it, or what the two functions inherit. -/
def canBeCalledWithHelp (f : Nat) : Bool :=
  match h.ownProp f (js "canBeCalledWithHelp") with
  | some p =>
      if p.enumerable then (p.read (.ref f)).truthy else inherited
  | none => inherited
where
  inherited : Bool :=
    match (h.object f).proto with
    | none => false
    | some p => (h.readChain p (js "canBeCalledWithHelp") (.ref f)).truthy

inductive RunResult where
  | nothing
  | noCommands
  | throws
  | invoked (f : Nat) (this : Value) (args : List JsString)
  deriving DecidableEq

/-- The call of a function. -/
def callExecutor (f : Nat) (this : Value) (args : List JsString) : RunResult :=
  if (h.object f).callable = some .classConstructor then .throws
  else .invoked f this args

/-- `CmdRunner.run`. -/
def run (cmdTree : Value) (args : List JsString) : RunResult :=
  match getExecutor h cmdTree args with
  | none => .nothing
  | some (executor, this, executorArgs) =>
      if canAssign h executor then
        if js "help" ∈ executorArgs then
          if canBeCalledWithHelp h executor then
            callExecutor h executor this executorArgs
          else .noCommands
        else callExecutor h executor this executorArgs
      else .throws

/-! ## The listings -/

/-- `help`. -/
def help (this : Nat) : List JsString :=
  (h.objectKeys this).filter (· ≠ js "help")

/-- `set.add(x)`. -/
def insertNew (xs : List JsString) (x : JsString) : List JsString :=
  if x ∈ xs then xs else xs ++ [x]

/-- The name is one that `CmdTreeBase.help` takes. -/
def isIncluded (this : Nat) (name : JsString) : Bool :=
  match h.function? (h.get (.ref this) name) with
  | none => false
  | some property =>
      name ≠ js "constructor" && name ≠ js "help" &&
        (h.get (.ref property) (js "includeMe")).truthy

/-- The object and its prototypes below `Object.prototype`. -/
def ownChain (this : Nat) : List Nat :=
  (h.chain this).takeWhile (· ≠ h.objectPrototype)

/-- `CmdTreeBase.help`. -/
def baseHelp (this : Nat) : List JsString :=
  (((ownChain h this).flatMap h.ownNames).filter (isIncluded h this)).foldl
    insertNew []

/-- What the `help` of a value lists. -/
def cmdlist (v : Value) : List JsString :=
  match v with
  | .ref this =>
      match h.function? (h.get v (js "help")) with
      | none => []
      | some f =>
          if f = h.helpFunction then help h this
          else if f = h.baseHelpFunction then baseHelp h this
          else []
  | _ => []

theorem mem_foldl_insertNew {names acc : List JsString} {name : JsString} :
    name ∈ names.foldl insertNew acc ↔ name ∈ acc ∨ name ∈ names := by
  induction names generalizing acc with
  | nil => simp
  | cons x names ih =>
      rw [List.foldl_cons, ih, List.mem_cons, ← or_assoc]
      refine or_congr_left ?_
      rw [insertNew]
      split
      · next hx =>
          refine ⟨.inl, fun hmem => ?_⟩
          rcases hmem with hacc | rfl
          · exact hacc
          · exact hx
      · rw [List.mem_append, List.mem_singleton]

theorem mem_help {this : Nat} {name : JsString} :
    name ∈ help h this ↔
      h.OwnEnumerable this name ∧ name ≠ js "help" := by
  rw [help, List.mem_filter, h.mem_objectKeys, decide_eq_true_eq]

theorem mem_baseHelp {this : Nat} {name : JsString} :
    name ∈ baseHelp h this ↔
      (∃ o ∈ ownChain h this, name ∈ h.ownNames o) ∧
        isIncluded h this name = true := by
  rw [baseHelp, mem_foldl_insertNew, List.mem_filter, List.mem_flatMap]
  simp only [List.not_mem_nil, false_or]

end IotHome.Cmd
