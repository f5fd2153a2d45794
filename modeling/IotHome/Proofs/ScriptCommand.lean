import IotHome.Lib.Stringify
import IotHome.Os.Scripts

/-!
# What a message can make the shell run

The path of a script is read by the shell, with all that has a meaning there,
and the dots in it are resolved before it is. `confined_iff` says for which
names the shell still runs one script of the directory.
-/

namespace IotHome.Os

open IotHome.Lib
open IotHome.Server

/-- The command is `node` and one word, and this is a path strictly below the
directory of the scripts. -/
def RunsScript (cwd command : JsString) : Prop :=
  ∃ path, Shell.words command = some [js "node", path] ∧
    PosixPath.StrictlyBelow (scriptsDir cwd) path

/-- Whatever command a message leads to runs a script. -/
def Confined (cwd data : JsString) : Prop :=
  ∀ command, wsMsgHandler cwd data = some command → RunsScript cwd command

/-- The text is one word of the shell, in quotes or not, and it leads strictly
below the directory. -/
def LeadsBelow (dir text : JsString) : Prop :=
  ∃ path, Shell.Literal text path ∧ PosixPath.StrictlyBelow dir path

/-! ## The command -/

theorem isOrdinary_slash : Shell.isOrdinary (unit '/') = true := by decide

def nodeWord : Shell.Marked := (js "node").map fun u => (u, true)

/-- Behind `node` and a blank, a path begins a word. -/
theorem run_node (path : JsString) :
    Shell.Lexer.run ⟨[], none, .plain, false⟩
        (js "node " ++ unit '/' :: path) =
      Shell.Lexer.run ⟨[nodeWord], some [(unit '/', true)], .plain, false⟩
        path := rfl

/-- A path is the one word behind `node` just if it has the form of a word. -/
theorem run_command_iff {text : JsString} {m : Shell.Marked}
    (htext : text.head? = some (unit '/')) :
    Shell.Lexer.run ⟨[], none, .plain, false⟩ (js "node " ++ text) =
      some [nodeWord, m] ↔ Shell.Word text m := by
  cases text with
  | nil => cases htext
  | cons u t =>
      obtain rfl := Option.some.inj htext
      rw [run_node]
      have hrun := @Shell.run_eq_some_iff [nodeWord] [(unit '/', true)] t m
      rw [List.singleton_append] at hrun
      rw [hrun]
      constructor
      · rintro ⟨v, rfl, hv⟩
        exact .ordinary isOrdinary_slash hv
      · intro h
        generalize hcons : unit '/' :: t = text at h
        cases h with
        | nil => cases hcons
        | tail hu h =>
            obtain ⟨rfl, _⟩ := List.cons.inj hcons
            cases hu
        | ordinary hu h =>
            obtain ⟨rfl, rfl⟩ := List.cons.inj hcons
            exact ⟨_, rfl, h⟩
        | line h => exact absurd (List.cons.inj hcons).1 (by decide)
        | dollar ht h => exact absurd (List.cons.inj hcons).1 (by decide)
        | escaped hu h => exact absurd (List.cons.inj hcons).1 (by decide)
        | continued h => exact absurd (List.cons.inj hcons).1 (by decide)
        | backslash => exact absurd (List.cons.inj hcons).1 (by decide)
        | single hq h => exact absurd (List.cons.inj hcons).1 (by decide)
        | double hq h => exact absurd (List.cons.inj hcons).1 (by decide)

theorem words_command_iff {text path : JsString}
    (htext : text.head? = some (unit '/')) :
    Shell.words (js "node " ++ text) = some [js "node", path] ↔
      Shell.Literal text path := by
  have hnode : Shell.isPattern nodeWord = false := by decide
  constructor
  · intro h
    obtain ⟨ws, hrun, h⟩ := Option.bind_eq_some_iff.1 h
    split at h
    · cases h
    · next hpattern =>
        -- The first word is `node` as it was read, and there is one more.
        have hunits := Option.some.inj h
        cases text with
        | nil => cases htext
        | cons u t =>
            obtain rfl := Option.some.inj htext
            have hrun' := hrun
            rw [run_node] at hrun'
            obtain ⟨rest, rfl⟩ := (Shell.grows_run hrun').1
            have hlen := congrArg List.length hunits
            simp only [List.singleton_append, List.map_cons,
              List.length_cons, List.length_map, List.length_nil] at hlen
            obtain ⟨m, rfl⟩ := List.length_eq_one_iff.1
              (show rest.length = 1 by omega)
            refine ⟨m, (run_command_iff rfl).1 hrun, ?_, ?_⟩
            · simpa [hnode] using hpattern
            · exact (List.cons.inj (List.cons.inj hunits).2).1
  · rintro ⟨m, hword, hpattern, rfl⟩
    refine Option.bind_eq_some_iff.2
      ⟨_, (run_command_iff htext).2 hword, ?_⟩
    rw [if_neg (by simp [hnode, hpattern])]
    rfl

theorem runsScript_iff (cwd name : JsString) :
    RunsScript cwd (js "node " ++ PosixPath.join (scriptsDir cwd) name) ↔
      LeadsBelow (scriptsDir cwd) (PosixPath.join (scriptsDir cwd) name) := by
  refine exists_congr fun path => and_congr_left fun _ => ?_
  exact words_command_iff (PosixPath.head_join _ name)

/-- The commands of a message run a script just if its name has a zero in it,
so that there is no command, or is joined to a path that the shell reads as
one word, which leads strictly below the directory. -/
theorem confined_iff (cwd data : JsString) :
    Confined cwd data ↔ ∀ name, scriptFilename data = some name →
      0 ∈ PosixPath.join (scriptsDir cwd) name ∨
        LeadsBelow (scriptsDir cwd)
          (PosixPath.join (scriptsDir cwd) name) := by
  rw [Confined, wsMsgHandler]
  cases scriptFilename data with
  | none => simp
  | some name =>
      have hzero : (0 : UInt16) ∉ js "node " := by decide
      simp only [Option.bind_some, Option.some.injEq, forall_eq']
      rw [runScript, ← runsScript_iff]
      simp only [List.mem_append, hzero, false_or]
      by_cases hmem : 0 ∈ PosixPath.join (scriptsDir cwd) name
      · simp [hmem]
      · simp [hmem]

/-- A message that asks for a script. -/
def runScriptMsg (name : String) : JsString :=
  Json.stringify (.obj [(js "type", .str (js "RUN_SCRIPT")),
    (js "scriptFilename", .str (js name))])

/-- A name can lead out of the directory, bring another word, or another
command. -/
theorem not_confined :
    ¬ Confined (js "/srv") (runScriptMsg "../../../x") ∧
      ¬ Confined (js "/srv") (runScriptMsg "a b") ∧
      ¬ Confined (js "/srv") (runScriptMsg "a;b") := by
  refine ⟨fun h => ?_, fun h => ?_, fun h => ?_⟩
  · obtain ⟨path, hwords, _, names, _, hnames⟩ :=
      h (js "node /x") (by decide +kernel)
    have hread : Shell.words (js "node /x") =
        some [js "node", js "/x"] := by decide +kernel
    rw [hread] at hwords
    obtain rfl : js "/x" = path := by simpa using hwords
    have hpath : PosixPath.resolved (js "/x") = [js "x"] := by
      decide +kernel
    have hdir : PosixPath.resolved (scriptsDir (js "/srv")) =
        [js "srv", js "os", js "scripts"] := by decide +kernel
    rw [hpath, hdir] at hnames
    exact absurd (List.cons.inj hnames).1 (by decide)
  · obtain ⟨path, hwords, _⟩ :=
      h (js "node /srv/os/scripts/a b") (by decide +kernel)
    have hread : Shell.words (js "node /srv/os/scripts/a b") =
        some [js "node", js "/srv/os/scripts/a", js "b"] := by decide +kernel
    rw [hread] at hwords
    simp at hwords
  · obtain ⟨path, hwords, _⟩ :=
      h (js "node /srv/os/scripts/a;b") (by decide +kernel)
    have hread : Shell.words (js "node /srv/os/scripts/a;b") = none := by
      decide +kernel
    rw [hread] at hwords
    cases hwords

end IotHome.Os
