import IotHome.Lib.JsString

/-!
# Paths

What `path.join` and `path.resolve` make of absolute paths on a POSIX system.
A path is cut at its slashes, and its segments are walked from the root: a dot
stays, two dots go up as far as there is something above, and so the names
that are left are where the path leads to.
-/

namespace IotHome.Lib

namespace PosixPath

def segments (path : JsString) : List JsString := path.splitOn (unit '/')

/-- One segment further. -/
def walk (names : List JsString) (segment : JsString) : List JsString :=
  if segment = [] ∨ segment = js "." then names
  else if segment = js ".." then names.dropLast
  else names ++ [segment]

/-- The names an absolute path leads through in the end. -/
def resolved (path : JsString) : List JsString :=
  (segments path).foldl walk []

def absolute (names : List JsString) : JsString :=
  unit '/' :: [unit '/'].intercalate names

/-- `normalize`, of an absolute path. A slash at its end stays. -/
def normalize (path : JsString) : JsString :=
  if resolved path ≠ [] ∧ path.getLast? = some (unit '/') then
    absolute (resolved path) ++ [unit '/']
  else absolute (resolved path)

/-- `path.join(dir, name)`, where `dir` is absolute. -/
def join (dir name : JsString) : JsString :=
  normalize (if name = [] then dir else dir ++ unit '/' :: name)

/-- `path.resolve(name)`, in the directory `cwd`. -/
def resolve (cwd name : JsString) : JsString :=
  absolute (resolved (cwd ++ unit '/' :: name))

/-- The `base` of `path.parse(path)`. -/
def base (path : JsString) : JsString :=
  ((segments path).filter (· ≠ [])).getLast?.getD []

/-- The `ext` of `path.parse(path)`, from its base: what begins at the last
dot, unless the base begins there. -/
def ext (base : JsString) : JsString :=
  let tail := (base.reverse.takeWhile (· ≠ unit '.')).reverse
  if base = js ".." ∨ base.length ≤ tail.length + 1 then []
  else unit '.' :: tail

/-- The path is absolute and leads to something in the directory, or in a
directory in it. -/
def StrictlyBelow (dir path : JsString) : Prop :=
  path.head? = some (unit '/') ∧
    ∃ names, names ≠ [] ∧ resolved path = resolved dir ++ names

/-! ## Segments -/

/-- A name that a walk goes down to. -/
structure IsName (segment : JsString) : Prop where
  ne_nil : segment ≠ []
  ne_dot : segment ≠ js "."
  ne_dots : segment ≠ js ".."
  noSlash : unit '/' ∉ segment

theorem noSlash_segments {path segment : JsString}
    (h : segment ∈ segments path) : unit '/' ∉ segment := by
  rw [segments] at h
  induction path generalizing segment with
  | nil =>
      rw [List.splitOn_nil, List.mem_singleton] at h
      rw [h]
      exact List.not_mem_nil
  | cons u path ih =>
      rw [List.splitOn_cons_eq_if_modifyHead] at h
      split at h
      · rcases List.mem_cons.1 h with rfl | hmem
        · exact List.not_mem_nil
        · exact ih hmem
      · next hu =>
          cases hsplit : path.splitOn (unit '/') with
          | nil => exact absurd hsplit (List.splitOn_ne_nil _ _)
          | cons first rest =>
              rw [hsplit, List.modifyHead_cons] at h
              rcases List.mem_cons.1 h with rfl | hmem
              · rw [List.mem_cons, not_or]
                refine ⟨fun heq => hu (by rw [← heq]; exact beq_self_eq_true _),
                  ih ?_⟩
                rw [hsplit]
                exact List.mem_cons_self
              · refine ih ?_
                rw [hsplit]
                exact List.mem_cons_of_mem _ hmem

theorem head_normalize (path : JsString) :
    (normalize path).head? = some (unit '/') := by
  rw [normalize]
  split
  · rfl
  · rfl

theorem head_join (dir name : JsString) :
    (join dir name).head? = some (unit '/') := head_normalize _

end PosixPath

end IotHome.Lib
