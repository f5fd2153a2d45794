import IotHome.Lib.PosixPath

/-!
# Paths that need not be absolute

What `path.join` makes of any path on a POSIX system. From the root two dots
cannot go up; a relative path keeps those at its front that it cannot take
back. The text that a path is brought to says its names again
(`names_render`), so one name joined to a directory leads to just below it if
it is neither empty nor dots, and otherwise not (`directlyBelow_iff`).
-/

namespace IotHome.Lib

namespace NodePath

open PosixPath (segments IsName noSlash_segments)

def isAbsolute (path : JsString) : Bool := path.head? = some (unit '/')

/-- One segment further. -/
def walk (absolute : Bool) (names : List JsString) (segment : JsString) :
    List JsString :=
  if segment = [] ∨ segment = js "." then names
  else if segment = js ".." then
    if names = [] ∨ names.getLast? = some (js "..") then
      if absolute then names else names ++ [segment]
    else names.dropLast
  else names ++ [segment]

/-- The names that a path leads through in the end. -/
def names (path : JsString) : List JsString :=
  (segments path).foldl (walk (isAbsolute path)) []

def render (absolute : Bool) (names : List JsString) : JsString :=
  if absolute then unit '/' :: [unit '/'].intercalate names
  else if names = [] then js "."
  else [unit '/'].intercalate names

/-- `normalize`. A slash at the end stays. -/
def normalize (path : JsString) : JsString :=
  let text := render (isAbsolute path) (names path)
  if path.getLast? = some (unit '/') ∧ text ≠ js "/" then text ++ [unit '/']
  else text

/-- `path.join(dir, name)`. What is empty is left out. -/
def join (dir name : JsString) : JsString :=
  normalize
    (if name = [] then dir
    else if dir = [] then name
    else dir ++ unit '/' :: name)

/-- `path.basename(path)`, and the `base` of `path.parse(path)`. -/
def basename (path : JsString) : JsString := PosixPath.base path

/-- The path is the directory and one name. -/
def DirectlyBelow (dir path : JsString) : Prop :=
  ∃ name, IsName name ∧ path = render (isAbsolute dir) (names dir ++ [name])

/-! ## Names in their order -/

/-- The ways up, if any, and then the ways down. -/
structure Normal (absolute : Bool) (names : List JsString) : Prop where
  split : ∃ up down, names = List.replicate up (js "..") ++ down ∧
    (∀ name ∈ down, IsName name) ∧ (absolute = true → up = 0)

theorem walk_name {absolute : Bool} {names : List JsString} {name : JsString}
    (h : IsName name) : walk absolute names name = names ++ [name] := by
  rw [walk, if_neg (not_or.2 ⟨h.ne_nil, h.ne_dot⟩), if_neg h.ne_dots]

theorem getLast_up (up : Nat) :
    List.replicate up (js "..") = [] ∨
      (List.replicate up (js "..")).getLast? = some (js "..") := by
  cases up with
  | zero => exact .inl rfl
  | succ up => exact .inr (by rw [List.replicate_succ', List.getLast?_concat])

theorem normal_walk {absolute : Bool} {names : List JsString}
    {segment : JsString} (h : Normal absolute names)
    (hsegment : unit '/' ∉ segment) :
    Normal absolute (walk absolute names segment) := by
  obtain ⟨up, down, rfl, hdown, hup⟩ := h.split
  rw [walk]
  split_ifs with hstay hdots hend habsolute
  · exact h
  · exact h
  · rcases List.eq_nil_or_concat down with rfl | ⟨front, last, rfl⟩
    · refine ⟨up + 1, [], ?_, by simp, fun h' => absurd h' habsolute⟩
      rw [hdots, List.append_nil, List.append_nil, List.replicate_succ']
    · rw [List.concat_eq_append] at hend hdown
      rcases hend with hend | hend
      · simp at hend
      · rw [← List.append_assoc, List.getLast?_append_cons] at hend
        simp at hend
        exact absurd hend (hdown last (by simp)).ne_dots
  · rcases List.eq_nil_or_concat down with rfl | ⟨front, last, rfl⟩
    · rw [List.append_nil] at hend
      exact absurd (getLast_up up) hend
    · rw [List.concat_eq_append] at hdown ⊢
      refine ⟨up, front, ?_, fun name hname => hdown name (by simp [hname]),
        hup⟩
      rw [← List.append_assoc, List.dropLast_concat]
  · rw [not_or] at hstay
    refine ⟨up, down ++ [segment], by rw [List.append_assoc], ?_, hup⟩
    rw [List.forall_mem_append, List.forall_mem_singleton]
    exact ⟨hdown, ⟨hstay.1, hstay.2, hdots, hsegment⟩⟩

theorem normal_foldl {absolute : Bool} (ss : List JsString) :
    ∀ names, Normal absolute names → (∀ s ∈ ss, unit '/' ∉ s) →
      Normal absolute (ss.foldl (walk absolute) names) := by
  induction ss with
  | nil => exact fun names hnames _ => hnames
  | cons s ss ih =>
      intro names hnames hss
      rw [List.forall_mem_cons] at hss
      exact ih _ (normal_walk hnames hss.1) hss.2

theorem normal_nil (absolute : Bool) : Normal absolute [] :=
  ⟨0, [], rfl, by simp, fun _ => rfl⟩

theorem normal_names (path : JsString) :
    Normal (isAbsolute path) (names path) :=
  normal_foldl _ [] (normal_nil _) fun _ hs => noSlash_segments hs

theorem foldl_walk_up (up : Nat) :
    (List.replicate up (js "..")).foldl (walk false) [] =
      List.replicate up (js "..") := by
  induction up with
  | zero => rfl
  | succ up ih =>
      rw [List.replicate_succ', List.foldl_append, ih, List.foldl_cons,
        List.foldl_nil, walk, if_neg (by decide), if_pos rfl,
        if_pos (getLast_up up), if_neg (by decide)]

theorem foldl_walk_names {absolute : Bool} {down : List JsString}
    (h : ∀ name ∈ down, IsName name) (base : List JsString) :
    down.foldl (walk absolute) base = base ++ down := by
  induction down generalizing base with
  | nil => rw [List.foldl_nil, List.append_nil]
  | cons name down ih =>
      rw [List.forall_mem_cons] at h
      rw [List.foldl_cons, walk_name h.1, ih h.2, List.append_assoc]
      rfl

theorem foldl_walk_normal {absolute : Bool} {names : List JsString}
    (h : Normal absolute names) : names.foldl (walk absolute) [] = names := by
  obtain ⟨up, down, rfl, hdown, hup⟩ := h.split
  rw [List.foldl_append]
  cases absolute with
  | true =>
      rw [hup rfl]
      exact foldl_walk_names hdown []
  | false => rw [foldl_walk_up, foldl_walk_names hdown]

theorem Normal.noSlash {absolute : Bool} {names : List JsString}
    (h : Normal absolute names) : ∀ name ∈ names,
      name ≠ [] ∧ unit '/' ∉ name := by
  obtain ⟨up, down, rfl, hdown, _⟩ := h.split
  intro name hname
  rcases List.mem_append.1 hname with hname | hname
  · rw [List.eq_of_mem_replicate hname]
    decide
  · exact ⟨(hdown name hname).ne_nil, (hdown name hname).noSlash⟩

/-! ## The text of the names -/

theorem segments_intercalate {names : List JsString} (hne : names ≠ [])
    (h : ∀ name ∈ names, unit '/' ∉ name) :
    segments ([unit '/'].intercalate names) = names :=
  List.splitOn_intercalate _ h hne

theorem intercalate_head {names : List JsString}
    (h : ∀ name ∈ names, name ≠ [] ∧ unit '/' ∉ name) :
    ([unit '/'].intercalate names).head? ≠ some (unit '/') := by
  cases names with
  | nil => simp
  | cons name names =>
      obtain ⟨hne, hslash⟩ := h name List.mem_cons_self
      obtain ⟨u, rest, rfl⟩ := List.exists_cons_of_ne_nil hne
      have hhead : ([unit '/'].intercalate ((u :: rest) :: names)).head? =
          some u := by
        cases names with
        | nil => rfl
        | cons name' names => rfl
      rw [hhead]
      intro hu
      exact hslash (by rw [Option.some.inj hu]; exact List.mem_cons_self)

theorem isAbsolute_render {absolute : Bool} {names : List JsString}
    (h : Normal absolute names) :
    isAbsolute (render absolute names) = absolute := by
  rw [render]
  cases absolute with
  | true => rfl
  | false =>
      simp only [Bool.false_eq_true, if_false]
      split
      · rfl
      · exact decide_eq_false (intercalate_head h.noSlash)

theorem segments_root (path : JsString) :
    segments (unit '/' :: path) = [] :: segments path :=
  List.splitOn_append_cons_self [] path

/-- The text says its names. -/
theorem names_render {absolute : Bool} {names' : List JsString}
    (h : Normal absolute names') : names (render absolute names') = names' := by
  rw [names, isAbsolute_render h, render]
  by_cases hne : names' = []
  · rw [hne]
    cases absolute with
    | true => rfl
    | false => rfl
  · have hsegments := segments_intercalate hne fun name hname =>
      (h.noSlash name hname).2
    cases absolute with
    | true =>
        rw [if_pos rfl, segments_root, hsegments, List.foldl_cons]
        exact foldl_walk_normal h
    | false =>
        rw [if_neg (by decide), if_neg hne, hsegments]
        exact foldl_walk_normal h

/-! ## A name joined to a directory -/

theorem names_slash (path : JsString) (hne : path ≠ []) :
    names (path ++ [unit '/']) = names path := by
  have habsolute : isAbsolute (path ++ [unit '/']) = isAbsolute path := by
    obtain ⟨u, rest, rfl⟩ := List.exists_cons_of_ne_nil hne
    rfl
  rw [names, habsolute, segments, List.splitOn_append_cons_self,
    List.foldl_append]
  rfl

theorem render_ne_nil {absolute : Bool} {names' : List JsString}
    (h : Normal absolute names') : render absolute names' ≠ [] := by
  intro hnil
  have hnames := names_render h
  rw [hnil] at hnames
  rw [← hnames] at hnil
  cases absolute with
  | true => cases hnil
  | false => cases hnil

theorem names_normalize (path : JsString) :
    names (normalize path) = names path := by
  have hnormal := normal_names path
  rw [normalize]
  split
  · rw [names_slash _ (render_ne_nil hnormal), names_render hnormal]
  · exact names_render hnormal

/-- What `join` normalizes. -/
def joined (dir name : JsString) : JsString :=
  if name = [] then dir
  else if dir = [] then name
  else dir ++ unit '/' :: name

theorem isAbsolute_joined {dir name : JsString} (hname : unit '/' ∉ name) :
    isAbsolute (joined dir name) = isAbsolute dir := by
  rw [joined]
  split
  · rfl
  · next hne =>
      split
      · next hdir =>
          obtain ⟨u, rest, rfl⟩ := List.exists_cons_of_ne_nil hne
          rw [hdir]
          refine decide_eq_false fun hu => hname ?_
          rw [Option.some.inj hu]
          exact List.mem_cons_self
      · next hdir =>
          obtain ⟨u, rest, rfl⟩ := List.exists_cons_of_ne_nil hdir
          rfl

theorem segments_noSlash {name : JsString} (hname : unit '/' ∉ name) :
    segments name = [name] := by
  have hsegments := segments_intercalate (List.cons_ne_nil name [])
    (List.forall_mem_singleton.2 hname)
  rwa [List.intercalate_singleton] at hsegments

/-- One name, of whatever kind, joined to a directory. -/
theorem names_joined {dir name : JsString} (hname : unit '/' ∉ name) :
    names (joined dir name) = walk (isAbsolute dir) (names dir) name := by
  rw [names, isAbsolute_joined hname, joined]
  split
  · next hnil =>
      rw [hnil, walk, if_pos (.inl rfl)]
      rfl
  · split
    · next hdir =>
        rw [segments_noSlash hname, hdir]
        rfl
    · rw [segments, List.splitOn_append_cons_self, List.foldl_append]
      exact congrArg (List.foldl _ _) (segments_noSlash hname)

theorem names_join {dir name : JsString} (hname : unit '/' ∉ name) :
    names (join dir name) = walk (isAbsolute dir) (names dir) name :=
  (names_normalize _).trans (names_joined hname)

theorem join_name {dir name : JsString} (h : IsName name) :
    join dir name = render (isAbsolute dir) (names dir ++ [name]) := by
  have hlast : (joined dir name).getLast? ≠ some (unit '/') := by
    have hend : (joined dir name).getLast? = name.getLast? := by
      rw [joined, if_neg h.ne_nil]
      split
      · rfl
      · obtain ⟨u, rest, rfl⟩ := List.exists_cons_of_ne_nil h.ne_nil
        rw [List.getLast?_append_cons, List.getLast?_cons_cons]
    rw [hend]
    exact fun hu => h.noSlash (List.mem_of_getLast? hu)
  have hnormalize : normalize (joined dir name) =
      render (isAbsolute (joined dir name)) (names (joined dir name)) :=
    if_neg fun hslash => hlast hslash.1
  rw [← walk_name h, ← names_joined h.noSlash, ← isAbsolute_joined h.noSlash]
  exact hnormalize

theorem directlyBelow_iff {dir name : JsString} (hname : unit '/' ∉ name) :
    DirectlyBelow dir (join dir name) ↔
      name ≠ [] ∧ name ≠ js "." ∧ name ≠ js ".." := by
  constructor
  · rintro ⟨name', hname', heq⟩
    have hnormal : Normal (isAbsolute dir) (names dir ++ [name']) := by
      rw [← walk_name hname']
      exact normal_walk (normal_names dir) hname'.noSlash
    have hnames : walk (isAbsolute dir) (names dir) name =
        names dir ++ [name'] := by
      rw [← names_join hname, heq, names_render hnormal]
    refine ⟨?_, ?_, ?_⟩
    · intro hnil
      rw [walk, if_pos (.inl hnil)] at hnames
      simp at hnames
    · intro hdot
      rw [walk, if_pos (.inr hdot)] at hnames
      simp at hnames
    · intro hdots
      rw [walk, if_neg (by rw [hdots]; decide), if_pos hdots] at hnames
      split_ifs at hnames
      · simp at hnames
      · have hlast := List.append_cancel_left hnames
        exact hname'.ne_dots (by rw [← (List.cons.inj hlast).1, hdots])
      · have hlength := congrArg List.length hnames
        rw [List.length_dropLast, List.length_append,
          List.length_singleton] at hlength
        omega
  · rintro ⟨hne, hdot, hdots⟩
    exact ⟨name, ⟨hne, hdot, hdots, hname⟩,
      join_name ⟨hne, hdot, hdots, hname⟩⟩

end NodePath

end IotHome.Lib
