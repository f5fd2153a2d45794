import IotHome.Os.ShellCmd

/-!
# A script that needs a password

What comes out of such a script is a prompt and then JSON, in pieces. Every
piece is looked at by itself, up to the first one that is JSON `null`, whose
property cannot be read: one that is JSON with `done` set ends the wait, any
other one with the word in it is answered (`runBashSudo_eq`). `delivers_iff`
says for which pieces this comes to one answer and the value of the whole
text.
-/

namespace IotHome.Os

open IotHome.Lib
open IotHome.Server

/-- The output of a script: a prompt and the JSON of an object with `done`
set. -/
structure SudoOutput where
  prompt : JsString
  json : JsString
  value : Json
  asks : asksPassword prompt = true
  parses : Json.parse json = some value
  done : ∃ v, getProp (some value) "done" = .ok v ∧ isTruthy v = true

/-- The pieces in which the terminal gives it. -/
structure Delivery (out : SudoOutput) where
  chunks : List JsString
  ne_nil : ∀ c ∈ chunks, c ≠ []
  whole : chunks.flatten = out.prompt ++ out.json

/-- The password is typed once, and the promise resolved with the value. -/
structure Delivers (s : SudoState) (sudoPassword : JsString) (value : Json) :
    Prop where
  once : s.written = [sudoPassword ++ [unit '\n']]
  value : ∃ d, s.resolved = some (some d) ∧ d.obj = value

/-! ## One piece -/

/-- The piece is JSON with `done` set. -/
def finishes (data : JsString) : Bool :=
  match readDone data with
  | .error _ => false
  | .ok done => isTruthy done

/-- The piece is answered. -/
def isAnswered (data : JsString) : Bool :=
  asksPassword data && !finishes data

/-- Reading `done` throws. -/
def throws (data : JsString) : Bool :=
  match readDone data with
  | .error _ => true
  | .ok _ => false

/-- The pieces in front of the first one at which the process ends. -/
def beforeThrow (chunks : List JsString) : List JsString :=
  chunks.takeWhile fun c => !throws c

/-- In front of a piece that throws there is one with the word in it that does
not finish, and the first that finishes has the value. -/
structure ArrivesWhole (value : Json) (chunks : List JsString) : Prop where
  once : (beforeThrow chunks).countP isAnswered = 1
  value : ∃ c d, (beforeThrow chunks).find? finishes = some c ∧
    parseData c = some d ∧ d.obj = value

theorem onData_throws (sudoPassword : JsString) {s : SudoState}
    (hs : s.crashed = false) {data : JsString} (h : throws data = true) :
    s.onData sudoPassword data = { s with crashed := true } := by
  rw [SudoState.onData, hs, if_neg (by decide)]
  rw [throws] at h
  cases hdone : readDone data with
  | error e => rfl
  | ok v => rw [hdone] at h; cases h

theorem onData_finishes (sudoPassword : JsString) {s : SudoState}
    (hs : s.crashed = false) {data : JsString} (h : finishes data = true) :
    s.onData sudoPassword data = s.resolve (parseData data) := by
  rw [SudoState.onData, hs, if_neg (by decide)]
  rw [finishes] at h
  cases hdone : readDone data with
  | error e => rw [hdone] at h; cases h
  | ok v =>
      rw [hdone] at h
      exact if_pos h

theorem onData_else (sudoPassword : JsString) {s : SudoState}
    (hs : s.crashed = false) {data : JsString} (ht : throws data = false)
    (hf : finishes data = false) :
    s.onData sudoPassword data =
      if asksPassword data then
        { s with written := s.written ++ [sudoPassword ++ [unit '\n']] }
      else s := by
  rw [SudoState.onData, hs, if_neg (by decide)]
  rw [throws] at ht
  rw [finishes] at hf
  cases hdone : readDone data with
  | error e => rw [hdone] at ht; cases ht
  | ok v =>
      rw [hdone] at hf
      exact if_neg (by rw [show isTruthy v = false from hf]; decide)

theorem foldl_crashed (sudoPassword : JsString) {s : SudoState}
    (h : s.crashed = true) (chunks : List JsString) :
    chunks.foldl (SudoState.onData sudoPassword) s = s := by
  induction chunks with
  | nil => rfl
  | cons c chunks ih =>
      rw [List.foldl_cons, SudoState.onData, if_pos h, ih]

/-! ## All pieces -/

/-- What the pieces come to. -/
theorem foldl_onData (sudoPassword : JsString) (chunks : List JsString)
    {s : SudoState} (hs : s.crashed = false) :
    chunks.foldl (SudoState.onData sudoPassword) s =
      ⟨s.written ++ List.replicate ((beforeThrow chunks).countP isAnswered)
          (sudoPassword ++ [unit '\n']),
        s.resolved.or (((beforeThrow chunks).find? finishes).map parseData),
        chunks.any throws⟩ := by
  induction chunks generalizing s with
  | nil =>
      obtain ⟨written, resolved, crashed⟩ := s
      obtain rfl : crashed = false := hs
      simp [beforeThrow]
  | cons c chunks ih =>
      rw [List.foldl_cons]
      cases ht : throws c with
      | true =>
          rw [onData_throws sudoPassword hs ht,
            foldl_crashed sudoPassword (by rfl)]
          simp [beforeThrow, ht]
      | false =>
          have hbefore : beforeThrow (c :: chunks) = c :: beforeThrow chunks :=
            List.takeWhile_cons_of_pos (by rw [ht]; rfl)
          rw [hbefore]
          cases hf : finishes c with
          | true =>
              rw [onData_finishes sudoPassword hs hf, ih (by exact hs)]
              have hanswered : isAnswered c = false := by
                rw [isAnswered, hf, Bool.not_true, Bool.and_false]
              cases hr : s.resolved with
              | none =>
                  simp [SudoState.resolve, hr, hf, ht, hanswered]
              | some r =>
                  simp [SudoState.resolve, hr, hf, ht, hanswered]
          | false =>
              rw [onData_else sudoPassword hs ht hf]
              cases ha : asksPassword c with
              | true =>
                  have hanswered : isAnswered c = true := by
                    rw [isAnswered, ha, hf]
                    rfl
                  rw [if_pos rfl, ih (by exact hs)]
                  simp [hf, ht, hanswered, List.replicate_succ]
              | false =>
                  have hanswered : isAnswered c = false := by
                    rw [isAnswered, ha, Bool.false_and]
                  rw [if_neg (by decide), ih hs]
                  simp [hf, ht, hanswered]

/-- The password is typed for each piece that is answered, and the first one
that finishes counts. -/
theorem runBashSudo_eq (sudoPassword : JsString) (chunks : List JsString) :
    (runBashSudo sudoPassword chunks).written =
        List.replicate ((beforeThrow chunks).countP isAnswered)
          (sudoPassword ++ [unit '\n']) ∧
      (runBashSudo sudoPassword chunks).resolved =
        (((beforeThrow chunks).find? finishes).map parseData).or
          (if chunks.any throws then none else some none) := by
  rw [runBashSudo, foldl_onData sudoPassword chunks rfl, SudoState.onExit]
  cases chunks.any throws with
  | true => simp [SudoState.start]
  | false =>
      cases ((beforeThrow chunks).find? finishes).map parseData with
      | none => exact ⟨rfl, rfl⟩
      | some d => exact ⟨rfl, rfl⟩

/-- However an output comes, the password is typed once and the promise
resolved with the value of its JSON, exactly when the pieces are like
this. -/
theorem delivers_iff {out : SudoOutput} (delivery : Delivery out)
    (sudoPassword : JsString) :
    Delivers (runBashSudo sudoPassword delivery.chunks) sudoPassword
        out.value ↔
      ArrivesWhole out.value delivery.chunks := by
  obtain ⟨hwritten, hresolved⟩ := runBashSudo_eq sudoPassword delivery.chunks
  have honce : (runBashSudo sudoPassword delivery.chunks).written =
      [sudoPassword ++ [unit '\n']] ↔
      (beforeThrow delivery.chunks).countP isAnswered = 1 := by
    rw [hwritten]
    refine ⟨fun h => ?_, fun h => by rw [h]; rfl⟩
    simpa using congrArg List.length h
  have hvalue : (∃ d, (runBashSudo sudoPassword delivery.chunks).resolved =
      some (some d) ∧ d.obj = out.value) ↔
      ∃ c d, (beforeThrow delivery.chunks).find? finishes = some c ∧
        parseData c = some d ∧ d.obj = out.value := by
    rw [hresolved]
    cases hfind : (beforeThrow delivery.chunks).find? finishes with
    | none => split <;> simp
    | some c => simp
  exact ⟨fun h => ⟨honce.1 h.once, hvalue.1 h.value⟩,
    fun h => ⟨honce.2 h.once, hvalue.2 h.value⟩⟩

/-- A prompt, and JSON that comes in two pieces: neither is JSON, and the
promise is resolved with `undefined` when the script exits. -/
theorem not_delivers_cut :
    ∃ (out : SudoOutput) (delivery : Delivery out) (sudoPassword : JsString),
      (runBashSudo sudoPassword delivery.chunks).resolved = some none ∧
      ¬ Delivers (runBashSudo sudoPassword delivery.chunks) sudoPassword
        out.value := by
  let out : SudoOutput :=
    ⟨js "[sudo] password for pi: ", js "\x7b\"done\": true\x7d",
      .obj [(js "done", .bool true)], by decide +kernel, by rfl,
      ⟨_, rfl, rfl⟩⟩
  let chunks := [js "[sudo] password for pi: ", js "\x7b\"done\"",
    js ": true\x7d"]
  have hfind : (beforeThrow chunks).find? finishes = none := by
    decide +kernel
  have hthrows : chunks.any throws = false := by decide +kernel
  have hresolved := (runBashSudo_eq (js "raspberry") chunks).2
  rw [hfind, hthrows] at hresolved
  refine ⟨out, ⟨chunks, by decide +kernel, by decide +kernel⟩,
    js "raspberry", hresolved, fun h => ?_⟩
  obtain ⟨d, hd, _⟩ := h.value
  rw [hresolved] at hd
  cases hd

end IotHome.Os
