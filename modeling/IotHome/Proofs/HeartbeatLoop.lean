import IotHome.Os.SysPulse
import Mathlib.Data.List.Induction

/-!
# How long the heartbeat goes on

The loop goes on from an iteration to the next unless making the pulse throws.
`loop_iff` says for all runs when it does not: the script has to end without
an error, and what it prints must not be `null`, and must not put an object
that hides its `toString` where the temperature is.
-/

namespace IotHome.Os

open IotHome.Lib
open IotHome.Server
open IotHome.Virtual

/-! ## What the script prints -/

/-- The object the sensors are looked up in: what is printed, or what is under
`obj` in it, or nothing. -/
def printedObj (stdout : JsString) : Json :=
  match Json.parse stdout with
  | none => .obj []
  | some parsed =>
      if isTruthy (getProp? (some parsed) "obj") then
        (getProp? (some parsed) "obj").getD .null
      else parsed

/-- `v?.name`, where `v` is not falsy. -/
def andProp? (v : JsValue) (name : String) : JsValue :=
  if isTruthy v then getProp? v name else v

/-- The reading of the sensor, as it is printed. -/
def printedTemp (stdout : JsString) : JsValue :=
  andProp? (andProp? (getProp? (some (printedObj stdout))
    "cpu_thermal-virtual-0") "temp1") "temp1_input"

/-- The script ends without an error, and the temperature can be read. -/
def ExecResult.Readable : ExecResult → Prop
  | .error => False
  | .output stdout _ =>
      (∀ v, Json.parse stdout = some v → isNull v = false) ∧
        ∀ v, printedTemp stdout = some v → ¬ HidesToString v

/-- Each of the iterations makes a pulse, and the loop goes on behind it. -/
def Continues (its : List Iteration) : Prop :=
  ∀ before it after, its = before ++ it :: after →
    ∃ pulse, getSysPulse it = .ok pulse ∧
      (PulseLoop.run (before ++ [it])).running = true ∧
      (PulseLoop.run (before ++ [it])).pulses =
        (PulseLoop.run before).pulses ++ [pulse]

/-! ## One iteration -/

theorem parseScriptResponse_obj (stdout stderr : JsString) :
    (parseScriptResponse stdout stderr).obj = printedObj stdout := by
  rw [parseScriptResponse, printedObj]
  cases Json.parse stdout with
  | none => rfl
  | some parsed =>
      simp only []
      split
      · rfl
      · rfl

theorem isNull_of_isTruthy {v : Json} (h : truthy v = true) :
    isNull v = false := by
  cases v with
  | null => cases h
  | _ => rfl

/-- What is not falsy has properties. -/
theorem andProp_eq (v : JsValue) (name : String) :
    andProp v name = .ok (andProp? v name) := by
  rw [andProp, andProp?]
  split
  · next h =>
      obtain ⟨w, hw, htruthy⟩ := (Option.any_eq_true _ _).1 h
      subst hw
      rw [getProp_eq, if_neg]
      simp [isNull_of_isTruthy htruthy]
  · rfl

/-- The object is `null` only if that is what is printed. -/
theorem isNull_printedObj (stdout : JsString) :
    isNull (printedObj stdout) = false ↔
      ∀ v, Json.parse stdout = some v → isNull v = false := by
  rw [printedObj]
  cases Json.parse stdout with
  | none => exact iff_of_true rfl nofun
  | some parsed =>
      simp only [Option.some.injEq, forall_eq']
      split
      · next h =>
          obtain ⟨v, hv, htruthy⟩ := (Option.any_eq_true _ _).1 h
          rw [hv, Option.getD_some]
          refine iff_of_true (isNull_of_isTruthy htruthy) ?_
          cases parsed with
          | null => cases hv
          | _ => rfl
      · rfl

theorem readCpuTemp_ok (stdout : JsString) :
    (∃ n, readCpuTemp (printedObj stdout) = .ok n) ↔
      (∀ v, Json.parse stdout = some v → isNull v = false) ∧
        ∀ v, printedTemp stdout = some v → ¬ HidesToString v := by
  rw [readCpuTemp, getProp_eq, ← isNull_printedObj]
  cases hnull : isNull (printedObj stdout) with
  | true => simp [hnull]
  | false =>
      simp only [Option.any_some, hnull, reduceCtorEq, or_self, if_false,
        Bool.false_eq_true, ok_bind, andProp_eq, true_and]
      exact jsNumber_ok _

/-- An iteration makes a pulse just if the script's output is readable. -/
theorem getSysPulse_ok (it : Iteration) :
    (∃ pulse, getSysPulse it = .ok pulse) ↔ it.exec.Readable := by
  have hpulse : (∃ pulse, getSysPulse it = .ok pulse) ↔
      ∃ n, getCpuTemp it.exec = .ok n := by
    rw [getSysPulse]
    split
    · next e he => simp [he]
    · next n hn => exact iff_of_true ⟨_, rfl⟩ ⟨n, hn⟩
  rw [hpulse]
  cases it.exec with
  | error => exact iff_of_false (by simp [getCpuTemp]) id
  | output stdout stderr =>
      rw [getCpuTemp, parseScriptResponse_obj, ExecResult.Readable,
        ← readCpuTemp_ok]
      cases readCpuTemp (printedObj stdout) with
      | error e => simp [Except.mapError]
      | ok n => exact iff_of_true ⟨n, rfl⟩ ⟨n, rfl⟩

/-! ## The loop -/

theorem run_concat (its : List Iteration) (it : Iteration) :
    PulseLoop.run (its ++ [it]) = (PulseLoop.run its).next it := by
  rw [PulseLoop.run, List.foldl_append]
  rfl

/-- While every iteration makes a pulse the loop runs. -/
theorem run_running {its : List Iteration}
    (h : ∀ it ∈ its, ∃ pulse, getSysPulse it = .ok pulse) :
    (PulseLoop.run its).running = true := by
  induction its using List.reverseRecOn with
  | nil => rfl
  | append_singleton its it ih =>
      rw [List.forall_mem_append, List.forall_mem_singleton] at h
      obtain ⟨pulse, hpulse⟩ := h.2
      rw [run_concat, PulseLoop.next, if_pos (ih h.1), hpulse]
      exact ih h.1

/-- Every iteration of a run makes its pulse and is followed by the next just
if in every one the script ends without an error and prints something the
temperature can be read off. -/
theorem loop_iff (its : List Iteration) :
    Continues its ↔ ∀ it ∈ its, it.exec.Readable := by
  constructor
  · intro h it hit
    obtain ⟨before, after, hsplit⟩ := List.append_of_mem hit
    obtain ⟨pulse, hpulse, _⟩ := h before it after hsplit
    exact (getSysPulse_ok it).1 ⟨pulse, hpulse⟩
  · rintro h before it after rfl
    rw [List.forall_mem_append, List.forall_mem_cons] at h
    obtain ⟨hbefore, hit, _⟩ := h
    obtain ⟨pulse, hpulse⟩ := (getSysPulse_ok it).2 hit
    have hrunning : (PulseLoop.run before).running = true :=
      run_running fun it hit => (getSysPulse_ok it).2 (hbefore it hit)
    refine ⟨pulse, hpulse, ?_⟩
    rw [run_concat, PulseLoop.next, if_pos hrunning, hpulse]
    exact ⟨hrunning, rfl⟩

/-- A script that fails ends the loop, and so does one that prints `null`. -/
theorem not_continues : ¬ Continues [⟨.error, [], 0⟩] ∧
    ¬ Continues [⟨.output (js "null") [], [], 0⟩] := by
  refine ⟨fun h => ?_, fun h => ?_⟩
  · obtain ⟨pulse, hpulse, _⟩ := h [] _ [] rfl
    cases hpulse
  · obtain ⟨pulse, hpulse, _⟩ := h [] _ [] rfl
    cases hpulse

end IotHome.Os
