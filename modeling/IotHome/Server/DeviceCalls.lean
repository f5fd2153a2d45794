import IotHome.Lib.Runs
import IotHome.Server.Device

/-!
# Calls on one device that overlap

Every pulse asks the device for its pins, twice, and every control message
sets some. Each of these calls puts its query together, sends it and waits;
nothing makes one wait for another. The device takes the requests that reach
it one at a time. What it does with one is a parameter, `serve`; its answers
are numbered in the order in which it gives them, and they reach the server
in any order, or never.

`held` is not in the source: it is the number of the answer that
`devPinStates` was last set from.
-/

namespace IotHome.Server

open IotHome.Lib

/-- How far a call of `setState` or `queryState` is. One that the server has
given up can still reach the device. -/
inductive Call where
  | idle
  | sent (query : List Char)
  | givenUp (query : List Char)
  | answered (step : Nat) (body : JsString)
  | done

structure DeviceSystem (δ : Type) where
  device : Device
  real : δ
  answers : List JsString
  calls : Nat → Call
  held : Option Nat

inductive CallEvent where
  | setState (call : Nat) (inStates : JsValue)
  | queryState (call : Nat) (isOnline : Bool)
  | serve (call : Nat)
  | arrive (call : Nat)
  | fail (call : Nat)

section

variable {δ : Type} (serve : List Char → δ → δ × JsString)

/-- A device that was asked for nothing yet. -/
def DeviceSystem.start (device : Device) (real : δ) : DeviceSystem δ :=
  ⟨device, real, [], fun _ => .idle, none⟩

def DeviceSystem.setCall (s : DeviceSystem δ) (call : Nat) (phase : Call) :
    DeviceSystem δ :=
  { s with calls := fun c => if c = call then phase else s.calls c }

/-- A query that cannot be put together rejects the call. -/
def Call.started (query : Except JsError (List Char)) : Call :=
  match query with
  | .ok query => .sent query
  | .error _ => .done

/-- The device takes a request. -/
def DeviceSystem.served (s : DeviceSystem δ) (query : List Char) :
    DeviceSystem δ :=
  { s with
    real := (serve query s.real).1
    answers := s.answers ++ [(serve query s.real).2] }

/-- An answer is read, and recorded if there is something to record. -/
def DeviceSystem.arrived (s : DeviceSystem δ) (step : Nat) (body : JsString) :
    DeviceSystem δ :=
  match s.device.recordAnswer (.response body) with
  | .ok (device, some _) => { s with device := device, held := some step }
  | .ok (device, none) => { s with device := device }
  | .error _ => s

/-- What can happen next. An event a call is not ready for cannot. -/
def callStep (s : DeviceSystem δ) : CallEvent → Option (DeviceSystem δ)
  | .setState call inStates =>
      match s.calls call with
      | .idle => some (s.setCall call (.started (setStateQuery inStates)))
      | _ => none
  | .queryState call isOnline =>
      match s.calls call with
      | .idle =>
          if isOnline then
            some (s.setCall call (.started s.device.queryStateQuery))
          else some (s.setCall call .done)
      | _ => none
  | .serve call =>
      match s.calls call with
      | .sent query =>
          some ((s.served serve query).setCall call
            (.answered s.answers.length (serve query s.real).2))
      | .givenUp query => some ((s.served serve query).setCall call .done)
      | _ => none
  | .arrive call =>
      match s.calls call with
      | .answered step body => some ((s.arrived step body).setCall call .done)
      | _ => none
  | .fail call =>
      match s.calls call with
      | .sent query => some (s.setCall call (.givenUp query))
      | .answered _ _ => some (s.setCall call .done)
      | _ => none

/-- One event after the other. -/
abbrev CallRun : DeviceSystem δ → List CallEvent → DeviceSystem δ → Prop :=
  Run fun s e s' => callStep serve s e = some s'

end

/-! ## What one event changes -/

variable {δ : Type} {serve : List Char → δ → δ × JsString}

/-- A call changes its phase; or the device takes a request, and the call
may wait for the answer; or an answer arrives. -/
theorem callStep_cases {s s' : DeviceSystem δ} {e : CallEvent}
    (h : callStep serve s e = some s') :
    (∃ call phase, (∀ c, e ≠ .arrive c) ∧
      (∀ step body, phase ≠ .answered step body) ∧
      s' = s.setCall call phase) ∨
    (∃ call query phase, (∀ c, e ≠ .arrive c) ∧
      (phase = .done ∨
        phase = .answered s.answers.length (serve query s.real).2) ∧
      s' = (s.served serve query).setCall call phase) ∨
    (∃ call step body, e = .arrive call ∧
      s.calls call = .answered step body ∧
      s' = (s.arrived step body).setCall call .done) := by
  have hstarted : ∀ query step body,
      Call.started query ≠ .answered step body := by
    intro query step body hphase
    cases query with
    | error e => cases hphase
    | ok query => cases hphase
  cases e with
  | setState call inStates =>
      rw [callStep] at h
      split at h
      · exact .inl ⟨call, _, nofun, hstarted _, (Option.some.inj h).symm⟩
      · cases h
  | queryState call isOnline =>
      rw [callStep] at h
      split at h
      · split at h
        · exact .inl ⟨call, _, nofun, hstarted _, (Option.some.inj h).symm⟩
        · exact .inl ⟨call, .done, nofun, nofun, (Option.some.inj h).symm⟩
      · cases h
  | serve call =>
      rw [callStep] at h
      split at h
      · next query _ =>
          exact .inr (.inl ⟨call, query, _, nofun, .inr rfl,
            (Option.some.inj h).symm⟩)
      · next query _ =>
          exact .inr (.inl ⟨call, query, _, nofun, .inl rfl,
            (Option.some.inj h).symm⟩)
      · cases h
  | arrive call =>
      rw [callStep] at h
      split at h
      · next step body hcall =>
          exact .inr (.inr ⟨call, step, body, rfl, hcall,
            (Option.some.inj h).symm⟩)
      · cases h
  | fail call =>
      rw [callStep] at h
      split at h
      · next query _ =>
          exact .inl ⟨call, .givenUp query, nofun, nofun,
            (Option.some.inj h).symm⟩
      · exact .inl ⟨call, .done, nofun, nofun, (Option.some.inj h).symm⟩
      · cases h

theorem arrived_eq (s : DeviceSystem δ) (step : Nat) (body : JsString) :
    s.arrived step body =
      match recordStates (Json.parse body) with
      | .ok (some states) =>
          { s with
            device := { s.device with devPinStates := some states }
            held := some step }
      | _ => s := by
  rw [DeviceSystem.arrived, Device.recordAnswer, HttpOutcome.parsed, ok_bind]
  cases recordStates (Json.parse body) with
  | error e => rfl
  | ok states =>
      cases states with
      | none => rfl
      | some states => rfl

@[simp] theorem setCall_held (s : DeviceSystem δ) (call : Nat) (phase : Call) :
    (s.setCall call phase).held = s.held := rfl

@[simp] theorem setCall_answers (s : DeviceSystem δ) (call : Nat)
    (phase : Call) : (s.setCall call phase).answers = s.answers := rfl

theorem setCall_calls (s : DeviceSystem δ) (call c : Nat) (phase : Call) :
    (s.setCall call phase).calls c =
      if c = call then phase else s.calls c := rfl

theorem arrived_answers (s : DeviceSystem δ) (step : Nat) (body : JsString) :
    (s.arrived step body).answers = s.answers ∧
      (s.arrived step body).calls = s.calls := by
  rw [arrived_eq]
  split
  · exact ⟨rfl, rfl⟩
  · exact ⟨rfl, rfl⟩

end IotHome.Server
