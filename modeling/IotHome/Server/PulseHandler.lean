import IotHome.Lib.Runs
import IotHome.Server.Messages

/-!
# The handlers of the system's pulses

`_handleSysPulse` of `HomePage` and of `PublicServerModule`. A flag keeps one
pulse from being taken up while another is: it is set at the start, and
lowered in the last line, behind the queries of all devices and the sending
of the pulse. A pulse that finds the flag set is dropped.

The two differ in when they remember the pulse, in what they write into it,
and in whether it is translated before it is sent; `PulseHandler` has these
three. Devices are objects that the store and the invocations share, so they
live on a heap, and all else refers to them by their place on it.
-/

namespace IotHome.Server

open IotHome.Lib

structure PulseHandler (β : Type) where
  /-- `_lastSysPulse` is set before the queries, and not behind them. -/
  remembersFirst : Bool
  complete : Json → Json
  adapt : Pulse → Except JsError β

/-- `v.name = value`. -/
def setProp (name : String) (value : Json) : Json → Json
  | .obj fields => .obj (OrderedMap.setEntry (js name) value fields)
  | v => v

theorem getProp?_setProp_ne {name name' : String} (h : js name' ≠ js name)
    (value obj : Json) :
    getProp? (some (setProp name' value obj)) name =
      getProp? (some obj) name := by
  cases obj with
  | obj fields => exact OrderedMap.lastFor_setEntry_ne h value fields
  | _ => rfl

/-- `HomePage._handleSysPulse`. -/
def homePulseHandler : PulseHandler Pulse := ⟨true, id, pure⟩

/-- `PublicServerModule._handleSysPulse`. -/
def publicPulseHandler (port : Nat) : PulseHandler ServerPulseMsg :=
  ⟨false, setProp "port" (.num (Dec.ofInt port)), adaptSysPulse⟩

/-- A call of the handler that has set the flag and waits for its queries. -/
structure Invocation where
  pulseMsg : Json
  devices : List Nat
  querying : List Nat

structure PulseState (β : Type) where
  sysPulseHandlerBlock : Bool
  lastSysPulse : Option Json
  heap : List Device
  deviceStore : OrderedMap MapKey Nat
  running : List Invocation
  sent : List β

/-- A message of the system, a device that reports itself, the end of the
query of one device, and the handler going on when all of them have ended. -/
inductive PulseEvent where
  | message (data : JsString)
  | setDevice (mac : MapKey) (device : Device)
  | queried (invocation device : Nat) (isOnline : Bool) (net : Network)
  | resume (invocation : Nat)

section

variable {β : Type} (H : PulseHandler β)

def PulseState.start (heap : List Device) (store : OrderedMap MapKey Nat) :
    PulseState β := ⟨false, none, heap, store, [], []⟩

/-- The handler up to its first `await`. -/
def handleSysPulse (s : PulseState β) (pulseMsg : Json) : PulseState β :=
  if s.sysPulseHandlerBlock then s
  else
    let devices := s.deviceStore.values
    { s with
      sysPulseHandlerBlock := true
      lastSysPulse := if H.remembersFirst then some pulseMsg
        else s.lastSysPulse
      running := s.running ++ [⟨pulseMsg, devices, devices⟩] }

/-- The rest of the handler. What throws in it leaves the flag as it is. -/
def finishSysPulse (s : PulseState β) (inv : Invocation) : PulseState β :=
  let pulseMsg := H.complete inv.pulseMsg
  let devices := inv.devices.filterMap fun d => s.heap[d]?
  let s := if H.remembersFirst then s
    else { s with lastSysPulse := some pulseMsg }
  match H.adapt ⟨pulseMsg, devices⟩ with
  | .ok msg =>
      { s with sysPulseHandlerBlock := false, sent := s.sent ++ [msg] }
  | .error _ => s

def pulseStep (s : PulseState β) : PulseEvent → Option (PulseState β)
  | .message data =>
      match parseMsg data with
      | some obj =>
          if isText (getProp? (some obj) "type") "PULSE" then
            some (handleSysPulse H s obj)
          else some s
      | none => some s
  | .setDevice mac device =>
      some { s with
        heap := s.heap ++ [device]
        deviceStore := s.deviceStore.set mac s.heap.length }
  | .queried invocation device isOnline net =>
      match s.running[invocation]? with
      | none => none
      | some inv =>
          if device ∈ inv.querying then
            some { s with
              heap := s.heap.modify device (queryCaught net fun _ => isOnline)
              running := s.running.set invocation
                { inv with querying := inv.querying.erase device } }
          else none
  | .resume invocation =>
      match s.running[invocation]? with
      | none => none
      | some inv =>
          if inv.querying = [] then
            some { finishSysPulse H s inv with
              running := s.running.eraseIdx invocation }
          else none

/-- One event after the other. -/
abbrev PulseRun : PulseState β → List PulseEvent → PulseState β → Prop :=
  Run fun s e s' => pulseStep H s e = some s'

end

/-! ## What one event does to the flag -/

variable {β : Type} {H : PulseHandler β}

/-- A handler is started, which sets the flag; or nothing happens to the
flag and to the number of those that wait; or one of them goes on. -/
theorem pulseStep_cases {s s' : PulseState β} {e : PulseEvent}
    (h : pulseStep H s e = some s') :
    ((∀ i, e ≠ .resume i) ∧ s.sysPulseHandlerBlock = false ∧
      s'.sysPulseHandlerBlock = true ∧
      s'.running.length = s.running.length + 1) ∨
    ((∀ i, e ≠ .resume i) ∧
      s'.sysPulseHandlerBlock = s.sysPulseHandlerBlock ∧
      s'.running.length = s.running.length) ∨
    (∃ i inv, e = .resume i ∧ s.running[i]? = some inv ∧
      s'.sysPulseHandlerBlock = (finishSysPulse H s inv).sysPulseHandlerBlock ∧
      s'.running = s.running.eraseIdx i) := by
  cases e with
  | message data =>
      have hsame : (∀ i, PulseEvent.message data ≠ .resume i) ∧
          s.sysPulseHandlerBlock = s.sysPulseHandlerBlock ∧
          s.running.length = s.running.length := ⟨nofun, rfl, rfl⟩
      rw [pulseStep] at h
      split at h
      · split at h
        · next obj _ _ =>
            obtain rfl := Option.some.inj h
            rw [handleSysPulse]
            cases hblock : s.sysPulseHandlerBlock with
            | true =>
                rw [if_pos rfl]
                exact .inr (.inl ⟨nofun, hblock, rfl⟩)
            | false =>
                rw [if_neg Bool.false_ne_true]
                refine .inl ⟨nofun, rfl, rfl, ?_⟩
                rw [List.length_append, List.length_singleton]
        · obtain rfl := Option.some.inj h
          exact .inr (.inl hsame)
      · obtain rfl := Option.some.inj h
        exact .inr (.inl hsame)
  | setDevice mac device =>
      obtain rfl := Option.some.inj h
      exact .inr (.inl ⟨nofun, rfl, rfl⟩)
  | queried invocation device isOnline net =>
      rw [pulseStep] at h
      split at h
      · cases h
      · split at h
        · obtain rfl := Option.some.inj h
          exact .inr (.inl ⟨nofun, rfl, List.length_set⟩)
        · cases h
  | resume invocation =>
      rw [pulseStep] at h
      split at h
      · cases h
      · next inv hinv =>
          split at h
          · obtain rfl := Option.some.inj h
            exact .inr (.inr ⟨invocation, inv, rfl, hinv, rfl, rfl⟩)
          · cases h

/-- The rest of the handler lowers the flag if the pulse can be adapted, and
leaves it if not. -/
theorem finishSysPulse_block {canAdapt : Json → Prop}
    (hadapt : ∀ obj devices,
      (∃ msg, H.adapt ⟨H.complete obj, devices⟩ = .ok msg) ↔ canAdapt obj)
    (s : PulseState β) (inv : Invocation) :
    (canAdapt inv.pulseMsg ∧
      (finishSysPulse H s inv).sysPulseHandlerBlock = false) ∨
    (¬ canAdapt inv.pulseMsg ∧
      (finishSysPulse H s inv).sysPulseHandlerBlock =
        s.sysPulseHandlerBlock) := by
  have hcan := hadapt inv.pulseMsg (inv.devices.filterMap fun d => s.heap[d]?)
  rw [finishSysPulse]
  cases hmsg : H.adapt ⟨H.complete inv.pulseMsg,
      inv.devices.filterMap fun d => s.heap[d]?⟩ with
  | ok msg => exact .inl ⟨hcan.1 ⟨msg, hmsg⟩, rfl⟩
  | error e =>
      refine .inr ⟨fun h => ?_, ?_⟩
      · obtain ⟨msg, hok⟩ := hcan.2 h
        rw [hmsg] at hok
        cases hok
      · cases H.remembersFirst with
        | true => rfl
        | false => rfl

end IotHome.Server
