import IotHome.Lib.Runs

/-!
# The requests of the main loop

`http_client_request.cpp` and how the HTTP client of lwIP goes on with what
`request` has started. The main loop calls `request` and the client's
callbacks come in between, also while it is inside: `request` is a step up to
its guard and a step from there. A request is in flight from the moment the
client has accepted it until `httpc_close`, which calls `result_fn` and frees
its state; which of the client's calls fail is up to the network and the
memory there is. A buffer counts if something of it is given to `body_fn`.
-/

namespace IotHome.Firmware

open IotHome.Lib

/-- How far a request has come: its server's name is being looked up, the
connection is being opened, or the request is sent. -/
inductive RequestPhase where
  | resolving
  | connecting
  | sent
  deriving DecidableEq

/-- `httpc_state_t`, without the response. -/
structure HttpcRequest where
  phase : RequestPhase
  timeoutTicks : Nat

/-- `HTTPC_POLL_TIMEOUT`. -/
def httpcPollTimeout : Nat := 30

structure Notifier where
  running : Bool
  calling : Bool
  inFlight : List HttpcRequest

def Notifier.start : Notifier := ⟨false, false, []⟩

/-- How `_httpc_get_file_dns` ends: with an error, or with the request in one
of the first two phases. -/
inductive StartOutcome where
  | failed
  | resolving
  | connecting
  deriving DecidableEq

inductive NotifierEvent where
  | request
  | start (outcome : StartOutcome)
  | dnsFound (conn : Nat) (connecting : Bool)
  | connected (conn : Nat) (written : Bool)
  | received (conn : Nat)
  | closed (conn : Nat)
  | error (conn : Nat)
  | poll (conn : Nat)

/-- `httpc_close`: `result_fn` is called and the state is freed. -/
def Notifier.close (s : Notifier) (conn : Nat) : Notifier :=
  { s with running := false, inFlight := s.inFlight.eraseIdx conn }

def Notifier.setRequest (s : Notifier) (conn : Nat) (r : HttpcRequest) :
    Notifier := { s with inFlight := s.inFlight.set conn r }

def Notifier.begin (s : Notifier) (phase : RequestPhase) : Notifier :=
  { s with
    calling := false
    inFlight := s.inFlight ++ [⟨phase, httpcPollTimeout⟩] }

/-- What a callback of the client does, on the request it is for. -/
def Notifier.callback (s : Notifier) (conn : Nat) (r : HttpcRequest) :
    NotifierEvent → Option Notifier
  | .dnsFound _ connecting =>
      if r.phase = .resolving then
        if connecting then
          some (s.setRequest conn { r with phase := .connecting })
        else some (s.close conn)
      else none
  | .connected _ written =>
      if r.phase = .connecting then
        if written then some (s.setRequest conn { r with phase := .sent })
        else some (s.close conn)
      else none
  | .received _ =>
      if r.phase = .sent then
        some (s.setRequest conn { r with timeoutTicks := httpcPollTimeout })
      else none
  | .closed _ => if r.phase = .sent then some (s.close conn) else none
  | .error _ => if r.phase = .resolving then none else some (s.close conn)
  | .poll _ =>
      if r.phase = .resolving then none
      else if r.timeoutTicks - 1 = 0 then some (s.close conn)
      else
        some (s.setRequest conn { r with timeoutTicks := r.timeoutTicks - 1 })
  | _ => none

def NotifierEvent.conn? : NotifierEvent → Option Nat
  | .request => none
  | .start _ => none
  | .dnsFound conn _ => some conn
  | .connected conn _ => some conn
  | .received conn => some conn
  | .closed conn => some conn
  | .error conn => some conn
  | .poll conn => some conn

/-- What can happen next. The main loop is one thread, and is not in `request`
twice. -/
def notifierStep (s : Notifier) (e : NotifierEvent) : Option Notifier :=
  match e with
  | .request =>
      if s.calling then none
      else if s.running then some s
      else some { s with calling := true }
  | .start outcome =>
      if s.calling then
        match outcome with
        | .failed => some { s with calling := false }
        | .resolving => some (s.begin .resolving)
        | .connecting => some (s.begin .connecting)
      else none
  | e => do
      let conn ← e.conn?
      let r ← s.inFlight[conn]?
      s.callback conn r e

abbrev NotifierStep (s : Notifier) (e : NotifierEvent) (s' : Notifier) :
    Prop := notifierStep s e = some s'

/-- Events one after the other, from when the device starts. -/
abbrev NotifierRun : List NotifierEvent → Notifier → Prop :=
  Run NotifierStep .start

/-! ## The steps of the main loop -/

theorem notifierStep_request {s s' : Notifier}
    (h : notifierStep s .request = some s') :
    s.calling = false ∧ (s.running = true ∧ s' = s ∨ s.running = false ∧
      s' = { s with calling := true }) := by
  simp only [notifierStep] at h
  split at h
  · cases h
  · next hcalling =>
      refine ⟨Bool.not_eq_true _ ▸ hcalling, ?_⟩
      split at h
      · next hrunning => exact .inl ⟨hrunning, (Option.some.inj h).symm⟩
      · next hrunning =>
          exact .inr ⟨Bool.not_eq_true _ ▸ hrunning, (Option.some.inj h).symm⟩

theorem notifierStep_start {s s' : Notifier} {outcome : StartOutcome}
    (h : notifierStep s (.start outcome) = some s') :
    s.calling = true ∧
      (outcome = .failed ∧ s' = { s with calling := false } ∨
        outcome ≠ .failed ∧ ∃ phase, s' = s.begin phase) := by
  simp only [notifierStep] at h
  split at h
  · next hcalling =>
      refine ⟨hcalling, ?_⟩
      cases outcome with
      | failed => exact .inl ⟨rfl, (Option.some.inj h).symm⟩
      | resolving => exact .inr ⟨nofun, _, (Option.some.inj h).symm⟩
      | connecting => exact .inr ⟨nofun, _, (Option.some.inj h).symm⟩
  · cases h

end IotHome.Firmware
