import IotHome.Lib.Runs

/-!
# The client that reconnects

`ws-client.module.ts`, which the integration server and the OS server have a
copy of each. `autoConnect` is a loop that is suspended in two places: while a
socket is being opened, and between its rounds. The events of the sockets, the
timer and the signal come in any order.

The sockets are those of the `ws` package. Of it the code relies on little,
and `WsLibrary` says on what: a socket's `readyState` only goes up, it comes to
`OPEN` with the event `open`, an `open` or an `error` is the end of
`CONNECTING`, and after `close()` or `terminate()` it is at least `CLOSING`.
-/

namespace IotHome.Server

open IotHome.Lib

inductive ReadyState where
  | connecting
  | opened
  | closing
  | closed
  deriving DecidableEq

/-- The constants of the package. -/
def ReadyState.toNat : ReadyState → Nat
  | .connecting => 0
  | .opened => 1
  | .closing => 2
  | .closed => 3

/-- What happens to a socket; `closing` is the other side's wish to close. -/
inductive SocketEvent where
  | opened
  | error
  | closing
  | closed
  deriving DecidableEq

structure WsLibrary where
  /-- The state after an event, if the event can come in this state. -/
  next : ReadyState → SocketEvent → Option ReadyState
  close : ReadyState → ReadyState
  terminate : ReadyState → ReadyState
  advances : ∀ {r e r'}, next r e = some r' → r.toNat ≤ r'.toNat
  opens : ∀ {r e}, next r e = some .opened → e = .opened ∨ r = .opened
  settles : ∀ {r e}, next r e = some .connecting → e ≠ .opened ∧ e ≠ .error
  closes : ∀ r, 2 ≤ (close r).toNat ∧ r.toNat ≤ (close r).toNat
  terminates : ∀ r, 2 ≤ (terminate r).toNat ∧ r.toNat ≤ (terminate r).toNat

/-- What a socket of the package goes through. -/
def wsPackage : WsLibrary where
  next
    | .connecting, .opened => some .opened
    | .connecting, .error => some .closing
    | .opened, .error => some .closing
    | .opened, .closing => some .closing
    | .opened, .closed => some .closed
    | .closing, .error => some .closing
    | .closing, .closed => some .closed
    | _, _ => none
  close
    | .closed => .closed
    | _ => .closing
  terminate
    | .closed => .closed
    | _ => .closing
  advances {r e r'} h := by
    cases r <;> cases e <;> simp at h <;> subst h <;> decide
  opens {r e} h := by cases r <;> cases e <;> simp at h ⊢
  settles {r e} h := by cases r <;> cases e <;> simp at h
  closes r := by cases r <;> decide
  terminates r := by cases r <;> decide

/-- Where the loop is: between two rounds, waiting for `openWs`, going on
after it has resolved or rejected, or at its end. -/
inductive Loop where
  | sleeping
  | opening (socket : Nat)
  | opened (socket : Nat)
  | failed
  | returned
  | threw
  deriving DecidableEq

structure WsClient where
  sockets : List ReadyState
  ws : Option Nat
  terminate : Bool
  loop : Loop

def WsClient.start : WsClient := ⟨[], none, false, .sleeping⟩

/-- `tick` is the timer, or the first round, and `constructs` whether a socket
is made, or refused for its address. `resume` is the loop going on after
`openWs`. -/
inductive WsEvent where
  | tick (constructs : Bool)
  | resume
  | socket (socket : Nat) (event : SocketEvent)
  | sigterm

/-- `this.ws?.readyState`. -/
def WsClient.readyState (s : WsClient) : Option ReadyState :=
  s.ws.bind fun i => s.sockets[i]?

/-- `this.ws?.send`, which throws on a socket that is connecting, and the end
of the round. -/
def WsClient.send (s : WsClient) : WsClient :=
  if s.readyState = some .connecting then { s with loop := .threw }
  else { s with loop := .sleeping }

/-- The condition of the `if`: `readyState` is missing, or `CONNECTING`,
which is 0, or `CLOSED`. -/
def WsClient.mustOpen (s : WsClient) : Bool :=
  s.readyState = none ∨ s.readyState = some .connecting ∨
    s.readyState = some .closed

/-- `openWs`, up to its promise. -/
def WsClient.openWs (s : WsClient) (constructs : Bool) : WsClient :=
  if constructs then
    { s with
      sockets := s.sockets ++ [.connecting]
      loop := .opening s.sockets.length }
  else { s with loop := .failed }

/-- The promise of `openWs` is that of the first `open` or `error`. -/
def Loop.settle (l : Loop) (socket : Nat) : SocketEvent → Loop
  | .opened => if l = .opening socket then .opened socket else l
  | .error => if l = .opening socket then .failed else l
  | .closing => l
  | .closed => l

def WsClient.setSocket (s : WsClient) (socket : Nat) (r : ReadyState) :
    WsClient := { s with sockets := s.sockets.set socket r }

/-- A method that is called on a socket. -/
def WsClient.call (s : WsClient) (f : ReadyState → ReadyState)
    (socket : Nat) : WsClient :=
  { s with sockets := s.sockets.modify socket f }

section

variable (lib : WsLibrary)

def wsStep (s : WsClient) : WsEvent → Option WsClient
  | .tick constructs =>
      if s.loop = .sleeping then
        if s.terminate then some { s with loop := .returned }
        else if s.mustOpen then some (s.openWs constructs)
        else some s.send
      else none
  | .resume =>
      match s.loop with
      | .opened socket =>
          if s.terminate then
            some { (s.call lib.terminate socket).call lib.close socket with
              loop := .returned }
          else some { s with ws := some socket }.send
      | .failed => some s.send
      | _ => none
  | .socket socket e => do
      let r ← s.sockets[socket]?
      let r' ← lib.next r e
      pure { s.setSocket socket r' with loop := s.loop.settle socket e }
  | .sigterm =>
      let s := { s with terminate := true }
      match s.ws with
      | none => some s
      | some socket =>
          some ((s.call lib.close socket).call lib.terminate socket)

/-- One event after the other, from the start. -/
abbrev WsRun : List WsEvent → WsClient → Prop :=
  Run (fun s e s' => wsStep lib s e = some s') .start

end

/-! ## What one event does -/

variable {lib : WsLibrary}

theorem wsStep_tick {s s' : WsClient} {constructs : Bool}
    (h : wsStep lib s (.tick constructs) = some s') :
    s.loop = .sleeping ∧
      ((s.terminate = true ∧ s' = { s with loop := .returned }) ∨
        (s.terminate = false ∧ s.mustOpen = true ∧
          s' = s.openWs constructs) ∨
        (s.terminate = false ∧ s' = s.send)) := by
  rw [wsStep] at h
  split at h
  · next hloop =>
      refine ⟨hloop, ?_⟩
      split at h
      · next hterm => exact .inl ⟨hterm, (Option.some.inj h).symm⟩
      · next hterm =>
          have hfalse : s.terminate = false := Bool.not_eq_true _ ▸ hterm
          split at h
          · next hopen =>
              exact .inr (.inl ⟨hfalse, hopen, (Option.some.inj h).symm⟩)
          · exact .inr (.inr ⟨hfalse, (Option.some.inj h).symm⟩)
  · cases h

theorem wsStep_resume {s s' : WsClient}
    (h : wsStep lib s .resume = some s') :
    (∃ i, s.loop = .opened i ∧
      ((s.terminate = true ∧
          s' = { (s.call lib.terminate i).call lib.close i with
            loop := .returned }) ∨
        (s.terminate = false ∧ s' = { s with ws := some i }.send))) ∨
    (s.loop = .failed ∧ s' = s.send) := by
  rw [wsStep] at h
  split at h
  · next i hloop =>
      refine .inl ⟨i, hloop, ?_⟩
      split at h
      · next hterm => exact .inl ⟨hterm, (Option.some.inj h).symm⟩
      · next hterm =>
          exact .inr ⟨Bool.not_eq_true _ ▸ hterm, (Option.some.inj h).symm⟩
  · next hloop => exact .inr ⟨hloop, (Option.some.inj h).symm⟩
  · cases h

theorem wsStep_socket {s s' : WsClient} {i : Nat} {e : SocketEvent}
    (h : wsStep lib s (.socket i e) = some s') :
    ∃ r r', s.sockets[i]? = some r ∧ lib.next r e = some r' ∧
      s' = { s.setSocket i r' with loop := s.loop.settle i e } := by
  rw [wsStep] at h
  obtain ⟨r, hr, h⟩ := Option.bind_eq_some_iff.1 h
  obtain ⟨r', hr', h⟩ := Option.bind_eq_some_iff.1 h
  exact ⟨r, r', hr, hr', (Option.some.inj h).symm⟩

theorem wsStep_sigterm {s s' : WsClient}
    (h : wsStep lib s .sigterm = some s') :
    (s.ws = none ∧ s' = { s with terminate := true }) ∨
      ∃ i, s.ws = some i ∧
        s' = (WsClient.call { s with terminate := true } lib.close i).call
          lib.terminate i := by
  simp only [wsStep] at h
  split at h
  · next hws => exact .inl ⟨hws, (Option.some.inj h).symm⟩
  · next i hws => exact .inr ⟨i, hws, (Option.some.inj h).symm⟩

end IotHome.Server
