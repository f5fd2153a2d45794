import IotHome.Lib.Stringify
import IotHome.Server.FrontEnd
import IotHome.Server.Messages

/-!
# The home page of the public server

`HomePage` and `IntegrationSystemWsModule` of the public server. A pulse of an
integration system goes on to the front end as it was parsed, from the moment
when the first browser has connected; what a browser sends goes on to the
integration system as it is.
-/

namespace IotHome.PublicServer

open IotHome.Lib
open IotHome.Server

structure HomePage where
  sysClient : Bool
  subscribed : Bool
  frontEnd : FrontEnd JsString
  sentToSystem : List JsString

def HomePage.start : HomePage := ⟨false, false, .empty, []⟩

inductive HomeEvent where
  | connectSystem
  | connect
  | close (socket : Nat)
  | sysMessage (data : JsString)
  | feMessage (socket : Nat) (data : JsString)

/-- `_handleSysPulse`. -/
def HomePage.handleSysPulse (s : HomePage) (pulseMsg : Json) : HomePage :=
  { s with frontEnd := s.frontEnd.send (Json.stringify pulseMsg) }

/-- A message of the integration system. -/
def HomePage.sysMessage (s : HomePage) (data : JsString) : HomePage :=
  match parseMsg data with
  | none => s
  | some obj =>
      if isText (getProp? (some obj) "type") "PULSE" && s.subscribed then
        s.handleSysPulse obj
      else s

/-- `_feMsgMainHandler`. -/
def HomePage.feMessage (s : HomePage) (data : JsString) : HomePage :=
  if s.sysClient then { s with sentToSystem := s.sentToSystem ++ [data] }
  else s

def homeStep (s : HomePage) : HomeEvent → Option HomePage
  | .connectSystem => some { s with sysClient := true }
  | .connect =>
      some { s with
        frontEnd := s.frontEnd.connect
        subscribed := true }
  | .close socket => some { s with frontEnd := s.frontEnd.close socket }
  | .sysMessage data => if s.sysClient then some (s.sysMessage data) else none
  | .feMessage socket data =>
      if s.frontEnd.isOpen socket then some (s.feMessage data) else none

/-- An event with which a pulse goes on to the front end. -/
def HomePage.Forwards (s : HomePage) (e : HomeEvent) : Prop :=
  ∃ data, e = .sysMessage data ∧ s.subscribed = true ∧
    isText (getProp? (parseMsg data) "type") "PULSE" = true

/-- A step of a run of the public server. -/
abbrev HomeStepOf : List HomeEvent → HomePage → HomeEvent → HomePage → Prop :=
  StepOf (fun s e s' => homeStep s e = some s') .start

theorem homeStep_quiet {s s' : HomePage} {e : HomeEvent}
    (h : homeStep s e = some s') (hnot : ¬ s.Forwards e) :
    s.frontEnd.Quiet s'.frontEnd := by
  cases e with
  | connectSystem =>
      obtain rfl := Option.some.inj h
      exact .same
  | connect =>
      obtain rfl := Option.some.inj h
      exact .connect
  | close socket =>
      obtain rfl := Option.some.inj h
      exact .close socket
  | sysMessage data =>
      rw [homeStep] at h
      split at h
      · obtain rfl := Option.some.inj h
        rw [HomePage.sysMessage]
        split
        · exact .same
        · next obj hobj =>
            split
            · next hpulse =>
                rw [Bool.and_eq_true, ← hobj] at hpulse
                exact absurd ⟨data, rfl, hpulse.2, hpulse.1⟩ hnot
            · exact .same
      · cases h
  | feMessage socket data =>
      rw [homeStep] at h
      split at h
      · obtain rfl := Option.some.inj h
        rw [HomePage.feMessage]
        split
        · exact .same
        · exact .same
      · cases h

theorem homeStep_forwards {s s' : HomePage} {e : HomeEvent}
    (h : homeStep s e = some s') (hforwards : s.Forwards e) :
    ∃ content, s'.frontEnd = s.frontEnd.send content := by
  obtain ⟨data, rfl, hsubscribed, hpulse⟩ := hforwards
  rw [homeStep] at h
  split at h
  · obtain rfl := Option.some.inj h
    rw [HomePage.sysMessage]
    split
    · next hnone =>
        rw [hnone] at hpulse
        cases hpulse
    · next obj hobj =>
        rw [hobj] at hpulse
        rw [if_pos (by rw [hpulse, hsubscribed]; rfl)]
        exact ⟨_, rfl⟩
  · cases h

end IotHome.PublicServer
