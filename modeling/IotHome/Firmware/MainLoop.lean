import IotHome.Firmware.HttpcLifecycle

/-!
# The main loop with the client it calls

`request` of `http_client_request.cpp`, with all that `_httpc_get_file_dns`
does and the callbacks that come meanwhile. The module on the notifier has
the same system with no memory in it, each request being as far as it has
come; this one is what that is an abstraction of.
-/

namespace IotHome.Firmware

open IotHome.Lib

structure MainLoop where
  running : Bool
  /-- The main loop is inside `request`, past its guard. -/
  calling : Bool
  client : LwipClient

def MainLoop.start : MainLoop := ⟨false, false, .start⟩

inductive MainEvent where
  | request
  | client (e : LwipEvent)

/-- What `_httpc_get_file_dns` does itself. -/
def LwipEvent.isCall : LwipEvent → Bool
  | .init _ => true
  | .start _ _ => true
  | _ => false

/-- Whether it returns then. -/
def LwipEvent.returns (err : LwipErr) : LwipEvent → Bool
  | .init _ => err != .ok
  | .start _ _ => true
  | _ => false

/-- The client has done something. A report of it is a call of `result_fn`,
which resets the flag. -/
def MainLoop.after (m : MainLoop) (e : LwipEvent) (c : LwipClient)
    (err : LwipErr) : MainLoop where
  running := m.running && c.results.length == m.client.results.length
  calling := m.calling && !e.returns err
  client := c

def mainStep (m : MainLoop) : MainEvent → Option MainLoop
  | .request =>
      if m.calling then none
      else if m.running then some m
      else some { m with calling := true }
  | .client e =>
      if e.isCall && !m.calling then none
      else
        match lwipStep m.client e with
        | some (.ok (c, err)) => some (m.after e c err)
        | _ => none

abbrev MainStep (m : MainLoop) (e : MainEvent) (m' : MainLoop) : Prop :=
  mainStep m e = some m'

/-- Events one after the other, from when the device starts. -/
abbrev MainRun : List MainEvent → MainLoop → Prop := Run MainStep .start

end IotHome.Firmware
