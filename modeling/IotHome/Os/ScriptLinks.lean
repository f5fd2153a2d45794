import IotHome.Lib.Links
import IotHome.Os.Scripts
import IotHome.Server.PulseJson
import IotHome.Server.RemoteScript

/-!
# Scripts between the two servers

The integration server, which asks for scripts, the OS server, which runs
them, and the connections between them. Each connection the OS server opens
reaches the integration server as a new `sysClient`; the OS server sends on the
one it opened last. Messages are handled on whichever connection they come in.

`_wsMsgHandler` starts a script for every request, and keeps hold of the
connection it sends on at that time. Scripts run side by side and end in any
order; for each one that ends a result is sent, with what was printed or with
the text of the error.

`origin` and `request` are not in the source: what a message was sent for, and
for which message a script was started.
-/

namespace IotHome.Os

open IotHome.Lib
open IotHome.Server

inductive ScriptLink where
  | toOs (conn : Nat)
  | fromOs (conn : Nat)
  deriving DecidableEq

/-- A request of a call, the result of a script that was run, or one of the
other messages of the OS server. -/
inductive ScriptOrigin where
  | request (call : Nat)
  | result (process : Nat)
  | other
  deriving DecidableEq

structure ScriptParcel where
  text : JsString
  origin : ScriptOrigin

/-- How a script ends, with what was printed or with an error and its
message. -/
inductive ScriptEnd where
  | output (stdout stderr : JsString)
  | error (message : JsString)

def ScriptEnd.stdout : ScriptEnd → JsString
  | .output stdout _ => stdout
  | .error _ => []

def ScriptEnd.stderr : ScriptEnd → JsString
  | .output _ stderr => stderr
  | .error message => message

/-- A script that was started. `exec` may refuse the command. -/
structure ScriptProcess where
  scriptFilename : JsString
  command : Option JsString
  request : Nat
  ws : Option Nat
  ended : Option ScriptEnd

structure ScriptNet where
  caller : ScriptState
  ws : Option Nat
  processes : List ScriptProcess
  links : Links ScriptLink ScriptParcel

def ScriptNet.start : ScriptNet := ⟨.idle, none, [], .empty⟩

inductive ScriptNetEvent where
  | caller (e : ScriptEvent)
  | adopts (conn : Nat)
  | sendsOther (text : JsString)
  | atOs (conn : Nat)
  | ends (process : Nat) (e : ScriptEnd)
  | atCaller (conn : Nat)
  | cut (link : ScriptLink)

/-! ## The messages -/

/-- `TRunScriptMsg`. -/
def requestJson (scriptFilename : JsString) : Json :=
  definedObject [("type", some (.str (js "RUN_SCRIPT"))),
    ("scriptFilename", some (.str scriptFilename))]

/-- `TScriptResultMsg`. -/
def resultJson (scriptFilename : JsString) (e : ScriptEnd) : Json :=
  definedObject [("type", some (.str (js "RUN_SCRIPT_RESULT"))),
    ("scriptFilename", some (.str scriptFilename)),
    ("stdout", some (.str e.stdout)), ("stderr", some (.str e.stderr))]

def ScriptNet.put (s : ScriptNet) (link : ScriptLink) (text : JsString)
    (origin : ScriptOrigin) : ScriptNet :=
  { s with links := s.links.send link ⟨text, origin⟩ }

def ScriptNet.took (s : ScriptNet) (link : ScriptLink) (message : Nat) :
    ScriptNet :=
  { s with links := s.links.take link message }

/-- The integration server goes on, and what it has sent in this step, which
is for a call that it started, goes on its way. -/
def ScriptNet.atServer (s : ScriptNet) (caller : ScriptState)
    (e : ScriptEvent) : ScriptNet :=
  let s' := { s with caller := caller }
  match e, s.caller.sysClient with
  | .start call _, some conn =>
      (caller.sent.drop s.caller.sent.length).foldl
        (fun s' name => s'.put (.toOs conn) (Json.stringify (requestJson name))
          (.request call)) s'
  | _, _ => s'

/-- `_wsMsgHandler`, up to the script. -/
def ScriptNet.started (s : ScriptNet) (cwd : JsString) (message : Nat)
    (text : JsString) : ScriptNet :=
  match scriptFilename text with
  | none => s
  | some name =>
      { s with
        processes := s.processes ++
          [⟨name, runScript cwd name, message, s.ws, none⟩] }

/-- The rest of it. -/
def ScriptNet.ended (s : ScriptNet) (process : Nat) (p : ScriptProcess)
    (e : ScriptEnd) : ScriptNet :=
  let s := { s with
    processes := s.processes.set process { p with ended := some e } }
  match p.ws with
  | none => s
  | some conn =>
      s.put (.fromOs conn) (Json.stringify (resultJson p.scriptFilename e))
        (.result process)

/-- Without a command there is nothing that could print. -/
def ScriptProcess.mayEnd (p : ScriptProcess) : ScriptEnd → Bool
  | .output _ _ => p.ended.isNone && p.command.isSome
  | .error _ => p.ended.isNone

/-- A message for the integration server is one that has come over a link. -/
def ofOs : ScriptEvent → Bool
  | .message _ => true
  | _ => false

section

variable (cwd : JsString)

def scriptNetStep (s : ScriptNet) : ScriptNetEvent → Option ScriptNet
  | .caller e =>
      if ofOs e then none
      else do
        let caller ← scriptStep s.caller e
        pure (s.atServer caller e)
  | .adopts conn =>
      if conn < s.caller.sockets then some { s with ws := some conn } else none
  | .sendsOther text =>
      if isScriptResponseMsg (parseMsg text) then none
      else
        match s.ws with
        | none => some s
        | some conn => some (s.put (.fromOs conn) text .other)
  | .atOs conn => do
      let m ← s.links.next (.toOs conn)
      pure ((s.took (.toOs conn) m.1).started cwd m.1 m.2.text)
  | .ends process e => do
      let p ← s.processes[process]?
      if p.mayEnd e then pure (s.ended process p e) else none
  | .atCaller conn => do
      let m ← s.links.next (.fromOs conn)
      let caller ← scriptStep s.caller (.message m.2.text)
      pure { s.took (.fromOs conn) m.1 with caller := caller }
  | .cut link => some { s with links := s.links.cut link }

/-- One event after the other, from the start. -/
abbrev ScriptNetRun : List ScriptNetEvent → ScriptNet → Prop :=
  Run (fun s e s' => scriptNetStep cwd s e = some s') .start

end

end IotHome.Os
