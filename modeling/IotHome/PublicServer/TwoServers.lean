import IotHome.Lib.Links
import IotHome.PublicServer.HomePage
import IotHome.Server.App

/-!
# The integration server and the public server

The two servers with the connections between them, and with the browsers at
the public server. The integration server opens a connection whenever it has
lost the last one (`WebSocketClientModule`); it sends on the one it opened
last, and handles what comes in on any. The public server sends on the one that
reached it last, `sysClient`, and handles what comes in on any.

Each connection is a link in either direction. What is on its way is lost when
a connection breaks, which nobody notices at once. So each server goes on by
itself, `homeStep` and `appStep`, and what it has sent in a step is put on its
way. Besides pulses the integration server sends the time, as
`autoConnect` does in each of its rounds.

`origin` and `asked` are not in the source: what a message was sent for, and
for which message a handler was started.
-/

namespace IotHome.PublicServer

open IotHome.Lib
open IotHome.Server

inductive Link where
  | fromBrowser (socket : Nat)
  | toBrowser (socket : Nat)
  | fromSystem (conn : Nat)
  | toSystem (conn : Nat)
  deriving DecidableEq

/-- What a message is: what a browser or the timer wrote, or what is relayed
of another message, or one of the pulses of the integration server. -/
inductive Origin where
  | own
  | relays (message : Nat)
  | pulse (index : Nat)
  deriving DecidableEq

structure Parcel where
  text : JsString
  origin : Origin

structure TwoServers where
  app : App
  home : HomePage
  systems : Nat
  sysClient : Option Nat
  ws : Option Nat
  links : Links Link Parcel
  asked : List (Option Nat)

def TwoServers.start : TwoServers :=
  ⟨.start, .start, 0, none, none, .empty, []⟩

inductive NetEvent where
  | systemConnects
  | adopts (conn : Nat)
  | sendsTime (text : JsString)
  | browserConnects
  | browserCloses (socket : Nat)
  | browserSends (socket : Nat) (text : JsString)
  | atPublic (link : Link)
  | atSystem (conn : Nat)
  | atBrowser (socket : Nat)
  | app (e : AppEvent)
  | cut (link : Link)

def TwoServers.put (s : TwoServers) (link : Link) (text : JsString)
    (origin : Origin) : TwoServers :=
  { s with links := s.links.send link ⟨text, origin⟩ }

def TwoServers.took (s : TwoServers) (link : Link) (message : Nat) :
    TwoServers :=
  { s with links := s.links.take link message }

def isPulse (text : JsString) : Bool :=
  isText (getProp? (parseMsg text) "type") "PULSE"

/-! ## What is sent goes on its way -/

/-- The messages that the public server has sent since. -/
def TwoServers.relayed (s : TwoServers) (home : HomePage) :
    List (Link × JsString) :=
  ((home.sentToSystem.drop s.home.sentToSystem.length).filterMap fun text =>
      s.sysClient.map fun conn => (.toSystem conn, text)) ++
    ((home.frontEnd.sent.drop s.home.frontEnd.sent.length).filterMap fun m =>
      m.receiver.map fun socket => (.toBrowser socket, m.content))

def TwoServers.atHome (s : TwoServers) (home : HomePage) (origin : Origin) :
    TwoServers :=
  (s.relayed home).foldl (fun s' m => s'.put m.1 m.2 origin)
    { s with home := home }

/-- `JSON.stringify(pulseMsg)`, with the devices as they are then. -/
def serverPulseText (devices : List StoredDevice) (msg : ServerPulseMsg) :
    JsString :=
  Json.objectText ([("type", msg.type.map Json.stringify),
    ("sysName", msg.sysName.map Json.stringify),
    ("ipAddr", msg.ipAddr.map Json.stringify),
    ("port", msg.port.map Json.stringify),
    ("cpuTemperature", msg.cpuTemperature.map Json.stringify),
    ("devices", some (Json.arrayText (devices.map StoredDevice.text))),
    ("ts", msg.ts.map Json.stringify)].filterMap
      fun field => field.2.map fun text => (js field.1, text))

/-- The devices that a handler which ends puts into its pulse. -/
def queriedDevices (app : App) : AppEvent → List StoredDevice
  | .resume task =>
      match (app.tasks[task]?).map Task.stage with
      | some (.querying _ devices _ _) =>
          devices.filterMap (app.registry.heap[·]?)
      | _ => []
  | _ => []

def TwoServers.withApp (s : TwoServers) (app : App) (origin : Option Nat) :
    TwoServers :=
  { s with
    app := app
    asked := s.asked ++
      List.replicate (app.tasks.length - s.app.tasks.length) origin }

/-- The integration server goes on; `this.app.modules.wsc.ws?.send(…)`. -/
def TwoServers.atApp (s : TwoServers) (app : App) (e : AppEvent)
    (origin : Option Nat) : TwoServers :=
  let texts := (app.sentPublic.drop s.app.sentPublic.length).map
    (serverPulseText (queriedDevices s.app e))
  let messages := (texts.zipIdx s.app.sentPublic.length).filterMap fun m =>
    s.ws.map fun conn => (Link.fromSystem conn, m.1, Origin.pulse m.2)
  messages.foldl (fun s' m => s'.put m.1 m.2.1 m.2.2) (s.withApp app origin)

/-! ## The steps -/

/-- The handler a message at the public server is for. -/
def Link.homeEvent (text : JsString) : Link → Option HomeEvent
  | .fromBrowser socket => some (.feMessage socket text)
  | .fromSystem _ => some (.sysMessage text)
  | _ => none

/-- A message of the public server is one that has come over a link. -/
def ofPublicServer : AppEvent → Bool
  | .message .publicServer _ => true
  | _ => false

section

variable (db : DevicesDb) (port : Nat)

def netStep (s : TwoServers) : NetEvent → Option TwoServers
  | .systemConnects => do
      let home ← homeStep s.home .connectSystem
      pure { s with
        home := home
        systems := s.systems + 1
        sysClient := some s.systems }
  | .adopts conn =>
      if conn < s.systems then some { s with ws := some conn } else none
  | .sendsTime text =>
      if isPulse text then none
      else
        match s.ws with
        | none => some s
        | some conn => some (s.put (.fromSystem conn) text .own)
  | .browserConnects => do
      let home ← homeStep s.home .connect
      pure { s with home := home }
  | .browserCloses socket => do
      let home ← homeStep s.home (.close socket)
      pure { s with home := home }
  | .browserSends socket text =>
      if s.home.frontEnd.isOpen socket then
        some (s.put (.fromBrowser socket) text .own)
      else none
  | .atPublic link => do
      let m ← s.links.next link
      let e ← link.homeEvent m.2.text
      let home ← homeStep s.home e
      pure ((s.took link m.1).atHome home (.relays m.1))
  | .atSystem conn => do
      let m ← s.links.next (.toSystem conn)
      let e := AppEvent.message .publicServer m.2.text
      let app ← appStep db port s.app e
      pure ((s.took (.toSystem conn) m.1).atApp app e (some m.1))
  | .atBrowser socket => do
      let m ← s.links.next (.toBrowser socket)
      pure (s.took (.toBrowser socket) m.1)
  | .app e =>
      if ofPublicServer e then none
      else do
        let app ← appStep db port s.app e
        pure (s.atApp app e none)
  | .cut link => some { s with links := s.links.cut link }

/-- One event after the other, from the start. -/
abbrev NetRun : List NetEvent → TwoServers → Prop :=
  Run (fun s e s' => netStep db port s e = some s') .start

end

end IotHome.PublicServer
