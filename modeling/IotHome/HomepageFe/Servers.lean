import IotHome.HomepageFe.WsService
import IotHome.Lib.ExpiringMap
import Mathlib.Algebra.Ring.Int.Defs

/-!
# The list of the servers, and what it is kept in step with

`_servers` of `ws-service.ts`, the handlers that are subscribed to it, and the
component `Servers`, whose `serversBuf` follows it. Every rendering makes its
handlers anew and subscribes them under the same names. The clock is read for
each message, and in a sweep for each server.

What a message that sets a server sets is `mainMsgHandler` of the module on
which this one rests. The two copies of both files are alike in this.
-/

namespace IotHome.HomepageFe

open IotHome.Lib
open IotHome.Server
open IotHome.Virtual

/-- The object that the message with this number makes of a pulse. -/
structure TServer where
  message : Nat
  server : IntServer
  lastSeen : Int

/-- `serverName`, as a `Map` compares it. -/
def TServer.serverName (s : TServer) : MapKey :=
  mapKey s.message s.server.serverName

inductive KWsServiceEvent where
  | serverIsActive
  | serverIsOffline
  deriving DecidableEq

/-- The handlers of the component, as some rendering has made them. -/
inductive TServerHandler where
  | serverIsActiveHandler (rendering : Nat)
  | serverIsOfflineHandler (rendering : Nat)

structure Page where
  /-- How many messages have come. -/
  messages : Nat
  /-- `_servers` -/
  servers : OrderedMap MapKey TServer
  /-- `_serviceEventHandlers` -/
  serviceEventHandlers :
    OrderedMap KWsServiceEvent (OrderedMap String TServerHandler)
  renderings : Nat
  serversBuf : OrderedMap MapKey TServer
  /-- What `setServers` was last given. -/
  shown : List TServer
  /-- The servers that were reported to be offline. -/
  reports : List TServer

namespace Page

def start : Page := ⟨0, .empty, .empty, 0, .empty, [], []⟩

def subscribe (p : Page) (serviceEvent : KWsServiceEvent)
    (handler : TServerHandler) (handlerId : String) : Page :=
  let handlers := (p.serviceEventHandlers.get serviceEvent).getD .empty
  { p with
    serviceEventHandlers := p.serviceEventHandlers.set serviceEvent
      (handlers.set handlerId handler) }

/-- A rendering of `Servers`. -/
def render (p : Page) : Page :=
  let p := { p with renderings := p.renderings + 1 }
  let p := p.subscribe .serverIsActive (.serverIsActiveHandler p.renderings)
    "serverIsActiveHandler"
  p.subscribe .serverIsOffline (.serverIsOfflineHandler p.renderings)
    "serverIsOfflineHandler"

def setServers (p : Page) (servers : List TServer) : Page :=
  { p with shown := servers }

/-- `cb(server)` -/
def call (server : TServer) (p : Page) : TServerHandler → Page
  | .serverIsActiveHandler _ =>
      let serversBuf := p.serversBuf.set server.serverName server
      { p with serversBuf }.setServers serversBuf.values
  | .serverIsOfflineHandler _ =>
      let serversBuf := p.serversBuf.delete server.serverName
      { p with
        serversBuf
        reports := p.reports ++ [server] }.setServers serversBuf.values

def handlersOf (p : Page) (serviceEvent : KWsServiceEvent) :
    List TServerHandler :=
  ((p.serviceEventHandlers.get serviceEvent).getD .empty).values

/-- What `pulseMainHandler` does with the server it has made. -/
def setServer (p : Page) (intServer : TServer) : Page :=
  let p := { p with servers := p.servers.set intServer.serverName intServer }
  match p.servers.get intServer.serverName with
  | none => p
  | some thisServer =>
      (p.handlersOf .serverIsActive).foldl (call thisServer) p

end Page

/-- The server object of a message, if it makes one. -/
def serverOf (message : Nat) (data : JsString) (now : Int) : Option TServer :=
  (mainMsgHandler data).map fun server => ⟨message, server, now⟩

/-- `a > b`, for an integer. -/
def isOver (age : Int) : JsNumber → Bool
  | .nan => false
  | .infinity neg => neg
  | .dec d => d.mantissa < age * 10 ^ d.scale

/-- `now - server.lastSeen > maxLastSeenInterval` -/
def isOffline (maxLastSeenInterval : JsNumber) (now : MapKey → Int)
    (server : TServer) : Bool :=
  isOver (now server.serverName - server.lastSeen) maxLastSeenInterval

namespace Page

/-- `_deleteOfflineServers` -/
def deleteOfflineServers (p : Page) (maxLastSeenInterval : JsNumber)
    (now : MapKey → Int) : Page × List TServer :=
  let offline := p.servers.values.filter (isOffline maxLastSeenInterval now)
  ({ p with
    servers := offline.foldl (fun m s => m.delete s.serverName) p.servers },
    offline)

/-- A turn of `_infiniteHandleOfflineServers`. -/
def handleOfflineServers (p : Page) (maxLastSeenInterval : JsNumber)
    (now : MapKey → Int) : Page :=
  let (p, offlineServers) := p.deleteOfflineServers maxLastSeenInterval now
  let serverIsOfflineHandlers := p.handlersOf .serverIsOffline
  offlineServers.foldl
    (fun p offlineServer =>
      serverIsOfflineHandlers.foldl (call offlineServer) p) p

end Page

/-- The clock of a sweep is read for each server. -/
inductive PageEvent where
  | message (data : JsString) (now : Int)
  | sweep (maxLastSeenInterval : JsNumber) (now : MapKey → Int)
  | render

def Page.step (p : Page) : PageEvent → Page
  | .message data now =>
      let p' := { p with messages := p.messages + 1 }
      match serverOf p.messages data now with
      | none => p'
      | some server => p'.setServer server
  | .sweep maxLastSeenInterval now =>
      p.handleOfflineServers maxLastSeenInterval now
  | .render => p.render

/-- The page after its first rendering and some events. -/
def pageAfter (events : List PageEvent) : Page :=
  events.foldl Page.step Page.start.render

end IotHome.HomepageFe
