import IotHome.Lib.Runs
import IotHome.Server.JsValue

/-!
# HTTP requests of the server

`request` is there twice: in `HttpClientModule`, and copied into
`DeviceCommonCmdTree`. Both wait for the promise of `requestStream`, which the
response resolves and an error of the request rejects, and then settle their
own promise by what the response does. They differ in what a rejection of the
first promise does to the second: only `HttpClientModule` catches it. It also
gives a request a timeout, and installs a listener for uncaught exceptions.

`new URL`, `http.request` and the decoding of a buffer are parameters. What
the network does to a request comes as a list of events, in any order; a
listener that is not there yet, or a promise that is settled, is not touched
by them.
-/

namespace IotHome.Server

open IotHome.Lib

/-- What is thrown, or a promise rejected with. -/
structure HttpError where
  code : Option String
  message : String
  deriving DecidableEq, Repr

inductive Promise (α : Type) where
  | pending
  | resolved (value : α)
  | rejected (error : HttpError)

def Promise.resolve {α : Type} (p : Promise α) (value : α) : Promise α :=
  match p with
  | .pending => .resolved value
  | p => p

def Promise.reject {α : Type} (p : Promise α) (error : HttpError) :
    Promise α :=
  match p with
  | .pending => .rejected error
  | p => p

def Promise.isPending {α : Type} : Promise α → Bool
  | .pending => true
  | _ => false

def Promise.isResolved {α : Type} : Promise α → Bool
  | .resolved _ => true
  | _ => false

structure Body where
  raw : List UInt8
  str : JsString
  parsed : Option Json

/-! ## Before the request is sent -/

/-- What `new URL` has of an address. -/
structure Url where
  protocol : String
  hostname : String
  port : String
  pathname : String
  searchParams : String

inductive Method where
  | get
  | post
  deriving DecidableEq, Repr

structure TRequestOpts where
  url : String
  method : Method

structure RequestOptions extends TRequestOpts where
  hostname : String
  port : String
  path : String

inductive Agent where
  | http
  | https
  deriving DecidableEq, Repr

def httpOrHttps (protocol : String) : Except HttpError Agent :=
  if "https:" = protocol then .ok .https
  else if "http:" = protocol then .ok .http
  else .error ⟨none, "Protocol " ++ protocol ++ " not supported."⟩

/-- `new URL`, and what an agent's `request` throws of its options. -/
structure Node where
  newUrl : String → Except HttpError Url
  agentRequest : Agent → RequestOptions → Except HttpError Unit
  toString : List UInt8 → JsString

/-- The part of `requestStream` that can throw. -/
def openRequest (node : Node) (opts : TRequestOpts) :
    Except HttpError Unit := do
  let url ← node.newUrl opts.url
  let fullOpts : RequestOptions :=
    { opts with
      hostname := url.hostname
      port := url.port
      path := url.pathname ++ "?" ++ url.searchParams }
  let agent ← httpOrHttps url.protocol
  node.agentRequest agent fullOpts

/-! ## One request -/

inductive NetEvent where
  | error (error : HttpError)
  | response
  | data (chunk : List UInt8)
  | responseError (error : HttpError)
  | ended

/-- A request under way: the promise of `requestStream`, the chunks that have
come, and the promise of `request`. -/
structure Exchange where
  stream : Promise Unit
  buf : List (List UInt8)
  result : Promise Body

def Exchange.fresh : Exchange := ⟨.pending, [], .pending⟩

/-- `reject` of `requestStream`. A rejection that `request` does not catch is
lost on its own promise. -/
def Exchange.rejectStream (x : Exchange) (catches : Bool)
    (error : HttpError) : Exchange :=
  match x.stream with
  | .pending =>
      { x with
        stream := .rejected error
        result := if catches then x.result.reject error else x.result }
  | _ => x

def bodyOf (node : Node) (buf : List (List UInt8)) : Body :=
  let str := node.toString buf.flatten
  ⟨buf.flatten, str, Json.parse str⟩

def Exchange.event (node : Node) (catches : Bool) (x : Exchange) :
    NetEvent → Exchange
  | .error error => x.rejectStream catches error
  | .response => { x with stream := x.stream.resolve () }
  | .data chunk =>
      if x.stream.isResolved then { x with buf := x.buf ++ [chunk] } else x
  | .responseError error =>
      if x.stream.isResolved then { x with result := x.result.reject error }
      else x
  | .ended =>
      if x.stream.isResolved then
        { x with result := x.result.resolve (bodyOf node x.buf) }
      else x

/-- The executor of `requestStream`: what it throws rejects the promise. -/
def Exchange.start (node : Node) (catches : Bool) (opts : TRequestOpts) :
    Exchange :=
  match openRequest node opts with
  | .ok () => .fresh
  | .error error => Exchange.fresh.rejectStream catches error

/-- `request`, from its call through the events of the network. -/
def exchange (node : Node) (catches : Bool) (opts : TRequestOpts)
    (events : List NetEvent) : Promise Body :=
  (events.foldl (Exchange.event node catches)
    (.start node catches opts)).result

/-- `HttpClientModule.request`: `try { … } catch (error) { … }`. -/
def HttpClientModule.request (node : Node) (opts : TRequestOpts)
    (events : List NetEvent) : Promise Body := exchange node true opts events

/-- `DeviceCommonCmdTree.request`: no `try`. -/
def DeviceCommonCmdTree.request (node : Node) (opts : TRequestOpts)
    (events : List NetEvent) : Promise Body := exchange node false opts events

/-! ## The process -/

/-- The requests that were made, and whose listeners for uncaught exceptions
are installed. -/
structure Process where
  requests : Nat → Option Exchange
  listeners : List Nat
  exited : Bool

def Process.init : Process := ⟨fun _ => none, [], false⟩

inductive ProcessEvent where
  | request (id : Nat) (opts : TRequestOpts)
  | net (id : Nat) (event : NetEvent)
  | timeout (id : Nat)
  | uncaught (error : HttpError)

def Process.setRequest (p : Process) (id : Nat) (x : Exchange) : Process :=
  { p with requests := fun i => if i = id then some x else p.requests i }

/-- A request that could be opened has its listener from then on. -/
def Process.call (node : Node) (p : Process) (id : Nat)
    (opts : TRequestOpts) : Process :=
  let p' := p.setRequest id (.start node true opts)
  match openRequest node opts with
  | .ok () => { p' with listeners := p.listeners ++ [id] }
  | .error _ => p'

/-- Every listener is taken off and called; with none there the process
exits. -/
def Process.raise (p : Process) (error : HttpError) : Process :=
  if p.listeners = [] then { p with exited := true }
  else
    { p with
      listeners := []
      requests := fun i =>
        if i ∈ p.listeners ∧ error.code = some "ECONNREFUSED" then
          (p.requests i).map fun x => x.rejectStream true error
        else p.requests i }

def Process.step (node : Node) (p : Process) (e : ProcessEvent) :
    Option Process :=
  if p.exited then none
  else match e with
    | .request id opts =>
        if (p.requests id).isSome then none else some (p.call node id opts)
    | .net id event =>
        (p.requests id).map fun x =>
          p.setRequest id (x.event node true event)
    | .timeout id =>
        (p.requests id).map fun x =>
          p.setRequest id (x.rejectStream true ⟨none, "timeout"⟩)
    | .uncaught error => some (p.raise error)

/-- The request is made and has not settled. -/
def Process.IsPending (p : Process) (id : Nat) : Prop :=
  ∃ x, p.requests id = some x ∧ x.result.isPending = true

end IotHome.Server
