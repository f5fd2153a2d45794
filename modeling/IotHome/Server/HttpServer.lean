import IotHome.Lib.Assoc
import IotHome.Lib.Program
import IotHome.Lib.Stringify

/-!
# The handlers of the HTTP server

`HttpServerModule.end` makes a request handler of a controller: it ends the
response when the controller returns, and answers 500 with the error when it
throws. The response is that of Node: its methods throw when it is too late
for them, and what implies the headers throws when the status code is none.
Writing to a response that has ended does nothing to it.

The two methods that the package Express adds, `status` and `json`, are
parameters (`Express`), with what the code relies on: `status` sets the code
or throws, and it does not throw on a code that is one before anything was
sent; `json` sends the text then, and throws later. Whether `status` throws
later is left open; in version 4 it does not.

A controller is any program that acts on the response, catches or lets through
what its methods throw, and returns or throws in the end. The chunks are what
the response was given; that the answer to a `HEAD` has none is not followed.
-/

namespace IotHome.Server

open IotHome.Lib

structure NodeError where
  message : JsString
  name : JsString
  deriving DecidableEq

/-- What Node throws: `ERR_HTTP_HEADERS_SENT`, and
`ERR_HTTP_INVALID_STATUS_CODE`. -/
structure NodeErrors where
  headersSent : NodeError
  invalidStatusCode : NodeError

/-! ## The response -/

/-- How much of a response was sent. -/
inductive Progress where
  | nothing
  | headers
  | ended
  deriving DecidableEq

inductive Chunk where
  | data (bytes : List UInt8)
  | json (text : JsString)
  deriving DecidableEq

structure Response where
  statusCode : Nat
  headers : OrderedMap String String
  progress : Progress
  chunks : List Chunk

def Response.fresh : Response := ⟨200, .empty, .nothing, []⟩

def validStatusCode (code : Nat) : Bool := 100 ≤ code && code ≤ 999

namespace Response

variable (node : NodeErrors)

def headersSent (res : Response) : Bool := res.progress ≠ .nothing

def writableEnded (res : Response) : Bool := res.progress = .ended

def setHeader (res : Response) (name value : String) :
    Except NodeError Response :=
  if res.headersSent then .error node.headersSent
  else .ok { res with headers := res.headers.set name value }

def writeHead (res : Response) (code : Nat) : Except NodeError Response :=
  if res.headersSent then .error node.headersSent
  else if validStatusCode code then
    .ok { res with statusCode := code, progress := .headers }
  else .error node.invalidStatusCode

/-- The headers as they are, if they are not sent. -/
def implicitHeader (res : Response) : Except NodeError Response :=
  if res.headersSent then .ok res else res.writeHead node res.statusCode

def write (res : Response) (chunk : Chunk) : Except NodeError Response :=
  if res.writableEnded then .ok res
  else do
    let res ← res.implicitHeader node
    pure { res with chunks := res.chunks ++ [chunk] }

/-- `end`. -/
def finish (res : Response) (chunk : Option Chunk) :
    Except NodeError Response :=
  if res.writableEnded then .ok res
  else do
    let res ← res.implicitHeader node
    pure { res with
      chunks := res.chunks ++ chunk.toList
      progress := .ended }

end Response

/-! ## Express -/

structure Express where
  status : Response → Nat → Except NodeError Response
  json : Response → JsString → Except NodeError Response
  status_sets : ∀ {res code res'}, status res code = .ok res' →
    res' = { res with statusCode := code }
  status_early : ∀ {res code}, res.progress = .nothing →
    validStatusCode code = true → ∃ res', status res code = .ok res'
  json_early : ∀ {res} text, res.progress = .nothing →
    validStatusCode res.statusCode = true →
      ∃ headers, json res text = .ok
        ⟨res.statusCode, headers, .ended, res.chunks ++ [.json text]⟩
  json_late : ∀ {res} text, res.progress ≠ .nothing →
    ∃ e, json res text = .error e

/-- The header of the type, and the text. -/
def Response.json (node : NodeErrors) (res : Response) (text : JsString) :
    Except NodeError Response := do
  let res ← res.setHeader node "Content-Type"
    "application/json; charset=utf-8"
  res.finish node (some (.json text))

theorem Response.json_early (node : NodeErrors) {res : Response}
    (text : JsString) (hsent : res.progress = .nothing)
    (hcode : validStatusCode res.statusCode = true) :
    ∃ headers, res.json node text = .ok
      ⟨res.statusCode, headers, .ended, res.chunks ++ [.json text]⟩ := by
  refine ⟨res.headers.set "Content-Type" "application/json; charset=utf-8", ?_⟩
  simp [Response.json, setHeader, headersSent, finish, writableEnded,
    implicitHeader, writeHead, hsent, hcode, bind, Except.bind, pure,
    Except.pure]

theorem Response.json_late (node : NodeErrors) {res : Response}
    (text : JsString) (hsent : res.progress ≠ .nothing) :
    ∃ e, res.json node text = .error e := by
  refine ⟨node.headersSent, ?_⟩
  rw [Response.json, setHeader, headersSent, if_pos (decide_eq_true hsent)]
  rfl

/-- Version 4, where `status` only sets the code. -/
def express4 (node : NodeErrors) : Express where
  status res code := .ok { res with statusCode := code }
  json := Response.json node
  status_sets h := by injection h with h; exact h.symm
  status_early _ _ := ⟨_, rfl⟩
  json_early := Response.json_early node
  json_late := Response.json_late node

/-- An Express whose `status` throws after the headers. -/
def expressStrict (node : NodeErrors) : Express where
  status res code :=
    if res.headersSent then .error node.headersSent
    else .ok { res with statusCode := code }
  json := Response.json node
  status_sets h := by
    split at h
    · cases h
    · injection h with h
      exact h.symm
  status_early hsent _ := ⟨_, if_neg (by simp [Response.headersSent, hsent])⟩
  json_early := Response.json_early node
  json_late := Response.json_late node

/-! ## The controller -/

/-- What a controller can do with the response. -/
inductive Op where
  | status (code : Nat)
  | setHeader (name value : String)
  | writeHead (code : Nat)
  | write (bytes : List UInt8)
  | finish (bytes : Option (List UInt8))

def Op.apply (node : NodeErrors) (express : Express) (op : Op)
    (res : Response) : Except NodeError Response :=
  match op with
  | .status code => express.status res code
  | .setHeader name value => res.setHeader node name value
  | .writeHead code => res.writeHead node code
  | .write bytes => res.write node (.data bytes)
  | .finish bytes => res.finish node (bytes.map .data)

/-- A property of what was thrown: it is not there (or nothing that JSON has),
there is this text for it, `JSON.stringify` throws on it, or it throws when it
is read. -/
inductive Field where
  | absent
  | text (written : JsString)
  | unwritable
  | unreadable
  deriving DecidableEq

/-- `error?.message` and `error?.constructor?.name`. -/
structure Thrown where
  message : Field
  type : Field
  deriving DecidableEq

def NodeError.thrown (e : NodeError) : Thrown :=
  ⟨.text (Json.quote e.message), .text (Json.quote e.name)⟩

inductive Exit where
  | returned
  | threw (e : Thrown)
  deriving DecidableEq

abbrev Controller := Program Op Response NodeError Exit

def Controller.exits (node : NodeErrors) (express : Express)
    (controller : Controller) : Exit × Response :=
  controller.run (Op.apply node express) .fresh

/-! ## The handler -/

/-- A property in an object that is made JSON, if it can be. -/
def Field.entry (name : String) : Field → Option (List (JsString × JsString))
  | .absent => some []
  | .text written => some [(js name, written)]
  | _ => none

/-- The message and the type that are sent. -/
def Thrown.shown (production : Bool) (e : Thrown) : Thrown where
  message := if production then .absent else e.message
  type := if production then .text (Json.quote (js "ERROR")) else e.type

/-- `JSON.stringify` of the error, with `none` if it throws. -/
def Thrown.errorText (e : Thrown) : Option JsString := do
  let message ← e.message.entry "message"
  let type ← e.type.entry "type"
  pure (Json.objectText [(js "error", Json.objectText (message ++ type))])

/-- The `catch` block: whether it throws, and what it leaves. -/
def catchBlock (express : Express) (production : Bool) (e : Thrown)
    (res : Response) : Bool × Response :=
  let shown := e.shown production
  if shown.message = .unreadable ∨ shown.type = .unreadable then (true, res)
  else
    match express.status res 500 with
    | .error _ => (true, res)
    | .ok res =>
        match shown.errorText with
        | none => (true, res)
        | some text =>
            match express.json res text with
            | .error _ => (true, res)
            | .ok res => (false, res)

/-- The `try` block. -/
def tryBlock (node : NodeErrors) (express : Express)
    (controller : Controller) : Exit × Response :=
  match controller.exits node express with
  | (.threw e, res) => (.threw e, res)
  | (.returned, res) =>
      if res.writableEnded then (.returned, res)
      else
        match res.finish node none with
        | .ok res => (.returned, res)
        | .error e => (.threw e.thrown, res)

/-- What the wrapped handler comes to. -/
structure Settled where
  rejected : Bool
  res : Response

/-- The `finally` block. -/
def finallyBlock (node : NodeErrors) (rejected : Bool) (res : Response) :
    Settled :=
  match res.finish node none with
  | .ok res => ⟨rejected, res⟩
  | .error _ => ⟨true, res⟩

/-- `end(controller)`, called with a request. -/
def HttpServerModule.endHandler (node : NodeErrors) (express : Express)
    (production : Bool) (controller : Controller) : Settled :=
  match tryBlock node express controller with
  | (.returned, res) => finallyBlock node false res
  | (.threw e, res) =>
      let (rejected, res) := catchBlock express production e res
      finallyBlock node rejected res

end IotHome.Server
