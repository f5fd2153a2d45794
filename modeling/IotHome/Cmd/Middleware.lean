import IotHome.Cmd.SerializeObject
import IotHome.Lib.JsonRead
import IotHome.Lib.NodePath

/-!
# The middleware of the command explorer

`cmdExpressMiddleware`: the handler of the pages, and behind it the controller
that runs a command. Both look at the path of a request for themselves, and
both may leave the response alone. `ended` has an entry for each call of
`res.end`; `rejects` says that the promise of the handler does.

What stands outside is a parameter: how a URL is read, what is found in the
directory of the pages, and what a command does with its arguments.
-/

namespace IotHome.Cmd

open IotHome.Lib
open IotHome.Server

/-- `CMD_URL_PATH`. -/
def cmdUrlPath : JsString := js "/cmd"

/-! ## Replies -/

/-- What `res.end` is called with. -/
inductive Body where
  | nothing
  | file (contentType : JsString) (content : List UInt8)
  /-- A JSON text, or `undefined`. -/
  | text (json : Option Json)

structure Reply where
  ended : List Body
  rejects : Bool

namespace Reply

def silent : Reply := ⟨[], false⟩

def rejected : Reply := ⟨[], true⟩

def endWith (body : Body) : Reply := ⟨[body], false⟩

/-- One piece of a handler, and the next, if it comes to that. -/
def andThen (first next : Reply) : Reply :=
  if first.rejects then first else ⟨first.ended ++ next.ended, next.rejects⟩

/-- The response has been ended once, and the promise is fulfilled. -/
def EndsOnce (reply : Reply) : Prop :=
  reply.ended.length = 1 ∧ reply.rejects = false

end Reply

/-! ## The outside -/

/-- What is read of a URL: its path, and `searchParams.get("args")`. -/
structure Url where
  pathname : JsString
  args : Option JsString

/-- What `fs.open` and `fs.readFile` come to. -/
inductive FileOutcome where
  | absent
  | unreadable
  | content (bytes : List UInt8)

/-- What is read of an error that has been thrown. -/
structure Thrown where
  name : Option JsString
  message : Option JsString
  stack : Option JsString

/-- What a command comes to. There is nothing of an error if it cannot be
read. -/
inductive Outcome (ρ : Type) where
  | returned (result : Read ρ)
  | threw (err : Option Thrown)

inductive ErrVerb where
  | v
  | vv

structure Site (ρ : Type) where
  /-- `new URL(url, "http://localhost")`. -/
  parseUrl : JsString → Option Url
  fileStaticPath : JsString
  openFile : JsString → FileOutcome
  /-- `CmdRunner.run`, of any JSON value. -/
  run : Json → Outcome ρ
  heap : ValueHeap ρ

variable {ρ : Type} (site : Site ρ)

/-! ## The pages -/

def mime : List (JsString × JsString) :=
  [(js ".html", js "text/html"), (js ".css", js "text/css"),
    (js ".js", js "application/javascript"), (js ".png", js "image/png"),
    (js ".ico", js "image/x-icon")]

/-- The name of the page that is looked for, and what it ends with. -/
def pageName (pathname : JsString) : JsString × JsString :=
  let base := PosixPath.base pathname
  let ext := PosixPath.ext base
  if ext ≠ [] then (base, ext) else (js "index.html", js ".html")

/-- The path of the page. The directory need not be absolute. -/
def searchedFile (pathname : JsString) : JsString :=
  NodePath.join site.fileStaticPath (pageName pathname).1

def page (pathname : JsString) : FileOutcome :=
  site.openFile (searchedFile site pathname)

def contentType (pathname : JsString) : JsString :=
  ((mime.lookup (pageName pathname).2).getD (js "application/octet-stream"))

/-- The path has that of the pages in it, wherever. -/
def isBelowCmd (pathname : JsString) : Bool :=
  decide (cmdUrlPath ++ js "/" <:+: pathname)

/-- `serveStaticCmdUi`. Its promise is fulfilled with `undefined`. -/
def serveStaticCmdUi (url : JsString) : Reply :=
  match site.parseUrl url with
  | none => .rejected
  | some { pathname, .. } =>
      if isBelowCmd pathname then
        match page site pathname with
        | .absent => .endWith .nothing
        | .unreadable => .rejected
        | .content bytes => .endWith (.file (contentType pathname) bytes)
      else .silent

/-! ## The controller -/

/-- What the controller writes of an error. -/
def reportError (errVerb : Option ErrVerb) (err : Thrown) : Reply :=
  let fields : List (JsString × Option JsString) :=
    [(js "name", err.name), (js "message", err.message)]
  let json (fields : List (JsString × Option JsString)) : Json :=
    .obj (fields.filterMap fun (key, text) => text.map fun s => (key, .str s))
  match errVerb with
  | none => .silent
  | some .v => .endWith (.text (some (json fields)))
  | some .vv =>
      .endWith (.text (some (json (fields ++ [(js "stack", err.stack)]))))

variable [DecidableEq ρ]

/-- `res.end(serializeObject(result))`. -/
def endWithResult (depth : Nat) (result : Read ρ) : Reply :=
  match serializeObject site.heap depth result with
  | none => .rejected
  | some json => .endWith (.text json)

def replyToOutcome (depth : Nat) (errVerb : Option ErrVerb) :
    Outcome ρ → Reply
  | .returned result => endWithResult site depth result
  | .threw none => .rejected
  | .threw (some err) =>
      (reportError errVerb err).andThen (endWithResult site depth .undefined)

/-- `cmdCtrl`. -/
def cmdCtrl (depth : Nat) (url : JsString) (errVerb : Option ErrVerb) :
    Reply :=
  match site.parseUrl url with
  | none => .rejected
  | some { pathname, args } =>
      if pathname ≠ cmdUrlPath then .silent
      else
        match Json.parse (args.getD (js "[]")) with
        | none => .rejected
        | some args => replyToOutcome site depth errVerb (site.run args)

/-- `cmdExpressMiddleware`, of a request with the given `req.url`. -/
def cmdExpressMiddleware (depth : Nat) (url : Option JsString) : Reply :=
  (serveStaticCmdUi site (url.getD [])).andThen
    (cmdCtrl site depth (url.getD []) none)

end IotHome.Cmd
