import IotHome.Lib.Json
import IotHome.Lib.NodePath
import IotHome.Lib.UrlEncoded

/-!
# The static files of the home page

The route `/:filename` of `HomePage`, as far as the path of the file that its
controller reads. Express gives the controller what the route matches, decoded.
-/

namespace IotHome.Server

open IotHome.Lib

/-! ## `decodeURIComponent` -/

/-- The characters of bytes that came as `%XX`, if they are UTF-8. -/
def decodeBytes (bytes : List UInt8) : Option JsString :=
  (utf8Decode bytes).map fun cs => cs.flatMap utf16Encode

/-- What is left, some bytes waiting for those that belong to them. -/
def decodeFrom (bytes : List UInt8) : JsString → Option JsString
  | [] => decodeBytes bytes
  | u :: rest =>
      if u = unit '%' then
        match rest with
        | a :: b :: rest' => do
            let x ← Json.hexUnit a
            let y ← Json.hexUnit b
            decodeFrom (bytes ++ [UInt8.ofNat (16 * x + y)]) rest'
        | _ => none
      else do
        let front ← decodeBytes bytes
        let rest ← decodeFrom [] rest
        pure (front ++ u :: rest)

/-- `decodeURIComponent`, with `none` if it throws. -/
def decodeURIComponent (text : JsString) : Option JsString :=
  decodeFrom [] text

/-! ## The route -/

structure StaticHomePage where
  /-- What `:filename` matches of a request's path, if the route does. -/
  matchFilename : JsString → Option JsString
  localStaticFilesPath : JsString

variable (homepage : StaticHomePage)

/-- `req.params.filename`. What cannot be decoded comes to no controller. -/
def StaticHomePage.filenameParam (url : JsString) : Option JsString :=
  (homepage.matchFilename url).bind decodeURIComponent

/-- The path that `_getPageStaticFiles_ctrl` reads. -/
def StaticHomePage.getPageStaticFilesPath (url : JsString) : Option JsString :=
  (homepage.filenameParam url).map fun filename =>
    NodePath.join homepage.localStaticFilesPath (NodePath.basename filename)

end IotHome.Server
