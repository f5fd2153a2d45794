import IotHome.Lib.UrlEncoded
import IotHome.Server.JsValue

/-!
# What the server puts into a URL

`querystring.stringify` of an object with a few named fields, and the path
the HTTP client makes of `http://ip:port/api?query`: it is
`url.pathname` and `url.searchParams` put together again, so the query has
been read into pairs and written anew by then.

The text of a field is computed before it is escaped, which is where a
string can turn out not to be writable.
-/

namespace IotHome.Server

open IotHome.Lib

/-- The text of a primitive; every other value is written as nothing. -/
def stringifyPrimitive : JsValue → Except JsError (List Char)
  | some (.str s) =>
      match scalars s with
      | none => .error .uriError
      | some cs => .ok cs
  | some (.num n) => .ok n.text
  | some (.bool b) => .ok (if b then "true".toList else "false".toList)
  | _ => .ok []

/-- The pairs one field is written as: an array gives one for each element. -/
def fieldPairs (field : String × JsValue) : Except JsError (List Pair) :=
  match field.2 with
  | some (.arr elems) =>
      elems.mapM fun v => do
        let text ← stringifyPrimitive (some v)
        pure (field.1.toList, text)
  | v => do
      let text ← stringifyPrimitive v
      pure [(field.1.toList, text)]

def stringifyPairs (fields : List (String × JsValue)) :
    Except JsError (List Pair) := do
  let pairs ← fields.mapM fieldPairs
  pure pairs.flatten

/-- `qs.stringify(obj)`. -/
def stringify (fields : List (String × JsValue)) :
    Except JsError (List Char) := (stringifyPairs fields).map queryOf

/-- The queries of several objects in one, `.join("&")`. -/
def joinQueries (parts : List (List Char)) : List Char :=
  ['&'].intercalate parts

/-- The query in the path of the request that is sent for a query. -/
def sentQuery (query : List Char) : Option (List Char) := reserialize query

/-- What is sent for several objects is all their pairs, in the alphabet of
`URLSearchParams`. -/
theorem sentQuery_join (pairs : List (List Pair)) :
    sentQuery (joinQueries (pairs.map queryOf)) =
      some (formSerialize pairs.flatten) := reserialize_join pairs

end IotHome.Server
