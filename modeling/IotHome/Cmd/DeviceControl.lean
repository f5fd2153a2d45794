import IotHome.Cmd.Arg
import IotHome.Server.Device

/-!
# The `select` command

`DeviceControlCmdTree.select`: the pins and the values of the line are
collected into two lists, put side by side by index, and sent as one query.
The completion lists of the help branch are left out; which argument help was
asked for decides only that nothing is sent.
-/

namespace IotHome.Cmd

open IotHome.Lib
open IotHome.Server

/-- What a command line comes to. -/
inductive Selected where
  | help (name : JsString)
  | dryRun (query : List Char)
  | request (query : List Char)
  deriving DecidableEq

/-- `params`: an object for each pin of the line. -/
def selectParams (A : Arg) : List (List (String × JsValue)) :=
  let selectedValues := A.getListValueOf (js "--val")
  (A.getListValueOf (js "--pin")).mapIdx fun i pin =>
    if A.has (js "set") then
      [("pin", some (.str pin)), ("val", selectedValues[i]?.map .str)]
    else if A.has (js "get") then [("pin", some (.str pin))]
    else []

/-- `select`, with the store's `getDeviceList`. A name that selects no device
leaves `undefined` to be given an `isOnline`. -/
def select (getDeviceList : JsString → List Device) (args : List JsString) :
    Except JsError Selected :=
  let A := Arg.ofArgs args
  match A.getArgNeedHelp with
  | some name => .ok (.help name)
  | none =>
      let selectedDeviceMac := (A.getValueOf (js "--dev-name")).getD (js "")
      match getDeviceList selectedDeviceMac with
      | [] => .error .typeError
      | _ :: _ => do
          let parts ← (selectParams A).mapM stringify
          let query := joinQueries parts
          if A.hasName (js "--dry-run") then pure (.dryRun query)
          else pure (.request query)

end IotHome.Cmd
