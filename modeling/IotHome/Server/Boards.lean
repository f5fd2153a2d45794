import IotHome.Firmware.RunServer
import IotHome.Lib.HttpMessage
import IotHome.Lib.Runs
import IotHome.Server.DeviceNotif

/-!
# The devices report themselves

The requests of any number of devices come to the server, each in whatever
chunks its body is read in, and handlers query the devices in between. A
request that is not sent is no event. Node's reader of requests is that of
the library.
-/

namespace IotHome.Server

open IotHome.Firmware
open IotHome.Lib

/-- `data.toString()`, of a text in ASCII. -/
def bufferText (data : List UInt8) : Option JsString :=
  if data.all (· < 128) then some (data.map UInt8.toUInt16) else none

/-- `getFullReqBody`, of the chunks that were read. -/
def fullReqBody (chunks : List (List UInt8)) : Option JsString :=
  bufferText chunks.flatten

inductive BoardEvent where
  | notified (turn : Turn) (chunks : List (List UInt8)) (now : JsString)
  | queried (mac : MapKey) (net : Network) (isOnline : Bool)

inductive BoardStep : DeclaredDevices → BoardEvent → DeclaredDevices → Prop
    where
  | notified {s : DeclaredDevices} {turn : Turn} {bytes : List UInt8}
      {req : Http.Request} {chunks : List (List UInt8)} {body now : JsString}
      (hsent : bytes ∈ turn.run.2)
      (hread : Http.readRequest bytes = some (req, []))
      (hchunks : chunks.flatten = req.body)
      (hbody : fullReqBody chunks = some body) :
      BoardStep s (.notified turn chunks now)
        (s.apply (.setIsOnline body now))
  | queried {s : DeclaredDevices} (mac : MapKey) (net : Network)
      (isOnline : Bool) :
      BoardStep s (.queried mac net isOnline)
        (s.apply (.queried mac net isOnline))

abbrev BoardRun : List BoardEvent → DeclaredDevices → Prop :=
  Run BoardStep .start

/-- The addresses that have been reported, oldest first. -/
def reports (es : List BoardEvent) : List (MacBytes × UInt32) :=
  es.filterMap fun e =>
    match e with
    | .notified turn _ _ => some (turn.mac, turn.ipAddr)
    | .queried _ _ _ => none

end IotHome.Server
