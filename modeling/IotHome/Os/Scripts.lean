import IotHome.Lib.PosixPath
import IotHome.Lib.Shell
import IotHome.Server.Messages

/-!
# Scripts that are run on request

`OsModule._wsMsgHandler`, as far as it runs a script. The name that comes in a
message is joined to the directory of the scripts, and the path goes into a
command for the shell as it is. `exec` refuses a command with a zero in it,
and what is not a text cannot be joined; then nothing is run.

The directory in which the server was started is a parameter.
-/

namespace IotHome.Os

open IotHome.Lib
open IotHome.Server

def scriptsDir (cwd : JsString) : JsString :=
  PosixPath.resolve cwd (js "os/scripts")

/-- `runScript`: the command that is given to the shell. -/
def runScript (cwd scriptFilename : JsString) : Option JsString :=
  let filepath := PosixPath.join (scriptsDir cwd) scriptFilename
  let command := js "node " ++ filepath
  if 0 ∈ command then none else some command

/-- The `scriptFilename` of a message that asks for a script. -/
def scriptFilename (data : JsString) : Option JsString :=
  let obj := parseMsg data
  if isText (getProp? obj "type") "RUN_SCRIPT" then
    match getProp? obj "scriptFilename" with
    | some (.str scriptFilename) => some scriptFilename
    | _ => none
  else none

/-- The command that a message leads to. -/
def wsMsgHandler (cwd data : JsString) : Option JsString :=
  (scriptFilename data).bind (runScript cwd)

end IotHome.Os
