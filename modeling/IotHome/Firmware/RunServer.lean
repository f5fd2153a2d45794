import IotHome.Firmware.HttpRequest
import IotHome.Firmware.WifiManager
import IotHome.Lib.HttpMessage

/-!
# A turn of the loop in `run_server`

Every second the device tells the local server its two addresses, in a text
that `sprintf` puts together. The Wi-Fi driver gives the addresses, in each
turn those that it has then, and lwIP what becomes of the connection.
-/

namespace IotHome.Firmware

open IotHome.Lib

/-- `ip4addr_ntoa`. -/
def ip4addrNtoa (ipAddr : UInt32) : List Char :=
  dotted [octet ipAddr 0, octet ipAddr 1, octet ipAddr 2, octet ipAddr 3]

/-- `sprintf(body, ..)`. -/
def notificationBody (mac ip : List Char) : List Char :=
  "\x7b\"mac\":\"".toList ++ mac ++ "\",\"ip\":\"".toList ++ ip ++
    "\"\x7d".toList

/-- What a turn finds. The version of lwIP is a text without blanks. -/
structure Turn where
  wm : WifiManager
  mac : MacBytes
  ipAddr : UInt32
  lwipVersion : List UInt8
  word : ∀ b ∈ lwipVersion, b ≠ 0 ∧ b ≠ 10 ∧ b ≠ 13 ∧ b ≠ 32
  memory : HttpcMemory
  network : HttpcNetwork

def Turn.body (t : Turn) : List Char :=
  notificationBody (getMacAddrStr t.mac) (ip4addrNtoa t.ipAddr)

/-- What `request` returns in this turn, and what is sent then. -/
def Turn.run (t : Turn) : ErrT × List (List UInt8) :=
  request t.memory t.network t.lwipVersion (asciiBytes "POST")
    (bytesOf (getLocalServerIpAddrStr t.wm t.ipAddr).2) 3335
    (asciiBytes "/device-notifications/set-is-online") (bytesOf t.body)

end IotHome.Firmware
