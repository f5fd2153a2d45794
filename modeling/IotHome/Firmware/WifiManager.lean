import IotHome.Lib.Numeral
import Mathlib.Algebra.Group.Nat.Defs

/-!
# Where the notifications go

`WifiManager.cpp`, as far as it works out addresses: that of the local server
is the device's own, with a 1 for its last octet. An address is an `u32_t`
whose lowest byte is its first octet. `getIpAddrBytes` takes the octets apart
into an array that is `static`: its initialiser runs when the first call comes
to it and never again, so what the first call leaves is state of the program.
-/

namespace IotHome.Firmware

/-- `u8_t[4]`. -/
structure IpBytes where
  b0 : UInt8
  b1 : UInt8
  b2 : UInt8
  b3 : UInt8

/-- The initialiser of `ip_bytes`. -/
def initIpBytes (ipAddr : UInt32) : IpBytes where
  b0 := (ipAddr &&& 0xFF).toUInt8
  b1 := ((ipAddr >>> 8) &&& 0xFF).toUInt8
  b2 := ((ipAddr >>> 16) &&& 0xFF).toUInt8
  b3 := (ipAddr >>> 24).toUInt8

/-- The static array: nothing before the first call. -/
abbrev WifiManager := Option IpBytes

def getIpAddrBytes (wm : WifiManager) (ipAddr : UInt32) :
    WifiManager × IpBytes :=
  let ipBytes := wm.getD (initIpBytes ipAddr)
  (some ipBytes, ipBytes)

/-- `getIpAddrStr`: a point behind every byte but the last. -/
def getIpAddrStr (b : IpBytes) : List Char :=
  [b.b0, b.b1, b.b2, b.b3].zipIdx.flatMap fun p =>
    Nat.toDigits 10 p.1.toNat ++ if p.2 < 3 then ['.'] else []

def getLocalServerIpAddrStr (wm : WifiManager) (ipAddr : UInt32) :
    WifiManager × List Char :=
  let (wm, b) := getIpAddrBytes wm ipAddr
  (wm, getIpAddrStr ⟨b.b0, b.b1, b.b2, 1⟩)

/-- What the calls return, one after the other. -/
def localServers (wm : WifiManager) : List UInt32 → List (List Char)
  | [] => []
  | ipAddr :: rest =>
      let (wm, server) := getLocalServerIpAddrStr wm ipAddr
      server :: localServers wm rest

/-! ## The own address -/

/-- `cyw43_state.mac`. -/
structure MacBytes where
  b0 : UInt8
  b1 : UInt8
  b2 : UInt8
  b3 : UInt8
  b4 : UInt8
  b5 : UInt8
  deriving DecidableEq

/-- `"%02x"` -/
def hexStr (b : UInt8) : List Char :=
  let digits := Nat.toDigits 16 b.toNat
  List.replicate (2 - digits.length) '0' ++ digits

/-- `getMacAddrStr`: a colon behind every byte but the last. -/
def getMacAddrStr (mac : MacBytes) : List Char :=
  [mac.b0, mac.b1, mac.b2, mac.b3, mac.b4, mac.b5].zipIdx.flatMap fun p =>
    hexStr p.1 ++ if p.2 < 5 then [':'] else []

/-! ## Octets -/

/-- An octet of an address, counted from 0. -/
def octet (ipAddr : UInt32) (k : Nat) : Nat := ipAddr.toNat / 256 ^ k % 256

/-- Decimal numbers with points between them. -/
def dotted (octets : List Nat) : List Char :=
  ['.'].intercalate (octets.map (Nat.toDigits 10))

theorem and_0xFF (n : Nat) : n &&& 0xFF = n % 256 :=
  Nat.and_two_pow_sub_one_eq_mod n 8

theorem initIpBytes_octets (ipAddr : UInt32) :
    (initIpBytes ipAddr).b0.toNat = octet ipAddr 0 ∧
      (initIpBytes ipAddr).b1.toNat = octet ipAddr 1 ∧
      (initIpBytes ipAddr).b2.toNat = octet ipAddr 2 := by
  refine ⟨?_, ?_, ?_⟩
  · simp [initIpBytes, octet, and_0xFF]
  · simp [initIpBytes, octet, and_0xFF, Nat.shiftRight_eq_div_pow]
  · simp [initIpBytes, octet, and_0xFF, Nat.shiftRight_eq_div_pow]

theorem getIpAddrStr_eq (b : IpBytes) :
    getIpAddrStr b =
      dotted [b.b0.toNat, b.b1.toNat, b.b2.toNat, b.b3.toNat] := by
  simp [getIpAddrStr, dotted, List.intercalate]

end IotHome.Firmware
