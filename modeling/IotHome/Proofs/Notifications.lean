import IotHome.Firmware.WifiManager

/-!
# The server that the device notifies

The octets of the device's address are those of the first round of the main
loop for good, so the requests go to a server of the network the device was in
then (`localServers_iff`).
-/

namespace IotHome.Firmware

open IotHome.Lib

def localServer (ipAddr : UInt32) : List Char :=
  dotted [octet ipAddr 0, octet ipAddr 1, octet ipAddr 2, 1]

/-- The first three octets of an address. -/
def network (ipAddr : UInt32) : Nat := ipAddr.toNat % 256 ^ 3

theorem dotted_singleton (n : Nat) : dotted [n] = Nat.toDigits 10 n := by
  simp [dotted]

theorem dotted_cons_cons (m n : Nat) (ns : List Nat) :
    dotted (m :: n :: ns) = Nat.toDigits 10 m ++ '.' :: dotted (n :: ns) := by
  simp [dotted, List.intercalate]

/-- The first number reads back up to its point. -/
theorem readInt_dotted (n : Nat) (ns : List Nat) :
    readInt (dotted (n :: ns)) = n := by
  cases ns with
  | nil => rw [dotted_singleton, ← List.append_nil (Nat.toDigits 10 n),
      readInt_toDigits_append (by simp)]
  | cons n' ns => rw [dotted_cons_cons, readInt_toDigits_append (by simp)]

theorem dotted_inj {ms ns : List Nat} (hlen : ms.length = ns.length)
    (h : dotted ms = dotted ns) : ms = ns := by
  induction ms generalizing ns with
  | nil => exact (List.length_eq_zero_iff.1 hlen.symm).symm
  | cons m ms ih =>
      obtain ⟨n, ns, rfl⟩ := List.exists_cons_of_length_eq_add_one hlen.symm
      have hrest : ms.length = ns.length := Nat.succ.inj hlen
      obtain rfl : m = n := by
        have hread := congrArg readInt h
        rwa [readInt_dotted, readInt_dotted, Int.ofNat_inj] at hread
      cases ms with
      | nil => rw [List.length_eq_zero_iff.1 hrest.symm]
      | cons m' ms =>
          obtain ⟨n', ns, rfl⟩ :=
            List.exists_cons_of_length_eq_add_one hrest.symm
          rw [dotted_cons_cons, dotted_cons_cons] at h
          have htail := List.append_cancel_left h
          rw [ih hrest (List.cons.inj htail).2]

theorem localServer_eq_iff (a b : UInt32) :
    localServer a = localServer b ↔ network a = network b := by
  have hoctets : localServer a = localServer b ↔
      [octet a 0, octet a 1, octet a 2, 1] =
        [octet b 0, octet b 1, octet b 2, 1] :=
    ⟨fun h => dotted_inj rfl h, congrArg dotted⟩
  rw [hoctets]
  simp only [network, octet, List.cons.injEq, and_true]
  omega

theorem initIpBytes_str (ipAddr : UInt32) :
    getIpAddrStr { initIpBytes ipAddr with b3 := 1 } = localServer ipAddr := by
  obtain ⟨h0, h1, h2⟩ := initIpBytes_octets ipAddr
  rw [getIpAddrStr_eq]
  simp only [h0, h1, h2]
  rfl

/-- After the first call the array is what it is. -/
theorem localServers_some (b : IpBytes) (ipAddrs : List UInt32) :
    localServers (some b) ipAddrs =
      ipAddrs.map fun _ => getIpAddrStr { b with b3 := 1 } := by
  induction ipAddrs with
  | nil => rfl
  | cons ipAddr rest ih => exact congrArg (_ :: ·) ih

theorem localServers_none (first : UInt32) (rest : List UInt32) :
    localServers none (first :: rest) =
      (first :: rest).map fun _ => localServer first := by
  have hfirst : localServers none (first :: rest) =
      getIpAddrStr { initIpBytes first with b3 := 1 } ::
        localServers (some (initIpBytes first)) rest := rfl
  rw [hfirst, localServers_some, initIpBytes_str, List.map_cons]

theorem localServers_iff (ipAddrs : List UInt32) :
    localServers none ipAddrs = ipAddrs.map localServer ↔
      ∀ first ∈ ipAddrs.head?, ∀ ipAddr ∈ ipAddrs,
        network ipAddr = network first := by
  cases ipAddrs with
  | nil => simp [localServers]
  | cons first rest =>
      rw [localServers_none, List.map_inj_left]
      simp only [localServer_eq_iff, List.head?_cons, Option.mem_some_iff,
        forall_eq']
      exact forall₂_congr fun ipAddr _ => eq_comm

/-- From 192.168.0.2 the device comes to 192.168.1.2. -/
theorem not_localServers_eq : ¬ ∀ ipAddrs : List UInt32,
    localServers none ipAddrs = ipAddrs.map localServer := by
  intro h
  have hservers := h [0x0200A8C0, 0x0201A8C0]
  revert hservers
  decide

end IotHome.Firmware
