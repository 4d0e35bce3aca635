import Mathlib.Algebra.GroupWithZero.Nat
import Mathlib.Tactic.Common

/-!
# Internet addresses

Networks as ranges of a common prefix, and the properties Python's `ipaddress` gives an
address: which networks are private, reserved and so on. The lists are those of CPython 3.13.0;
later versions count 3fff::/20 as private too. An IPv4-mapped IPv6 address has the properties of
the address it maps.
-/

namespace SmartTest.Lib

/-! ## Networks -/

/-- The addresses of `bits` bits that have the first `length` bits of `base`. -/
structure Network (bits : Nat) where
  base : Nat
  length : Nat

namespace Network

variable {bits : Nat} {m n : Network bits} {ip : Nat}

def contains (n : Network bits) (ip : Nat) : Bool :=
  ip / 2 ^ (bits - n.length) = n.base / 2 ^ (bits - n.length)

/-- An address of a network is as far inside another one of no longer prefix as the network is. -/
theorem contains_eq (hlength : n.length ≤ m.length) (h : m.contains ip = true) :
    n.contains ip = n.contains m.base := by
  have hsplit : ∀ k, k / 2 ^ (bits - n.length) =
      k / 2 ^ (bits - m.length) / 2 ^ (bits - n.length - (bits - m.length)) := by
    intro k
    rw [Nat.div_div_eq_div_mul, ← Nat.pow_add]
    congr 2
    omega
  have hbegins : ip / 2 ^ (bits - m.length) = m.base / 2 ^ (bits - m.length) := of_decide_eq_true h
  unfold contains
  rw [hsplit ip, hbegins, ← hsplit m.base]

/-- Every address of the network is one of `m`. -/
def inside (n m : Network bits) : Bool := m.length ≤ n.length && m.contains n.base

/-- No address of the network is one of `m`. -/
def apart (n m : Network bits) : Bool :=
  if m.length ≤ n.length then !m.contains n.base else !n.contains m.base

theorem contains_of_inside (hinside : n.inside m = true) (h : n.contains ip = true) : m.contains ip = true := by
  simp only [inside, Bool.and_eq_true, decide_eq_true_eq] at hinside
  rw [contains_eq hinside.1 h, hinside.2]

theorem not_contains_of_apart (hapart : n.apart m = true) (h : n.contains ip = true) : m.contains ip = false := by
  unfold apart at hapart
  split at hapart
  · next hlength => simpa [contains_eq hlength h] using hapart
  · next hlength =>
    by_contra hother
    have hcontains : m.contains ip = true := by simpa using hother
    have hlonger : n.length ≤ m.length := by omega
    rw [contains_eq hlonger hcontains] at h
    simp [h] at hapart

/-- In one of the networks and in none of the exceptions. -/
def anyBut (networks exceptions : List (Network bits)) (ip : Nat) : Bool :=
  networks.any (·.contains ip) && exceptions.all fun network => !network.contains ip

theorem anyBut_of_contains {networks exceptions : List (Network bits)} (hinside : networks.any n.inside = true)
    (hapart : exceptions.all n.apart = true) (h : n.contains ip = true) : anyBut networks exceptions ip = true := by
  obtain ⟨network, hnetwork, hin⟩ := List.any_eq_true.mp hinside
  have hany : networks.any (·.contains ip) = true :=
    List.any_eq_true.mpr ⟨network, hnetwork, contains_of_inside hin h⟩
  have hall : exceptions.all (fun network => !network.contains ip) = true := by
    rw [List.all_eq_true] at hapart ⊢
    intro exception hexception
    simp [not_contains_of_apart (hapart exception hexception) h]
  rw [anyBut, hany, hall, Bool.and_true]

end Network

/-- A network of IPv4. -/
def net4 (a b c d length : Nat) : Network 32 := ⟨((a * 256 + b) * 256 + c) * 256 + d, length⟩

/-- A network of IPv6, by the first groups of its base. -/
def net6 (groups : List Nat) (length : Nat) : Network 128 :=
  ⟨groups.foldl (fun n group => n * 65536 + group) 0 * 65536 ^ (8 - groups.length), length⟩

/-! ## IPv4 -/

namespace IPv4

def privateNetworks : List (Network 32) :=
  [net4 0 0 0 0 8, net4 10 0 0 0 8, net4 127 0 0 0 8, net4 169 254 0 0 16, net4 172 16 0 0 12, net4 192 0 0 0 24,
    net4 192 0 0 170 31, net4 192 0 2 0 24, net4 192 168 0 0 16, net4 198 18 0 0 15, net4 198 51 100 0 24,
    net4 203 0 113 0 24, net4 240 0 0 0 4, net4 255 255 255 255 32]

def privateExceptions : List (Network 32) := [net4 192 0 0 9 32, net4 192 0 0 10 32]

def isPrivate : Nat → Bool := Network.anyBut privateNetworks privateExceptions

/-- Neither private nor in the shared address space. -/
def isGlobal (ip : Nat) : Bool := !(net4 100 64 0 0 10).contains ip && !isPrivate ip

def isLoopback (ip : Nat) : Bool := (net4 127 0 0 0 8).contains ip

def isLinkLocal (ip : Nat) : Bool := (net4 169 254 0 0 16).contains ip

def isMulticast (ip : Nat) : Bool := (net4 224 0 0 0 4).contains ip

def isReserved (ip : Nat) : Bool := (net4 240 0 0 0 4).contains ip

def isUnspecified (ip : Nat) : Bool := ip = 0

end IPv4

/-! ## IPv6 -/

namespace IPv6

def privateNetworks : List (Network 128) :=
  [net6 [0, 0, 0, 0, 0, 0, 0, 1] 128, net6 [] 128, net6 [0, 0, 0, 0, 0, 0xffff] 96, net6 [0x64, 0xff9b, 1] 48,
    net6 [0x100] 64, net6 [0x2001] 23, net6 [0x2001, 0xdb8] 32, net6 [0x2002] 16, net6 [0xfc00] 7, net6 [0xfe80] 10]

def privateExceptions : List (Network 128) :=
  [net6 [0x2001, 1, 0, 0, 0, 0, 0, 1] 128, net6 [0x2001, 1, 0, 0, 0, 0, 0, 2] 128, net6 [0x2001, 3] 32,
    net6 [0x2001, 4, 0x112] 48, net6 [0x2001, 0x20] 28, net6 [0x2001, 0x30] 28]

def reservedNetworks : List (Network 128) :=
  [net6 [] 8, net6 [0x100] 8, net6 [0x200] 7, net6 [0x400] 6, net6 [0x800] 5, net6 [0x1000] 4, net6 [0x4000] 3,
    net6 [0x6000] 3, net6 [0x8000] 3, net6 [0xa000] 3, net6 [0xc000] 3, net6 [0xe000] 4, net6 [0xf000] 5,
    net6 [0xf800] 6, net6 [0xfe00] 9]

def isPrivate : Nat → Bool := Network.anyBut privateNetworks privateExceptions

def isGlobal (ip : Nat) : Bool := !isPrivate ip

def isLoopback (ip : Nat) : Bool := ip = 1

def isLinkLocal (ip : Nat) : Bool := (net6 [0xfe80] 10).contains ip

def isMulticast (ip : Nat) : Bool := (net6 [0xff00] 8).contains ip

def isReserved (ip : Nat) : Bool := reservedNetworks.any (·.contains ip)

def isUnspecified (ip : Nat) : Bool := ip = 0

end IPv6

/-! ## Addresses -/

inductive IpAddress where
  | v4 (ip : Fin (2 ^ 32))
  | v6 (ip : Fin (2 ^ 128))

namespace IpAddress

/-- The address that an IPv4-mapped address maps, and otherwise the address itself: `address.ipv4_mapped or address`. -/
def unmapped : IpAddress → IpAddress
  | .v4 ip => .v4 ip
  | .v6 ip => if ip.val / 2 ^ 32 = 0xffff then .v4 (Fin.ofNat (2 ^ 32) ip.val) else .v6 ip

/-- The IPv4 address `a.b.c.d`. -/
def ofOctets (a b c d : Nat) : IpAddress := .v4 (Fin.ofNat (2 ^ 32) (((a * 256 + b) * 256 + c) * 256 + d))

/-- A property of addresses, which a mapped address has from the one it maps. -/
def property (of4 of6 : Nat → Bool) (address : IpAddress) : Bool :=
  match address.unmapped with
  | .v4 ip => of4 ip
  | .v6 ip => of6 ip

def isPrivate : IpAddress → Bool := property IPv4.isPrivate IPv6.isPrivate

def isGlobal : IpAddress → Bool := property IPv4.isGlobal IPv6.isGlobal

def isLoopback : IpAddress → Bool := property IPv4.isLoopback IPv6.isLoopback

def isLinkLocal : IpAddress → Bool := property IPv4.isLinkLocal IPv6.isLinkLocal

def isMulticast : IpAddress → Bool := property IPv4.isMulticast IPv6.isMulticast

def isReserved : IpAddress → Bool := property IPv4.isReserved IPv6.isReserved

def isUnspecified : IpAddress → Bool := property IPv4.isUnspecified IPv6.isUnspecified

/-- `address in network`, for the networks of its version. -/
def inNetworks (networks4 : List (Network 32)) (networks6 : List (Network 128)) : IpAddress → Bool
  | .v4 ip => networks4.any (·.contains ip)
  | .v6 ip => networks6.any (·.contains ip)

end IpAddress

end SmartTest.Lib
