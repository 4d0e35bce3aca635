import Mathlib.Algebra.GroupWithZero.Nat
import SmartTest.Lib.IpAddress

/-!
# The egress guards

The same policy four times: `HTTPAdapter._is_unsafe`, `DataFactoryExecutor._validate_public_url`,
`LoadTestExecutor._is_public_address` and `ConnectorClient._is_public`, without private hosts
that are allowed. The first two ask for `is_global` only, which is true of multicast addresses,
of most reserved ones and of two addresses in 192.0.0.0/24.
-/

open SmartTest.Lib

namespace SmartTest.Egress

/-- `HTTPAdapter._is_unsafe`. -/
def HttpAdapter.isUnsafe (address : IpAddress) : Bool := !address.isGlobal

/-- The check of `DataFactoryExecutor._validate_public_url` on the addresses of a host. -/
def DataFactoryExecutor.publicAddresses (addresses : List IpAddress) : Bool :=
  !(addresses.isEmpty || addresses.any fun address => !address.isGlobal)

/-- The conditions `_is_public_address` and `_is_public` share. -/
def globalOnly (candidate : IpAddress) : Bool :=
  candidate.isGlobal && !candidate.isPrivate && !candidate.isLoopback && !candidate.isLinkLocal &&
    !candidate.isMulticast && !candidate.isReserved && !candidate.isUnspecified

namespace LoadTestExecutor

/-- `_EXPLICITLY_BLOCKED_NETWORKS`. -/
def blocked (candidate : IpAddress) : Bool :=
  candidate.inNetworks [net4 0 0 0 0 8, net4 100 64 0 0 10, net4 192 0 0 0 24] []

def isPublicAddress (address : IpAddress) : Bool :=
  let candidate := address.unmapped
  if blocked candidate then false else globalOnly candidate

end LoadTestExecutor

namespace ConnectorClient

/-- `_BLOCKED_NETWORKS`. -/
def blocked (candidate : IpAddress) : Bool :=
  candidate.inNetworks [net4 0 0 0 0 8, net4 100 64 0 0 10, net4 192 0 0 0 24] [net6 [0x2001] 32, net6 [0x2002] 16]

def isPublic (address : IpAddress) : Bool :=
  let candidate := address.unmapped
  !blocked candidate && globalOnly candidate

end ConnectorClient

/-! ## What is global -/

/-- 192.0.0.0/24, of which Python takes two addresses for global. -/
def inProtocolBlock (address : IpAddress) : Bool := address.unmapped.inNetworks [net4 192 0 0 0 24] []

theorem unmapped_unmapped (address : IpAddress) : address.unmapped.unmapped = address.unmapped := by
  cases address with
  | v4 ip => rfl
  | v6 ip =>
    by_cases hmapped : ip.val / 2 ^ 32 = 0xffff
    · have hv4 : (IpAddress.v6 ip).unmapped = .v4 (Fin.ofNat (2 ^ 32) ip.val) := if_pos hmapped
      rw [hv4]
      rfl
    · have hv6 : (IpAddress.v6 ip).unmapped = .v6 ip := if_neg hmapped
      rw [hv6, hv6]

/-- A mapped address has the properties of the one it maps. -/
theorem property_unmapped (of4 of6 : Nat → Bool) (address : IpAddress) :
    address.unmapped.property of4 of6 = address.property of4 of6 := by
  unfold IpAddress.property
  rw [unmapped_unmapped]

/-- What `is_global` excludes by itself. -/
theorem global4 {ip : Nat} (h : IPv4.isGlobal ip = true) :
    IPv4.isPrivate ip = false ∧ IPv4.isLoopback ip = false ∧ IPv4.isLinkLocal ip = false ∧
      IPv4.isUnspecified ip = false ∧ (net4 0 0 0 0 8).contains ip = false ∧
      (net4 100 64 0 0 10).contains ip = false := by
  simp only [IPv4.isGlobal, Bool.and_eq_true, Bool.not_eq_true'] at h
  obtain ⟨hshared, hprivate⟩ := h
  have hoff : ∀ n : Network 32, IPv4.privateNetworks.any n.inside = true → IPv4.privateExceptions.all n.apart = true →
      n.contains ip = false := by
    intro n hinside hapart
    by_contra hcontains
    have hcontra := Network.anyBut_of_contains hinside hapart (by simpa using hcontains)
    cases hprivate.symm.trans hcontra
  refine ⟨hprivate, hoff _ (by decide) (by decide), hoff _ (by decide) (by decide), ?_, hoff _ (by decide) (by decide),
    hshared⟩
  simp only [IPv4.isUnspecified, decide_eq_false_iff_not]
  rintro rfl
  revert hprivate
  decide

theorem global6 {ip : Nat} (h : IPv6.isGlobal ip = true) :
    IPv6.isPrivate ip = false ∧ IPv6.isLoopback ip = false ∧ IPv6.isLinkLocal ip = false ∧
      IPv6.isUnspecified ip = false ∧ (net6 [0x2001] 32).contains ip = false ∧
      (net6 [0x2002] 16).contains ip = false := by
  simp only [IPv6.isGlobal, Bool.not_eq_true'] at h
  have hoff : ∀ n : Network 128, IPv6.privateNetworks.any n.inside = true → IPv6.privateExceptions.all n.apart = true →
      n.contains ip = false := by
    intro n hinside hapart
    by_contra hcontains
    have hcontra := Network.anyBut_of_contains hinside hapart (by simpa using hcontains)
    cases h.symm.trans hcontra
  refine ⟨h, ?_, hoff _ (by decide) (by decide), ?_, hoff _ (by decide) (by decide), hoff _ (by decide) (by decide)⟩
  · simp only [IPv6.isLoopback, decide_eq_false_iff_not]
    rintro rfl
    revert h
    decide
  · simp only [IPv6.isUnspecified, decide_eq_false_iff_not]
    rintro rfl
    revert h
    decide

/-- What the longer guards add to `is_global`. -/
theorem isPublicAddress_eq (address : IpAddress) : LoadTestExecutor.isPublicAddress address =
    (address.isGlobal && !address.isMulticast && !address.isReserved && !inProtocolBlock address) := by
  unfold LoadTestExecutor.isPublicAddress LoadTestExecutor.blocked globalOnly inProtocolBlock IpAddress.isGlobal
    IpAddress.isPrivate IpAddress.isLoopback IpAddress.isLinkLocal IpAddress.isMulticast IpAddress.isReserved
    IpAddress.isUnspecified
  simp only [property_unmapped]
  unfold IpAddress.property
  cases address.unmapped with
  | v4 ip =>
    by_cases hglobal : IPv4.isGlobal ip.val = true
    · obtain ⟨hprivate, hloopback, hlocal, hunspecified, hzero, hshared⟩ := global4 hglobal
      simp only [IpAddress.inNetworks, List.any_cons, List.any_nil, hglobal, hprivate, hloopback, hlocal, hunspecified,
        hzero, hshared, Bool.false_or, Bool.or_false, Bool.not_false, Bool.and_true, Bool.true_and]
      cases (net4 192 0 0 0 24).contains ip.val <;> simp
    · simp [Bool.eq_false_iff.mpr hglobal]
  | v6 ip =>
    by_cases hglobal : IPv6.isGlobal ip.val = true
    · obtain ⟨hprivate, hloopback, hlocal, hunspecified, -, -⟩ := global6 hglobal
      simp [IpAddress.inNetworks, hglobal, hprivate, hloopback, hlocal, hunspecified]
    · simp [Bool.eq_false_iff.mpr hglobal]

/-- The two networks that only the connectors block are private already. -/
theorem isPublic_eq (address : IpAddress) :
    ConnectorClient.isPublic address = LoadTestExecutor.isPublicAddress address := by
  unfold ConnectorClient.isPublic LoadTestExecutor.isPublicAddress
  cases hcandidate : address.unmapped with
  | v4 ip =>
    have hsame : ConnectorClient.blocked (.v4 ip) = LoadTestExecutor.blocked (.v4 ip) := rfl
    simp only [hsame]
    cases LoadTestExecutor.blocked (.v4 ip) <;> rfl
  | v6 ip =>
    by_cases hglobal : (IpAddress.v6 ip).isGlobal = true
    · have hown : (IpAddress.v6 ip).unmapped = .v6 ip := by rw [← hcandidate, unmapped_unmapped]
      have hglobal6 : IPv6.isGlobal ip.val = true := by
        rw [IpAddress.isGlobal, IpAddress.property, hown] at hglobal
        exact hglobal
      obtain ⟨-, -, -, -, hteredo, h6to4⟩ := global6 hglobal6
      simp [ConnectorClient.blocked, LoadTestExecutor.blocked, IpAddress.inNetworks, hteredo, h6to4]
    · simp [LoadTestExecutor.blocked, IpAddress.inNetworks, globalOnly, Bool.eq_false_iff.mpr hglobal]

/-- What no guard should accept. -/
def Special (address : IpAddress) : Prop :=
  address.isLoopback = true ∨ address.isPrivate = true ∨ address.isLinkLocal = true ∨ address.isMulticast = true ∨
    address.isReserved = true ∨ address.isUnspecified = true

theorem special_iff_of_global {address : IpAddress} (h : address.isGlobal = true) :
    Special address ↔ address.isMulticast = true ∨ address.isReserved = true := by
  have hnone : address.isPrivate = false ∧ address.isLoopback = false ∧ address.isLinkLocal = false ∧
      address.isUnspecified = false := by
    unfold IpAddress.isGlobal IpAddress.property at h
    unfold IpAddress.isPrivate IpAddress.isLoopback IpAddress.isLinkLocal IpAddress.isUnspecified IpAddress.property
    cases hcandidate : address.unmapped with
    | v4 ip =>
      rw [hcandidate] at h
      obtain ⟨hprivate, hloopback, hlocal, hunspecified, -, -⟩ := global4 h
      exact ⟨hprivate, hloopback, hlocal, hunspecified⟩
    | v6 ip =>
      rw [hcandidate] at h
      obtain ⟨hprivate, hloopback, hlocal, hunspecified, -, -⟩ := global6 h
      exact ⟨hprivate, hloopback, hlocal, hunspecified⟩
  obtain ⟨hprivate, hloopback, hlocal, hunspecified⟩ := hnone
  simp [Special, hprivate, hloopback, hlocal, hunspecified]

/-- The four guards, as whether they accept an address. -/
def guards : List (IpAddress → Bool) :=
  [fun address => !HttpAdapter.isUnsafe address, fun address => DataFactoryExecutor.publicAddresses [address],
    LoadTestExecutor.isPublicAddress, ConnectorClient.isPublic]

/-- The guards agree on an address, and accept it only if it is not special, exactly if it is not one of those that
`is_global` lets through: multicast or reserved, or in 192.0.0.0/24. -/
theorem egress_guards_agree_iff (address : IpAddress) :
    ((∀ guard ∈ guards, ∀ other ∈ guards, guard address = other address) ∧
      ∀ guard ∈ guards, guard address = true → ¬ Special address) ↔
    (address.isGlobal = true →
      address.isMulticast = false ∧ address.isReserved = false ∧ inProtocolBlock address = false) := by
  have hshort : (!HttpAdapter.isUnsafe address) = address.isGlobal := by simp [HttpAdapter.isUnsafe]
  have hfactory : DataFactoryExecutor.publicAddresses [address] = address.isGlobal := by
    simp [DataFactoryExecutor.publicAddresses]
  have hlong := isPublicAddress_eq address
  simp only [guards, List.forall_mem_cons, List.not_mem_nil, false_imp_iff, implies_true, and_true, hshort, hfactory,
    isPublic_eq, hlong]
  by_cases hglobal : address.isGlobal = true
  · rw [special_iff_of_global hglobal]
    cases address.isMulticast <;> cases address.isReserved <;> cases inProtocolBlock address <;> simp [hglobal]
  · simp [Bool.eq_false_iff.mpr hglobal]

def allHosts : IpAddress := .ofOctets 224 0 0 1

/-- A multicast address passes two of the guards. -/
theorem multicast_guards_differ : ¬ ((∀ guard ∈ guards, ∀ other ∈ guards, guard allHosts = other allHosts) ∧
    ∀ guard ∈ guards, guard allHosts = true → ¬ Special allHosts) := by
  rintro ⟨hagree, -⟩
  have hdiffer : (!HttpAdapter.isUnsafe allHosts) ≠ LoadTestExecutor.isPublicAddress allHosts := by decide +kernel
  exact hdiffer (hagree _ List.mem_cons_self _ (by simp [guards]))

end SmartTest.Egress
