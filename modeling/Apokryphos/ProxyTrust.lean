import Apokryphos.RequestGuards

/-!
Which client a request comes from. A trusted peer may name the client and its
scheme in two headers. Whether a peer is trusted is a matter of the configured
networks and of the address as the listener reports it: nothing turns one form
of an address into another before it is looked up.
-/
namespace ProxyTrust
open RequestGuards ServerConfig Texts

structure IpLibrary where
  parse : String → Option IpAddr
  contains : IpNet → IpAddr → Bool

def isV4 : IpAddr → Bool
  | .v4 _ => true
  | .v6 _ => false

def IpLibrary.KeepsFamily (lib : IpLibrary) : Prop :=
  ∀ net bits, isV4 net.addr = true → lib.contains net (.v6 bits) = false

section Resolve
variable (lib : IpLibrary) (trustedProxies : List IpNet)

def peerTrusted (peerAddr : IpAddr) : Bool := trustedProxies.any fun net => lib.contains net peerAddr

def forwardedAddr (peerAddr : IpAddr) : Option String → IpAddr
  | some s => (((splitOn ',' s.toList).head?.map trimList).bind
      fun entry => lib.parse (String.ofList entry)).getD peerAddr
  | none => peerAddr

def forwardedScheme (peerScheme : EffectiveScheme) : Option String → EffectiveScheme
  | some s =>
    if eqIgnoreAsciiCase s.toList "https".toList then .https
    else if eqIgnoreAsciiCase s.toList "http".toList then .http
    else peerScheme
  | none => peerScheme

def resolveEffectiveAddress (peerAddr : IpAddr) (peerScheme : EffectiveScheme)
    (xForwardedFor xForwardedProto : Option String) : EffectiveAddress :=
  if trustedProxies.isEmpty then ⟨peerAddr, peerScheme⟩
  else if peerTrusted lib trustedProxies peerAddr = false then ⟨peerAddr, peerScheme⟩
  else ⟨forwardedAddr lib peerAddr xForwardedFor, forwardedScheme peerScheme xForwardedProto⟩

end Resolve

def localhost : IpAddr := .v4 0x7f000001

def peerAddress (connection : Option SocketAddr) : IpAddr := (connection.map SocketAddr.ip).getD localhost

/-- TLS ends in front of the server, so the peer itself speaks HTTP. -/
def middleware (lib : IpLibrary) (trustedProxies : List IpNet) (connection : Option SocketAddr)
    (request : Request) : Request :=
  let effective := resolveEffectiveAddress lib trustedProxies (peerAddress connection) .http
    ((request.header "x-forwarded-for").bind toStr) ((request.header "x-forwarded-proto").bind toStr)
  { request with effectiveAddress := some effective }

def addressFromRequest (request : Request) : IpAddr :=
  (request.effectiveAddress.map EffectiveAddress.addr).getD localhost

section Peers
variable {lib : IpLibrary} {trustedProxies : List IpNet} {peerAddr : IpAddr}

theorem resolve_untrusted (untrusted : peerTrusted lib trustedProxies peerAddr = false)
    (peerScheme : EffectiveScheme) (xForwardedFor xForwardedProto : Option String) :
    resolveEffectiveAddress lib trustedProxies peerAddr peerScheme xForwardedFor xForwardedProto =
      ⟨peerAddr, peerScheme⟩ := by
  unfold resolveEffectiveAddress
  rw [if_pos untrusted]
  exact ite_self _

theorem resolve_trusted (trusted : peerTrusted lib trustedProxies peerAddr = true)
    (peerScheme : EffectiveScheme) (xForwardedFor xForwardedProto : Option String) :
    resolveEffectiveAddress lib trustedProxies peerAddr peerScheme xForwardedFor xForwardedProto =
      ⟨forwardedAddr lib peerAddr xForwardedFor, forwardedScheme peerScheme xForwardedProto⟩ := by
  unfold resolveEffectiveAddress
  have listed : trustedProxies.isEmpty = false := by
    cases trustedProxies with
    | nil => cases trusted
    | cons net rest => rfl
  rw [listed, trusted]
  rfl

theorem forwardedAddr_cases (lib : IpLibrary) (xForwardedFor : Option String) :
    (∃ named, ∀ peerAddr, forwardedAddr lib peerAddr xForwardedFor = named) ∨
      ∀ peerAddr, forwardedAddr lib peerAddr xForwardedFor = peerAddr := by
  cases xForwardedFor with
  | none => exact Or.inr fun _ => rfl
  | some s =>
    simp only [forwardedAddr]
    cases ((splitOn ',' s.toList).head?.map trimList).bind
      fun entry => lib.parse (String.ofList entry) with
    | none => exact Or.inr fun _ => rfl
    | some named => exact Or.inl ⟨named,fun _ => rfl⟩

end Peers

/-- How a listener on an IPv6 address reports an IPv4 peer: `::ffff:a`. -/
def mapped (a : UInt32) : IpAddr := .v6 (BitVec.ofNat 128 (0xffff * 2 ^ 32 + a.toNat))

def canonical : IpAddr → IpAddr
  | .v4 a => .v4 a
  | .v6 bits =>
    if bits.toNat / 2 ^ 32 = 0xffff then .v4 (UInt32.ofNat (bits.toNat % 2 ^ 32)) else .v6 bits

theorem canonical_mapped (a : UInt32) : canonical (mapped a) = .v4 a := by
  have bound := a.toNat_lt
  have bits : (BitVec.ofNat 128 (0xffff * 2 ^ 32 + a.toNat)).toNat = 0xffff * 2 ^ 32 + a.toNat := by
    rw [BitVec.toNat_ofNat]
    omega
  have upper : (0xffff * 2 ^ 32 + a.toNat) / 2 ^ 32 = 0xffff := by omega
  have lower : (0xffff * 2 ^ 32 + a.toNat) % 2 ^ 32 = a.toNat := by omega
  rw [mapped, canonical, bits, if_pos upper, lower, UInt32.ofNat_toNat]

def Equivalent (e f : EffectiveAddress) : Prop :=
  canonical e.addr = canonical f.addr ∧ e.scheme = f.scheme

instance (e f : EffectiveAddress) : Decidable (Equivalent e f) :=
  inferInstanceAs (Decidable (_ ∧ _))

def SameDecision (lib : IpLibrary) (trustedProxies : List IpNet) (a : UInt32) : Prop :=
  peerTrusted lib trustedProxies (.v4 a) = peerTrusted lib trustedProxies (mapped a) ∧
    ∀ peerScheme xForwardedFor xForwardedProto, Equivalent
      (resolveEffectiveAddress lib trustedProxies (.v4 a) peerScheme xForwardedFor xForwardedProto)
      (resolveEffectiveAddress lib trustedProxies (mapped a) peerScheme xForwardedFor xForwardedProto)

theorem same_decision_iff (lib : IpLibrary) (trustedProxies : List IpNet) (a : UInt32) :
    SameDecision lib trustedProxies a ↔
      (peerTrusted lib trustedProxies (.v4 a) = peerTrusted lib trustedProxies (mapped a)) := by
  refine ⟨And.left,fun same => ⟨same,?_⟩⟩
  intro peerScheme xForwardedFor xForwardedProto
  cases decision : peerTrusted lib trustedProxies (.v4 a) with
  | false =>
    rw [resolve_untrusted decision, resolve_untrusted (same.symm.trans decision)]
    exact ⟨(canonical_mapped a).symm,rfl⟩
  | true =>
    rw [resolve_trusted decision, resolve_trusted (same.symm.trans decision)]
    refine ⟨?_,rfl⟩
    rcases forwardedAddr_cases lib xForwardedFor with ⟨named,always⟩ | direct
    · rw [always, always]
    · rw [direct, direct]
      exact (canonical_mapped a).symm

theorem mapped_trusted_iff {lib : IpLibrary} (families : lib.KeepsFamily)
    (trustedProxies : List IpNet) (a : UInt32) :
    peerTrusted lib trustedProxies (mapped a) = true ↔
      ∃ net ∈ trustedProxies, isV4 net.addr = false ∧ lib.contains net (mapped a) = true := by
  unfold peerTrusted
  rw [List.any_eq_true]
  constructor
  · rintro ⟨net,listed,inside⟩
    refine ⟨net,listed,?_,inside⟩
    by_contra v4
    rw [mapped, families net _ (by simpa using v4)] at inside
    cases inside
  · rintro ⟨net,listed,_,inside⟩
    exact ⟨net,listed,inside⟩

/-- An IPv4 peer is treated the same in both of its forms if and only if the
    listed networks contain both forms or neither, the mapped one in an IPv6
    network. -/
theorem representation_independent_iff {lib : IpLibrary} (families : lib.KeepsFamily)
    (trustedProxies : List IpNet) (a : UInt32) :
    SameDecision lib trustedProxies a ↔
      ((∃ net ∈ trustedProxies, lib.contains net (.v4 a) = true) ↔
        ∃ net ∈ trustedProxies, isV4 net.addr = false ∧ lib.contains net (mapped a) = true) := by
  have direct : peerTrusted lib trustedProxies (.v4 a) = true ↔
      ∃ net ∈ trustedProxies, lib.contains net (.v4 a) = true := by
    unfold peerTrusted
    rw [List.any_eq_true]
  rw [same_decision_iff, ← direct, ← mapped_trusted_iff families, Bool.eq_iff_iff]

def prefixContains (net : IpNet) : IpAddr → Bool
  | .v4 a =>
    match net.addr with
    | .v4 b => a.toNat / 2 ^ (32 - net.maskBits) == b.toNat / 2 ^ (32 - net.maskBits)
    | .v6 _ => false
  | .v6 a =>
    match net.addr with
    | .v4 _ => false
    | .v6 b => a.toNat / 2 ^ (128 - net.maskBits) == b.toNat / 2 ^ (128 - net.maskBits)

def readOctet (part : List Char) : Option Nat :=
  if part = [] ∨ part.length > 3 ∨ (part.length > 1 ∧ part.head? = some '0') then none
  else (readDigits 0 part).filter (· < 256)

def readDotted (s : String) : Option IpAddr :=
  match (splitOn '.' s.toList).mapM readOctet with
  | some [a, b, c, d] => some (.v4 (UInt32.ofNat (((a * 256 + b) * 256 + c) * 256 + d)))
  | _ => none

def plainLibrary : IpLibrary := ⟨readDotted, prefixContains⟩

theorem plainLibrary_families : plainLibrary.KeepsFamily := by
  intro net bits v4
  cases net with
  | mk addr maskBits =>
    cases addr with
    | v4 b => rfl
    | v6 b => cases v4

def tenNet : IpNet := ⟨.v4 0x0a000000, 8⟩

def mappedTenNet : IpNet := ⟨.v6 (BitVec.ofNat 128 0xffff0a000000), 104⟩

theorem representation_both_networks :
    SameDecision plainLibrary [tenNet, mappedTenNet] 0x0a000005 :=
  (representation_independent_iff plainLibrary_families _ _).mpr (by decide)

/-- A trusted proxy at `10.0.0.5` is believed by a listener on an IPv4 address, and
    not by one on an IPv6 address. -/
theorem mapped_proxy_untrusted :
    plainLibrary.KeepsFamily ∧
      resolveEffectiveAddress plainLibrary [tenNet] (.v4 0x0a000005) .http (some "203.0.113.7, 10.0.0.5")
        (some "https") = ⟨.v4 0xcb007107, .https⟩ ∧
      resolveEffectiveAddress plainLibrary [tenNet] (mapped 0x0a000005) .http
        (some "203.0.113.7, 10.0.0.5") (some "https") = ⟨mapped 0x0a000005, .http⟩ ∧
      ¬ SameDecision plainLibrary [tenNet] 0x0a000005 := by
  refine ⟨plainLibrary_families,by decide,by decide,?_⟩
  intro same
  exact absurd same.1 (by decide)

end ProxyTrust
