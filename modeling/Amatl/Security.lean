import Amatl.Externals

/-! URL and address checks made before any outbound navigation. -/

namespace Amatl

open Net

def publicV4 (address : Ipv4Addr) : Bool :=
  !(address.isPrivate || address.isLoopback || address.isLinkLocal || address.isBroadcast ||
    address.isDocumentation || address.isUnspecified || address.isMulticast ||
    address.a == 0 || 240 ≤ address.a ||
    (address.a == 100 && 64 ≤ address.b && address.b ≤ 127) ||
    (address.a == 192 && address.b == 0 && address.c == 0) ||
    (address.a == 198 && 18 ≤ address.b && address.b ≤ 19))

def publicV6 (address : Ipv6Addr) : Bool :=
  match address.toIpv4Mapped with
  | some mapped => publicV4 mapped
  | none =>
    !(address.isLoopback || address.isUnspecified || address.isMulticast ||
      address.segment 0 &&& 0xfe00 == 0xfc00 ||
      address.segment 0 &&& 0xffc0 == 0xfe80 ||
      (address.segment 0 == 0x2001 && address.segment 1 == 0x0db8))

def isPublicIp : IpAddr → Bool
  | .v4 address => publicV4 address
  | .v6 address => publicV6 address

def blockedSuffixes : List String :=
  [".localhost", ".local", ".localdomain", ".internal", ".intranet", ".lan", ".home"]

def blockedHostname (host : String) : Bool :=
  let host := (Text.trimEndBy (· == '.') host.toList).map Text.toAsciiLower
  !host.contains '.' || host == "localhost".toList ||
    blockedSuffixes.any (fun suffix => suffix.toList.isSuffixOf host)

section

variable {Url : Type} [UrlCrate Url]

open UrlCrate

/-- The error is the code the rejection is reported under. -/
def validateDeepUrl (url : Url) : Except String Unit :=
  if scheme url ≠ "http" ∧ scheme url ≠ "https" then .error "scheme_not_allowed"
  else if username url ≠ "" ∨ (password url).isSome then .error "embedded_credentials"
  else match host url with
    | none => .error "missing_host"
    | some (.domain name) => if blockedHostname name then .error "host_blocked" else .ok ()
    | some (.ipv4 address) =>
      if isPublicIp (.v4 address) then .ok () else .error "address_blocked"
    | some (.ipv6 address) =>
      if isPublicIp (.v6 address) then .ok () else .error "address_blocked"

def validateSearchUrl (raw : String) : Except String Url :=
  match (parse raw : Option Url) with
  | none => .error "invalid_url"
  | some url =>
    match validateDeepUrl url with
    | .error code => .error code
    | .ok () => .ok url

end

def validateResolvedAddresses (addresses : List IpAddr) : Except String Unit :=
  if addresses.isEmpty then .error "dns_empty"
  else if addresses.any (fun address => !isPublicIp address) then .error "address_blocked"
  else .ok ()

theorem validateResolvedAddresses_ok {addresses : List IpAddr}
    (h : validateResolvedAddresses addresses = .ok ()) :
    addresses ≠ [] ∧ ∀ address ∈ addresses, isPublicIp address = true := by
  unfold validateResolvedAddresses at h
  split_ifs at h with hempty hany
  refine ⟨by simpa using hempty, fun address hm => ?_⟩
  by_contra hp
  exact hany (List.any_eq_true.mpr ⟨address, hm, by simpa using hp⟩)

end Amatl
