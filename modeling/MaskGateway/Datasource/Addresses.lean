import MaskGateway.Datasource.Destination
import MaskGateway.Lib.IpAddress

/-!
# `MaskGateway.Datasource.Addresses`: what a destination policy says of an address

`datasource/destination.py` asks `ipaddress` two things of a text: which address it is, and in
which classes that address is. The first is modelled here (`spelled`, over `Lib.IpAddress`), the
second is a parameter (`Classes`).

Over it stands what the policy is for: `Allowed` is said of an address, not of a text, and
`SameAddresses` says when two answers of a resolver name the same addresses.
-/

set_option autoImplicit false

namespace MaskGateway.Datasource

open Lib

/-- The classes that `ipaddress` puts an address in. -/
structure Classes where
  isLoopback : IPAddress → Bool
  isUnspecified : IPAddress → Bool
  isLinkLocal : IPAddress → Bool
  isMulticast : IPAddress → Bool
  isPrivate : IPAddress → Bool
  isGlobal : IPAddress → Bool

/-- The address that a text spells, with an IPv4-mapped address taken as its IPv4. -/
def spelled (text : Name) : Option IPAddress :=
  (ipAddress text).map IPAddress.unmapped

/-- `ipaddress`, as `_canonical_addresses` and `_validate_address` use it. -/
def Addressing.ofClasses (classes : Classes) : Addressing where
  canonical text := (spelled text).map IPAddress.compressed
  isLoopback text := (spelled text).any classes.isLoopback
  isUnspecified text := (spelled text).any classes.isUnspecified
  isLinkLocal text := (spelled text).any classes.isLinkLocal
  isMulticast text := (spelled text).any classes.isMulticast
  isPrivate text := (spelled text).any classes.isPrivate
  isGlobal text := (spelled text).any classes.isGlobal

/-- What the policy lets a host resolve to. -/
def Allowed (v : Validators) (classes : Classes) (host : Name) (policy : DestinationPolicy)
    (address : IPAddress) : Prop :=
  address.compressed ∉ metadataAddresses ∧
    if classes.isLoopback address then policy.allowLoopback = true
    else
      classes.isUnspecified address = false ∧ classes.isLinkLocal address = false ∧
        classes.isMulticast address = false ∧
        (classes.isPrivate address = true ∨
          classes.isGlobal address = true ∧ policy.allowPublic = true ∧
            v.lower host ∈ policy.allowedHosts)

/-- The texts of two lists spell the same addresses, whatever their order, number and spelling.
A text that spells no address counts as one. -/
def SameAddresses (texts texts' : List Name) : Prop :=
  ∀ address, address ∈ texts.map spelled ↔ address ∈ texts'.map spelled

end MaskGateway.Datasource
