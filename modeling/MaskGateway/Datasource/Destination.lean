import MaskGateway.Datasource.Models

/-!
# `MaskGateway.Datasource.Destination`: where a datasource may be

`datasource/destination.py`. A host is resolved, every address is checked, and the set of addresses
is compared with the one that was pinned before.

What `ipaddress` says of a text is a parameter (`Addressing`), and so is what the resolver answers.
-/

set_option autoImplicit false

namespace MaskGateway.Datasource

open Lib

/-- What `ipaddress` says of an address. -/
structure Addressing where
  /-- `ip_address(text)`, with an IPv4-mapped address taken as its IPv4, `.compressed`. -/
  canonical : Name → Option Name
  isLoopback : Name → Bool
  isUnspecified : Name → Bool
  isLinkLocal : Name → Bool
  isMulticast : Name → Bool
  isPrivate : Name → Bool
  isGlobal : Name → Bool

/-- `_METADATA_ADDRESSES`. -/
def metadataAddresses : List Name :=
  ["100.100.100.200".toList, "169.254.169.254".toList, "169.254.170.2".toList]

section

variable (v : Validators) (net : Addressing)

/-- The error of an address that does not parse, or is refused. -/
def destinationError (message : String) : StoreError := ⟨.destination, message⟩

/-- `DestinationChangedError`, which has no text of its own. -/
def destinationChanged : StoreError := ⟨.destination, "modelo de datasource invalido"⟩

/-- One address of `_canonical_addresses`. -/
def canonicalAddress (raw : Name) : Except StoreError Name :=
  match net.canonical raw with
  | some address => .ok address
  | none => .error (destinationError "endereco resolvido invalido")

/-- `_canonical_addresses`: the set, in order. -/
def canonicalAddresses (addresses : List Name) : Except StoreError (List Name) := do
  let normalized ← addresses.mapM (canonicalAddress net)
  refuseIf (normalized = []) (destinationError "destino nao resolvido")
  return normalized.dedup.insertionSort fun a b => @LE.le Name List.instLE a b

/-- `_validate_address`. -/
def validateAddress (address host : Name) (policy : DestinationPolicy) :
    Except StoreError Unit := do
  let canonical ← canonicalAddress net address
  refuseIf (canonical ∈ metadataAddresses) (destinationError "destino de metadata recusado")
  if net.isLoopback canonical then
    refuseIf (policy.allowLoopback = false) (destinationError "loopback recusado")
  else
    refuseIf (net.isUnspecified canonical || net.isLinkLocal canonical || net.isMulticast canonical)
      (destinationError "destino especial recusado")
    if net.isPrivate canonical then return
    refuseIf (net.isGlobal canonical = false) (destinationError "destino reservado recusado")
    refuseIf (policy.allowPublic = false ∨ v.lower host ∉ policy.allowedHosts)
      (destinationError "destino global nao autorizado")

/-- The pinned addresses, where there are any, are those that were resolved. -/
def checkPinned (resolved : List Name) : Option (List Name) → Except StoreError Unit
  | none => .ok ()
  | some expected =>
      match canonicalAddresses net expected with
      | .error _ => .error destinationChanged
      | .ok expected => refuseIf (resolved ≠ expected) destinationChanged

/-- `resolve_destination`: the addresses. The policy is always given. -/
def resolveDestination (host : Name) (port : Nat) (policy : DestinationPolicy)
    (resolver : Name → Nat → Except StoreError (List Name)) (expected : Option (List Name)) :
    Except StoreError (List Name) := do
  refuseIf (validHost v host = false) ⟨.validation, "host invalido"⟩
  refuseIf (¬ (1 ≤ port ∧ port ≤ 65535)) (destinationError "porta invalida")
  let resolved ← canonicalAddresses net (← resolver host port)
  resolved.forM fun address => validateAddress v net address host policy
  checkPinned net resolved expected
  return resolved

/-- `draft.resolved_addresses or None`. -/
def pinned : List Name → Option (List Name)
  | [] => none
  | addresses => some addresses

end

end MaskGateway.Datasource
