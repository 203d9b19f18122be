import MaskGateway.Runtime.Budget

/-!
# `MaskGateway.Runtime.Domain`: reconciliation of a cost plan with the ledger's limits

Model of `maskgw/runtime/domain.py`. A `DomainProfile` is the evidence record of an execution
domain, a `CostPlan` says what each slot of each owner costs, and `reconcile` compares both with
the `BudgetLimits` that the ledger of `Runtime/Budget.lean` will enforce. The verdict is ready when
no reason against it was found.

Numbers are integers. A value whose type is not exactly `int` is refused by the same `_number`
that refuses one out of range, and a record, enumeration member, label, tuple or flag of another
type is refused by the same exception; the types of the model leave these out.

A profile is trusted when it *is* one of the records of the registry `_PROFILES`, not when it
equals one, so a record carries the identity of its object. The registry is an argument: the
repository ships `shipped`, whose two records are not ready, and a new one enters it with its own
review. The outermost `except Exception` of `reconcile` is the answer to a failure of the
interpreter and has no counterpart here.
-/

set_option autoImplicit false

namespace MaskGateway.Runtime.Domain

open MaskGateway.Lib
open MaskGateway.Runtime.Budget (BudgetLimits maxNumber maxSlots)

/-- `_MAX_COSTS`. -/
def maxCosts : Nat := 64

/-- `_MAX_LABEL`. -/
def maxLabel : Nat := 256

/-- `_MIB`. -/
def mib : Int := 1024 * 1024

/-- `Quantity`. -/
inductive Quantity where
  | virtualAddressSpace
  | privateCommit
  | residentAndCharged
  deriving DecidableEq

/-- `MemberKind`. -/
inductive MemberKind where
  | none
  | asVirtual
  | jobPrivate
  deriving DecidableEq

/-- `AggregateKind`. -/
inductive AggregateKind where
  | none
  | strictProven
  | transientDocumented
  deriving DecidableEq

/-- `Coverage`. -/
inductive Coverage where
  | unknown
  | gapObserved
  | memberOnly
  | domainProven
  | excludedProven
  deriving DecidableEq

/-- The number of members of `CoverageVector`. -/
def coverageVectors : Nat := 10

/-- `CostOwner`. -/
inductive CostOwner where
  | base
  | headroom
  | worker
  | parent
  | candidate
  | generation
  | auxiliary
  deriving DecidableEq

/-- The members of `CostOwner`. -/
def CostOwner.all : List CostOwner :=
  [.base, .headroom, .worker, .parent, .candidate, .generation, .auxiliary]

/-- `CostLocation`. -/
inductive CostLocation where
  | inDomain
  | outOfDomain
  deriving DecidableEq

/-- `DomainReason`. -/
inductive DomainReason where
  | invalid
  | fault
  | unverifiedProfile
  | aggregateUnproven
  | memberLimitUnproven
  | coverageGap
  | creationUnproven
  | cleanupUnproven
  | unitMismatch
  | outsideUnproven
  | doubleCharge
  | missingCost
  | capacity
  | workerUnderReserved
  | outputUnderReserved
  | supervisorCost
  | topology
  | budgetExceeded
  | domainLimit
  deriving DecidableEq

/-- The members of `DomainReason`, in order. -/
def DomainReason.all : List DomainReason :=
  [.invalid, .fault, .unverifiedProfile, .aggregateUnproven, .memberLimitUnproven, .coverageGap,
   .creationUnproven, .cleanupUnproven, .unitMismatch, .outsideUnproven, .doubleCharge,
   .missingCost, .capacity, .workerUnderReserved, .outputUnderReserved, .supervisorCost, .topology,
   .budgetExceeded, .domainLimit]

/-- `DomainProfile`. The first field is the identity of the object. -/
structure DomainProfile where
  object : Nat
  name : String
  evidence : String
  memberKind : MemberKind
  memberQuantity : Quantity
  memberBytes : Option Int
  aggregateKind : AggregateKind
  aggregateQuantity : Quantity
  aggregateBytes : Option Int
  observedPeakBytes : Option Int
  vectors : List Coverage
  maxProcesses : Option Int
  maxTasks : Option Int
  membersAttachedAtCreation : Bool
  supervisorAttachedAtCreation : Bool
  limitsBeforeWork : Bool
  ownerLossCleanupProven : Bool
  deriving DecidableEq

/-- `Cost`. -/
structure Cost where
  identity : Int
  owner : CostOwner
  location : CostLocation
  quantity : Quantity
  bytesPerSlot : Int
  slots : Int
  bound : Option DomainProfile := none
  deriving DecidableEq

/-- The bytes of all slots of a cost. -/
def Cost.bytes (cost : Cost) : Int := cost.bytesPerSlot * cost.slots

/-- `CostPlan`. -/
structure CostPlan where
  quantity : Quantity
  costs : List Cost
  supervisorCostId : Int
  supervisorThreads : Int
  workerThreads : Int
  auxiliaryThreads : Int
  fixedAuxiliaries : Int
  fixedAuxiliaryThreads : Int
  fixedAuxiliaryCostId : Option Int
  frameBytes : Int
  outputOverheadBytes : Int
  deriving DecidableEq

/-- The rows of an owner, as `_cost_reasons` collects them. -/
def CostPlan.ownedBy (plan : CostPlan) (owner : CostOwner) : List Cost :=
  plan.costs.filter (·.owner = owner)

/-- The rows under an identity. -/
def CostPlan.identified (plan : CostPlan) (identity : Int) : List Cost :=
  plan.costs.filter (·.identity = identity)

/-- `DomainVerdict`. -/
structure DomainVerdict where
  ready : Bool
  reasons : List DomainReason
  insideBytes : Int := 0
  outsideBytes : Int := 0
  totalBytes : Int := 0
  deriving DecidableEq

/-! ### The shipped registry -/

/-- `LINUX_HELD_AS128`. -/
def linuxHeldAs128 : DomainProfile where
  object := 0
  name := "linux-held-as128"
  evidence := "docs/PHASE-9-STAGE-8-HELD-RUN-VALIDATION.md"
  memberKind := .asVirtual
  memberQuantity := .virtualAddressSpace
  memberBytes := some (128 * mib)
  aggregateKind := .transientDocumented
  aggregateQuantity := .residentAndCharged
  aggregateBytes := some (192 * mib)
  observedPeakBytes := some 138907648
  vectors := [.memberOnly, .memberOnly] ++ List.replicate 8 .unknown
  maxProcesses := some 2
  maxTasks := some 16
  membersAttachedAtCreation := true
  supervisorAttachedAtCreation := true
  limitsBeforeWork := true
  ownerLossCleanupProven := false

/-- `WINDOWS_JOB_PRIVATE32`. -/
def windowsJobPrivate32 : DomainProfile where
  object := 1
  name := "windows-job-private32"
  evidence := "docs/PHASE-9-STAGE-8-B2-B2A-VALIDATION.md"
  memberKind := .jobPrivate
  memberQuantity := .privateCommit
  memberBytes := some (32 * mib)
  aggregateKind := .none
  aggregateQuantity := .privateCommit
  aggregateBytes := none
  observedPeakBytes := none
  vectors := [.memberOnly, .gapObserved] ++ List.replicate 8 .unknown
  maxProcesses := some 2
  maxTasks := none
  membersAttachedAtCreation := true
  supervisorAttachedAtCreation := false
  limitsBeforeWork := true
  ownerLossCleanupProven := false

/-- `_PROFILES`. -/
def shipped : List DomainProfile := [linuxHeldAs128, windowsJobPrivate32]

/-! ### Validation

`_ValidationError` is the reason `INVALID` that `reconcile` answers with. -/

/-- `_number`. -/
def number (value : Int) (minimum : Int) (maximum : Nat) : Except DomainReason Unit :=
  refuseIf (¬ (minimum ≤ value ∧ value ≤ maximum)) .invalid

/-- `_optional`. -/
def optional (value : Option Int) (maximum : Nat) : Except DomainReason Unit :=
  match value with
  | none => .ok ()
  | some value => number value 1 maximum

/-- `_checked`. -/
def checked (value : Int) : Except DomainReason Int := do
  number value 0 maxNumber
  return value

/-- `_validate_profile`. -/
def validateProfile (profile : DomainProfile) : Except DomainReason Unit := do
  [profile.name, profile.evidence].forM fun label =>
    refuseIf (¬ (1 ≤ label.length ∧ label.length ≤ maxLabel ∧
      label.toList.all (fun c => decide (c.toNat < 128)))) .invalid
  [profile.memberBytes, profile.aggregateBytes, profile.observedPeakBytes].forM fun limit =>
    optional limit maxNumber
  [profile.maxProcesses, profile.maxTasks].forM fun capacity => optional capacity maxSlots
  refuseIf (¬ (profile.memberKind = .none ↔ profile.memberBytes = none) ∨
    ¬ (profile.aggregateKind = .none ↔ profile.aggregateBytes = none)) .invalid
  refuseIf (profile.vectors.length ≠ coverageVectors) .invalid

/-- One round of the loop over the costs in `_validate_plan`. -/
def validateCost (cost : Cost) : Except DomainReason Unit := do
  number cost.identity 1 maxNumber
  number cost.bytesPerSlot 1 maxNumber
  number cost.slots 1 maxSlots
  let _ ← checked cost.bytes
  match cost.bound with
  | none => return ()
  | some bound => do
      validateProfile bound
      refuseIf (cost.location = .inDomain) .invalid

/-- `_validate_plan`. -/
def validatePlan (plan : CostPlan) : Except DomainReason Unit := do
  refuseIf (¬ (1 ≤ plan.costs.length ∧ plan.costs.length ≤ maxCosts)) .invalid
  number plan.supervisorCostId 1 maxNumber
  [plan.supervisorThreads, plan.workerThreads, plan.auxiliaryThreads,
    plan.fixedAuxiliaryThreads].forM fun value => number value 1 maxSlots
  number plan.fixedAuxiliaries 0 maxSlots
  optional plan.fixedAuxiliaryCostId maxNumber
  number plan.frameBytes 1 maxNumber
  number plan.outputOverheadBytes 1 maxNumber
  let _ ← checked (2 * plan.frameBytes + plan.outputOverheadBytes)
  plan.costs.forM validateCost

/-! ### Reasons -/

/-- `result.add(reason)` under a condition. -/
def whenever (condition : Bool) (reason : DomainReason) : List DomainReason :=
  if condition then [reason] else []

/-- `_known`: the record is one of the registry. -/
def known (registry : List DomainProfile) (profile : DomainProfile) : Bool :=
  registry.any (·.object = profile.object)

/-- `_profile_reasons`. -/
def profileReasons (registry : List DomainProfile) (profile : DomainProfile) :
    List DomainReason :=
  whenever (!known registry profile) .unverifiedProfile
  ++ whenever (match profile.aggregateKind, profile.observedPeakBytes, profile.aggregateBytes with
      | .strictProven, some peak, some limit => limit < peak
      | _, _, _ => true) .aggregateUnproven
  ++ whenever (profile.memberKind = .none) .memberLimitUnproven
  ++ whenever (profile.memberKind = .asVirtual ∧ profile.memberQuantity ≠ .virtualAddressSpace ∨
      profile.memberKind = .jobPrivate ∧ profile.memberQuantity ≠ .privateCommit) .unitMismatch
  ++ whenever (profile.vectors.any fun value =>
      value ≠ .domainProven ∧ value ≠ .excludedProven) .coverageGap
  ++ whenever (!(profile.membersAttachedAtCreation && profile.supervisorAttachedAtCreation
      && profile.limitsBeforeWork)) .creationUnproven
  ++ whenever (!profile.ownerLossCleanupProven) .cleanupUnproven

/-- The logical sum of the costs at a location. -/
def bytesAt (plan : CostPlan) (location : CostLocation) : Int :=
  ((plan.costs.filter (·.location = location)).map (·.bytes)).sum

/-- `_totals`. -/
def totals (plan : CostPlan) : Except DomainReason (Int × Int) := do
  let inside ← checked (bytesAt plan .inDomain)
  let outside ← checked (bytesAt plan .outOfDomain)
  return (inside, outside)

/-- The loop over `seen`: an identity comes a second time. -/
def repeated (seen : List Int) : List Cost → Bool
  | [] => false
  | cost :: costs => seen.contains cost.identity || repeated (cost.identity :: seen) costs

/-- The table `expected`: how many slots the one row of an owner has to have. -/
def expected (limits : BudgetLimits) : List (CostOwner × Nat) :=
  [(.headroom, 1), (.worker, limits.workers), (.parent, limits.sessions),
   (.candidate, limits.candidates), (.generation, limits.generations),
   (.auxiliary, limits.auxiliaries)]

/-- The row of the supervisor is not one fixed cost inside the domain. -/
def badSupervisor (plan : CostPlan) : Bool :=
  match plan.identified plan.supervisorCostId with
  | [cost] => cost.owner ≠ .base ∨ cost.location ≠ .inDomain ∨ cost.slots ≠ 1
  | _ => true

/-- `_cost_reasons`. -/
def costReasons (plan : CostPlan) (limits : BudgetLimits) : List DomainReason :=
  let minimum := 2 * plan.frameBytes + plan.outputOverheadBytes
  whenever (repeated [] plan.costs) .doubleCharge
  ++ whenever (plan.costs.any (·.quantity ≠ plan.quantity)) .unitMismatch
  ++ whenever (CostOwner.all.any fun owner => (plan.ownedBy owner).isEmpty) .missingCost
  ++ whenever ((expected limits).any fun (owner, slots) =>
      (plan.ownedBy owner).length ≠ 1 ∨ (plan.ownedBy owner).any (·.slots ≠ slots)) .capacity
  ++ whenever (((plan.ownedBy .base).map (·.bytes)).sum ≠ limits.baseBytes ∨
      ((plan.ownedBy .headroom).map (·.bytes)).sum ≠ limits.headroomBytes) .capacity
  ++ whenever (badSupervisor plan) .supervisorCost
  ++ whenever ([CostOwner.worker, .parent].any fun owner =>
      (plan.ownedBy owner).any (·.location ≠ .inDomain)) .topology
  ++ whenever ((plan.ownedBy .parent).any (·.bytesPerSlot < minimum)) .outputUnderReserved

/-- The row of the fixed auxiliaries is not one fixed cost of their own inside the domain. -/
def badAuxiliaries (plan : CostPlan) : Bool :=
  match plan.costs.filter (fun cost => plan.fixedAuxiliaryCostId = some cost.identity) with
  | [cost] => cost.owner ≠ .base ∨ cost.location ≠ .inDomain ∨ cost.slots ≠ plan.fixedAuxiliaries ∨
      plan.fixedAuxiliaryCostId = some plan.supervisorCostId
  | _ => true

/-- `_topology`. -/
def topology (plan : CostPlan) (limits : BudgetLimits) (profile : DomainProfile) :
    Except DomainReason (List DomainReason) := do
  let processes ← checked (1 + limits.workers + limits.auxiliaries + plan.fixedAuxiliaries)
  let tasks ← checked (plan.supervisorThreads + limits.workers * plan.workerThreads
    + limits.auxiliaries * plan.auxiliaryThreads
    + plan.fixedAuxiliaries * plan.fixedAuxiliaryThreads)
  return whenever (limits.workers < limits.sessions ||
      match profile.maxProcesses, profile.maxTasks with
      | some maxProcesses, some maxTasks => maxProcesses < processes || maxTasks < tasks
      | _, _ => true) .topology
    ++ (if plan.fixedAuxiliaries ≠ 0 then whenever (badAuxiliaries plan) .missingCost
      else whenever plan.fixedAuxiliaryCostId.isSome .capacity)

/-- One round of the loop over the costs in `_outside_reasons`. -/
def outsideRound (registry : List DomainProfile) (plan : CostPlan)
    (round : List DomainReason × List Int) (cost : Cost) :
    Except DomainReason (List DomainReason × List Int) :=
  if cost.location ≠ .outOfDomain then .ok round
  else match cost.bound with
    | none => .ok (.outsideUnproven :: round.1, round.2)
    | some bound => do
        let groups ← (registry.zip round.2).mapM fun (item, group) =>
          if item.object = bound.object then checked (group + cost.bytes) else .ok group
        return (whenever (!known registry bound || !(profileReasons registry bound).isEmpty)
            .outsideUnproven
          ++ whenever (bound.aggregateQuantity ≠ plan.quantity) .unitMismatch ++ round.1, groups)

/-- `_outside_reasons`. -/
def outsideReasons (registry : List DomainProfile) (plan : CostPlan) :
    Except DomainReason (List DomainReason) := do
  let (result, groups) ← plan.costs.foldlM (outsideRound registry plan)
    ([], registry.map fun _ => 0)
  return result ++ whenever ((registry.zip groups).any fun (bound, total) =>
    total ≠ 0 ∧ bound.aggregateQuantity = plan.quantity ∧
      bound.aggregateBytes.any (· < total)) .domainLimit

/-- `_reconcile`. -/
def reconcileChecked (registry : List DomainProfile) (profile : DomainProfile) (plan : CostPlan)
    (limits : BudgetLimits) : Except DomainReason DomainVerdict := do
  validateProfile profile
  validatePlan plan
  if plan.costs.any (·.quantity ≠ plan.quantity) then
    return { ready := false, reasons := [.unitMismatch] }
  else
    let (inside, outside) ← totals plan
    let total ← checked (inside + outside)
    let shape ← topology plan limits profile
    let beyond ← outsideReasons registry plan
    let result := profileReasons registry profile ++ costReasons plan limits ++ shape ++ beyond
      ++ whenever (plan.quantity ≠ profile.aggregateQuantity ∨
          plan.quantity ≠ profile.memberQuantity) .unitMismatch
      ++ whenever (profile.memberQuantity = plan.quantity ∧ profile.memberBytes.any fun limit =>
          (plan.ownedBy .worker).any (·.bytesPerSlot < limit)) .workerUnderReserved
      ++ whenever ((limits.totalBytes : Int) < total) .budgetExceeded
      ++ whenever (profile.aggregateQuantity = plan.quantity ∧
          profile.aggregateBytes.any (· < inside)) .domainLimit
    let reasons := DomainReason.all.filter (result.contains ·)
    return { ready := reasons.isEmpty, reasons, insideBytes := inside, outsideBytes := outside,
             totalBytes := total }

/-- `reconcile`. -/
def reconcile (registry : List DomainProfile) (profile : DomainProfile) (plan : CostPlan)
    (limits : BudgetLimits) : DomainVerdict :=
  match reconcileChecked registry profile plan limits with
  | .ok verdict => verdict
  | .error reason => { ready := false, reasons := [reason] }

end MaskGateway.Runtime.Domain
