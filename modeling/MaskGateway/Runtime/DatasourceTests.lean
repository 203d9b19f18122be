import MaskGateway.Runtime.DatasourceService

/-!
# `MaskGateway.Runtime.DatasourceTests`: tests beside writes

The workers of `AdminWorkQueue` (`runtime/admin_work.py`) run `test_datasource` and the writes of
`DatasourceRuntimeService` at the same time. A write holds the lock of the service, and the store
changes at its one commit; a test holds no lock, and reads the store twice:

    test_datasource:   record (`_get`)  →  secret (`read_upstream_secret`)  →  reserve, connect

Each read is atomic, and so is a write for whoever reads the store, so that a run is a list of
writes, each at its commit, and of the steps of the tests between them.

`Workers.catalogs` and `Workers.connections` are not in the code: the catalogs that the store has
held, and the verification connections that tests opened.
-/

set_option autoImplicit false

namespace MaskGateway.Runtime.DatasourceTests

open Lib
open MaskGateway.Datasource MaskGateway.Runtime.Datasources
open MaskGateway.Runtime.Candidate MaskGateway.Runtime.DatasourceService

abbrev WorkerId := Nat

/-- A verification connection: what it was built from, and the target. -/
structure Connection where
  spec : CandidateSpec
  candidate : Candidate

section

variable (v : Validators) (crypto : Crypto) (net : Addressing)

/-- Where a worker is in `test_datasource`. -/
inductive Phase where
  | idle
  /-- It has the record. -/
  | holding (record : CatalogRecord v)
  /-- It has the secret too. -/
  | armed (record : CatalogRecord v) (secret : Name)

/-- The service, the workers, and what has been. -/
structure Workers where
  system : System v
  phases : List (Phase v)
  catalogs : List (CatalogStore v)
  connections : List Connection := []

/-- What happens next. -/
inductive Action where
  /-- another worker's call, or anything else that happens to the service -/
  | service (event : Event v)
  | readRecord (worker : WorkerId) (datasourceId : Name)
  | readSecret (worker : WorkerId)
  | connect (worker : WorkerId) (env : Surroundings)

variable {v}

/-- The workers of a service that was just opened. -/
def Workers.start (count : Nat) (system : System v) : Workers v where
  system := system
  phases := List.replicate count .idle
  catalogs := [system.service.store]

/-- A worker goes on elsewhere. -/
def Workers.goto (s : Workers v) (worker : WorkerId) (phase : Phase v) : Workers v :=
  { s with phases := s.phases.set worker phase }

/-- The end of `test_datasource`: the place in the registry, and the connection. -/
def Workers.connect (s : Workers v) (env : Surroundings) (spec : CandidateSpec)
    (datasourceId : Name) : Workers v :=
  match take env datasourceId none false s.system.service with
  | .error _ _ => s
  | .ok id service =>
      let s' := { s with system := { s.system with service := giveBack id service } }
      match target v { env with net := net } spec with
      | .error _ => s'
      | .ok candidate => { s' with connections := s.connections ++ [⟨spec, candidate⟩] }

/-- One step, where it can happen. -/
def step (s : Workers v) : Action v → Option (Workers v)
  | .service event =>
      (DatasourceService.step crypto s.system event).map fun system =>
        { s with system := system, catalogs := s.catalogs ++ [system.service.store] }
  | .readRecord worker datasourceId =>
      match s.phases[worker]? with
      | some .idle =>
          match testRecord datasourceId s.system.service with
          | .error _ => some s
          | .ok record => some (s.goto worker (.holding record))
      | _ => none
  | .readSecret worker =>
      match s.phases[worker]? with
      | some (.holding record) =>
          match readSecret crypto record.1.id s.system.service with
          | .error _ => some (s.goto worker .idle)
          | .ok secret => some (s.goto worker (.armed record secret))
      | _ => none
  | .connect worker env =>
      match s.phases[worker]? with
      | some (.armed record secret) =>
          some ((s.connect net env (.fromRecord record.1 secret) record.1.id).goto worker .idle)
      | _ => none

end

end MaskGateway.Runtime.DatasourceTests
