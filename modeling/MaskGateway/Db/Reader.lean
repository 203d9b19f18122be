import MaskGateway.Masking.Values

/-!
# `MaskGateway.Db.Reader`: reading a result in masked batches

`PostgresAdapter._read_masked` (`db/postgres.py`): rows are fetched in batches, masked batch by
batch and cut at `max_rows`. One row more than the limit is asked for, to learn whether there
are more; it is dropped before it is masked.

The cursor is the driver's. `Cursor.fetchmany` is what the code calls on it, and `Serves` what
the driver's documentation promises of it: some of the next rows, no more than were asked for,
at least one while there are any, none at the end.
-/

set_option autoImplicit false

namespace MaskGateway.Db

open Masking Lib

/-- The part of a cursor that is read: `fetchmany`, which may raise. -/
structure Cursor (σ ρ δ : Type) where
  fetchmany : Nat → EStateM δ σ (List ρ)

/-- From this state on, the cursor hands out exactly these rows, in any batches. -/
inductive Serves {σ ρ δ : Type} (cursor : Cursor σ ρ δ) : σ → List ρ → Prop where
  | intro {s : σ} {rows : List ρ} (batch rest : Nat → List ρ) (next : Nat → σ)
      (fetch : ∀ n, 1 ≤ n → cursor.fetchmany n s = .ok (batch n) (next n))
      (divide : ∀ n, 1 ≤ n → batch n ++ rest n = rows)
      (length_le : ∀ n, 1 ≤ n → (batch n).length ≤ n)
      (some_row : ∀ n, 1 ≤ n → rows ≠ [] → batch n ≠ [])
      (later : ∀ n, 1 ≤ n → rows ≠ [] → Serves cursor (next n) (rest n)) :
      Serves cursor s rows

/-- What stops a reading. -/
inductive ReadError (δ ε : Type) where
  /-- `psycopg.Error`, from the cursor -/
  | driver (error : δ)
  /-- from the engine -/
  | mask (error : MaskError ε)

section Reader

variable (casefold : Name → Name) {τ ν ε ω : Type} (transformers : Transformers τ ν ε ω)
  (policy : MaskingPolicy τ) {σ δ : Type} (cursor : Cursor σ (List (Option ν)) δ)
  (batchSize limit : Nat) (columns : List ColumnDescriptor)

/-- The loop of `_read_masked`, from the rows that are masked so far. Each round that goes on
adds a row below the limit, whatever the cursor does. -/
def readLoop (masked : List (List (Option ν))) (s : σ) (w : ω) :
    EStateM.Result (ReadError δ ε) (σ × ω) (List (List (Option ν)) × Bool) :=
  match cursor.fetchmany (min batchSize (limit - masked.length + 1)) s with
  | .error e s' => .error (.driver e) (s', w)
  | .ok batch s' =>
      if batch = [] then .ok (masked, false) (s', w)
      else if hlimit : limit < masked.length + batch.length then
        -- the look-ahead row is cut off here, before any transformer sees it
        match maskRows casefold transformers policy columns
            (batch.take (limit - masked.length)) w with
        | .error e w' => .error (.mask e) (s', w')
        | .ok more w' => .ok (masked ++ more, true) (s', w')
      else
        match hmore : maskRows casefold transformers policy columns batch w with
        | .error e w' => .error (.mask e) (s', w')
        | .ok more w' => readLoop (masked ++ more) s' w'
termination_by limit - masked.length
decreasing_by
  rename_i hbatch
  have hlength : more.length = batch.length := length_maskRows hmore
  have hpos : 0 < batch.length := List.length_pos_iff.mpr hbatch
  rw [List.length_append]
  omega

/-- `_read_masked`: the masked rows, and whether there were more than `limit`. -/
def readMasked (s : σ) (w : ω) :
    EStateM.Result (ReadError δ ε) (σ × ω) (List (List (Option ν)) × Bool) :=
  readLoop casefold transformers policy cursor batchSize limit columns [] s w

end Reader

end MaskGateway.Db
