import MaskGateway.Runtime.Snapshot

/-!
# `MaskGateway.Proofs.Runtime.SnapshotSecrets`: the recorded secrets are the ones that are needed

A compilation with `RecordingSecrets`, and the same compilation with `_ClosedSecrets` over what was
recorded. The recorder knows at most one name, so what it has recorded is a key or nothing (`recorded`),
and along a compilation that succeeds it only goes from nothing to a key. `Mirrors` is what one step
keeps: the closed secrets have been read exactly as far as the recorder has recorded. The run over the
rules is `compileRules_mirrors`, and `compilePolicy_closed` says it of a whole compilation.

The source of the recorder is any state: what it would answer later does not matter, since the first
value read is kept.
-/

set_option autoImplicit false

namespace MaskGateway.Proofs.Runtime.Snapshot

open MaskGateway.Runtime.Snapshot MaskGateway.Masking MaskGateway.Config MaskGateway.Lib
open MaskGateway.Datasource (Json)

/-- What has been recorded: nothing, or a key. -/
def recorded : Option Name → List (Name × Option Name)
  | none => []
  | some key => [(hmacKeyEnv, some key)]

/-- The secrets of a snapshot: none, or the key. -/
def secretsOf : Option Name → List (Name × Name)
  | none => []
  | some key => [(hmacKeyEnv, key)]

/-- The closed secrets, read as far as the recorder has recorded. -/
def closedAt (last now : Option Name) : ClosedSecrets :=
  ⟨secretsOf last, now.toList.map fun _ => hmacKeyEnv⟩

/-- Nothing more is recorded once there is a key. -/
def Extends (before after : Option Name) : Prop := before = none ∨ before = after

theorem Extends.trans {a b c : Option Name} (h : Extends a b) (h' : Extends b c) : Extends a c := by
  rcases h with rfl | rfl
  · exact .inl rfl
  · exact h'

/-- What is captured of a recorder. -/
theorem captured_recorded {σ : Type} (source : σ) (key : Option Name) :
    (Recording.mk source (recorded key)).captured = secretsOf key := by
  cases key <;> rfl

section

variable {σ : Type} {texts : Texts} {source : SecretSource σ}

/-- What a step of the compilation does: the recorder goes on from one key to another, and the same
step with closed secrets that hold the last key gives the same result. -/
def Mirrors {α ε : Type} (record : Recording σ → Except ε (α × Recording σ))
    (close : ClosedSecrets → Except ε (α × ClosedSecrets)) : Prop :=
  ∀ (state : σ) (key : Option Name) (result : α) (after : Recording σ),
    record ⟨state, recorded key⟩ = .ok (result, after) →
    ∃ state' key', after = ⟨state', recorded key'⟩ ∧ Extends key key' ∧
      ∀ last, Extends key' last → close (closedAt last key) = .ok (result, closedAt last key')

/-- One secret is read: the key is recorded, and found among the closed secrets. -/
theorem get_mirrors {state : σ} {key value : Option Name} {after : Recording σ}
    (h : (recording source).get hmacKeyEnv ⟨state, recorded key⟩ = .ok (value, after))
    (hvalue : value.isSome = true) :
    ∃ state', after = ⟨state', recorded value⟩ ∧ Extends key value ∧
      closedSecrets.get hmacKeyEnv (closedAt value key) = .ok (value, closedAt value value) := by
  obtain ⟨found, rfl⟩ := Option.isSome_iff_exists.mp hvalue
  have hself : (hmacKeyEnv == hmacKeyEnv) = true := beq_self_eq_true _
  cases key with
  | some key =>
      -- it has been recorded before
      simp only [recording, recorded, ne_eq, not_true, if_false, List.lookup_cons, hself] at h
      cases h
      exact ⟨state, rfl, .inr rfl, by simp [closedSecrets, closedAt, secretsOf]⟩
  | none =>
      simp only [recording, recorded, ne_eq, not_true, if_false, List.lookup_nil] at h
      cases hread : source.read hmacKeyEnv state with
      | none =>
          rw [hread] at h
          cases h
      | some read =>
          obtain ⟨answer, rest⟩ := read
          rw [hread] at h
          cases h
          exact ⟨rest, rfl, .inl rfl, by simp [closedSecrets, closedAt, secretsOf]⟩

/-- `hmac_sha256` is built from the same key. -/
theorem buildHmacSha256_mirrors (config : List (Name × Json)) :
    Mirrors (buildHmacSha256 texts (recording source) config)
      (buildHmacSha256 texts closedSecrets config) := by
  intro state key result after h
  simp only [buildHmacSha256, bind_eq_ok] at h
  obtain ⟨_, hparams, h⟩ := h
  split at h
  · cases h
  · rename_i value middle hget
    simp only [bind_eq_ok, pure_eq_ok, Prod.mk.injEq] at h
    obtain ⟨transformer, hbuilt, rfl, rfl⟩ := h
    have hsome : value.isSome = true := by
      cases value with
      | none => cases hbuilt
      | some value => rfl
    obtain ⟨state', rfl, hextends, hclosed⟩ := get_mirrors hget hsome
    refine ⟨state', value, rfl, hextends, fun last hlast => ?_⟩
    obtain rfl : value = last := by
      rcases hlast with rfl | rfl
      · cases hsome
      · rfl
    simp only [buildHmacSha256, bind_eq_ok]
    refine ⟨(), hparams, ?_⟩
    rw [hclosed]
    simp only [bind_eq_ok, pure_eq_ok]
    exact ⟨transformer, hbuilt, rfl⟩

/-- Every transformer is built from the same parameters and the same key. -/
theorem build_mirrors (name : Name) (config : List (Name × Json)) :
    Mirrors (build texts (recording source) name config) (build texts closedSecrets name config) := by
  intro state key result after h
  rw [build] at h
  simp only [build]
  split_ifs at h ⊢ with hname
  · exact buildHmacSha256_mirrors config state key result after h
  · split at h
    · cases h
    · rename_i built hbuilt
      simp only [map_eq_ok, Prod.mk.injEq] at h
      obtain ⟨transformer, hnamed, rfl, rfl⟩ := h
      refine ⟨state, key, rfl, .inr rfl, fun last _ => ?_⟩
      rw [map_eq_ok]
      exact ⟨transformer, hnamed, rfl⟩

/-- **The rules of a policy compile to the same rules**, by induction over them. -/
theorem compileRules_mirrors (rules : List RuleConfig) :
    ∀ first, Mirrors (compileRules texts (recording source) first rules)
      (compileRules texts closedSecrets first rules) := by
  induction rules with
  | nil =>
      intro first state key result after h
      cases h
      exact ⟨state, key, rfl, .inr rfl, fun _ _ => rfl⟩
  | cons rule rules ih =>
      intro first state key result after h
      simp only [compileRules, bind_eq_ok, mapError_eq_ok, pure_eq_ok] at h
      obtain ⟨⟨transformer, middle⟩, hbuild, ⟨rest, last⟩, hrest, heq⟩ := h
      cases heq
      obtain ⟨state', key', rfl, hextends, hbuild'⟩ := build_mirrors _ _ _ _ _ _ hbuild
      obtain ⟨state'', key'', rfl, hextends', hrest'⟩ := ih _ _ _ _ _ hrest
      refine ⟨state'', key'', rfl, hextends.trans hextends', fun last hlast => ?_⟩
      simp only [compileRules, bind_eq_ok, mapError_eq_ok, pure_eq_ok]
      exact ⟨_, hbuild' last (hextends'.trans hlast), _, hrest' last hlast, rfl⟩

/-- What `compile_policy` returns. -/
theorem compilePolicy_eq_ok {ε τ : Type} {provider : SecretProvider τ ε} {parsed : Document}
    {state after : τ} {policy : MaskingPolicy Transformer} :
    compilePolicy texts provider parsed state = .ok (policy, after) ↔
      compileRules texts provider 0 parsed.masking state = .ok (policy.rules, after) ∧
        policy.exceptions = parsed.exceptions.mapIdx fun index item => ⟨item.spec, index⟩ := by
  rw [compilePolicy]
  split
  · rename_i error herror
    simp [herror]
  · rename_i rules last hrules
    constructor
    · intro h
      cases h
      exact ⟨hrules, rfl⟩
    · rintro ⟨heq, hexceptions⟩
      cases hrules.symm.trans heq
      cases policy
      cases hexceptions
      rfl

/-- **A whole compilation**: what a fresh recorder has recorded is exactly what a closed set has to
hold, and all of it is read. -/
theorem compilePolicy_closed {parsed : Document} {state : σ} {policy : MaskingPolicy Transformer}
    {after : Recording σ}
    (h : compilePolicy texts (recording source) parsed ⟨state, []⟩ = .ok (policy, after)) :
    ∃ key, after.captured = secretsOf key ∧
      compilePolicy texts closedSecrets parsed ⟨secretsOf key, []⟩ =
        .ok (policy, closedAt key key) := by
  obtain ⟨hrules, hexceptions⟩ := compilePolicy_eq_ok.mp h
  obtain ⟨state', key, rfl, -, hclosed⟩ :=
    compileRules_mirrors parsed.masking 0 state none policy.rules after hrules
  exact ⟨key, captured_recorded state' key,
    compilePolicy_eq_ok.mpr ⟨hclosed key (.inr rfl), hexceptions⟩⟩

/-- All the closed secrets have been read, and nothing else. -/
theorem complete_closedAt (key : Option Name) : (closedAt key key).complete = true := by
  cases key <;> simp [ClosedSecrets.complete, closedAt, secretsOf]

end

end MaskGateway.Proofs.Runtime.Snapshot
