import MaskGateway.Proofs.Datasource.Canonical
import MaskGateway.Proofs.Runtime.SnapshotPolicy
import MaskGateway.Proofs.Runtime.SnapshotSecrets

/-!
# `MaskGateway.Proofs.Runtime.Snapshot`: a snapshot is compiled to what was captured

`snapshot_round_trip` is about every policy, limits, source of secrets and identity: where the
compilation succeeds and its inputs fit into a template, the bound template is compiled again to the
same configuration, with the captured secrets only, and by no other identity. What does not fit is
said exactly (`Fits`): the size of the payload, integers that cannot be printed, and a connection text
that is empty or has a NUL.

`accepted_is_canonical` is about any bytes: what `recompile_snapshot` accepts is the one encoding of the
identity and the inputs that it returns.
-/

set_option autoImplicit false

namespace MaskGateway.Proofs.Runtime.Snapshot

open MaskGateway.Runtime.Snapshot MaskGateway.Config MaskGateway.Lib
open MaskGateway.Masking (hmacKeyEnv)
open MaskGateway.Proofs.Datasource (Proper Ordered KeyOrder)
open MaskGateway.Datasource (Json Floats DatasourceLimits hasKeys member intText validDatasourceId)

variable {platform : Platform}

/-! ### Members of a sorted object -/

theorem member_frozen {fields : List (Name × Json)} (hnodup : (fields.map Prod.fst).Nodup)
    (key : String) : member (frozen fields) key = (member fields key).sorted := by
  rw [member, member, lookup_frozen hnodup]
  cases fields.lookup key.toList <;> rfl

theorem hasKeys_frozen (fields : List (Name × Json)) (expected : List String) :
    hasKeys (frozen fields) expected = hasKeys fields expected := by
  have hperm := keys_frozen_perm fields
  have hcontains : ∀ key : String, ((frozen fields).map Prod.fst).contains key.toList =
      (fields.map Prod.fst).contains key.toList := fun key => by
    rw [Bool.eq_iff_iff, List.contains_iff_mem, List.contains_iff_mem]
    exact hperm.mem_iff
  rw [hasKeys, hasKeys, hperm.all_eq]
  simp only [hcontains]

theorem orRefuse_eq_ok {α : Type} {x : Option α} {value : α} :
    orRefuse x = .ok value ↔ x = some value := by
  cases x <;> simp [orRefuse]

/-! ### The limits and the secrets -/

/-- Limits that `_database` lets through. -/
def InRange (settings : DatabaseSettings) : Prop :=
  (100 ≤ settings.statementTimeoutMs ∧ settings.statementTimeoutMs ≤ 600000) ∧
    1 ≤ settings.maxRows ∧ settings.maxRows ≤ 1000000

theorem readSettings_frozen {settings : DatabaseSettings} (h : InRange settings) :
    readSettings (.obj (frozen (settingsFields settings))) = some settings := by
  have hnodup : ((settingsFields settings).map Prod.fst).Nodup := by simp [settingsFields]
  have hkeys : hasKeys (settingsFields settings) ["statement_timeout_ms", "max_rows"] = true := rfl
  have htimeout : member (settingsFields settings) "statement_timeout_ms" =
    .int settings.statementTimeoutMs := rfl
  have hrows : member (settingsFields settings) "max_rows" = .int settings.maxRows := rfl
  simp only [readSettings, hasKeys_frozen, hkeys, if_true, member_frozen hnodup, htimeout, hrows,
    Json.sorted]
  exact if_pos h

theorem readSecrets_secretsOf (key : Option Name) :
    readSecrets (Json.obj ((secretsOf key).map fun secret => (secret.1, .str secret.2))).sorted =
      some (secretsOf key) := by
  cases key with
  | none => rfl
  | some key =>
      show [(hmacKeyEnv, Json.str key)].mapM readSecret = some [(hmacKeyEnv, key)]
      simp [readSecret]

theorem readConninfo_eq_some {value : Json} {conninfo : Name} :
    readConninfo value = some conninfo ↔
      value = .str conninfo ∧ conninfo ≠ [] ∧ '\x00' ∉ conninfo := by
  cases value with
  | str text =>
      rw [readConninfo, Json.str.injEq]
      split_ifs with h
      · rw [Option.some.injEq]
        constructor
        · rintro rfl
          exact ⟨rfl, h⟩
        · exact fun h => h.1
      · constructor
        · intro hnone
          cases hnone
        · rintro ⟨rfl, hrest⟩
          exact absurd hrest h
  | _ => simp [readConninfo]

/-! ### What a compilation gives -/

/-- What is known of the inputs once they have been compiled with the key `key`, or with none. -/
structure Compiled (policy : DatasourcePolicy platform) (config : GatewayConfig)
    (key : Option Name) : Prop where
  clean : Clean (.obj policy.value)
  shallow : depth (.obj policy.value) ≤ 4
  range : InRange config.database
  /-- The limits of the policy are no stricter. -/
  source : ∃ source, readSettings (member policy.value "database") = some source ∧
    config.database.maxRows ≤ source.maxRows ∧
    config.database.statementTimeoutMs ≤ source.statementTimeoutMs
  /-- The policy compiles again with the closed secrets. -/
  again : ∃ loaded, parseConfigBundle platform.coerce platform.texts closedSecrets policy.value
      ⟨secretsOf key, []⟩ = .ok (loaded, closedAt key key) ∧
    loaded.gateway.masking = config.masking ∧ loaded.gateway.sql = config.sql

/-- The limits of a validated document are in their ranges. -/
theorem inRange_of_valid {document : Document} (h : document.valid = true) :
    InRange ⟨document.database.statementTimeoutMs, document.database.maxRows⟩ := by
  simp only [Document.valid, DatabaseConfig.valid, Bool.and_eq_true, decide_eq_true_eq] at h
  exact h.1.2

/-- The effective limits are in their ranges too. -/
theorem inRange_effective {document : Document} (h : document.valid = true)
    (limits : DatasourceLimits) : InRange (effectiveDatabaseSettings document limits) := by
  obtain ⟨⟨htimeout, htimeout'⟩, hrows, hrows'⟩ := inRange_of_valid h
  have hlimits := limits.timeout_range
  have hlimits' := limits.rows_range
  simp only [InRange, effectiveDatabaseSettings] at *
  omega

/-- **A recorded compilation that succeeds.** -/
theorem compiled_of_compile {σ : Type} {source : SecretSource σ} {state : σ}
    {policy : DatasourcePolicy platform} {limits : DatasourceLimits} {config : GatewayConfig}
    {after : Recording σ}
    (h : compile platform (recording source) policy.value limits ⟨state, []⟩ = .ok (config, after)) :
    ∃ key, after.captured = secretsOf key ∧ Compiled policy config key := by
  obtain ⟨document, hvalidate, hdump, hnodup⟩ := DatasourcePolicy.spec policy
  simp only [compile, parseConfigBundle, hvalidate, bind_eq_ok, pure_eq_ok] at h
  obtain ⟨⟨loaded, last⟩, ⟨⟨masking, last'⟩, hpolicy, hloaded⟩, hconfig⟩ := h
  cases hloaded
  cases hconfig
  obtain ⟨key, hcaptured, hclosed⟩ := compilePolicy_closed hpolicy
  have hflat := flat_of_compileRules hnodup (compilePolicy_eq_ok.mp hpolicy).1
  obtain ⟨hclean, hdepth⟩ := plain_modelDump hnodup hflat
  have hvalue : (Json.obj (modelDump document.1)).sorted = .obj policy.value := by
    rw [sorted_obj, hdump]
  refine ⟨key, hcaptured, ?_⟩
  constructor
  case clean =>
    rw [← hvalue]
    exact ⟨(every_sorted stable_keysOnce _).trans hclean.1,
      (every_sorted stable_noFloat _).trans hclean.2⟩
  case shallow =>
    rw [← hvalue]
    exact (depth_sorted_le _).trans hdepth
  case range => exact inRange_effective document.2 limits
  case source =>
    have hnodup' : ((modelDump document.1).map Prod.fst).Nodup := by simp [modelDump]
    have hmember : member (modelDump document.1) "database" =
      .obj (databaseFields document.1.database) := rfl
    refine ⟨⟨document.1.database.statementTimeoutMs, document.1.database.maxRows⟩, ?_, ?_⟩
    · rw [← hdump, member_frozen hnodup', hmember]
      exact readSettings_frozen (inRange_of_valid document.2)
    · exact ⟨min_le_left _ _, min_le_left _ _⟩
  case again =>
    refine ⟨⟨document, buildGatewayConfig platform.texts document.1 masking⟩, ?_, rfl, rfl⟩
    simp only [parseConfigBundle, hvalidate, bind_eq_ok, pure_eq_ok]
    exact ⟨_, hclosed, rfl⟩

/-! ### The payload of a template -/

section

variable {policy : DatasourcePolicy platform} {config : GatewayConfig} {key : Option Name}
  {conninfo : Name}

/-- What `capture_template` writes. -/
abbrev payloadFields (policy : DatasourcePolicy platform) (config : GatewayConfig) (conninfo : Name)
    (secrets : List (Name × Name)) : List (Name × Json) :=
  runtimeFields policy.value config.database conninfo secrets

theorem nodup_runtimeFields (policy : List (Name × Json)) (settings : DatabaseSettings)
    (conninfo : Name) (secrets : List (Name × Name)) :
    ((runtimeFields policy settings conninfo secrets).map Prod.fst).Nodup := by
  simp [runtimeFields]

/-- The payload of what was compiled is clean, and one level deeper than the policy. -/
theorem Compiled.payload (h : Compiled policy config key) (conninfo : Name) :
    Clean (.obj (payloadFields policy config conninfo (secretsOf key))) ∧
      depth (.obj (payloadFields policy config conninfo (secretsOf key))) ≤ 5 := by
  have hsettings : Clean (.obj (settingsFields config.database)) := by
    refine (composes_clean.obj _).mpr ⟨by simp [settingsFields], ?_⟩
    simp only [settingsFields, List.forall_mem_cons]
    exact ⟨composes_clean.int _, composes_clean.int _, fun _ hnot => by cases hnot⟩
  have hsecrets : Clean (.obj ((secretsOf key).map fun secret => (secret.1, .str secret.2))) ∧
      depthFields ((secretsOf key).map fun secret => (secret.1, .str secret.2)) = 0 := by
    cases key <;> exact ⟨⟨rfl, rfl⟩, rfl⟩
  have hpolicy := h.shallow
  constructor
  · refine (composes_clean.obj _).mpr ⟨nodup_runtimeFields _ _ _ _, ?_⟩
    simp only [runtimeFields, List.forall_mem_cons]
    exact ⟨h.clean, hsettings, composes_clean.str _, hsecrets.1, fun _ hnot => by cases hnot⟩
  · simp only [runtimeFields, settingsFields, depth, depthFields, hsecrets.2] at hpolicy ⊢
    omega

/-- A clean value that is not too deep. -/
theorem plain_of_clean {value : Json} (h : Clean value) (hdepth : depth value ≤ maxDepth) :
    Plain value := ⟨h.1, h.2, hdepth⟩

theorem Compiled.plain (h : Compiled policy config key) (conninfo : Name) :
    Plain (.obj (payloadFields policy config conninfo (secretsOf key))) :=
  plain_of_clean (h.payload conninfo).1 ((h.payload conninfo).2.trans (by decide))

/-- A clean value is written when it is short enough and its integers can be printed. -/
theorem Plain.canonical_eq {value : Json} (h : Plain value) (floats : Floats)
    (hprint : every printable value = true)
    (hlength : (canonicalText value).length ≤ maxSnapshotBytes) :
    canonical value = some (asciiBytes (canonicalText value)) :=
  canonical_eq_some.mpr ⟨⟨MaskGateway.Proofs.Datasource.finite_of_proper value (h.proper floats), hprint,
    hlength⟩, ascii_dumps _ h.sorted.floats, rfl⟩

/-- The policy alone is written too. -/
theorem Compiled.policy_written (h : Compiled policy config key) (floats : Floats) {data : List UInt8}
    (hdata : canonical (.obj (payloadFields policy config conninfo (secretsOf key))) = some data) :
    ∃ written, canonical (.obj policy.value) = some written := by
  obtain ⟨⟨-, hprint, hlength⟩, -, -⟩ := canonical_eq_some.mp hdata
  have hmem : ("policy".toList, Json.obj policy.value) ∈
      payloadFields policy config conninfo (secretsOf key) := List.mem_cons_self
  have hprint' : every printable (.obj policy.value) = true := by
    rw [every, everyField_eq_all, Bool.and_eq_true, List.all_eq_true] at hprint
    exact hprint.2 _ hmem
  have hshallow : depth (.obj policy.value) ≤ maxDepth := h.shallow.trans (by decide)
  exact ⟨_, (plain_of_clean h.clean hshallow).canonical_eq floats hprint'
    ((length_field_le hmem).trans hlength)⟩

/-- The members of the payload, once its keys are sorted. -/
theorem member_payload (secrets : List (Name × Name)) :
    member (frozen (payloadFields policy config conninfo secrets)) "policy" = .obj policy.value ∧
    member (frozen (payloadFields policy config conninfo secrets)) "database" =
      .obj (frozen (settingsFields config.database)) ∧
    member (frozen (payloadFields policy config conninfo secrets)) "conninfo" = .str conninfo ∧
    member (frozen (payloadFields policy config conninfo secrets)) "secrets" =
      (Json.obj (secrets.map fun secret => (secret.1, .str secret.2))).sorted := by
  have hmember := @member_frozen _ (nodup_runtimeFields policy.value config.database conninfo secrets)
  refine ⟨?_, ?_, ?_, ?_⟩
  · rw [payloadFields, hmember, ← frozen_value policy, ← sorted_obj]
    exact congrArg Json.sorted (congrArg Json.obj (frozen_value policy))
  · rw [payloadFields, hmember]
    rfl
  · rw [payloadFields, hmember]
    rfl
  · rw [payloadFields, hmember]
    rfl

/-- **The payload passes `_runtime`**, and gives back what was captured. -/
theorem Compiled.inputs (h : Compiled policy config key)
    (hconninfo : conninfo ≠ [] ∧ '\x00' ∉ conninfo) {data : List UInt8}
    (hdata : canonical (.obj (payloadFields policy config conninfo (secretsOf key))) = some data) :
    runtime platform (frozen (payloadFields policy config conninfo (secretsOf key))) =
      .ok ⟨policy.value, config.database, conninfo, secretsOf key⟩ := by
  obtain ⟨written, hwritten⟩ := h.policy_written platform.floats hdata
  obtain ⟨source, hsource, hrows, htimeout⟩ := h.source
  obtain ⟨hpolicy, hdatabase, hconn, hsecrets⟩ :=
    @member_payload platform policy config conninfo (secretsOf key)
  have hkeys : hasKeys (frozen (payloadFields policy config conninfo (secretsOf key)))
      ["policy", "database", "conninfo", "secrets"] = true := by
    rw [hasKeys_frozen]
    rfl
  have hconn' : readConninfo (.str conninfo) = some conninfo :=
    readConninfo_eq_some.mpr ⟨rfl, hconninfo⟩
  have hlimits : ¬ (source.maxRows < config.database.maxRows ∨
      source.statementTimeoutMs < config.database.statementTimeoutMs) := by omega
  simp only [runtime, bind_eq_ok, refuseIf_eq_ok, orRefuse_eq_ok, pure_eq_ok, hpolicy, hdatabase,
    hconn, hsecrets]
  exact ⟨(), by rw [hkeys]; exact Bool.noConfusion, policy.value, rfl, policy.value,
    policyOf_value policy, written, hwritten, written, hwritten, (), fun hne => hne rfl,
    config.database, readSettings_frozen h.range, source, hsource, (), hlimits, conninfo, hconn',
    secretsOf key, readSecrets_secretsOf key, rfl⟩

/-- What fits into a template: integers that are printed, a payload that leaves room for the
identity, and a connection text that is not empty and has no NUL. -/
structure Fits (policy : DatasourcePolicy platform) (config : GatewayConfig) (conninfo : Name)
    (secrets : List (Name × Name)) : Prop where
  printable : every printable (.obj (payloadFields policy config conninfo secrets)) = true
  small : (canonicalText (.obj (payloadFields policy config conninfo secrets))).length ≤
    maxSnapshotBytes - identityAllowance
  conninfo : conninfo ≠ [] ∧ '\x00' ∉ conninfo

/-- A template is made of what fits. -/
theorem captureTemplate_of_fits (h : Compiled policy config key)
    (hfits : Fits policy config conninfo (secretsOf key)) :
    ∃ template, captureTemplate policy config conninfo (secretsOf key) = .ok template := by
  have hlength : (canonicalText (.obj (payloadFields policy config conninfo (secretsOf key)))).length ≤
      maxSnapshotBytes := hfits.small.trans (Nat.sub_le _ _)
  have hdata := (h.plain conninfo).canonical_eq platform.floats hfits.printable hlength
  have hdecode := decode_canonical (h.plain conninfo) hdata platform.floats
  have hruntime := h.inputs hfits.conninfo hdata
  have hsmall := (length_of_canonical hdata).trans_le hfits.small
  rw [captureTemplate, hdata]
  refine ⟨⟨_, hsmall, _, _, hdecode, hruntime⟩, ?_⟩
  show makeTemplate platform _ = _
  rw [makeTemplate, dif_pos hsmall]
  split
  · rename_i error herror
    rw [hdecode] at herror
    cases herror
  · rename_i fields hfields
    split
    · rename_i error herror
      obtain rfl := Except.ok.inj (hdecode.symm.trans hfields)
      rw [hruntime] at herror
      cases herror
    · rfl

/-- The payload of a template that was captured. -/
theorem payload_of_capture {secrets : List (Name × Name)} {template : SnapshotTemplate platform}
    (h : captureTemplate policy config conninfo secrets = .ok template) :
    canonical (.obj (payloadFields policy config conninfo secrets)) = some template.payload := by
  rw [captureTemplate, bind_eq_ok] at h
  obtain ⟨payload, hpayload, hmade⟩ := h
  have hpayload' := orRefuse_eq_ok.mp hpayload
  rw [makeTemplate] at hmade
  split_ifs at hmade
  split at hmade
  · cases hmade
  · split at hmade
    · cases hmade
    · cases hmade
      exact hpayload'

/-- Only what fits is captured. -/
theorem fits_of_capture (h : Compiled policy config key) {template : SnapshotTemplate platform}
    (hcapture : captureTemplate policy config conninfo (secretsOf key) = .ok template) :
    Fits policy config conninfo (secretsOf key) := by
  have hdata := payload_of_capture hcapture
  obtain ⟨⟨-, hprint, -⟩, -, -⟩ := canonical_eq_some.mp hdata
  obtain ⟨fields, inputs, hdecode, hruntime⟩ := template.readable
  rw [decode_canonical (h.plain conninfo) hdata] at hdecode
  cases hdecode
  simp only [runtime, bind_eq_ok] at hruntime
  obtain ⟨_, -, _, -, _, -, _, -, _, -, _, -, _, -, _, -, _, -, found, hfound, -⟩ := hruntime
  rw [(@member_payload platform policy config conninfo (secretsOf key)).2.2.1] at hfound
  refine ⟨hprint, (length_of_canonical hdata).symm.trans_le template.small, ?_⟩
  obtain ⟨heq, hok⟩ := readConninfo_eq_some.mp (orRefuse_eq_ok.mp hfound)
  obtain rfl := Json.str.inj heq
  exact hok

end

/-! ### The envelope -/

/-- A text that needs no escape. -/
theorem quotedLength_of_plain {text : Name} (h : ∀ c ∈ text, escapeAscii c = [c]) :
    quotedLength text = text.length + 1 := by
  rw [quotedLength]
  induction text with
  | nil => rfl
  | cons c text ih =>
      have hrest := ih fun d hd => h d (List.mem_cons_of_mem _ hd)
      rw [MaskGateway.Datasource.quotedWith, h c List.mem_cons_self, List.length_append, hrest,
        List.length_singleton, List.length_cons]
      omega

/-- The id of a datasource has 36 characters, none of which is escaped. -/
theorem quotedLength_datasourceId {id : Name} (h : validDatasourceId id = true) :
    quotedLength id = 37 := by
  simp only [validDatasourceId, Bool.and_eq_true, beq_iff_eq, List.all_eq_true,
    List.contains_iff_mem] at h
  obtain ⟨⟨hhead, hlength⟩, hdigits⟩ := h
  have hhex : ∀ c ∈ "0123456789abcdef".toList, escapeAscii c = [c] :=
    List.all_iff_forall_prop.mp (by decide)
  have hmark : ∀ c ∈ "dso_".toList, escapeAscii c = [c] := List.all_iff_forall_prop.mp (by decide)
  have hplain : ∀ c ∈ id, escapeAscii c = [c] := by
    intro c hc
    rw [← List.take_append_drop 4 id, List.mem_append] at hc
    rcases hc with hc | hc
    · exact hmark c (hhead ▸ hc)
    · exact hhex c (hdigits c hc)
  have htotal : id.length = 36 := by
    rw [List.length_drop] at hlength
    omega
  rw [quotedLength_of_plain hplain, htotal]

/-- A number of an identity has at most 19 digits. -/
theorem length_intText {n : Nat} (h : n ≤ maxIdentity) : (intText n).length ≤ 19 := by
  have hbound : n < 10 ^ 19 := Nat.lt_of_le_of_lt h (by decide)
  rw [intText, if_neg (by omega), Int.natAbs_natCast]
  exact (Nat.length_toDigits_le_iff (by decide) (by decide)).mpr hbound

/-- What the identity takes. -/
theorem length_mapping (identity : SnapshotIdentity) :
    (canonicalText (.obj identity.mapping)).length ≤ 127 := by
  have hvalid := identity.valid
  simp only [validIdentity, Bool.and_eq_true, decide_eq_true_eq] at hvalid
  obtain ⟨⟨hid, -, hgeneration⟩, -, hrevision⟩ := hvalid
  have hgeneration' : (canonicalText (.int identity.generation)).length ≤ 19 :=
    length_intText hgeneration
  have hrevision' : (canonicalText (.int identity.recordRevision)).length ≤ 19 :=
    length_intText hrevision
  have htext : (canonicalText (.str identity.datasourceId)).length = 38 := by
    show (MaskGateway.Datasource.quotedWith escapeAscii identity.datasourceId).length + 1 = 38
    rw [← quotedLength, quotedLength_datasourceId hid]
  have h₁ : quotedLength "datasource_id".toList = 14 := rfl
  have h₂ : quotedLength "generation".toList = 11 := rfl
  have h₃ : quotedLength "record_revision".toList = 16 := rfl
  have hne : identity.mapping ≠ [] := List.cons_ne_nil _ _
  rw [length_canonicalText_obj hne]
  simp only [SnapshotIdentity.mapping, List.map_cons, List.map_nil, List.sum_cons, List.sum_nil,
    fieldLength, h₁, h₂, h₃, htext]
  omega

/-- **The envelope takes less than the allowance.** -/
theorem length_envelope (identity : SnapshotIdentity) (fields : List (Name × Json)) :
    (canonicalText (.obj (envelope identity fields))).length ≤
      (canonicalText (.obj fields)).length + 163 := by
  have hmapping := length_mapping identity
  have hversion : (canonicalText (.int 1)).length = 1 := rfl
  have h₁ : quotedLength "version".toList = 8 := rfl
  have h₂ : quotedLength "identity".toList = 9 := rfl
  have h₃ : quotedLength "runtime".toList = 8 := rfl
  have hne : envelope identity fields ≠ [] := List.cons_ne_nil _ _
  rw [length_canonicalText_obj hne]
  simp only [envelope, List.map_cons, List.map_nil, List.sum_cons, List.sum_nil, fieldLength, h₁, h₂,
    h₃, hversion]
  omega

/-- The numbers of an identity are printed. -/
theorem printable_of_le {n : Nat} (h : n ≤ maxIdentity) : printable (.int n) = true := by
  have hbound : n < 10 ^ maxStrDigits :=
    Nat.lt_of_le_of_lt h (Nat.lt_of_lt_of_le (by decide : maxIdentity < 10 ^ 19)
      (Nat.pow_le_pow_right (by decide) (by decide)))
  rw [printable, Int.natAbs_natCast, decide_eq_true hbound]

theorem nodup_envelope (identity : SnapshotIdentity) (fields : List (Name × Json)) :
    ((envelope identity fields).map Prod.fst).Nodup := by
  simp [envelope]

/-- The identity is clean, one level deep, and printed. -/
theorem clean_mapping (identity : SnapshotIdentity) :
    Clean (.obj identity.mapping) ∧ depthFields identity.mapping = 0 ∧
      every printable (.obj identity.mapping) = true := by
  have hvalid := identity.valid
  simp only [validIdentity, Bool.and_eq_true, decide_eq_true_eq] at hvalid
  refine ⟨?_, rfl, ?_⟩
  · refine (composes_clean.obj _).mpr ⟨by simp [SnapshotIdentity.mapping], ?_⟩
    simp only [SnapshotIdentity.mapping, List.forall_mem_cons]
    exact ⟨composes_clean.str _, composes_clean.int _, composes_clean.int _,
      fun _ hnot => by cases hnot⟩
  · have hgeneration := printable_of_le hvalid.1.2.2
    have hrevision := printable_of_le hvalid.2.2
    simp only [SnapshotIdentity.mapping, every, everyField, hgeneration, hrevision]
    rfl

/-- The envelope of what can be written, with room for the identity, can be written. -/
theorem canonical_envelope {fields : List (Name × Json)} (hclean : Clean (.obj fields))
    (hdepth : depth (.obj fields) ≤ 5) (hprint : every printable (.obj fields) = true)
    (hlength : (canonicalText (.obj fields)).length ≤ maxSnapshotBytes - identityAllowance)
    (identity : SnapshotIdentity) (floats : Floats) :
    Plain (.obj (envelope identity fields)) ∧
      ∃ data, canonical (.obj (envelope identity fields)) = some data := by
  obtain ⟨hidentity, hlevel, hprinted⟩ := clean_mapping identity
  have hplain : Plain (.obj (envelope identity fields)) := by
    refine plain_of_clean ((composes_clean.obj _).mpr ⟨nodup_envelope identity fields, ?_⟩) ?_
    · simp only [envelope, List.forall_mem_cons]
      exact ⟨composes_clean.int _, hidentity, hclean, fun _ hnot => by cases hnot⟩
    · have hmax : maxDepth = 32 := rfl
      simp only [envelope, depth, depthFields, hlevel] at hdepth ⊢
      omega
  refine ⟨hplain, _, hplain.canonical_eq floats ?_ ?_⟩
  · have hone : printable (.int 1) = true := @printable_of_le 1 (by decide)
    simp only [envelope, every, everyField, hone, Bool.and_eq_true] at hprint hprinted ⊢
    exact ⟨rfl, trivial, hprinted, hprint, trivial⟩
  · have hroom := length_envelope identity fields
    have hsize : maxSnapshotBytes - identityAllowance + 163 ≤ maxSnapshotBytes := by decide
    omega

/-- The mapping of an identity is read as that identity. -/
theorem readIdentity_mapping (identity : SnapshotIdentity) :
    readIdentity (.obj (frozen identity.mapping)) = some identity := by
  have hnodup : (identity.mapping.map Prod.fst).Nodup := by simp [SnapshotIdentity.mapping]
  have hkeys : hasKeys identity.mapping ["datasource_id", "generation", "record_revision"] = true := rfl
  have hid : member identity.mapping "datasource_id" = .str identity.datasourceId := rfl
  have hgeneration : member identity.mapping "generation" = .int (.ofNat identity.generation) := rfl
  have hrevision : member identity.mapping "record_revision" =
    .int (.ofNat identity.recordRevision) := rfl
  simp only [readIdentity, hasKeys_frozen, hkeys, if_true, member_frozen hnodup, hid, hgeneration,
    hrevision, Json.sorted]
  exact dif_pos identity.valid

/-- **An envelope is opened for its own identity**, and refused for every other. -/
theorem openSnapshot_envelope {data : List UInt8} {identity : SnapshotIdentity}
    {fields : List (Name × Json)}
    (hdecode : decode platform.floats data = .ok (frozen (envelope identity (frozen fields))))
    (expected : SnapshotIdentity) :
    openSnapshot platform data expected =
      if identity ≠ expected then .error .invalid else runtime platform (frozen fields) := by
  have hmember := @member_frozen _ (nodup_envelope identity (frozen fields))
  have hkeys : hasKeys (frozen (envelope identity (frozen fields)))
      ["version", "identity", "runtime"] = true := by
    rw [hasKeys_frozen]
    rfl
  have hversion : member (frozen (envelope identity (frozen fields))) "version" = .int 1 := by
    rw [hmember]
    rfl
  have hidentity : member (frozen (envelope identity (frozen fields))) "identity" =
      .obj (frozen identity.mapping) := by
    rw [hmember]
    rfl
  have hruntime : member (frozen (envelope identity (frozen fields))) "runtime" =
      .obj (frozen fields) := by
    rw [hmember]
    exact sorted_sorted (.obj fields)
  simp only [openSnapshot, hdecode, hkeys, hversion, hidentity, hruntime, readIdentity_mapping,
    refuseIf, orRefuse, readObject, Bind.bind, Except.bind]
  by_cases hsame : identity = expected
  · simp [hsame]
  · simp [hsame]

section

variable {policy : DatasourcePolicy platform} {config : GatewayConfig} {key : Option Name}
  {conninfo : Name}

/-- The bytes that a template is bound to. -/
theorem bind_of_capture (h : Compiled policy config key) {template : SnapshotTemplate platform}
    (hcapture : captureTemplate policy config conninfo (secretsOf key) = .ok template)
    (identity : SnapshotIdentity) :
    ∃ data, template.bind identity = .ok data ∧ decode platform.floats data =
      .ok (frozen (envelope identity
        (frozen (payloadFields policy config conninfo (secretsOf key))))) := by
  have hfits := fits_of_capture h hcapture
  have hdecode := decode_canonical (h.plain conninfo) (payload_of_capture hcapture) platform.floats
  obtain ⟨hclean, hdepth⟩ := h.payload conninfo
  have hsorted := sorted_obj (payloadFields policy config conninfo (secretsOf key))
  have hclean' : Clean (.obj (frozen (payloadFields policy config conninfo (secretsOf key)))) := by
    rw [← hsorted]
    exact ⟨(every_sorted stable_keysOnce _).trans hclean.1,
      (every_sorted stable_noFloat _).trans hclean.2⟩
  have hdepth' : depth (.obj (frozen (payloadFields policy config conninfo (secretsOf key)))) ≤ 5 := by
    rw [← hsorted]
    exact (depth_sorted_le _).trans hdepth
  have hprint : every printable
      (.obj (frozen (payloadFields policy config conninfo (secretsOf key)))) = true := by
    rw [← hsorted]
    exact (every_sorted stable_printable _).trans hfits.printable
  have hlength : (canonicalText
      (.obj (frozen (payloadFields policy config conninfo (secretsOf key))))).length ≤
        maxSnapshotBytes - identityAllowance := by
    rw [← hsorted, canonicalText_sorted]
    exact hfits.small
  obtain ⟨hplain, data, hdata⟩ :=
    canonical_envelope hclean' hdepth' hprint hlength identity platform.floats
  refine ⟨data, ?_, decode_canonical hplain hdata platform.floats⟩
  rw [SnapshotTemplate.bind, hdecode]
  exact orRefuse_eq_ok.mpr hdata

/-- **A bound template is compiled again** to the configuration it was captured from. -/
theorem recompileWith_of_capture (h : Compiled policy config key)
    {template : SnapshotTemplate platform}
    (hcapture : captureTemplate policy config conninfo (secretsOf key) = .ok template)
    {data : List UInt8} {identity : SnapshotIdentity}
    (hdecode : decode platform.floats data = .ok (frozen (envelope identity
      (frozen (payloadFields policy config conninfo (secretsOf key)))))) :
    recompileWith platform data identity =
      .ok (⟨identity, config, config.masking, conninfo⟩, closedAt key key) := by
  have hfits := fits_of_capture h hcapture
  have hopen := openSnapshot_envelope hdecode identity
  rw [if_neg (not_not_intro rfl), h.inputs hfits.conninfo (payload_of_capture hcapture)] at hopen
  obtain ⟨loaded, hloaded, hmasking, hsql⟩ := h.again
  simp only [recompileWith, bind_eq_ok, mapError_eq_ok, refuseIf_eq_ok, pure_eq_ok]
  refine ⟨_, hopen, _, hloaded, (), ?_, ?_⟩
  · rw [complete_closedAt]
    exact Bool.noConfusion
  · rw [hmasking, hsql]

/-- Another identity is refused. -/
theorem recompileSnapshot_other {fields : List (Name × Json)} {data : List UInt8}
    {identity other : SnapshotIdentity}
    (hdecode : decode platform.floats data = .ok (frozen (envelope identity (frozen fields))))
    (hother : other ≠ identity) : recompileSnapshot platform data other = .error .invalid := by
  have hopen := openSnapshot_envelope hdecode other
  rw [if_pos hother.symm] at hopen
  rw [recompileSnapshot, recompileWith, hopen]
  rfl

end

/-! ### What is accepted is canonical -/

theorem hasKeys_perm {fields : List (Name × Json)} {expected expected' : List String}
    (h : expected.Perm expected') : hasKeys fields expected = hasKeys fields expected' := by
  have hmem : ∀ key : Name, (expected.map String.toList).contains key =
      (expected'.map String.toList).contains key := fun key => by
    rw [Bool.eq_iff_iff, List.contains_iff_mem, List.contains_iff_mem]
    exact (h.map _).mem_iff
  rw [hasKeys, hasKeys, h.all_eq]
  simp only [hmem]

/-- An object with these keys, in their order, is its members. -/
theorem eq_members {fields : List (Name × Json)} (h : Ordered platform.floats (.obj fields))
    {expected sorted : List String} (hkeys : hasKeys fields expected = true)
    (hperm : expected.Perm sorted) (horder : KeyOrder sorted) :
    fields = sorted.map fun key => (key.toList, member fields key) :=
  h.eq_map ((hasKeys_perm hperm).symm.trans hkeys) horder

theorem readIdentity_exact {value : Json} (h : Ordered platform.floats value)
    {identity : SnapshotIdentity} (hread : readIdentity value = some identity) :
    value = .obj identity.mapping := by
  cases value with
  | obj fields =>
      rw [readIdentity] at hread
      split_ifs at hread with hkeys
      have heq := eq_members h hkeys (List.Perm.refl _) (by decide)
      unfold makeIdentity at hread
      split at hread
      · rename_i id generation revision hid hgeneration hrevision
        split_ifs at hread
        cases hread
        rw [heq]
        simp only [List.map_cons, List.map_nil, hid, hgeneration, hrevision]
        rfl
      · cases hread
  | _ => cases hread

theorem readSettings_exact {value : Json} (h : Ordered platform.floats value)
    {settings : DatabaseSettings} (hread : readSettings value = some settings) :
    value = .obj (frozen (settingsFields settings)) := by
  cases value with
  | obj fields =>
      rw [readSettings] at hread
      split_ifs at hread with hkeys
      have heq := eq_members h hkeys (List.Perm.swap _ _ _) (by decide)
      split at hread
      · rename_i timeout rows htimeout hrows
        split_ifs at hread
        cases hread
        rw [heq]
        simp only [List.map_cons, List.map_nil, htimeout, hrows]
        rfl
      · cases hread
  | _ => cases hread

theorem readSecrets_exact {value : Json} {secrets : List (Name × Name)}
    (hread : readSecrets value = some secrets) :
    value = .obj (secrets.map fun secret => (secret.1, .str secret.2)) := by
  cases value with
  | obj fields =>
      congr 1
      rw [readSecrets] at hread
      induction fields generalizing secrets with
      | nil =>
          cases hread
          rfl
      | cons field fields ih =>
          simp only [List.mapM_cons, Option.bind_eq_bind, Option.bind_eq_some_iff, Option.pure_def,
            Option.some.injEq] at hread
          obtain ⟨secret, hsecret, rest, hrest, rfl⟩ := hread
          obtain ⟨name, value⟩ := field
          cases value with
          | str text =>
              rw [readSecret] at hsecret
              split_ifs at hsecret
              cases hsecret
              rw [List.map_cons, ← ih hrest]
          | _ => cases hsecret
  | _ => cases hread

/-- A policy that is written as it was given is the one that was given. -/
theorem policyOf_exact {fields value : List (Name × Json)}
    (h : Ordered platform.floats (.obj fields)) (hpolicy : policyOf platform fields = some value)
    {data : List UInt8} (hvalue : canonical (.obj value) = some data)
    (hfields : canonical (.obj fields) = some data) : value = fields := by
  have hproper : Proper platform.floats (.obj value) := by
    rw [policyOf, Option.map_eq_some_iff] at hpolicy
    obtain ⟨parsed, hparsed, rfl⟩ := hpolicy
    rw [modelValidate, Option.bind_eq_some_iff] at hparsed
    obtain ⟨document, hread, hvalid⟩ := hparsed
    rw [validateFileConfig] at hvalid
    split_ifs at hvalid
    cases hvalid
    have hcomposes := composes_proper platform.floats
    exact MaskGateway.Proofs.Datasource.proper_sorted _
      (hcomposes.modelDump (hcomposes.readDocument h.1 hread))
  have hsorted : (Json.obj value).sorted = .obj value := by
    rw [policyOf, Option.map_eq_some_iff] at hpolicy
    obtain ⟨parsed, -, rfl⟩ := hpolicy
    exact sorted_sorted (.obj (modelDump parsed.1))
  exact Json.obj.inj (canonical_injective ⟨hproper, hsorted⟩ h hvalue hfields)

/-- **The inputs of a snapshot are the mapping that they were read from.** -/
theorem runtime_exact {fields : List (Name × Json)} (h : Ordered platform.floats (.obj fields))
    {inputs : Inputs} (hread : runtime platform fields = .ok inputs) :
    policyOf platform inputs.policy = some inputs.policy ∧
      Ordered platform.floats (.obj inputs.policy) ∧
      fields = frozen (runtimeFields inputs.policy inputs.database inputs.conninfo inputs.secrets) := by
  simp only [runtime, bind_eq_ok, refuseIf_eq_ok, orRefuse_eq_ok, pure_eq_ok, Bool.not_eq_false,
    not_not] at hread
  obtain ⟨_, hkeys, policyRaw, hraw, policy, hpolicy, written, hwritten, given, hgiven, _, rfl,
    database, hdatabase, _, -, _, -, conninfo, hconninfo, secrets, hsecrets, rfl⟩ := hread
  have hperm : ["policy", "database", "conninfo", "secrets"].Perm
      ["conninfo", "database", "policy", "secrets"] := by decide
  have heq := eq_members h hkeys hperm (by decide)
  have hpolicyRaw : member fields "policy" = .obj policyRaw := by
    generalize member fields "policy" = value at hraw
    cases value with
    | obj inner =>
        cases hraw
        rfl
    | _ => cases hraw
  have hordered : Ordered platform.floats (.obj policyRaw) := hpolicyRaw ▸ h.member "policy"
  obtain rfl := policyOf_exact hordered hpolicy hwritten hgiven
  refine ⟨hpolicy, hordered, ?_⟩
  have hsecrets' := readSecrets_exact hsecrets
  have hfrozen : frozen (secrets.map fun secret => (secret.1, Json.str secret.2)) =
      secrets.map fun secret => (secret.1, .str secret.2) := by
    have hsorted := (h.member "secrets").2
    rw [hsecrets', sorted_obj] at hsorted
    exact Json.obj.inj hsorted
  have hfrozen' : frozen policy = policy := Json.obj.inj hordered.2
  show fields = [("conninfo".toList, .str conninfo),
    ("database".toList, .obj (frozen (settingsFields database))),
    ("policy".toList, .obj (frozen policy)),
    ("secrets".toList, .obj (frozen (secrets.map fun secret => (secret.1, .str secret.2))))]
  rw [heq, hfrozen, hfrozen']
  simp only [List.map_cons, List.map_nil, hpolicyRaw, hsecrets',
    readSettings_exact (h.member "database") hdatabase, (readConninfo_eq_some.mp hconninfo).1]

/-- **Accepted bytes are canonical**: they are the one encoding of the identity that was expected and of
the inputs that were compiled. -/
theorem accepted_is_canonical {data : List UInt8} {expected : SnapshotIdentity}
    {result : RecompiledSnapshot} (h : recompileSnapshot platform data expected = .ok result) :
    result.identity = expected ∧
      ∃ (policy : DatasourcePolicy platform) (secrets : List (Name × Name)),
        canonical (.obj (envelope expected (runtimeFields policy.value result.config.database
          result.conninfo secrets))) = some data := by
  rw [recompileSnapshot, map_eq_ok] at h
  obtain ⟨⟨_, closed⟩, h, rfl⟩ := h
  simp only [recompileWith, bind_eq_ok, pure_eq_ok] at h
  obtain ⟨inputs, hopen, ⟨loaded, secrets⟩, -, _, -, heq⟩ := h
  cases heq
  simp only [openSnapshot, bind_eq_ok, refuseIf_eq_ok, Bool.not_eq_false] at hopen
  obtain ⟨raw, hdecode, _, hkeys, hopen⟩ := hopen
  obtain ⟨hordered, hdata⟩ := ordered_of_decode hdecode
  split at hopen
  · rename_i version hversion
    simp only [bind_eq_ok, refuseIf_eq_ok, orRefuse_eq_ok, not_not] at hopen
    obtain ⟨_, rfl, identity, hidentity, _, rfl, fields, hfields, hruntime⟩ := hopen
    have hfields' : member raw "runtime" = .obj fields := by
      generalize member raw "runtime" = value at hfields
      cases value with
      | obj inner =>
          cases hfields
          rfl
      | _ => cases hfields
    have hordered' : Ordered platform.floats (.obj fields) := hfields' ▸ hordered.member "runtime"
    obtain ⟨hpolicy, hown, hexact⟩ := runtime_exact hordered' hruntime
    have hperm : ["version", "identity", "runtime"].Perm ["identity", "runtime", "version"] := by
      decide
    have heq := eq_members hordered hkeys hperm (by decide)
    refine ⟨rfl, ⟨inputs.policy, inputs.policy, keysOnce_of_proper _ hown.1, hpolicy⟩,
      inputs.secrets, ?_⟩
    -- the envelope with its keys sorted is what was decoded
    have hsorted : frozen (envelope identity (runtimeFields inputs.policy inputs.database
        inputs.conninfo inputs.secrets)) = raw := by
      show [("identity".toList, Json.obj identity.mapping), ("runtime".toList, .obj (frozen _)),
        ("version".toList, .int 1)] = raw
      rw [heq, ← hexact]
      simp only [List.map_cons, List.map_nil, hversion, hfields',
        readIdentity_exact (hordered.member "identity") hidentity]
    rw [← canonical_sorted, sorted_obj, hsorted]
    exact hdata
  · cases hopen

/-- **The snapshot goes from the parent to the worker.** -/
theorem snapshot_round_trip (platform : Platform) :
    (∀ {σ : Type} (source : SecretSource σ) (state : σ) (policy : DatasourcePolicy platform)
        (limits : DatasourceLimits) (config : GatewayConfig) (after : Recording σ) (conninfo : Name),
        compile platform (recording source) policy.value limits ⟨state, []⟩ = .ok (config, after) →
        ((∃ template, captureTemplate policy config conninfo after.captured = .ok template) ↔
          Fits policy config conninfo after.captured) ∧
        ∀ template, captureTemplate policy config conninfo after.captured = .ok template →
          ∀ identity, ∃ data closed, template.bind identity = .ok data ∧
            recompileWith platform data identity =
              .ok (⟨identity, config, config.masking, conninfo⟩, closed) ∧
            closed.values = after.captured ∧ closed.read = after.captured.map Prod.fst ∧
            ∀ other, other ≠ identity → recompileSnapshot platform data other = .error .invalid) ∧
      ∀ data expected result, recompileSnapshot platform data expected = .ok result →
        result.identity = expected ∧
          ∃ (policy : DatasourcePolicy platform) (secrets : List (Name × Name)),
            canonical (.obj (envelope expected (runtimeFields policy.value result.config.database
              result.conninfo secrets))) = some data := by
  refine ⟨?_, fun data expected result h => accepted_is_canonical h⟩
  intro σ source state policy limits config after conninfo h
  obtain ⟨key, hcaptured, hcompiled⟩ := compiled_of_compile h
  rw [hcaptured]
  refine ⟨⟨fun ⟨template, hcapture⟩ => fits_of_capture hcompiled hcapture,
    captureTemplate_of_fits hcompiled⟩, fun template hcapture identity => ?_⟩
  obtain ⟨data, hbind, hdecode⟩ := bind_of_capture hcompiled hcapture identity
  have hread : (closedAt key key).read = (secretsOf key).map Prod.fst := by cases key <;> rfl
  exact ⟨data, closedAt key key, hbind, recompileWith_of_capture hcompiled hcapture hdecode, rfl, hread,
    fun other hother => recompileSnapshot_other hdecode hother⟩

/-! ### A policy with one key -/

/-- Nothing is read as an integer or a boolean but what is one. -/
def strictCoercions : Coercions where
  int
    | .int value => some value
    | _ => none
  bool
    | .bool value => some value
    | _ => none
  int_int _ := rfl
  bool_bool _ := rfl

/-- ASCII texts without white space around them. -/
def plainTexts : MaskGateway.Masking.Texts where
  casefold name := name.map Char.toLower
  strip name := name
  regex _ _ := .fine

/-- Python, as far as the examples need it. -/
def plainPlatform : Platform :=
  ⟨strictCoercions, plainTexts, MaskGateway.Proofs.Datasource.writtenFloats⟩

/-- One rule, masked with the key. -/
def hmacDocument : Document where
  masking := [{ match_ := "cpf".toList, transformer := "hmac_sha256".toList }]

/-- The policy of that document. -/
def hmacPolicy : DatasourcePolicy plainPlatform where
  value := frozen (modelDump hmacDocument)
  validated :=
    ⟨[("masking".toList, .arr [.obj [("match".toList, .str "cpf".toList),
        ("transformer".toList, .str "hmac_sha256".toList)]])], rfl, rfl⟩

/-- A source that has one value for every name. -/
def always (value : Name) : SecretSource Unit := ⟨fun _ _ => some (some value, ())⟩

/-- The limits of the examples. -/
def someLimits : DatasourceLimits :=
  ⟨5000, 200, 4, ⟨by decide, by decide⟩, ⟨by decide, by decide⟩, ⟨by decide, by decide⟩⟩

/-- What the policy compiles to. -/
def hmacConfig (key : Name) : GatewayConfig where
  masking :=
    { exceptions := []
      rules := [⟨⟨"cpf".toList, .contains, false⟩, .hmacSha256 (utf8 key), "hmac_sha256".toList, 0⟩]
      index_eq := by
        intro i rule h
        cases i with
        | zero =>
            cases h
            rfl
        | succ i => cases h }
  database := ⟨5000, 200⟩
  sql := SqlPolicy.build plainTexts [] []

/-- The policy compiles with every key that is long enough. -/
theorem compile_hmacPolicy {key : Name} (h : MaskGateway.Masking.hmacKeyMinLength ≤ key.length) :
    compile plainPlatform (recording (always key)) hmacPolicy.value someLimits ⟨(), []⟩ =
      .ok (hmacConfig key, ⟨(), recorded (some key)⟩) := by
  have hvalidate : modelValidate strictCoercions hmacPolicy.value =
      some ⟨hmacDocument, by decide⟩ := rfl
  have hget : (recording (always key)).get hmacKeyEnv ⟨(), []⟩ =
      .ok (some key, ⟨(), recorded (some key)⟩) := rfl
  have hkey : MaskGateway.Masking.hmacOfKey (some key) = .ok (.hmacSha256 (utf8 key)) :=
    if_neg (Nat.not_lt.mpr h)
  have hbuild : MaskGateway.Masking.build plainTexts (recording (always key)) "hmac_sha256".toList []
      ⟨(), []⟩ = .ok (.hmacSha256 (utf8 key), ⟨(), recorded (some key)⟩) := by
    rw [MaskGateway.Masking.build, if_pos rfl, MaskGateway.Masking.buildHmacSha256, bind_eq_ok]
    refine ⟨(), rfl, ?_⟩
    rw [hget]
    simp only [MaskGateway.Masking.named, hkey, bind_eq_ok, mapError_eq_ok, pure_eq_ok]
    exact ⟨_, rfl, rfl⟩
  have hrules : compileRules plainTexts (recording (always key)) 0 hmacDocument.masking ⟨(), []⟩ =
      .ok ((hmacConfig key).masking.rules, ⟨(), recorded (some key)⟩) := by
    simp only [hmacDocument, compileRules, bind_eq_ok, mapError_eq_ok, pure_eq_ok]
    exact ⟨_, hbuild, _, rfl, rfl⟩
  have hpolicy : compilePolicy plainTexts (recording (always key)) hmacDocument ⟨(), []⟩ =
      .ok ((hmacConfig key).masking, ⟨(), recorded (some key)⟩) :=
    compilePolicy_eq_ok.mpr ⟨hrules, rfl⟩
  simp only [compile, parseConfigBundle, plainPlatform, hvalidate, hpolicy, bind_eq_ok, pure_eq_ok]
  exact ⟨_, ⟨_, rfl, rfl⟩, rfl⟩

/-- A key of 32 characters goes all the way. -/
theorem snapshot_round_trip_hmac :
    ∃ template : SnapshotTemplate plainPlatform,
      captureTemplate hmacPolicy (hmacConfig (List.replicate 32 'k')) "host=db".toList
        [(hmacKeyEnv, List.replicate 32 'k')] = .ok template ∧
      ∀ identity, ∃ data, template.bind identity = .ok data ∧
        ∃ result, recompileSnapshot plainPlatform data identity = .ok result ∧
          result.config = hmacConfig (List.replicate 32 'k') := by
  have hfits : Fits hmacPolicy (hmacConfig (List.replicate 32 'k')) "host=db".toList
      [(hmacKeyEnv, List.replicate 32 'k')] :=
    ⟨by decide +kernel, by decide +kernel, by decide⟩
  obtain ⟨hcapture, hround⟩ := (snapshot_round_trip plainPlatform).1 (always (List.replicate 32 'k')) ()
    hmacPolicy someLimits (hmacConfig (List.replicate 32 'k')) ⟨(), recorded (some (List.replicate 32 'k'))⟩
    "host=db".toList (compile_hmacPolicy (by decide))
  obtain ⟨template, htemplate⟩ := hcapture.mpr hfits
  refine ⟨template, htemplate, fun identity => ?_⟩
  obtain ⟨data, closed, hbind, hresult, -⟩ := hround template htemplate identity
  have hagain : recompileSnapshot plainPlatform data identity = .ok ⟨identity,
      hmacConfig (List.replicate 32 'k'), (hmacConfig (List.replicate 32 'k')).masking,
      "host=db".toList⟩ := by
    rw [recompileSnapshot, hresult]
    rfl
  exact ⟨data, hbind, _, hagain, rfl⟩

/-- A text takes at least its own length. -/
theorem length_le_canonicalText (text : Name) : text.length ≤ (canonicalText (.str text)).length := by
  show text.length ≤ (MaskGateway.Datasource.quotedWith escapeAscii text).length + 1
  induction text with
  | nil => exact Nat.zero_le _
  | cons c text ih =>
      have hescape := readable_escapeAscii.length_pos c
      rw [MaskGateway.Datasource.quotedWith, List.length_append, List.length_cons]
      omega

/-- A key longer than a template is not captured. -/
theorem captureTemplate_long_key {policy : DatasourcePolicy platform} {config : GatewayConfig}
    {key conninfo : Name} (h : Compiled policy config (some key))
    (hlong : maxSnapshotBytes - identityAllowance < key.length)
    (template : SnapshotTemplate platform) :
    captureTemplate policy config conninfo (secretsOf (some key)) ≠ .ok template := by
  intro hcapture
  have hsmall := (fits_of_capture h hcapture).small
  have hkey := length_le_canonicalText key
  have hsecrets := @length_field_le [(hmacKeyEnv, .str key)] _ List.mem_cons_self
  have hpayload := @length_field_le (payloadFields policy config conninfo (secretsOf (some key)))
    ("secrets".toList, .obj [(hmacKeyEnv, .str key)]) (by simp [payloadFields, runtimeFields, secretsOf])
  exact absurd ((hkey.trans hsecrets).trans (hpayload.trans hsmall)) (Nat.not_le.mpr hlong)

/-- **A key can be too long for a template**: the policy compiles with it, and the capture refuses. -/
theorem long_key_is_not_captured :
    ∃ (config : GatewayConfig) (after : Recording Unit),
      compile plainPlatform (recording (always (List.replicate 65025 'k'))) hmacPolicy.value someLimits
        ⟨(), []⟩ = .ok (config, after) ∧
      ∀ conninfo template, captureTemplate hmacPolicy config conninfo after.captured ≠ .ok template := by
  have hlong : maxSnapshotBytes - identityAllowance < (List.replicate 65025 'k').length := by
    rw [List.length_replicate]
    decide
  generalize List.replicate 65025 'k' = key at hlong
  have hcompile := @compile_hmacPolicy key (Nat.le_trans (by decide) hlong.le)
  obtain ⟨found, hcaptured, hcompiled⟩ := compiled_of_compile hcompile
  have hsame : found = some key := by
    rw [captured_recorded] at hcaptured
    cases found with
    | none => cases hcaptured
    | some found =>
        cases hcaptured
        rfl
  subst hsame
  refine ⟨_, _, hcompile, fun conninfo template => ?_⟩
  rw [hcaptured]
  exact captureTemplate_long_key hcompiled hlong template

end MaskGateway.Proofs.Runtime.Snapshot
