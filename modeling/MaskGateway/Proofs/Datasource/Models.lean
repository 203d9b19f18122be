import MaskGateway.Datasource.Models

/-!
# `MaskGateway.Proofs.Datasource.Models`: a record is read back from its JSON form

One lemma per part of a record, and `parseRecord_recordToJson` for the whole: the JSON form of a
valid record parses to that record.
-/

set_option autoImplicit false

namespace MaskGateway.Proofs.Datasource

open MaskGateway.Datasource MaskGateway.Lib

variable {v : Validators}

theorem ofJson_text_tls (mode : TlsMode) :
    TlsMode.ofJson (.str mode.text.toList) = some mode := by
  cases mode <;> rfl

theorem ofJson_text_status (status : TestStatus) :
    TestStatus.ofJson (.str status.text.toList) = some status := by
  cases status <;> rfl

theorem optionalTextOf_optionalText (value : Option Name) :
    optionalTextOf (optionalText value) = .ok value := by
  cases value <;> rfl

theorem decodeB64_encode {bytes : List UInt8} (h : bytes ≠ []) :
    decodeB64 (.str (Base64.encode bytes)) = some bytes := by
  have hne := Base64.encode_ne_nil h
  cases henc : Base64.encode bytes with
  | nil => exact absurd henc hne
  | cons c rest => rw [decodeB64, ← henc, Base64.decode_encode]

theorem parseEnvelope_envelopeToJson (envelope : EncryptedSecret) :
    parseEnvelope (envelopeToJson envelope) = .ok envelope := by
  have hnonce : envelope.nonce ≠ [] := by
    intro h
    have := envelope.nonce_length
    simp [h] at this
  have hcipher : envelope.ciphertext ≠ [] := by
    intro h
    have := envelope.ciphertext_length
    simp [h] at this
  let raw : List (Name × Json) := [("algorithm".toList, .str "AES-256-GCM".toList),
    ("ciphertext".toList, .str (Base64.encode envelope.ciphertext)),
    ("nonce".toList, .str (Base64.encode envelope.nonce)), ("version".toList, .int 1)]
  have h₁ : member raw "nonce" = .str (Base64.encode envelope.nonce) := rfl
  have h₂ : member raw "ciphertext" = .str (Base64.encode envelope.ciphertext) := rfl
  have hkeys : hasKeys raw ["algorithm", "ciphertext", "nonce", "version"] = true := rfl
  show parseEnvelope (.obj raw) = .ok envelope
  simp only [parseEnvelope, requireMapping, bind_eq_ok]
  refine ⟨raw, rfl, (), by rw [refuseIf_eq_ok, hkeys]; simp, (), ?_, ?_⟩
  · rw [refuseIf_eq_ok]
    rintro (h | h) <;> cases h
  · rw [h₁, h₂, decodeB64_encode hnonce, decodeB64_encode hcipher]
    simp [envelope.nonce_length, envelope.ciphertext_length]

/-- A check that passes. -/
theorem refuseIf_ok {ε : Type} {p : Prop} [Decidable p] {e : ε} (h : ¬ p) :
    refuseIf p e = .ok () :=
  refuseIf_eq_ok.mpr h

/-- The keys are the expected ones. -/
theorem requireKeys_ok {fields : List (Name × Json)} {expected : List String}
    (h : hasKeys fields expected = true) : requireKeys fields expected = .ok () :=
  refuseIf_ok (by simp [h])

theorem parseDestination_ok {policy : DestinationPolicy} (h : policy.valid v = true) :
    parseDestination v (.obj
      [("allow_loopback".toList, .bool policy.allowLoopback),
       ("allow_public".toList, .bool policy.allowPublic),
       ("allowed_hosts".toList, .arr (policy.allowedHosts.map Json.str))]) = .ok policy := by
  simp only [parseDestination, bind_eq_ok, pure_eq_ok]
  exact ⟨_, rfl, (), requireKeys_ok rfl, _, rfl, _, rfl, _, requireStrTuple_map _, (),
    refuseIf_ok (by simp [h]), rfl⟩

theorem parseTls_ok {tls : TlsSettings} (h : tls.valid v = true) :
    parseTls v (.obj [("mode".toList, .str tls.mode.text.toList),
      ("server_name".toList, optionalText tls.serverName)]) = .ok tls := by
  have hmode : orInvalid (TlsMode.ofJson (.str tls.mode.text.toList)) = .ok tls.mode := by
    rw [ofJson_text_tls, orInvalid]
  simp only [parseTls, bind_eq_ok, pure_eq_ok]
  exact ⟨_, rfl, (), requireKeys_ok rfl, _, hmode, _, optionalTextOf_optionalText _, (),
    refuseIf_ok (by simp [h]), rfl⟩

theorem parseLimits_ok (limits : DatasourceLimits) :
    parseLimits (.obj [("max_rows".toList, .int limits.maxRows),
      ("max_sessions".toList, .int limits.maxSessions),
      ("statement_timeout_ms".toList, .int limits.statementTimeoutMs)]) = .ok limits := by
  have ht := limits.timeout_range
  have hr := limits.rows_range
  have hs := limits.sessions_range
  have ht1 : 1 ≤ limits.statementTimeoutMs := by omega
  simp only [parseLimits, bind_eq_ok]
  refine ⟨_, rfl, (), requireKeys_ok rfl, _, requireInt_natCast hr.1, _,
    requireInt_natCast hs.1, _, requireInt_natCast ht1, ?_⟩
  rw [dif_pos ⟨ht, hr, hs⟩]
  rfl

theorem parseLastTest_ok {test : LastTest} (h : test.valid v = true) :
    parseLastTest v (.obj [("checked_at".toList, optionalText test.checkedAt),
      ("status".toList, .str test.status.text.toList)]) = .ok test := by
  have hstatus : orInvalid (TestStatus.ofJson (.str test.status.text.toList)) =
      .ok test.status := by
    rw [ofJson_text_status, orInvalid]
  simp only [parseLastTest, bind_eq_ok, pure_eq_ok]
  exact ⟨_, rfl, (), requireKeys_ok rfl, _, hstatus, _, optionalTextOf_optionalText _, (),
    refuseIf_ok (by simp [h]), rfl⟩

theorem parsePolicy_ok {policy : List (Name × Json)} (h : v.policy policy = some policy) :
    parsePolicy v policy = .ok ⟨policy, h⟩ := by
  rw [parsePolicy]
  split
  · rename_i policy' h'
    rw [h] at h'
    cases h'
    rfl
  · rename_i h'
    rw [h] at h'
    cases h'

/-- The draft of a valid record has a port and valid parts. -/
theorem valid_parts {draft : DatasourceDraft} (h : draft.valid v = true) :
    1 ≤ draft.port ∧ draft.tls.valid v = true ∧ draft.destinationPolicy.valid v = true := by
  simp only [DatasourceDraft.valid, Bool.and_eq_true, decide_eq_true_eq] at h
  exact ⟨h.1.1.1.1.1.1.2.1, h.1.2, h.2⟩

/-- **A valid record is read back from its JSON form.** -/
theorem parseRecord_recordToJson (record : CatalogRecord v) :
    parseRecord v (recordToJson record.1) = .ok record := by
  obtain ⟨record, hvalid⟩ := record
  obtain ⟨hport, htls, hdestination⟩ := valid_parts hvalid.draft
  have hid : orInvalid (Json.text? (.str record.id)) = .ok record.id := rfl
  simp only [parseRecord, bind_eq_ok]
  refine ⟨_, rfl, (), requireKeys_ok rfl, _, parseDestination_ok hdestination, _,
    parseTls_ok htls, _, parseLimits_ok _, _, parseLastTest_ok hvalid.lastTest, _, rfl, _, rfl,
    _, rfl, _, rfl, _, requireInt_natCast hport, _, rfl, _, rfl, _, rfl, _,
    parsePolicy_ok hvalid.policy, _, requireStrTuple_map _, (),
    refuseIf_ok (by simp [hvalid.draft]), _, parseEnvelope_envelopeToJson _, _, hid, (),
    refuseIf_ok (by simp [hvalid.id]), _, requireInt_natCast hvalid.revision, ?_⟩
  rw [dif_pos ⟨hvalid.id, hvalid.draft, hvalid.revision, hvalid.lastTest⟩]
  rfl

end MaskGateway.Proofs.Datasource
