import MaskGateway.Runtime.WorkerProtocol

/-!
# `MaskGateway.Proofs.Runtime.WorkerProtocol`: the codecs are exact

The bytes of a message are one expression, `Message.wire`, and its admissible arguments one
predicate, `Message.Admissible`. Each decoder is stated against them as an equivalence: it returns
a message when the body is the bytes of that message, and on no other body. The round trip, and
that nothing else is accepted, are its two directions.

A decoder reads a record of fixed width at an offset. The leaf lemmas (`keyFrom_eq_ok`,
`limitsFrom_eq_ok`) say what each record is when it is accepted. Where a body is several records,
`eq_append_iff` joins them.
-/

set_option autoImplicit false

namespace MaskGateway.Proofs.Runtime.Wire

open Lib MaskGateway.Pgwire MaskGateway.Runtime.Wire

/-! ### Checks and constructors -/

@[simp] theorem need_eq_ok {p : Prop} [Decidable p] {u : Unit} : need p = .ok u ↔ p := by
  rw [need, refuseIf_eq_ok, not_not]

theorem kinds_eq_some {tag : Nat} {kind : Kind} : kinds tag = some kind ↔ tag = kind.value := by
  constructor
  · intro h
    have hvalue := List.find?_some h
    exact (of_decide_eq_true hvalue).symm
  · rintro rfl
    cases kind <;> rfl

theorem failures_eq_some {code : Nat} {category : WireFailure} :
    failures code = some category ↔ code = category.value := by
  constructor
  · intro h
    have hvalue := List.find?_some h
    exact (of_decide_eq_true hvalue).symm
  · rintro rfl
    cases category <;> rfl

theorem Kind.value_lt (kind : Kind) : kind.value < 256 ^ 1 := by
  cases kind <;> decide

theorem WireFailure.value_lt (category : WireFailure) : category.value < 256 ^ 1 := by
  cases category <;> decide

/-- No body is longer than the global bound, so that only the bounds of its kind count. -/
theorem lengths_le (kind : Kind) : (lengths kind).2 ≤ maxFrame := by
  cases kind <;> decide

@[simp] theorem checkLength_eq_ok {kind : Kind} {size : Nat} {u : Unit} :
    checkLength kind size = .ok u ↔ (lengths kind).1 ≤ size ∧ size ≤ (lengths kind).2 := by
  rw [checkLength]
  simp only [bind_eq_ok, need_eq_ok, exists_const]
  exact ⟨And.right, fun h => ⟨Nat.le_trans h.2 (lengths_le kind), h⟩⟩

@[simp] theorem body_eq_ok {kind : Kind} {data : List UInt8} {u : Unit} :
    body kind data = .ok u ↔ (lengths kind).1 ≤ data.length ∧ data.length ≤ (lengths kind).2 :=
  checkLength_eq_ok

@[simp] theorem Expiry.make_eq_ok {bits : Nat} {e : Expiry} :
    Expiry.make bits = .ok e ↔ bits = e.bits := by
  unfold Expiry.make
  constructor
  · intro h
    split at h
    · cases h
      rfl
    · cases h
  · rintro rfl
    exact dif_pos e.bits_range

@[simp] theorem SessionKey.make_eq_ok {session datasource : List UInt8} {generation revision : Nat}
    {key : SessionKey} :
    SessionKey.make session datasource generation revision = .ok key ↔
      session = key.sessionId ∧ datasource = key.datasourceId ∧ generation = key.generation ∧
        revision = key.recordRevision := by
  unfold SessionKey.make
  constructor
  · intro h
    split at h
    · cases h
      exact ⟨rfl, rfl, rfl, rfl⟩
    · cases h
  · rintro ⟨rfl, rfl, rfl, rfl⟩
    exact dif_pos ⟨⟨key.sessionId_length, key.datasourceId_length⟩, key.generation_range,
      key.recordRevision_range⟩

@[simp] theorem makeLimits_eq_ok {rows frame cell columns name : Nat} {limits : ResultLimits} :
    makeLimits rows frame cell columns name = .ok limits ↔
      rows = limits.maxRows ∧ frame = limits.maxFrameBytes ∧ cell = limits.maxCellBytes ∧
        columns = limits.maxColumns ∧ name = limits.maxNameBytes := by
  unfold makeLimits
  constructor
  · intro h
    split at h
    · cases h
      exact ⟨rfl, rfl, rfl, rfl, rfl⟩
    · cases h
  · rintro ⟨rfl, rfl, rfl, rfl, rfl⟩
    exact dif_pos ⟨limits.maxRows_range, limits.maxFrameBytes_range, limits.maxCellBytes_range,
      limits.maxColumns_range, limits.maxNameBytes_range⟩

@[simp] theorem SecretInit.make_eq_ok {key : SessionKey} {limits : ResultLimits} {expiry : Nat}
    {nonce snapshot : List UInt8} {value : SecretInit} :
    SecretInit.make key limits expiry nonce snapshot = .ok value ↔
      key = value.key ∧ limits = value.limits ∧ expiry = value.expiresAt.bits ∧
        nonce = value.nonce ∧ snapshot = value.snapshot := by
  unfold SecretInit.make
  simp only [bind_eq_ok, Expiry.make_eq_ok]
  constructor
  · rintro ⟨_, rfl, h⟩
    split at h
    · cases h
      exact ⟨rfl, rfl, rfl, rfl, rfl⟩
    · cases h
  · rintro ⟨rfl, rfl, rfl, rfl, rfl⟩
    exact ⟨_, rfl, dif_pos ⟨value.nonce_length, value.snapshot_length⟩⟩

@[simp] theorem Query.make_eq_ok {key : SessionKey} {job expiry : Nat} {sql : List UInt8}
    {value : Query} :
    Query.make key job expiry sql = .ok value ↔
      key = value.key ∧ job = value.jobId ∧ expiry = value.expiresAt.bits ∧ sql = value.sql := by
  unfold Query.make
  simp only [bind_eq_ok, Expiry.make_eq_ok]
  constructor
  · rintro ⟨_, rfl, h⟩
    split at h
    · cases h
      exact ⟨rfl, rfl, rfl, rfl⟩
    · cases h
  · rintro ⟨rfl, rfl, rfl, rfl⟩
    exact ⟨_, rfl, dif_pos ⟨value.jobId_range, value.sql_text⟩⟩

@[simp] theorem ErrorReply.make_eq_ok {key : SessionKey} {job : Nat} {category : WireFailure}
    {continuing : Bool} {value : ErrorReply} :
    ErrorReply.make key job category continuing = .ok value ↔
      key = value.key ∧ job = value.jobId ∧ category = value.category ∧
        continuing = value.canContinue := by
  unfold ErrorReply.make
  constructor
  · intro h
    split at h
    · cases h
      exact ⟨rfl, rfl, rfl, rfl⟩
    · cases h
  · rintro ⟨rfl, rfl, rfl, rfl⟩
    exact dif_pos ⟨value.jobId_range, value.canContinue_of⟩

/-! ### The records inside a body -/

@[simp] theorem length_keyBytes (key : SessionKey) : (keyBytes key).length = keyWidths.sum := by
  simp [keyBytes, keyWidths, key.sessionId_length, key.datasourceId_length]

@[simp] theorem length_limitsBytes (limits : ResultLimits) :
    (limitsBytes limits).length = limitsWidths.sum := by
  simp [limitsBytes, limitsWidths]

/-- A key is read from the bytes that it is written as. -/
theorem keyFrom_eq_ok {data : List UInt8} {key : SessionKey}
    (hlen : keyWidths.sum ≤ data.length) :
    keyFrom data = .ok key ↔ data.take keyWidths.sum = keyBytes key := by
  constructor
  · intro h
    obtain ⟨hwidths, hflat⟩ := (cut_eq_iff hlen).mp rfl
    rw [keyFrom] at h
    generalize cut keyWidths data = pieces at *
    rcases hwidths with _ | ⟨-, _ | ⟨-, _ | ⟨hgeneration, _ | ⟨hrevision, _ | _⟩⟩⟩⟩
    obtain ⟨rfl, rfl, hg, hr⟩ := SessionKey.make_eq_ok.mp h
    rw [hflat, keyBytes, ← hg, ← hr, ← eq_toBytes_ofBytes hgeneration,
      ← eq_toBytes_ofBytes hrevision]
    simp
  · intro h
    have hcut : cut keyWidths data = [key.sessionId, key.datasourceId, toBytes 8 key.generation,
        toBytes 8 key.recordRevision] :=
      (cut_eq_iff hlen).mpr ⟨by
        simp [keyWidths, key.sessionId_length, key.datasourceId_length], by simp [h, keyBytes]⟩
    have hmax : maxId < 256 ^ 8 := by decide
    have hgeneration := Nat.lt_of_le_of_lt key.generation_range.2 hmax
    have hrevision := Nat.lt_of_le_of_lt key.recordRevision_range.2 hmax
    rw [keyFrom, hcut]
    exact SessionKey.make_eq_ok.mpr
      ⟨rfl, rfl, ofBytes_toBytes hgeneration, ofBytes_toBytes hrevision⟩

/-- Limits are read from the bytes that they are written as. -/
theorem limitsFrom_eq_ok {data : List UInt8} {limits : ResultLimits}
    (hlen : limitsWidths.sum ≤ data.length) :
    limitsFrom data = .ok limits ↔ data.take limitsWidths.sum = limitsBytes limits := by
  constructor
  · intro h
    obtain ⟨hwidths, hflat⟩ := (cut_eq_iff hlen).mp rfl
    rw [limitsFrom] at h
    generalize cut limitsWidths data = pieces at *
    rcases hwidths with _ | ⟨h₁, _ | ⟨h₂, _ | ⟨h₃, _ | ⟨h₄, _ | ⟨h₅, _ | _⟩⟩⟩⟩⟩
    obtain ⟨hrows, hframe, hcell, hcolumns, hname⟩ := makeLimits_eq_ok.mp h
    rw [hflat, limitsBytes, ← hrows, ← hframe, ← hcell, ← hcolumns, ← hname,
      ← eq_toBytes_ofBytes h₁, ← eq_toBytes_ofBytes h₂, ← eq_toBytes_ofBytes h₃,
      ← eq_toBytes_ofBytes h₄, ← eq_toBytes_ofBytes h₅]
    simp
  · intro h
    have hcut : cut limitsWidths data = [toBytes 4 limits.maxRows, toBytes 4 limits.maxFrameBytes,
        toBytes 4 limits.maxCellBytes, toBytes 2 limits.maxColumns,
        toBytes 2 limits.maxNameBytes] :=
      (cut_eq_iff hlen).mpr ⟨by simp [limitsWidths], by simp [h, limitsBytes]⟩
    have hrows := limits.maxRows_range.2
    have hframe := limits.maxFrameBytes_range.2
    have hcell := limits.maxCellBytes_range.2
    have hcolumns := limits.maxColumns_range.2
    have hname := limits.maxNameBytes_range.2
    rw [limitsFrom, hcut]
    exact makeLimits_eq_ok.mpr ⟨ofBytes_toBytes (by omega), ofBytes_toBytes (by omega),
      ofBytes_toBytes (by omega), ofBytes_toBytes (by omega), ofBytes_toBytes (by omega)⟩

/-- The bits of an expiry fit their eight bytes. -/
theorem Expiry.bits_lt (e : Expiry) : e.bits < 256 ^ 8 :=
  Nat.lt_trans e.bits_range.2 (by decide)

/-- A job number fits its eight bytes. -/
theorem jobId_lt {jobId : Nat} (h : jobId ≤ maxId) : jobId < 256 ^ 8 :=
  Nat.lt_of_le_of_lt h (by decide)

/-! ### The bodies -/

/-- The body of an INIT. -/
def initWire (value : SecretInit) : List UInt8 :=
  keyBytes value.key ++ limitsBytes value.limits ++
    (toBytes 8 value.expiresAt.bits ++ value.nonce ++ toBytes 4 value.snapshot.length) ++
    value.snapshot

/-- The body of a QUERY. -/
def queryWire (value : Query) : List UInt8 :=
  keyBytes value.key ++ (toBytes 8 value.jobId ++ toBytes 8 value.expiresAt.bits) ++ value.sql

/-- The body of an ERROR. -/
def errorWire (value : ErrorReply) : List UInt8 :=
  keyBytes value.key ++ (toBytes 8 value.jobId ++ toBytes 1 value.category.value ++
    toBytes 1 value.canContinue.toNat ++ toBytes 2 0)

/-- The body of a DONE. -/
def doneWire (key : SessionKey) (jobId : Nat) : List UInt8 := keyBytes key ++ toBytes 8 jobId

/-- The body of a GUARD_READY. -/
def guardWire (pid parent addressBytes : Nat) : List UInt8 :=
  toBytes 4 pid ++ toBytes 4 parent ++ toBytes 8 addressBytes ++ toBytes 1 0 ++
    toBytes 1 sigkill ++ toBytes 2 0

/-- The body of a message. -/
def wire : Message → List UInt8
  | .guardReady pid parent addressBytes => guardWire pid parent addressBytes
  | .init value => initWire value
  | .opened tag => tag
  | .query value => queryWire value
  | .error value => errorWire value
  | .result => []
  | .done key jobId => doneWire key jobId
  | .close => []

/-- The arguments that the encoders take. What is not said here is part of the types. -/
def Admissible : Message → Prop
  | .guardReady pid parent addressBytes =>
      (2 ≤ pid ∧ pid ≤ maxPid) ∧ (1 ≤ parent ∧ parent ≤ maxPid) ∧ pid ≠ parent ∧
        64 * 1024 * 1024 ≤ addressBytes ∧ addressBytes ≤ 4096 * 1024 * 1024
  | .opened tag => tag.length = nonceSize
  | .done _ jobId => 1 ≤ jobId ∧ jobId ≤ maxId
  | _ => True

theorem length_initWire (value : SecretInit) :
    (initWire value).length = initFixed + value.snapshot.length := by
  simp only [initWire, List.length_append, length_keyBytes, length_limitsBytes, length_toBytes,
    value.nonce_length]
  rfl

theorem length_queryWire (value : Query) :
    (queryWire value).length = queryFixed + value.sql.length := by
  simp only [queryWire, List.length_append, length_keyBytes, length_toBytes]
  rfl

theorem length_errorWire (value : ErrorReply) :
    (errorWire value).length = keyWidths.sum + errorWidths.sum := by
  simp only [errorWire, List.length_append, length_keyBytes, length_toBytes]
  rfl

theorem length_doneWire (key : SessionKey) (jobId : Nat) :
    (doneWire key jobId).length = keyWidths.sum + jobWidths.sum := by
  simp only [doneWire, List.length_append, length_keyBytes, length_toBytes]
  rfl

theorem length_guardWire (pid parent addressBytes : Nat) :
    (guardWire pid parent addressBytes).length = guardWidths.sum := by
  simp only [guardWire, List.length_append, length_toBytes]
  rfl

/-- The body of an admissible message has a length of its kind. -/
theorem length_wire {m : Message} (h : Admissible m) :
    (lengths m.kind).1 ≤ (wire m).length ∧ (wire m).length ≤ (lengths m.kind).2 := by
  cases m with
  | guardReady pid parent addressBytes =>
      rw [wire, length_guardWire]
      exact ⟨Nat.le_refl _, Nat.le_refl _⟩
  | init value =>
      have := value.snapshot_length
      rw [wire, length_initWire]
      exact ⟨Nat.add_le_add_left this.1 _, Nat.add_le_add_left this.2 _⟩
  | opened tag =>
      have htag : tag.length = nonceSize := h
      rw [wire, htag]
      exact ⟨Nat.le_refl _, Nat.le_refl _⟩
  | query value =>
      have := value.sql_text.1
      rw [wire, length_queryWire]
      exact ⟨Nat.add_le_add_left this.1 _, Nat.add_le_add_left this.2.1 _⟩
  | error value =>
      rw [wire, length_errorWire]
      exact ⟨Nat.le_refl _, Nat.le_refl _⟩
  | done key jobId =>
      rw [wire, length_doneWire]
      exact ⟨Nat.le_refl _, Nat.le_refl _⟩
  | result => exact ⟨Nat.le_refl _, Nat.le_refl _⟩
  | close => exact ⟨Nat.le_refl _, Nat.le_refl _⟩

/-! ### The encoders -/

theorem packet_eq_ok {kind : Kind} {data p : List UInt8} :
    packet kind data = .ok p ↔
      ((lengths kind).1 ≤ data.length ∧ data.length ≤ (lengths kind).2) ∧
        p = packHeader kind data.length ++ data := by
  rw [packet, bind_eq_ok]
  simp only [body_eq_ok, exists_const, pure_eq_ok]
  exact and_congr_right fun _ => eq_comm

/-- The encoders take the admissible messages, and put the header of the body in front of it. -/
theorem encode_eq_ok {m : Message} {p : List UInt8} :
    m.encode = .ok p ↔ Admissible m ∧ p = packHeader m.kind (wire m).length ++ wire m := by
  -- Each encoder is its checks and then `packet`, whose own check passes by `length_wire`.
  have hpacket : Admissible m → (packet m.kind (wire m) = .ok p ↔
      p = packHeader m.kind (wire m).length ++ wire m) := fun h =>
    packet_eq_ok.trans (and_iff_right (length_wire h))
  cases m with
  | guardReady pid parent addressBytes =>
      rw [show Message.encode (.guardReady pid parent addressBytes) =
        encodeGuard pid parent addressBytes from rfl, encodeGuard]
      simp only [bind_eq_ok, need_eq_ok, exists_const]
      constructor
      · rintro ⟨hids, haddress, hp⟩
        have hok : Admissible (.guardReady pid parent addressBytes) :=
          ⟨hids.1, hids.2.1, hids.2.2, haddress⟩
        exact ⟨hok, (hpacket hok).mp hp⟩
      · rintro ⟨hok, hp⟩
        exact ⟨⟨hok.1, hok.2.1, hok.2.2.1⟩, hok.2.2.2, (hpacket hok).mpr hp⟩
  | opened tag =>
      constructor
      · intro h
        have hlen := (packet_eq_ok.mp h).1
        exact ⟨Nat.le_antisymm hlen.2 hlen.1, (packet_eq_ok.mp h).2⟩
      · rintro ⟨hok, hp⟩
        exact (hpacket hok).mpr hp
  | done key jobId =>
      rw [show Message.encode (.done key jobId) = encodeDone key jobId from rfl, encodeDone]
      simp only [bind_eq_ok, need_eq_ok, exists_const]
      exact and_congr_right fun hok => hpacket hok
  | init value => exact (hpacket trivial).trans (and_iff_right trivial).symm
  | query value => exact (hpacket trivial).trans (and_iff_right trivial).symm
  | error value => exact (hpacket trivial).trans (and_iff_right trivial).symm
  | result => exact (hpacket trivial).trans (and_iff_right trivial).symm
  | close => exact (hpacket trivial).trans (and_iff_right trivial).symm

/-! ### The decoders -/

theorem decodeInit_eq_ok {data : List UInt8} {value : SecretInit} :
    decodeInit data = .ok value ↔ data = initWire value := by
  constructor
  · intro h
    rw [decodeInit] at h
    simp only [bind_eq_ok, body_eq_ok, exists_const] at h
    obtain ⟨⟨hlow, hhigh⟩, key, hkey, limits, hlimits, h⟩ := h
    have hlen : 109 ≤ data.length := hlow
    have hkey := (keyFrom_eq_ok (Nat.le_trans (by decide) hlen)).mp hkey
    have hlimits := (limitsFrom_eq_ok (by
      rw [List.length_drop]
      exact Nat.le_sub_of_add_le (Nat.le_trans (by decide) hlen))).mp hlimits
    have hrest : initWidths.sum ≤ (data.drop (keyWidths.sum + limitsWidths.sum)).length := by
      rw [List.length_drop]
      exact Nat.le_sub_of_add_le (Nat.le_trans (by decide) hlen)
    obtain ⟨hwidths, hflat⟩ := (cut_eq_iff hrest).mp rfl
    generalize cut initWidths (data.drop (keyWidths.sum + limitsWidths.sum)) = pieces at *
    rcases hwidths with _ | ⟨hexpiry, _ | ⟨hnonce, _ | ⟨hsize, _ | _⟩⟩⟩
    simp only [bind_eq_ok, need_eq_ok, exists_const, SecretInit.make_eq_ok] at h
    obtain ⟨hn, rfl, rfl, he, rfl, hsnapshot⟩ := h
    have hcount : value.snapshot.length = data.length - initFixed := by
      rw [← hsnapshot, List.length_drop]
    rw [initWire, ← hkey, ← hlimits, ← he, ← hsnapshot, List.length_drop, ← hn,
      ← eq_toBytes_ofBytes hexpiry, ← eq_toBytes_ofBytes hsize]
    -- The three records and the rest are consecutive parts of the body.
    have hparts : data = data.take keyWidths.sum ++
        (data.drop keyWidths.sum).take limitsWidths.sum ++
        (data.drop (keyWidths.sum + limitsWidths.sum)).take initWidths.sum ++
        data.drop initFixed := by
      rw [initFixed, ← List.take_add, ← List.take_add, List.take_append_drop]
    rw [hflat] at hparts
    simpa using hparts
  · rintro rfl
    have hlength := length_initWire value
    have hbody := length_wire (m := .init value) trivial
    have hnonce := value.nonce_length
    have hwire : initWire value = keyBytes value.key ++ (limitsBytes value.limits ++
        ([toBytes 8 value.expiresAt.bits, value.nonce,
          toBytes 4 value.snapshot.length].flatten ++ value.snapshot)) := by
      simp [initWire]
    have hkey : (initWire value).take keyWidths.sum = keyBytes value.key := by
      rw [hwire, List.take_left' (length_keyBytes _)]
    have hdrop : (initWire value).drop keyWidths.sum = limitsBytes value.limits ++
        ([toBytes 8 value.expiresAt.bits, value.nonce,
          toBytes 4 value.snapshot.length].flatten ++ value.snapshot) := by
      rw [hwire, List.drop_left' (length_keyBytes _)]
    have hlimits : ((initWire value).drop keyWidths.sum).take limitsWidths.sum =
        limitsBytes value.limits := by
      rw [hdrop, List.take_left' (length_limitsBytes _)]
    have hfields : (initWire value).drop (keyWidths.sum + limitsWidths.sum) =
        [toBytes 8 value.expiresAt.bits, value.nonce,
          toBytes 4 value.snapshot.length].flatten ++ value.snapshot := by
      rw [← List.drop_drop, hdrop, List.drop_left' (length_limitsBytes _)]
    have hrest : (initWire value).drop initFixed = value.snapshot := by
      rw [initFixed, ← List.drop_drop, hfields]
      exact List.drop_left' (by simp [hnonce, initWidths, nonceSize])
    have hcut : cut initWidths ((initWire value).drop (keyWidths.sum + limitsWidths.sum)) =
        [toBytes 8 value.expiresAt.bits, value.nonce, toBytes 4 value.snapshot.length] := by
      rw [hfields]
      exact cut_append (by simp [initWidths, hnonce, nonceSize]) _
    have hsnapshot : value.snapshot.length < 256 ^ 4 :=
      Nat.lt_of_le_of_lt value.snapshot_length.2 (by decide)
    have hlen : 109 ≤ (initWire value).length := hbody.1
    rw [decodeInit]
    simp only [bind_eq_ok, body_eq_ok, exists_const]
    refine ⟨hbody, value.key, (keyFrom_eq_ok (Nat.le_trans (by decide) hlen)).mpr hkey,
      value.limits, (limitsFrom_eq_ok ?_).mpr hlimits, ?_⟩
    · rw [List.length_drop]
      exact Nat.le_sub_of_add_le (Nat.le_trans (by decide) hlen)
    · rw [hcut, hrest]
      simp only [bind_eq_ok, need_eq_ok, exists_const, SecretInit.make_eq_ok,
        ofBytes_toBytes hsnapshot, ofBytes_toBytes (Expiry.bits_lt _), and_true]
      rw [hlength, Nat.add_sub_cancel_left]

theorem decodeQuery_eq_ok {data : List UInt8} {value : Query} :
    decodeQuery data = .ok value ↔ data = queryWire value := by
  constructor
  · intro h
    rw [decodeQuery] at h
    simp only [bind_eq_ok, body_eq_ok, exists_const] at h
    obtain ⟨⟨hlow, -⟩, h⟩ := h
    have hlen : 65 ≤ data.length := hlow
    have hrest : queryWidths.sum ≤ (data.drop keyWidths.sum).length := by
      rw [List.length_drop]
      exact Nat.le_sub_of_add_le (Nat.le_trans (by decide) hlen)
    obtain ⟨hwidths, hflat⟩ := (cut_eq_iff hrest).mp rfl
    generalize cut queryWidths (data.drop keyWidths.sum) = pieces at *
    rcases hwidths with _ | ⟨hjob, _ | ⟨hexpiry, _ | _⟩⟩
    simp only [bind_eq_ok, Query.make_eq_ok] at h
    obtain ⟨key, hkey, rfl, hj, he, hsql⟩ := h
    have hkey := (keyFrom_eq_ok (Nat.le_trans (by decide) hlen)).mp hkey
    rw [queryWire, ← hkey, ← hj, ← he, ← hsql, ← eq_toBytes_ofBytes hjob,
      ← eq_toBytes_ofBytes hexpiry]
    have hparts : data = data.take keyWidths.sum ++
        (data.drop keyWidths.sum).take queryWidths.sum ++ data.drop queryFixed := by
      rw [queryFixed, ← List.take_add, List.take_append_drop]
    rw [hflat] at hparts
    simpa using hparts
  · rintro rfl
    have hbody := length_wire (m := .query value) trivial
    have hwire : queryWire value = keyBytes value.key ++
        ([toBytes 8 value.jobId, toBytes 8 value.expiresAt.bits].flatten ++ value.sql) := by
      simp [queryWire]
    have hkey : (queryWire value).take keyWidths.sum = keyBytes value.key := by
      rw [hwire, List.take_left' (length_keyBytes _)]
    have hdrop : (queryWire value).drop keyWidths.sum =
        [toBytes 8 value.jobId, toBytes 8 value.expiresAt.bits].flatten ++ value.sql := by
      rw [hwire, List.drop_left' (length_keyBytes _)]
    have hrest : (queryWire value).drop queryFixed = value.sql := by
      rw [queryFixed, ← List.drop_drop, hdrop]
      exact List.drop_left' (by simp [queryWidths])
    have hcut : cut queryWidths ((queryWire value).drop keyWidths.sum) =
        [toBytes 8 value.jobId, toBytes 8 value.expiresAt.bits] := by
      rw [hdrop]
      exact cut_append (by simp [queryWidths]) _
    have hlen : 65 ≤ (queryWire value).length := hbody.1
    rw [decodeQuery]
    simp only [bind_eq_ok, body_eq_ok, exists_const]
    refine ⟨hbody, ?_⟩
    rw [hcut, hrest]
    simp only [bind_eq_ok, Query.make_eq_ok]
    exact ⟨value.key, (keyFrom_eq_ok (Nat.le_trans (by decide) hlen)).mpr hkey, rfl,
      ofBytes_toBytes (jobId_lt value.jobId_range.2), ofBytes_toBytes (Expiry.bits_lt _), trivial⟩

theorem decodeError_eq_ok {data : List UInt8} {value : ErrorReply} :
    decodeError data = .ok value ↔ data = errorWire value := by
  constructor
  · intro h
    rw [decodeError] at h
    simp only [bind_eq_ok, body_eq_ok, exists_const] at h
    obtain ⟨⟨hlow, hhigh⟩, h⟩ := h
    have hlen : data.length = 60 := Nat.le_antisymm hhigh hlow
    have hrest : errorWidths.sum ≤ (data.drop keyWidths.sum).length := by
      rw [List.length_drop, hlen]
      decide
    obtain ⟨hwidths, hflat⟩ := (cut_eq_iff hrest).mp rfl
    generalize cut errorWidths (data.drop keyWidths.sum) = pieces at *
    rcases hwidths with _ | ⟨hjob, _ | ⟨hcode, _ | ⟨hcontinuing, _ | ⟨hreserved, _ | _⟩⟩⟩⟩
    rename_i job code continuing reserved
    dsimp only at h
    split at h
    · cases h
    rename_i category hcategory
    simp only [bind_eq_ok, need_eq_ok, exists_const, ErrorReply.make_eq_ok] at h
    obtain ⟨⟨hbit, hzero⟩, key, hkey, rfl, hj, rfl, hc⟩ := h
    have hkey := (keyFrom_eq_ok (Nat.le_trans (by decide) (Nat.le_of_eq hlen.symm))).mp hkey
    -- The flag byte is 0 or 1, so that reading it as a truth value loses nothing.
    have hflag : value.canContinue.toNat = ofBytes continuing := by
      rw [← hc]
      rcases hbit with hbit | hbit <;> rw [hbit] <;> rfl
    rw [errorWire, ← hkey, ← hj, ← failures_eq_some.mp hcategory, hflag, ← hzero,
      ← eq_toBytes_ofBytes hjob, ← eq_toBytes_ofBytes hcode, ← eq_toBytes_ofBytes hcontinuing,
      ← eq_toBytes_ofBytes hreserved]
    have hparts : data = data.take keyWidths.sum ++
        (data.drop keyWidths.sum).take errorWidths.sum := by
      rw [← List.take_add]
      exact (List.take_of_length_le (Nat.le_of_eq hlen)).symm
    rw [hflat] at hparts
    simpa using hparts
  · rintro rfl
    have hbody := length_wire (m := .error value) trivial
    have hwire : errorWire value = keyBytes value.key ++ [toBytes 8 value.jobId,
        toBytes 1 value.category.value, toBytes 1 value.canContinue.toNat,
        toBytes 2 0].flatten := by
      simp [errorWire]
    have hkey : (errorWire value).take keyWidths.sum = keyBytes value.key := by
      rw [hwire, List.take_left' (length_keyBytes _)]
    have hcut : cut errorWidths ((errorWire value).drop keyWidths.sum) = [toBytes 8 value.jobId,
        toBytes 1 value.category.value, toBytes 1 value.canContinue.toNat, toBytes 2 0] := by
      rw [hwire, List.drop_left' (length_keyBytes _)]
      exact cut_flatten (by simp [errorWidths])
    have hflag : ofBytes (toBytes 1 value.canContinue.toNat) = value.canContinue.toNat :=
      ofBytes_toBytes (by cases value.canContinue <;> decide)
    have hlen : 60 ≤ (errorWire value).length := hbody.1
    rw [decodeError]
    simp only [bind_eq_ok, body_eq_ok, exists_const]
    refine ⟨hbody, ?_⟩
    rw [hcut]
    dsimp only
    rw [failures_eq_some.mpr (ofBytes_toBytes (WireFailure.value_lt _)), hflag,
      ofBytes_toBytes (by decide : 0 < 256 ^ 2)]
    simp only [bind_eq_ok, need_eq_ok, exists_const, ErrorReply.make_eq_ok]
    refine ⟨⟨?_, trivial⟩, value.key,
      (keyFrom_eq_ok (Nat.le_trans (by decide) hlen)).mpr hkey, rfl,
      ofBytes_toBytes (jobId_lt value.jobId_range), trivial, ?_⟩
    · cases value.canContinue with
      | false => exact .inl rfl
      | true => exact .inr rfl
    · cases value.canContinue <;> rfl

theorem decodeDone_eq_ok {data : List UInt8} {key : SessionKey} {jobId : Nat} :
    decodeDone data = .ok (key, jobId) ↔
      (1 ≤ jobId ∧ jobId ≤ maxId) ∧ data = doneWire key jobId := by
  constructor
  · intro h
    rw [decodeDone] at h
    simp only [bind_eq_ok, body_eq_ok, exists_const] at h
    obtain ⟨⟨hlow, hhigh⟩, h⟩ := h
    have hlen : data.length = 56 := Nat.le_antisymm hhigh hlow
    have hrest : jobWidths.sum ≤ (data.drop keyWidths.sum).length := by
      rw [List.length_drop, hlen]
      decide
    obtain ⟨hwidths, hflat⟩ := (cut_eq_iff hrest).mp rfl
    generalize cut jobWidths (data.drop keyWidths.sum) = pieces at *
    rcases hwidths with _ | ⟨hjob, _ | _⟩
    simp only [bind_eq_ok, need_eq_ok, exists_const, pure_eq_ok, Prod.mk.injEq] at h
    obtain ⟨hrange, _, hkey, rfl, rfl⟩ := h
    have hkey := (keyFrom_eq_ok (Nat.le_trans (by decide) (Nat.le_of_eq hlen.symm))).mp hkey
    refine ⟨hrange, ?_⟩
    rw [doneWire, ← hkey, ← eq_toBytes_ofBytes hjob]
    have hparts : data = data.take keyWidths.sum ++
        (data.drop keyWidths.sum).take jobWidths.sum := by
      rw [← List.take_add]
      exact (List.take_of_length_le (Nat.le_of_eq hlen)).symm
    rw [hflat] at hparts
    simpa using hparts
  · rintro ⟨hrange, rfl⟩
    have hbody := length_wire (m := .done key jobId) hrange
    have hcut : cut jobWidths ((doneWire key jobId).drop keyWidths.sum) = [toBytes 8 jobId] := by
      rw [doneWire, List.drop_left' (length_keyBytes _)]
      rfl
    have hkey : (doneWire key jobId).take keyWidths.sum = keyBytes key := by
      rw [doneWire, List.take_left' (length_keyBytes _)]
    have hlen : 56 ≤ (doneWire key jobId).length := hbody.1
    rw [decodeDone]
    simp only [bind_eq_ok, body_eq_ok, exists_const]
    refine ⟨hbody, ?_⟩
    rw [hcut]
    simp only [bind_eq_ok, need_eq_ok, exists_const, pure_eq_ok, Prod.mk.injEq,
      ofBytes_toBytes (jobId_lt hrange.2), and_true]
    exact ⟨hrange, key, (keyFrom_eq_ok (Nat.le_trans (by decide) hlen)).mpr hkey, rfl⟩

theorem decodeGuard_eq_ok {data : List UInt8} {pid parent addressBytes : Nat} :
    decodeGuard data = .ok (pid, parent, addressBytes) ↔
      Admissible (.guardReady pid parent addressBytes) ∧
        data = guardWire pid parent addressBytes := by
  constructor
  · intro h
    rw [decodeGuard] at h
    simp only [bind_eq_ok, body_eq_ok, exists_const] at h
    obtain ⟨⟨hlow, hhigh⟩, h⟩ := h
    have hlen : data.length = guardWidths.sum := Nat.le_antisymm hhigh hlow
    have hwidths := forall₂_cut hlen
    have hflat := flatten_cut hlen
    generalize cut guardWidths data = pieces at *
    rcases hwidths with _ | ⟨hpid, _ | ⟨hparent, _ | ⟨haddress, _ | ⟨hdumpable, _ | ⟨hdeath,
      _ | ⟨hreserved, _ | _⟩⟩⟩⟩⟩⟩
    simp only [bind_eq_ok, need_eq_ok, exists_const, pure_eq_ok, Prod.mk.injEq] at h
    obtain ⟨⟨hzero, hkill, hzero'⟩, packed, hencode, rfl, rfl, rfl⟩ := h
    -- The decoder writes the numbers again, which checks their ranges.
    have hok := (encode_eq_ok (m := .guardReady _ _ _)).mp hencode
    refine ⟨hok.1, ?_⟩
    rw [guardWire, ← hkill, ← eq_toBytes_ofBytes hpid, ← eq_toBytes_ofBytes hparent,
      ← eq_toBytes_ofBytes haddress, ← eq_toBytes_ofBytes hdeath,
      ← (eq_toBytes_iff (by decide)).mpr ⟨hdumpable, hzero⟩,
      ← (eq_toBytes_iff (by decide)).mpr ⟨hreserved, hzero'⟩, ← hflat]
    simp
  · rintro ⟨hok, rfl⟩
    have hbody := length_wire hok
    have hcut : cut guardWidths (guardWire pid parent addressBytes) = [toBytes 4 pid,
        toBytes 4 parent, toBytes 8 addressBytes, toBytes 1 0, toBytes 1 sigkill,
        toBytes 2 0] := by
      have hwire : guardWire pid parent addressBytes = [toBytes 4 pid, toBytes 4 parent,
          toBytes 8 addressBytes, toBytes 1 0, toBytes 1 sigkill, toBytes 2 0].flatten := by
        simp [guardWire]
      rw [hwire]
      exact cut_flatten (by simp [guardWidths])
    have hmax : maxPid < 256 ^ 4 := by decide
    have hencode := (encode_eq_ok (m := .guardReady pid parent addressBytes)).mpr ⟨hok, rfl⟩
    obtain ⟨hpid, hparent, -, haddress⟩ := hok
    rw [decodeGuard, hcut]
    simp only [bind_eq_ok, body_eq_ok, need_eq_ok, exists_const, pure_eq_ok,
      ofBytes_toBytes (Nat.lt_of_le_of_lt hpid.2 hmax),
      ofBytes_toBytes (Nat.lt_of_le_of_lt hparent.2 hmax),
      ofBytes_toBytes (by omega : addressBytes < 256 ^ 8),
      ofBytes_toBytes (by decide : 0 < 256 ^ 1), ofBytes_toBytes (by decide : 0 < 256 ^ 2),
      ofBytes_toBytes (by decide : sigkill < 256 ^ 1), and_true]
    exact ⟨hbody, trivial, _, hencode⟩

/-- The decoder of a kind returns a message on the bytes of that message, and on nothing else. -/
theorem decode_eq_ok {kind : Kind} {data : List UInt8} {m : Message} :
    Message.decode kind data = .ok m ↔ m.kind = kind ∧ Admissible m ∧ data = wire m := by
  constructor
  · intro h
    cases kind with
    | guardReady =>
        simp only [Message.decode, bind_eq_ok, pure_eq_ok] at h
        obtain ⟨_, hguard, rfl⟩ := h
        exact ⟨rfl, decodeGuard_eq_ok.mp hguard⟩
    | init =>
        simp only [Message.decode, bind_eq_ok, pure_eq_ok] at h
        obtain ⟨value, hinit, rfl⟩ := h
        exact ⟨rfl, trivial, decodeInit_eq_ok.mp hinit⟩
    | opened =>
        simp only [Message.decode, decodeOpened, bind_eq_ok, body_eq_ok, exists_const,
          pure_eq_ok] at h
        obtain ⟨_, ⟨hlen, rfl⟩, rfl⟩ := h
        exact ⟨rfl, Nat.le_antisymm hlen.2 hlen.1, rfl⟩
    | query =>
        simp only [Message.decode, bind_eq_ok, pure_eq_ok] at h
        obtain ⟨value, hquery, rfl⟩ := h
        exact ⟨rfl, trivial, decodeQuery_eq_ok.mp hquery⟩
    | error =>
        simp only [Message.decode, bind_eq_ok, pure_eq_ok] at h
        obtain ⟨value, herror, rfl⟩ := h
        exact ⟨rfl, trivial, decodeError_eq_ok.mp herror⟩
    | result =>
        simp only [Message.decode, bind_eq_ok, body_eq_ok, exists_const, pure_eq_ok] at h
        obtain ⟨hlen, rfl⟩ := h
        exact ⟨rfl, trivial, List.eq_nil_of_length_eq_zero (Nat.le_zero.mp hlen.2)⟩
    | done =>
        simp only [Message.decode, bind_eq_ok, pure_eq_ok] at h
        obtain ⟨_, hdone, rfl⟩ := h
        exact ⟨rfl, decodeDone_eq_ok.mp hdone⟩
    | close =>
        simp only [Message.decode, bind_eq_ok, body_eq_ok, exists_const, pure_eq_ok] at h
        obtain ⟨hlen, rfl⟩ := h
        exact ⟨rfl, trivial, List.eq_nil_of_length_eq_zero (Nat.le_zero.mp hlen.2)⟩
  · rintro ⟨rfl, hok, rfl⟩
    have hbody := length_wire hok
    cases m with
    | guardReady pid parent addressBytes =>
        simp only [Message.kind, Message.decode, bind_eq_ok, pure_eq_ok]
        exact ⟨_, decodeGuard_eq_ok.mpr ⟨hok, rfl⟩, rfl⟩
    | init value =>
        simp only [Message.kind, Message.decode, bind_eq_ok, pure_eq_ok]
        exact ⟨value, decodeInit_eq_ok.mpr rfl, rfl⟩
    | opened tag =>
        simp only [Message.kind, Message.decode, decodeOpened, bind_eq_ok, body_eq_ok,
          exists_const, pure_eq_ok]
        exact ⟨tag, ⟨hbody, rfl⟩, rfl⟩
    | query value =>
        simp only [Message.kind, Message.decode, bind_eq_ok, pure_eq_ok]
        exact ⟨value, decodeQuery_eq_ok.mpr rfl, rfl⟩
    | error value =>
        simp only [Message.kind, Message.decode, bind_eq_ok, pure_eq_ok]
        exact ⟨value, decodeError_eq_ok.mpr rfl, rfl⟩
    | result => rfl
    | done key jobId =>
        simp only [Message.kind, Message.decode, bind_eq_ok, pure_eq_ok]
        exact ⟨_, decodeDone_eq_ok.mpr ⟨hok, rfl⟩, rfl⟩
    | close => rfl

/-! ### Headers and streams -/

@[simp] theorem length_packHeader (kind : Kind) (size : Nat) :
    (packHeader kind size).length = headerBytes := by
  simp [packHeader, packetMagic, headerBytes, packetWidths]

theorem cut_packHeader (kind : Kind) (size : Nat) :
    cut packetWidths (packHeader kind size) = [packetMagic, toBytes 1 packetVersion,
      toBytes 1 kind.value, toBytes 2 0, toBytes 4 size] := by
  have hwire : packHeader kind size = [packetMagic, toBytes 1 packetVersion,
      toBytes 1 kind.value, toBytes 2 0, toBytes 4 size].flatten := by
    simp [packHeader]
  rw [hwire]
  exact cut_flatten (by simp [packetWidths, packetMagic])

/-- A header is accepted when it is the packed one of a kind and of a length of that kind. -/
theorem parseHeader_eq_ok {data : List UInt8} {kind : Kind} {size : Nat} :
    parseHeader data = .ok (kind, size) ↔
      ((lengths kind).1 ≤ size ∧ size ≤ (lengths kind).2) ∧ data = packHeader kind size := by
  constructor
  · intro h
    rw [parseHeader] at h
    simp only [bind_eq_ok, need_eq_ok, exists_const] at h
    obtain ⟨hlen, h⟩ := h
    have hwidths := forall₂_cut hlen
    have hflat := flatten_cut hlen
    generalize cut packetWidths data = pieces at *
    rcases hwidths with _ | ⟨hmagic, _ | ⟨hversion, _ | ⟨htag, _ | ⟨hreserved, _ | ⟨hsize,
      _ | _⟩⟩⟩⟩⟩
    rename_i magic version tag reserved size
    simp only [bind_eq_ok, need_eq_ok, exists_const] at h
    obtain ⟨⟨rfl, hv, hzero⟩, h⟩ := h
    split at h
    · cases h
    rename_i hkind
    simp only [bind_eq_ok, checkLength_eq_ok, exists_const, pure_eq_ok, Prod.mk.injEq] at h
    obtain ⟨hbounds, rfl, rfl⟩ := h
    refine ⟨hbounds, ?_⟩
    rw [packHeader, ← kinds_eq_some.mp hkind, ← hv, ← hzero, ← eq_toBytes_ofBytes hversion,
      ← eq_toBytes_ofBytes htag, ← eq_toBytes_ofBytes hreserved, ← eq_toBytes_ofBytes hsize,
      ← hflat]
    simp
  · rintro ⟨hbounds, rfl⟩
    have hsize : size < 256 ^ 4 :=
      Nat.lt_of_le_of_lt (Nat.le_trans hbounds.2 (lengths_le kind)) (by decide)
    rw [parseHeader, cut_packHeader]
    simp only [bind_eq_ok, need_eq_ok, exists_const, length_packHeader,
      ofBytes_toBytes (by decide : packetVersion < 256 ^ 1),
      ofBytes_toBytes (by decide : 0 < 256 ^ 2), ofBytes_toBytes (Kind.value_lt kind),
      ofBytes_toBytes hsize, kinds_eq_some.mpr rfl, checkLength_eq_ok, pure_eq_ok, and_true]
    exact ⟨trivial, trivial, hbounds⟩

/-- The header tells the kind, whatever the length. -/
theorem kind_of_packHeader {kind kind' : Kind} {size size' : Nat}
    (h : packHeader kind size = packHeader kind' size') : kind = kind' := by
  have hcut := cut_packHeader kind size
  rw [h, cut_packHeader] at hcut
  have htag : toBytes 1 kind'.value = toBytes 1 kind.value :=
    (List.cons.inj (List.cons.inj (List.cons.inj hcut).2).2).1
  have hvalue := congrArg ofBytes htag
  rw [ofBytes_toBytes (Kind.value_lt kind'), ofBytes_toBytes (Kind.value_lt kind)] at hvalue
  exact Option.some.inj
    ((kinds_eq_some.mpr rfl).symm.trans (kinds_eq_some.mpr hvalue.symm))

/-- A packet, as it was sent: a kind and its body. -/
def packetWire (p : Kind × List UInt8) : List UInt8 := packHeader p.1 p.2.length ++ p.2

/-- A body whose length is one of its kind. -/
def FitsKind (p : Kind × List UInt8) : Prop :=
  (lengths p.1).1 ≤ p.2.length ∧ p.2.length ≤ (lengths p.1).2

theorem recvExact_eq_ok {size : Nat} {stream data rest : List UInt8} :
    recvExact size stream = .ok (data, rest) ↔ data.length = size ∧ stream = data ++ rest := by
  rw [recvExact]
  simp only [bind_eq_ok, refuseIf_eq_ok, exists_const, pure_eq_ok, Prod.mk.injEq, Nat.not_lt]
  constructor
  · rintro ⟨hlen, rfl, rfl⟩
    exact ⟨List.length_take_of_le hlen, (List.take_append_drop ..).symm⟩
  · rintro ⟨rfl, rfl⟩
    refine ⟨?_, List.take_left, List.drop_left⟩
    rw [List.length_append]
    exact Nat.le_add_right ..

/-- A packet is read off a stream when the stream starts with it. -/
theorem readPacket_eq_ok {stream rest : List UInt8} {p : Kind × List UInt8} :
    readPacket stream = .ok (p, rest) ↔ FitsKind p ∧ stream = packetWire p ++ rest := by
  rw [readPacket]
  simp only [bind_eq_ok, pure_eq_ok, Prod.exists, recvExact_eq_ok, mapError_eq_ok, parseHeader_eq_ok,
    Prod.mk.injEq]
  constructor
  · rintro ⟨head, stream', ⟨hhead, rfl⟩, kind, size, ⟨hbounds, rfl⟩, data, rest', ⟨rfl, rfl⟩,
      rfl, rfl⟩
    refine ⟨hbounds, ?_⟩
    rw [packetWire, List.append_assoc]
  · rintro ⟨hfits, rfl⟩
    refine ⟨packHeader p.1 p.2.length, p.2 ++ rest, ⟨length_packHeader .., ?_⟩, p.1, p.2.length,
      ⟨hfits, rfl⟩, p.2, rest, ⟨rfl, rfl⟩, rfl, rfl⟩
    rw [packetWire, List.append_assoc]

/-- A packet is not empty. -/
theorem length_packetWire_pos (p : Kind × List UInt8) : 0 < (packetWire p).length := by
  rw [packetWire, List.length_append, length_packHeader]
  exact Nat.lt_of_lt_of_le (by decide : 0 < headerBytes) (Nat.le_add_right ..)

/-- With fuel for its length, a stream is split into the packets that it is the concatenation of. -/
theorem splitPackets_eq_ok {fuel : Nat} {stream : List UInt8} {ps : List (Kind × List UInt8)}
    (hfuel : stream.length < fuel) :
    splitPackets fuel stream = .ok ps ↔
      (∀ p ∈ ps, FitsKind p) ∧ stream = (ps.map packetWire).flatten := by
  -- By the fuel: a packet off the front leaves a shorter stream.
  induction fuel generalizing stream ps with
  | zero => exact absurd hfuel (Nat.not_lt_zero _)
  | succ fuel ih =>
      rw [splitPackets]
      by_cases hnil : stream = []
      · rw [if_pos hnil, hnil]
        constructor
        · intro h
          cases h
          exact ⟨fun _ h => (nomatch h), rfl⟩
        · rintro ⟨-, h⟩
          cases ps with
          | nil => rfl
          | cons p ps =>
              have hpos := length_packetWire_pos p
              rw [List.map_cons, List.flatten_cons] at h
              rw [(List.append_eq_nil_iff.mp h.symm).1] at hpos
              exact absurd hpos (Nat.lt_irrefl 0)
      · rw [if_neg hnil]
        simp only [bind_eq_ok, pure_eq_ok, Prod.exists, readPacket_eq_ok]
        constructor
        · rintro ⟨kind, data, rest, ⟨hfits, rfl⟩, ps, hps, rfl⟩
          have hpos := length_packetWire_pos (kind, data)
          rw [List.length_append] at hfuel
          obtain ⟨hall, hrest⟩ := (ih (by omega)).mp hps
          rw [List.forall_mem_cons, List.map_cons, List.flatten_cons, ← hrest]
          exact ⟨⟨hfits, hall⟩, rfl⟩
        · rintro ⟨hall, rfl⟩
          cases ps with
          | nil => exact absurd rfl hnil
          | cons p ps =>
              rw [List.forall_mem_cons] at hall
              have hpos := length_packetWire_pos p
              rw [List.map_cons, List.flatten_cons, List.length_append] at hfuel
              refine ⟨p.1, p.2, (ps.map packetWire).flatten, ⟨hall.1, by simp⟩, ps, ?_, rfl⟩
              exact (ih (by omega)).mpr ⟨hall.2, rfl⟩

/-- The packets of a stream are the ones that it is the concatenation of. -/
theorem allPackets_eq_ok {stream : List UInt8} {ps : List (Kind × List UInt8)} :
    allPackets stream = .ok ps ↔
      (∀ p ∈ ps, FitsKind p) ∧ stream = (ps.map packetWire).flatten :=
  splitPackets_eq_ok (Nat.lt_succ_self _)

/-- A RESULT notice and a CLOSE, sent together. -/
example : allPackets [0x4D, 0x47, 0x57, 0x32, 2, 6, 0, 0, 0, 0, 0, 0,
    0x4D, 0x47, 0x57, 0x32, 2, 8, 0, 0, 0, 0, 0, 0] = .ok [(.result, []), (.close, [])] := by
  decide

/-! ### The protocol -/

/-- The kind and the body that a message is sent as. -/
def parts (m : Message) : Kind × List UInt8 := (m.kind, wire m)

/-- Encoding message after message. -/
theorem mapM_encode_eq_ok {messages : List Message} {packets : List (List UInt8)} :
    messages.mapM Message.encode = .ok packets ↔
      (∀ m ∈ messages, Admissible m) ∧ packets = messages.map fun m => packetWire (parts m) := by
  rw [mapM_eq_ok]
  induction messages generalizing packets with
  | nil =>
      rw [List.forall₂_nil_left_iff]
      exact ⟨fun h => ⟨fun _ h => (nomatch h), h⟩, And.right⟩
  | cons m messages ih =>
      rw [List.forall₂_cons_left_iff, List.forall_mem_cons, List.map_cons]
      constructor
      · rintro ⟨p, packets, hp, hrest, rfl⟩
        obtain ⟨hok, rfl⟩ := encode_eq_ok.mp hp
        obtain ⟨hall, rfl⟩ := ih.mp hrest
        exact ⟨⟨hok, hall⟩, rfl⟩
      · rintro ⟨⟨hok, hall⟩, rfl⟩
        exact ⟨_, _, encode_eq_ok.mpr ⟨hok, rfl⟩, ih.mpr ⟨hall, rfl⟩, rfl⟩

/-- The codecs are exact. An encoder takes the admissible arguments. What it writes is a header
that is accepted as the kind and the length of the body, and a body that decodes to the arguments.
A decoder takes the bodies that its encoder writes. An accepted header is the packed one of a kind
and of a length within the bounds of that kind. And packets written one after the other are read
back as those packets, with their messages. -/
theorem codecs_exact :
    (∀ m : Message, (∃ p, m.encode = .ok p) ↔ Admissible m) ∧
    (∀ (m : Message) (p : List UInt8), m.encode = .ok p →
      parseHeader (p.take headerBytes) = .ok (m.kind, (p.drop headerBytes).length) ∧
        Message.decode m.kind (p.drop headerBytes) = .ok m) ∧
    (∀ (kind : Kind) (data : List UInt8) (m : Message), Message.decode kind data = .ok m ↔
      m.encode = .ok (packHeader kind data.length ++ data)) ∧
    (∀ (data : List UInt8) (kind : Kind) (size : Nat), parseHeader data = .ok (kind, size) ↔
      ((lengths kind).1 ≤ size ∧ size ≤ (lengths kind).2) ∧ data = packHeader kind size) ∧
    ∀ (messages : List Message) (packets : List (List UInt8)),
      messages.mapM Message.encode = .ok packets →
        ∃ ps, allPackets packets.flatten = .ok ps ∧ ps.map packetWire = packets ∧
          ps.mapM (fun p => Message.decode p.1 p.2) = .ok messages := by
  refine ⟨?_, ?_, ?_, fun _ _ _ => parseHeader_eq_ok, ?_⟩
  · intro m
    simp only [encode_eq_ok]
    exact ⟨fun ⟨_, h, _⟩ => h, fun h => ⟨_, h, rfl⟩⟩
  · intro m p h
    obtain ⟨hok, rfl⟩ := encode_eq_ok.mp h
    rw [List.take_left' (length_packHeader ..), List.drop_left' (length_packHeader ..)]
    exact ⟨parseHeader_eq_ok.mpr ⟨length_wire hok, rfl⟩, decode_eq_ok.mpr ⟨rfl, hok, rfl⟩⟩
  · intro kind data m
    rw [decode_eq_ok, encode_eq_ok]
    constructor
    · rintro ⟨rfl, hok, rfl⟩
      exact ⟨hok, rfl⟩
    · rintro ⟨hok, h⟩
      -- The headers are equally long, so that they agree, and so do the bodies.
      obtain ⟨hheader, rfl⟩ := List.append_inj h (by simp)
      exact ⟨(kind_of_packHeader hheader).symm, hok, rfl⟩
  · intro messages packets h
    obtain ⟨hall, rfl⟩ := mapM_encode_eq_ok.mp h
    refine ⟨messages.map parts, allPackets_eq_ok.mpr ⟨?_, ?_⟩, ?_, mapM_eq_ok.mpr ?_⟩
    · intro p hp
      obtain ⟨m, hm, rfl⟩ := List.mem_map.mp hp
      exact length_wire (hall m hm)
    · rw [List.map_map]
      rfl
    · rw [List.map_map]
      rfl
    · rw [List.forall₂_map_left_iff, List.forall₂_same]
      exact fun m hm => decode_eq_ok.mpr ⟨rfl, hall m hm, rfl⟩

end MaskGateway.Proofs.Runtime.Wire
