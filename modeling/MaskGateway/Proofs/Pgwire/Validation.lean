import MaskGateway.Proofs.Pgwire.Wire

/-!
# `MaskGateway.Proofs.Pgwire.Validation`: the validator accepts the frames of tables that fit

Each part of the parser is specified by an equivalence: it succeeds on a byte string exactly when
that string is the wire form of some value that fits, followed by the bytes that the part leaves.
The parts compose by appending, and `validateResult_iff` is their composition: a byte string is
accepted when it is `frameWire` of a table that fits, and on no other.
-/

set_option autoImplicit false

namespace MaskGateway.Proofs.Pgwire

open Lib MaskGateway.Db MaskGateway.Pgwire

variable {limits : ResultLimits}

/-! ### Messages -/

/-- A number at the front of a byte string, read and checked. -/
theorem ofBytes_take_eq_iff {width n : Nat} {bytes : List UInt8} (hn : n < 256 ^ width)
    (hlen : width ≤ bytes.length) :
    ofBytes (bytes.take width) = n ↔ bytes = toBytes width n ++ bytes.drop width := by
  have htake : bytes.take width = toBytes width n ↔ ofBytes (bytes.take width) = n := by
    rw [eq_toBytes_iff hn, List.length_take_of_le hlen]
    exact and_iff_right rfl
  rw [← htake]
  constructor
  · intro h
    rw [← h, List.take_append_drop]
  · intro h
    rw [h, List.take_left' (length_toBytes ..)]

/-- The length, the payload and what follows a message. -/
theorem framed_fields (tag : UInt8) {payload : List UInt8} (hlen : 4 + payload.length < 2 ^ 32)
    (rest : List UInt8) :
    ofBytes (((framed tag payload ++ rest).drop 1).take 4) = 4 + payload.length ∧
      ((framed tag payload ++ rest).drop 5).take (4 + payload.length - 4) = payload ∧
      (framed tag payload ++ rest).drop (1 + (4 + payload.length)) = rest := by
  refine ⟨?_, ?_, ?_⟩
  · rw [framed, List.cons_append, List.drop_one, List.tail_cons, List.append_assoc,
      List.take_left' (length_toBytes ..)]
    exact ofBytes_toBytes (by omega)
  · rw [framed, List.cons_append, List.drop_succ_cons, List.append_assoc,
      List.drop_left' (length_toBytes ..), Nat.add_sub_cancel_left, List.take_left]
  · rw [show 1 + (4 + payload.length) = (framed tag payload).length by
      rw [length_framed]; omega, List.drop_left]

/-- `message` splits a message off. -/
theorem message_eq_ok {tag : UInt8} {minimum : Nat} {left payload rest : List UInt8}
    (hmin : 4 ≤ minimum) (hleft : left.length < 2 ^ 32) :
    message tag minimum left = .ok (payload, rest) ↔
      left = framed tag payload ++ rest ∧ minimum ≤ 4 + payload.length := by
  simp only [message, bind_eq_ok, refuseIf_eq_ok, exists_const, pure_eq_ok, Prod.mk.injEq]
  rw [not_or, not_not, Nat.not_lt, not_or, Nat.not_lt, gt_iff_lt, Nat.not_lt]
  constructor
  · rintro ⟨⟨hlen, hhead⟩, ⟨hminimum, htotal⟩, rfl, rfl⟩
    obtain ⟨left, rfl⟩ : ∃ tail, left = tag :: tail := by
      cases left with
      | nil => cases hhead
      | cons b tail => exact ⟨tail, by rw [Option.some.inj hhead]⟩
    simp only [List.drop_succ_cons, List.drop_zero, List.length_cons] at *
    generalize hlength : ofBytes (left.take 4) = length at *
    have hpayload : ((left.drop 4).take (length - 4)).length = length - 4 := by
      rw [List.length_take_of_le]
      rw [List.length_drop]
      omega
    refine ⟨?_, by omega⟩
    rw [framed, hpayload, List.cons_append, Nat.add_sub_cancel' (by omega), Nat.add_comm 1 length,
      List.drop_succ_cons, List.append_assoc]
    have hsplit := (ofBytes_take_eq_iff (by omega) (by omega)).mp hlength
    have hrest : (left.drop 4).take (length - 4) ++ left.drop length = left.drop 4 := by
      rw [show left.drop length = (left.drop 4).drop (length - 4) by
        rw [List.drop_drop, Nat.add_sub_cancel' (by omega)], List.take_append_drop]
    rw [hrest, ← hsplit]
  · rintro ⟨rfl, hminimum⟩
    rw [List.length_append, length_framed] at hleft ⊢
    obtain ⟨hlength, hpayload, hrest⟩ := framed_fields tag (by omega : 4 + payload.length < 2 ^ 32) rest
    rw [hlength]
    exact ⟨⟨by omega, rfl⟩, ⟨hminimum, by omega⟩, hpayload, hrest⟩

/-! ### The RowDescription -/

/-- The size of a known type fits the field of its column, and its number too. -/
theorem typeSize_range {oid : Nat} {size : Int} (h : typeSize oid = some size) :
    oid < 256 ^ 4 ∧ -(256 ^ 2 : Nat) ≤ 2 * size ∧ 2 * size < (256 ^ 2 : Nat) := by
  have hall : ∀ entry ∈
      [(16, 1), (21, 2), (23, 4), (20, 8), (19, 64), (25, -1), (1042, -1), (1043, (-1 : Int))],
      entry.1 < 256 ^ 4 ∧ -(256 ^ 2 : Nat) ≤ 2 * entry.2 ∧ 2 * entry.2 < (256 ^ 2 : Nat) := by
    decide
  obtain ⟨l₁, l₂, heq, -⟩ := List.lookup_eq_some_iff.mp h
  refine hall (oid, size) ?_
  rw [heq]
  simp

/-- The fixed fields of a column as a record. -/
theorem columnFields_eq (oid : Nat) (size : Int) :
    Encoder.columnFields oid size = [toBytes 4 0, signedToBytes 2 0, toBytes 4 oid,
      signedToBytes 2 size, signedToBytes 4 (-1), signedToBytes 2 0].flatten := by
  simp [Encoder.columnFields]

/-- The fixed fields of a column are accepted when they are those of a known type. -/
theorem columnOid_eq_ok {fields : List UInt8} {oid : Nat} (hlen : fields.length = 18) :
    columnOid fields = .ok oid ↔
      ∃ size, typeSize oid = some size ∧ fields = Encoder.columnFields oid size := by
  constructor
  · intro h
    have hflat : (cut columnWidths fields).flatten = fields := flatten_cut hlen
    have hwidths : List.Forall₂ _ (cut columnWidths fields) columnWidths := forall₂_cut hlen
    rw [columnOid] at h
    generalize cut columnWidths fields = pieces at *
    rcases hwidths with _ | ⟨ha, _ | ⟨hb, _ | ⟨hc, _ | ⟨hd, _ | ⟨he, _ | ⟨hf, _ | _⟩⟩⟩⟩⟩⟩
    simp only [bind_eq_ok, refuseIf_eq_ok, exists_const, pure_eq_ok, not_or, not_not] at h
    obtain ⟨⟨h₁, h₂, hsize, h₃, h₄⟩, rfl⟩ := h
    refine ⟨_, hsize, ?_⟩
    obtain ⟨hoid, hlow, hhigh⟩ := typeSize_range hsize
    rw [← hflat, columnFields_eq, ← (eq_toBytes_iff hoid).mpr ⟨hc, rfl⟩,
      ← (eq_signedToBytes_iff hlow hhigh).mpr ⟨hd, rfl⟩,
      (eq_toBytes_iff (by decide)).mpr ⟨ha, h₁⟩,
      (eq_signedToBytes_iff (by decide) (by decide)).mpr ⟨hb, h₂⟩,
      (eq_signedToBytes_iff (by decide) (by decide)).mpr ⟨he, h₃⟩,
      (eq_signedToBytes_iff (by decide) (by decide)).mpr ⟨hf, h₄⟩]
  · rintro ⟨size, hsize, rfl⟩
    obtain ⟨hoid, hlow, hhigh⟩ := typeSize_range hsize
    have hcut := congrArg (cut columnWidths) (columnFields_eq oid size)
    rw [cut_flatten (by simp [columnWidths])] at hcut
    have hzero : ofBytes (toBytes 4 0) = 0 := ofBytes_toBytes (by decide)
    have hzero' : signedOfBytes (signedToBytes 2 0) = 0 :=
      signedOfBytes_signedToBytes (by decide) (by decide)
    have hminus : signedOfBytes (signedToBytes 4 (-1)) = -1 :=
      signedOfBytes_signedToBytes (by decide) (by decide)
    rw [columnOid, hcut]
    simp only [bind_eq_ok, refuseIf_eq_ok, exists_const, pure_eq_ok, hzero, hzero', hminus,
      ofBytes_toBytes hoid, signedOfBytes_signedToBytes hlow hhigh, hsize]
    simp

/-- Where the name of a column ends: at its first zero byte, which is not too far. -/
theorem findIdx?_zero {left : List UInt8} {maximum : Nat} {k : Nat} :
    (left.take (maximum + 1)).findIdx? (· == 0) = some k ↔
      ∃ name rest, left = name ++ 0 :: rest ∧ name.length = k ∧ k ≤ maximum ∧ 0 ∉ name := by
  constructor
  · intro h
    obtain ⟨hk, hzero, hbefore⟩ := List.findIdx?_eq_some_iff_getElem.mp h
    rw [List.length_take] at hk
    have hzero' : left[k] = 0 := by simpa using hzero
    refine ⟨left.take k, left.drop (k + 1), ?_, ?_, by omega, ?_⟩
    · rw [← hzero', List.getElem_cons_drop, List.take_append_drop]
    · rw [List.length_take_of_le (by omega)]
    · intro hmem
      obtain ⟨j, hj, hval⟩ := List.mem_take_iff_getElem.mp hmem
      exact hbefore j (by omega) (by simpa using hval)
  · rintro ⟨name, rest, rfl, rfl, hle, hnot⟩
    have hnone : name.findIdx? (· == 0) = none := by
      rw [List.findIdx?_eq_none_iff]
      intro b hb
      exact beq_eq_false_iff_ne.mpr fun hzero => hnot (hzero ▸ hb)
    have htake : (name ++ 0 :: rest).take (maximum + 1) =
        name ++ 0 :: rest.take (maximum - name.length) := by
      rw [List.take_append, List.take_of_length_le (by omega),
        show maximum + 1 - name.length = maximum - name.length + 1 by omega, List.take_succ_cons]
    rw [htake, List.findIdx?_append, hnone, List.findIdx?_cons]
    simp

/-- What follows the zero byte after a name. -/
theorem drop_after_zero (name rest : List UInt8) :
    (name ++ 0 :: rest).drop (name.length + 1) = rest := by
  rw [← List.drop_drop, List.drop_left, List.drop_one, List.tail_cons]

/-- The columns of a RowDescription. -/
theorem descriptionColumns_eq_ok {count : Nat} {left rest : List UInt8} {oids : List Nat} :
    descriptionColumns limits count left = .ok (oids, rest) ↔
      ∃ columns : List (Name × Nat), columns.length = count ∧
        (∀ column ∈ columns, ColumnFits limits column) ∧ oids = columns.map Prod.snd ∧
        left = columns.flatMap columnWire ++ rest := by
  induction count generalizing left oids with
  | zero =>
      rw [descriptionColumns, Except.ok.injEq, Prod.mk.injEq]
      constructor
      · rintro ⟨rfl, rfl⟩
        exact ⟨[], rfl, fun _ h => (nomatch h), rfl, rfl⟩
      · rintro ⟨columns, hnil, -, rfl, rfl⟩
        rw [List.eq_nil_of_length_eq_zero hnil]
        exact ⟨rfl, rfl⟩
  | succ count ih =>
      rw [descriptionColumns]
      constructor
      · intro h
        split at h
        · cases h
        · rename_i nameEnd hfind
          obtain ⟨name, left, rfl, rfl, hle, hnot⟩ := findIdx?_zero.mp hfind
          simp only [bind_eq_ok, refuseIf_eq_ok, exists_const, pure_eq_ok, Prod.mk.injEq,
            Prod.exists, List.take_left] at h
          rw [drop_after_zero] at h
          obtain ⟨_, htext, hlen, oid, hoid, oids', left', hrest, rfl, rfl⟩ := h
          obtain ⟨chars, rfl, hplain⟩ := text_eq_ok.mp htext
          obtain ⟨size, hsize, hfields⟩ :=
            (columnOid_eq_ok (List.length_take_of_le (Nat.not_lt.mp hlen))).mp hoid
          obtain ⟨columns, rfl, hfits, rfl, hdrop⟩ := ih.mp hrest
          refine ⟨(chars, oid) :: columns, rfl, ?_, rfl, ?_⟩
          · rw [List.forall_mem_cons]
            exact ⟨⟨hplain, hle, by rw [hsize]; rfl⟩, hfits⟩
          · rw [List.flatMap_cons, columnWire, hsize, Option.getD_some, ← hfields,
              List.append_assoc, List.append_assoc, List.cons_append, ← hdrop,
              List.take_append_drop]
      · rintro ⟨columns, hlen, hfits, rfl, rfl⟩
        obtain ⟨⟨name, oid⟩, columns, rfl⟩ := List.exists_cons_of_length_eq_add_one hlen
        rw [List.forall_mem_cons] at hfits
        obtain ⟨⟨hplain, hle, hknown⟩, hfits⟩ := hfits
        obtain ⟨size, hsize⟩ := Option.isSome_iff_exists.mp hknown
        have hwire : List.flatMap columnWire ((name, oid) :: columns) ++ rest =
            utf8 name ++ 0 :: (Encoder.columnFields oid size ++
              (columns.flatMap columnWire ++ rest)) := by
          simp [columnWire, hsize]
        have hfind := findIdx?_zero.mpr
          ⟨utf8 name, _, hwire, rfl, hle, mt zero_mem_utf8_iff.mp hplain⟩
        have hcolumns := ih.mpr ⟨columns, Nat.succ.inj hlen, hfits, rfl, rfl⟩
        have hoid := (columnOid_eq_ok (length_columnFields oid size)).mpr ⟨size, hsize, rfl⟩
        rw [hfind]
        simp only [bind_eq_ok, refuseIf_eq_ok, exists_const, pure_eq_ok, Prod.exists]
        rw [hwire, List.take_left, drop_after_zero, List.take_left' (length_columnFields ..),
          List.drop_left' (length_columnFields ..)]
        refine ⟨(), text_eq_ok.mpr ⟨name, rfl, hplain⟩, ?_, oid, hoid, _, _, hcolumns, rfl⟩
        rw [List.length_append, length_columnFields]
        omega

/-- The RowDescription. -/
theorem description_eq_ok {count : Nat} {left rest : List UInt8} {oids : List Nat}
    (hcount : count < 256 ^ 2) (hleft : left.length < 2 ^ 32) :
    description limits count left = .ok (oids, rest) ↔
      ∃ columns : List (Name × Nat), columns.length = count ∧
        (∀ column ∈ columns, ColumnFits limits column) ∧ oids = columns.map Prod.snd ∧
        left = descriptionWire columns ++ rest := by
  simp only [description, bind_eq_ok, Prod.exists, refuseIf_eq_ok, exists_const, pure_eq_ok,
    Prod.mk.injEq, not_not, message_eq_ok (by omega : 4 ≤ 6 + 19 * count) hleft,
    descriptionColumns_eq_ok]
  constructor
  · rintro ⟨payload, _, ⟨rfl, hmin⟩, hwidth, _, _, ⟨columns, hlen, hfits, rfl, hpayload⟩, rfl, rfl,
      rfl⟩
    refine ⟨columns, hlen, hfits, rfl, ?_⟩
    rw [ofBytes_take_eq_iff hcount (by omega), hpayload, List.append_nil] at hwidth
    rw [descriptionWire, hlen, ← hwidth]
  · rintro ⟨columns, rfl, hfits, rfl, rfl⟩
    have hbytes := le_length_columns columns
    refine ⟨_, rest, ⟨rfl, ?_⟩, ?_, _, _, ⟨columns, rfl, hfits, rfl, ?_⟩, rfl, rfl, rfl⟩
    · rw [List.length_append, length_toBytes]
      omega
    · rw [List.take_left' (length_toBytes ..), ofBytes_toBytes hcount]
    · rw [List.drop_left' (length_toBytes ..), List.append_nil]

/-! ### The DataRows -/

/-- The content of a value that fits is not longer than the limit. -/
theorem content_length_le {oid : Nat} {cell : Cell} {bytes : List UInt8}
    (hfits : CellFits limits oid cell) (hcontent : content cell = some bytes) :
    bytes.length ≤ limits.maxCellBytes := by
  match cell, hfits, hcontent with
  | .text t, hfits, hcontent =>
      rw [← Option.some.inj hcontent]
      exact hfits.2.2.2
  | .int z, hfits, hcontent =>
      rw [← Option.some.inj hcontent]
      exact hfits.2
  | .bool b, _, hcontent =>
      rw [← Option.some.inj hcontent]
      exact limits.maxCellBytes_range.1

/-- The cells of a DataRow. -/
theorem dataCells_eq_ok {oids : List Nat} {left rest : List UInt8}
    (hoids : ∀ oid ∈ oids, (typeSize oid).isSome) :
    dataCells limits oids left = .ok rest ↔
      ∃ row, List.Forall₂ (CellFits limits) oids row ∧ left = row.flatMap cellWire ++ rest := by
  induction oids generalizing left with
  | nil =>
      rw [dataCells, Except.ok.injEq]
      constructor
      · rintro rfl
        exact ⟨[], List.Forall₂.nil, rfl⟩
      · rintro ⟨row, hrow, rfl⟩
        cases hrow
        rfl
  | cons oid oids ih =>
      rw [List.forall_mem_cons] at hoids
      have hmax := limits.maxCellBytes_range.2
      simp only [dataCells, bind_eq_ok, refuseIf_eq_ok, exists_const, Nat.not_lt]
      constructor
      · rintro ⟨hlen, h⟩
        have hlength := List.length_take_of_le hlen
        split at h
        · -- NULL
          rename_i hnull
          obtain ⟨row, hrow, hdrop⟩ := (ih hoids.2).mp h
          have htake := (eq_signedToBytes_iff (by decide) (by decide)).mpr ⟨hlength, hnull⟩
          refine ⟨.null :: row, List.Forall₂.cons trivial hrow, ?_⟩
          rw [List.flatMap_cons, List.append_assoc, ← hdrop,
            show cellWire .null = signedToBytes 4 (-1) from rfl, ← htake, List.take_append_drop]
        · rename_i hnotnull
          simp only [bind_eq_ok, refuseIf_eq_ok, exists_const] at h
          obtain ⟨hrange, hlimit, _, hvalue, h⟩ := h
          generalize hz : signedOfBytes (left.take 4) = z at *
          have hpiece : ((left.drop 4).take z.toNat).length = z.toNat := by
            rw [List.length_take_of_le]
            omega
          have hshort : ((left.drop 4).take z.toNat).length ≤ limits.maxCellBytes := by omega
          obtain ⟨cell, hfits, hcontent⟩ := (value_eq_ok hoids.1).mp ⟨hvalue, hshort⟩
          obtain ⟨row, hrow, hdrop⟩ := (ih hoids.2).mp h
          have htake : left.take 4 = signedToBytes 4 z :=
            (eq_signedToBytes_iff (by omega) (by omega)).mpr ⟨hlength, hz⟩
          refine ⟨cell :: row, List.Forall₂.cons hfits hrow, ?_⟩
          rw [List.flatMap_cons, cellWire, hcontent]
          show left = (signedToBytes 4 _ ++ (left.drop 4).take z.toNat ++ _) ++ rest
          rw [hpiece, Int.toNat_of_nonneg (by omega), ← htake, List.append_assoc, List.append_assoc,
            ← hdrop, List.take_append_drop, List.take_append_drop]
      · rintro ⟨row, hrow, rfl⟩
        obtain _ | @⟨_, cell, _, row, hfits, hrow⟩ := hrow
        have hrest := (ih hoids.2).mpr ⟨row, hrow, rfl⟩
        rw [List.flatMap_cons, List.append_assoc, cellWire]
        cases hcontent : content cell with
        | none =>
            rw [List.take_left' (length_signedToBytes ..), List.drop_left' (length_signedToBytes ..),
              signedOfBytes_signedToBytes (by decide) (by decide), if_pos rfl, List.length_append,
              length_signedToBytes]
            exact ⟨by omega, hrest⟩
        | some bytes =>
            have hle := content_length_le hfits hcontent
            have hvalue := (value_eq_ok hoids.1).mpr ⟨cell, hfits, hcontent⟩
            simp only [List.append_assoc]
            rw [List.take_left' (length_signedToBytes ..), List.drop_left' (length_signedToBytes ..),
              signedOfBytes_signedToBytes (by omega) (by omega), if_neg (by omega),
              List.length_append, length_signedToBytes, Int.toNat_natCast, List.take_left,
              List.drop_left, hvalue.1]
            simp only [bind_eq_ok, refuseIf_eq_ok, exists_const, List.length_append]
            exact ⟨by omega, by omega, by omega, trivial, hrest⟩

/-- The DataRows. -/
theorem dataRows_eq_ok {oids : List Nat} {count : Nat} {left rest : List UInt8}
    (hoids : ∀ oid ∈ oids, (typeSize oid).isSome) (hwidth : oids.length < 256 ^ 2)
    (hleft : left.length < 2 ^ 32) :
    dataRows limits oids count left = .ok rest ↔
      ∃ rows : List (List Cell), rows.length = count ∧
        (∀ row ∈ rows, List.Forall₂ (CellFits limits) oids row) ∧
        left = rows.flatMap (rowWire oids.length) ++ rest := by
  induction count generalizing left with
  | zero =>
      rw [dataRows, Except.ok.injEq]
      constructor
      · rintro rfl
        exact ⟨[], rfl, fun _ h => (nomatch h), rfl⟩
      · rintro ⟨rows, hnil, -, rfl⟩
        rw [List.eq_nil_of_length_eq_zero hnil]
        rfl
  | succ count ih =>
      simp only [dataRows, bind_eq_ok, Prod.exists, refuseIf_eq_ok, exists_const, not_not,
        message_eq_ok (by omega : 4 ≤ 6 + 4 * oids.length) hleft, dataCells_eq_ok hoids]
      constructor
      · rintro ⟨payload, left, ⟨rfl, hmin⟩, hcount, _, ⟨row, hrow, hpayload⟩, rfl, h⟩
        rw [ofBytes_take_eq_iff hwidth (by omega), hpayload, List.append_nil] at hcount
        rw [List.length_append] at hleft
        obtain ⟨rows, rfl, hrows, rfl⟩ := (ih (by omega)).mp h
        refine ⟨row :: rows, rfl, ?_, ?_⟩
        · rw [List.forall_mem_cons]
          exact ⟨hrow, hrows⟩
        · rw [List.flatMap_cons, rowWire, ← hcount, List.append_assoc]
      · rintro ⟨rows, hlen, hrows, rfl⟩
        obtain ⟨row, rows, rfl⟩ := List.exists_cons_of_length_eq_add_one hlen
        rw [List.forall_mem_cons] at hrows
        rw [List.flatMap_cons, List.append_assoc] at hleft ⊢
        rw [List.length_append] at hleft
        have hbytes := le_length_cells row
        rw [← hrows.1.length_eq] at hbytes
        refine ⟨_, _, ⟨rfl, ?_⟩, ?_, [], ⟨row, hrows.1, ?_⟩, rfl,
          (ih (by omega)).mpr ⟨rows, Nat.succ.inj hlen, hrows.2, rfl⟩⟩
        · rw [List.length_append, length_toBytes]
          omega
        · rw [List.take_left' (length_toBytes ..), ofBytes_toBytes hwidth]
        · rw [List.drop_left' (length_toBytes ..), List.append_nil]

/-! ### The header -/

/-- A header cut into its fields. -/
theorem cut_headerWire (identity : ResultIdentity) (truncated : Bool) (columns rows body : Nat) :
    cut headerWidths (headerWire identity truncated columns rows body) =
      [magicBytes, toBytes 1 1, toBytes 1 truncated.toNat, toBytes 2 0, identity.sessionId,
        identity.datasourceId, toBytes 8 identity.generation, toBytes 8 identity.recordRevision,
        toBytes 8 identity.jobId, toBytes 4 columns, toBytes 4 rows, toBytes 4 body] :=
  cut_flatten (by
    simp [headerWidths, magicBytes, identity.sessionId_length, identity.datasourceId_length])

/-- `inspect_result_header` accepts the headers of the expected identity within the limits. -/
theorem inspectResultHeader_eq_ok {identity : ResultIdentity} {header : List UInt8}
    {h : ResultHeader} (hlen : header.length = headerSize) :
    inspectResultHeader header identity limits = .ok h ↔
      ∃ truncated columns rows body, header = headerWire identity truncated columns rows body ∧
        (1 ≤ columns ∧ columns ≤ limits.maxColumns) ∧ rows ≤ limits.maxRows ∧
        (truncated = true → rows = limits.maxRows) ∧ headerSize + body ≤ limits.maxFrameBytes ∧
        minimumBody columns rows ≤ body ∧
        h = { frameBytes := headerSize + body, columns := columns, rows := rows,
              truncated := truncated } := by
  have hepoch : maxEpoch < 256 ^ 8 := by decide
  constructor
  · intro hok
    have hflat : (cut headerWidths header).flatten = header := flatten_cut hlen
    have hwidths : List.Forall₂ _ (cut headerWidths header) headerWidths := forall₂_cut hlen
    rw [inspectResultHeader] at hok
    generalize cut headerWidths header = pieces at *
    rcases hwidths with _ | ⟨hmagic, _ | ⟨hversion, _ | ⟨hflags, _ | ⟨hreserved, _ | ⟨hsession,
      _ | ⟨hdatasource, _ | ⟨hgeneration, _ | ⟨hrevision, _ | ⟨hjob, _ | ⟨hcolumns, _ | ⟨hrows,
      _ | ⟨hbody, _ | _⟩⟩⟩⟩⟩⟩⟩⟩⟩⟩⟩⟩
    rename_i magic version flags reserved session datasource generation revision job columns rows
      body
    simp only [bind_eq_ok, refuseIf_eq_ok, exists_const, pure_eq_ok] at hok
    obtain ⟨-, hfixed, hwho, hdims, hfull, hframe, hbody', rfl⟩ := hok
    rw [not_or, not_or, not_or, not_not, not_not, not_not, not_not] at hfixed
    simp only [not_or, not_not] at hwho
    rw [not_or, not_not, gt_iff_lt, Nat.not_lt] at hdims
    rw [not_and, not_not] at hfull
    obtain ⟨rfl, hone, hbit, hzero⟩ := hfixed
    obtain ⟨rfl, rfl, hg, hr, hj⟩ := hwho
    refine ⟨decide (ofBytes flags = 1), ofBytes columns, ofBytes rows, ofBytes body, ?_, hdims.1,
      hdims.2, fun h => hfull (of_decide_eq_true h), Nat.not_lt.mp hframe, Nat.not_lt.mp hbody',
      rfl⟩
    have hflag : flags = toBytes 1 (decide (ofBytes flags = 1)).toNat := by
      rcases hbit with hbit | hbit
      · rw [hbit]
        exact (eq_toBytes_iff (by decide)).mpr ⟨hflags, hbit⟩
      · rw [hbit]
        exact (eq_toBytes_iff (by decide)).mpr ⟨hflags, hbit⟩
    have hread : ∀ {width : Nat} {piece : List UInt8}, piece.length = width →
        toBytes width (ofBytes piece) = piece := by
      rintro _ piece rfl
      exact toBytes_ofBytes piece
    rw [headerWire, ← hflag, ← hg, ← hr, ← hj, hread hgeneration, hread hrevision, hread hjob,
      hread hcolumns, hread hrows, hread hbody,
      ← (eq_toBytes_iff (by decide)).mpr ⟨hversion, hone⟩,
      ← (eq_toBytes_iff (by decide)).mpr ⟨hreserved, hzero⟩, hflat]
  · rintro ⟨truncated, columns, rows, body, rfl, hcolumns, hrows, hfull, hframe, hbody, rfl⟩
    have hcut := cut_headerWire identity truncated columns rows body
    have hflag : ofBytes (toBytes 1 truncated.toNat) = truncated.toNat :=
      ofBytes_toBytes (by cases truncated <;> decide)
    have hmaxRows := limits.maxRows_range.2
    have hmaxColumns := limits.maxColumns_range.2
    have hmaxFrame := limits.maxFrameBytes_range.2
    have hgeneration := identity.generation_range.2
    have hrevision := identity.recordRevision_range.2
    have hjob := identity.jobId_range.2
    rw [inspectResultHeader, hcut]
    simp only [hflag, ofBytes_toBytes (by omega : 1 < 256 ^ 1),
      ofBytes_toBytes (by omega : 0 < 256 ^ 2),
      ofBytes_toBytes (by omega : identity.generation < 256 ^ 8),
      ofBytes_toBytes (by omega : identity.recordRevision < 256 ^ 8),
      ofBytes_toBytes (by omega : identity.jobId < 256 ^ 8),
      ofBytes_toBytes (by omega : columns < 256 ^ 4), ofBytes_toBytes (by omega : rows < 256 ^ 4),
      ofBytes_toBytes (by omega : body < 256 ^ 4), bind_eq_ok, refuseIf_eq_ok, exists_const,
      pure_eq_ok]
    cases truncated with
    | false =>
        refine ⟨by simpa using hlen, by decide, by simp, by omega, by simp, by omega, by omega, rfl⟩
    | true =>
        have := hfull rfl
        refine ⟨by simpa using hlen, by decide, by simp, by omega, by omega, by omega, by omega,
          rfl⟩

/-! ### The frame -/

/-- The frame of a table that fits is accepted, with the dimensions of the table. -/
theorem validateResult_frameWire (identity : ResultIdentity) {t : Table} (hfits : t.Fits limits) :
    validateResult (frameWire identity t) identity limits = .ok
      { wire := frameWire identity t, columns := t.columns.length, rows := t.rows.length,
        truncated := t.truncated } := by
  have hmaxColumns := limits.maxColumns_range.2
  have hmaxFrame := limits.maxFrameBytes_range.2
  have hsize := hfits.size_le
  have hlength := length_frameWire identity t
  have hbody := length_bodyWire t
  have hcolumns := hfits.columns_le
  have hwidth : t.oids.length = t.columns.length := List.length_map ..
  have hbodyLength : t.bodyWire.length < 2 ^ 32 := by omega
  have hheader : inspectResultHeader (headerWire identity t.truncated t.columns.length
      t.rows.length t.bodyWire.length) identity limits = .ok
        { frameBytes := headerSize + t.bodyWire.length, columns := t.columns.length,
          rows := t.rows.length, truncated := t.truncated } :=
    (inspectResultHeader_eq_ok (length_headerWire ..)).mpr
      ⟨_, _, _, _, rfl, ⟨hfits.columns_pos, hcolumns⟩, hfits.rows_le, hfits.full, by omega,
        minimumBody_le hfits, rfl⟩
  -- The three parts of the body, each with what it leaves.
  let commandPart := framed 0x43 (commandText t.rows.length)
  let dataPart := t.rows.flatMap (rowWire t.oids.length) ++ commandPart
  have hparts : t.bodyWire = descriptionWire t.columns ++ dataPart := by
    rw [Table.bodyWire, ← hwidth, List.append_assoc]
  have hdataLength : dataPart.length < 2 ^ 32 := by
    rw [hparts, List.length_append] at hbodyLength
    omega
  have hcommandLength : commandPart.length < 2 ^ 32 := by
    rw [List.length_append] at hdataLength
    omega
  have hdescription : description limits t.columns.length t.bodyWire = .ok (t.oids, dataPart) :=
    (description_eq_ok (by omega) hbodyLength).mpr ⟨t.columns, rfl, hfits.column, rfl, hparts⟩
  have hdata : dataRows limits t.oids t.rows.length dataPart = .ok commandPart :=
    (dataRows_eq_ok hfits.known (by omega) hdataLength).mpr ⟨t.rows, rfl, hfits.row, rfl⟩
  have hcommand : message 0x43 (4 + (commandText t.rows.length).length) commandPart =
      .ok (commandText t.rows.length, []) :=
    (message_eq_ok (by omega) hcommandLength).mpr ⟨(List.append_nil _).symm, Nat.le_refl _⟩
  have hroom : t.rows.length * (7 + 4 * t.columns.length) +
      (5 + (commandText t.rows.length).length) ≤ dataPart.length := by
    have := le_length_rows hfits.row_length
    rw [List.length_append, length_framed, hwidth]
    omega
  simp only [validateResult, Pgwire.run, take_frameWire, drop_frameWire, bind_eq_ok, refuseIf_eq_ok, exists_const, hheader,
    Except.ok.injEq, exists_eq_left', hdescription, hdata, hcommand, pure_eq_ok]
  exact ⟨by omega, by omega, by omega, by simp, by simp, trivial⟩

/-- The validator accepts the frames of the tables that fit, and nothing else. -/
theorem validateResult_iff {identity : ResultIdentity} {raw : List UInt8} :
    (∃ v, validateResult raw identity limits = .ok v) ↔
      ∃ t : Table, t.Fits limits ∧ raw = frameWire identity t := by
  have hmaxColumns := limits.maxColumns_range.2
  have hmaxFrame := limits.maxFrameBytes_range.2
  constructor
  · rintro ⟨v, hok⟩
    simp only [validateResult, bind_eq_ok, refuseIf_eq_ok, exists_const, not_not] at hok
    obtain ⟨⟨hlow, hhigh⟩, header, hheader, hframe, hrun⟩ := hok
    rw [inspectResultHeader_eq_ok (List.length_take_of_le hlow)] at hheader
    obtain ⟨truncated, columns, rows, body, hwire, hcolumns, hrows, hfull, -, -, rfl⟩ := hheader
    simp only [Pgwire.run, bind_eq_ok, Prod.exists, refuseIf_eq_ok, exists_const, not_not] at hrun
    obtain ⟨oids, left, hdescription, -, left', hdata, payload, _, hcommand, hpayload, rfl, -⟩ := hrun
    have hdrop : (raw.drop headerSize).length < 2 ^ 32 := by
      rw [List.length_drop]
      omega
    obtain ⟨cols, rfl, hcols, rfl, hbody⟩ := (description_eq_ok (by omega) hdrop).mp hdescription
    have hknown : ∀ oid ∈ cols.map Prod.snd, (typeSize oid).isSome := by
      intro oid hoid
      obtain ⟨column, hmem, rfl⟩ := List.mem_map.mp hoid
      exact (hcols column hmem).known
    have hleft := hdrop
    rw [hbody, List.length_append] at hleft
    obtain ⟨tableRows, rfl, hcells, rfl⟩ := (dataRows_eq_ok hknown
      (by rw [List.length_map]; omega) (by omega)).mp hdata
    rw [List.length_append] at hleft
    obtain ⟨rfl, -⟩ := (message_eq_ok (by omega) (by omega)).mp hcommand
    obtain rfl : payload = commandText tableRows.length := by
      by_contra hne
      exact hpayload (.inr hne)
    rw [List.length_map, List.append_nil] at hbody
    let t : Table := ⟨truncated, cols, tableRows⟩
    have hbodyWire : raw.drop headerSize = t.bodyWire := by
      rw [hbody, Table.bodyWire, List.append_assoc]
    have hlength : body = t.bodyWire.length := by
      have hframe' : headerSize + body = raw.length := hframe
      rw [← hbodyWire, List.length_drop]
      omega
    have hraw : raw = frameWire identity t := by
      rw [frameWire, ← hlength, ← hbodyWire]
      exact (List.take_append_drop headerSize raw).symm.trans (by rw [hwire])
    have hsize := length_frameWire identity t
    rw [← hraw] at hsize
    exact ⟨t, ⟨hcolumns.1, hcolumns.2, hrows, hcols, hcells, hfull, hsize ▸ hhigh⟩, hraw⟩
  · rintro ⟨t, hfits, rfl⟩
    exact ⟨_, validateResult_frameWire identity hfits⟩

end MaskGateway.Proofs.Pgwire
