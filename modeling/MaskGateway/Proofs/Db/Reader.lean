import MaskGateway.Db.Reader
import MaskGateway.Proofs.Masking.Values

/-!
# `MaskGateway.Proofs.Db.Reader`: a masked reading is the masking of the first rows

`outcome` is what the reading comes to when the first rows of the result are masked in one go.
`readLoop_eq` follows the loop along the rows that the cursor still serves: a batch is either
the last one, cut at the limit, or the next piece of those first rows. Neither the batch size
nor the way in which the cursor divides the rows is left in the result.
-/

set_option autoImplicit false

namespace MaskGateway.Proofs.Db

open MaskGateway.Db MaskGateway.Masking MaskGateway.Lib MaskGateway.Proofs.Masking

variable {casefold : Name → Name} {τ ν ε ω σ δ : Type} {transformers : Transformers τ ν ε ω}
  {policy : MaskingPolicy τ} {columns : List ColumnDescriptor}
  {cursor : Cursor σ (List (Option ν)) δ} {batchSize limit : Nat}

/-- How a reading ends when the masking of the rows that are left ends so. -/
def outcome (masked : List (List (Option ν))) (truncated : Bool) (s : σ) :
    EStateM.Result (MaskError ε) ω (List (List (Option ν))) →
      EStateM.Result (ReadError δ ε) (σ × ω) (List (List (Option ν)) × Bool)
  | .ok more w => .ok (masked ++ more, truncated) (s, w)
  | .error e w => .error (.mask e) (s, w)

/-- What stops the first rows stops all of them. -/
theorem maskRows_append_error {first second : List (List (Option ν))} {w w' : ω}
    {e : MaskError ε} (h : maskRows casefold transformers policy columns first w = .error e w') :
    maskRows casefold transformers policy columns (first ++ second) w = .error e w' := by
  rw [maskRows_eq] at h ⊢
  rw [List.mapM_append]
  exact bind_of_error h

/-- Once the first rows are masked, the others go on from there. -/
theorem outcome_append {first second masked more : List (List (Option ν))} {w w' : ω}
    {truncated : Bool} {s : σ}
    (h : maskRows casefold transformers policy columns first w = .ok more w') :
    outcome (δ := δ) masked truncated s
        (maskRows casefold transformers policy columns (first ++ second) w) =
      outcome (masked ++ more) truncated s
        (maskRows casefold transformers policy columns second w') := by
  simp only [maskRows_eq, List.mapM_append] at h ⊢
  rw [bind_of_ok h]
  cases hsecond : second.mapM (maskRow casefold transformers policy columns) w' with
  | error e w'' =>
      rw [bind_of_error hsecond]
      rfl
  | ok last w'' =>
      rw [bind_of_ok hsecond]
      show EStateM.Result.ok (masked ++ (more ++ last), truncated) (s, w'') =
        EStateM.Result.ok (masked ++ more ++ last, truncated) (s, w'')
      rw [List.append_assoc]

/-- **The loop, from any number of masked rows.** -/
theorem readLoop_eq {s : σ} {rows : List (List (Option ν))} (h : Serves cursor s rows)
    (hbatch : 1 ≤ batchSize) (masked : List (List (Option ν))) (hmasked : masked.length ≤ limit)
    (w : ω) :
    ∃ s', readLoop casefold transformers policy cursor batchSize limit columns masked s w =
      outcome masked (decide (limit < masked.length + rows.length)) s'
        (maskRows casefold transformers policy columns (rows.take (limit - masked.length)) w) := by
  induction h generalizing masked w with
  | @intro s rows batch rest next fetch divide length_le some_row later ih =>
  -- the round asks for at least one row and for at most one beyond the limit
  let wanted := min batchSize (limit - masked.length + 1)
  have hwanted : 1 ≤ wanted := by omega
  have hroom : wanted ≤ limit - masked.length + 1 := Nat.min_le_right ..
  have hfetch : cursor.fetchmany (min batchSize (limit - masked.length + 1)) s =
      .ok (batch wanted) (next wanted) := fetch wanted hwanted
  have hdivide : batch wanted ++ rest wanted = rows := divide wanted hwanted
  have hlength : (batch wanted).length ≤ wanted := length_le wanted hwanted
  have hrows : rows.length = (batch wanted).length + (rest wanted).length := by
    rw [← hdivide, List.length_append]
  rw [readLoop, hfetch]
  simp only []
  by_cases hempty : batch wanted = []
  case pos =>
    -- the end of the result
    have hnone : rows = [] := by
      by_contra hsome
      exact some_row wanted hwanted hsome hempty
    rw [if_pos hempty, hnone]
    refine ⟨next wanted, ?_⟩
    rw [decide_eq_false (by simpa using hmasked), List.take_nil, maskRows_eq, List.mapM_nil]
    show EStateM.Result.ok (masked, false) (next wanted, w) =
      EStateM.Result.ok (masked ++ [], false) (next wanted, w)
    rw [List.append_nil]
  case neg =>
    have hsome : rows ≠ [] := by
      rintro rfl
      exact hempty (List.append_eq_nil_iff.mp hdivide).1
    rw [if_neg hempty]
    by_cases hover : limit < masked.length + (batch wanted).length
    case pos =>
      have htake : rows.take (limit - masked.length) =
          (batch wanted).take (limit - masked.length) := by
        rw [← hdivide, List.take_append_of_le_length (by omega)]
      rw [dif_pos hover, htake, decide_eq_true (by omega)]
      refine ⟨next wanted, ?_⟩
      cases maskRows casefold transformers policy columns
          ((batch wanted).take (limit - masked.length)) w with
      | ok more w' => rfl
      | error e w' => rfl
    case neg =>
      have htake : rows.take (limit - masked.length) = batch wanted ++
          (rest wanted).take (limit - masked.length - (batch wanted).length) := by
        rw [← hdivide, List.take_append, List.take_of_length_le (by omega)]
      rw [dif_neg hover, htake]
      split
      case _ e w' hmask => exact ⟨next wanted, by rw [maskRows_append_error hmask]; rfl⟩
      case _ more w' hmask =>
        have hmore : more.length = (batch wanted).length := length_maskRows hmask
        obtain ⟨s', hloop⟩ := ih wanted hwanted hsome (masked ++ more)
          (by rw [List.length_append]; omega) w'
        refine ⟨s', ?_⟩
        rw [outcome_append hmask, hloop, List.length_append, hmore, hrows, Nat.sub_add_eq,
          Nat.add_assoc]

/-! ### The reading -/

/-- The whole reading. -/
theorem readMasked_eq {s : σ} {rows : List (List (Option ν))} (h : Serves cursor s rows)
    (hbatch : 1 ≤ batchSize) (w : ω) :
    ∃ s', readMasked casefold transformers policy cursor batchSize limit columns s w =
      outcome [] (decide (limit < rows.length)) s'
        (maskRows casefold transformers policy columns (rows.take limit) w) := by
  have hloop : ∃ s', readLoop casefold transformers policy cursor batchSize limit columns [] s w =
      outcome [] (decide (limit < 0 + rows.length)) s'
        (maskRows casefold transformers policy columns (rows.take (limit - 0)) w) :=
    readLoop_eq h hbatch [] (Nat.zero_le limit) w
  simpa [readMasked] using hloop

/-- A reading that returns has masked the first rows. -/
theorem readMasked_ok {s s' : σ} {rows masked : List (List (Option ν))} {truncated : Bool}
    {w w' : ω} (h : Serves cursor s rows) (hbatch : 1 ≤ batchSize)
    (hread : readMasked casefold transformers policy cursor batchSize limit columns s w =
      .ok (masked, truncated) (s', w')) :
    maskRows casefold transformers policy columns (rows.take limit) w = .ok masked w' := by
  obtain ⟨s₁, heq⟩ : ∃ s₁, readMasked casefold transformers policy cursor batchSize limit columns
      s w = outcome [] (decide (limit < rows.length)) s₁
        (maskRows casefold transformers policy columns (rows.take limit) w) :=
    readMasked_eq h hbatch w
  rw [hread] at heq
  cases hmask : maskRows casefold transformers policy columns (rows.take limit) w with
  | error e w₁ => rw [hmask] at heq; cases heq
  | ok more w₁ => rw [hmask] at heq; cases heq; rfl

/-- A reading calls the transformers on the first rows only. -/
theorem readMasked_calls {s : σ} {rows : List (List (Option ν))} (h : Serves cursor s rows)
    (hbatch : 1 ≤ batchSize) (w : ω) (log : List (τ × Name)) :
    Leads (fun state => readMasked casefold (recording transformers) policy cursor batchSize limit
        columns state.1 state.2) (s, w, log)
      (fun _ state => state.2.2 =
        log ++ calls casefold transformers policy columns (rows.take limit))
      (fun _ state => ∃ done,
        done <+: calls casefold transformers policy columns (rows.take limit) ∧
          state.2.2 = log ++ done) := by
  obtain ⟨s', heq⟩ : ∃ s', readMasked casefold (recording transformers) policy cursor batchSize
      limit columns s (w, log) = outcome [] (decide (limit < rows.length)) s'
        (maskRows casefold (recording transformers) policy columns (rows.take limit) (w, log)) :=
    readMasked_eq h hbatch (w, log)
  have hlogs : Leads (maskRows casefold (recording transformers) policy columns (rows.take limit))
      (w, log) _ _ := logs_maskRows (rows.take limit) w log
  cases hmask : maskRows casefold (recording transformers) policy columns (rows.take limit)
      (w, log) with
  | ok masked w' =>
      rw [hmask] at heq
      exact leads_of_ok heq (hlogs.of_ok hmask)
  | error e w' =>
      rw [hmask] at heq
      exact leads_of_error heq (hlogs.of_error hmask)

/-- **Batched masked reading is masking the first rows.** `mask_rows`, where every column is
resolved once, is `mask_value` cell by cell; NULL stays NULL; a row of the wrong arity lets no
row through. A cursor that serves some rows in any batches is read as `mask_row` of the first
`max_rows` of them, result, errors and effects, and `truncated` says whether there are more; no
transformer is called for any other row. -/
theorem batched_reading_exact (casefold : Name → Name) (transformers : Transformers τ ν ε ω)
    (policy : MaskingPolicy τ) (columns : List ColumnDescriptor) :
    (∀ rows : List (List (Option ν)), maskRows casefold transformers policy columns rows =
      rows.mapM fun row => do
        checkArity columns row
        (columns.zip row).mapM fun (column, value) =>
          maskValue casefold transformers policy column value) ∧
    (∀ column, maskValue casefold transformers policy column none = pure none) ∧
    (∀ (rows : List (List (Option ν))) (w : ω), (∃ row ∈ rows, columns.length ≠ row.length) →
      ∃ e w', maskRows casefold transformers policy columns rows w = .error e w') ∧
    ∀ {σ δ : Type} (cursor : Cursor σ (List (Option ν)) δ) (batchSize maxRows : Nat) (s : σ)
      (rows : List (List (Option ν))), 1 ≤ batchSize → Serves cursor s rows →
      (∀ w, ∃ s', readMasked casefold transformers policy cursor batchSize maxRows columns s w =
        match (rows.take maxRows).mapM (maskRow casefold transformers policy columns) w with
        | .ok masked w' => .ok (masked, decide (maxRows < rows.length)) (s', w')
        | .error e w' => .error (.mask e) (s', w')) ∧
      (∀ w masked truncated s' w',
        readMasked casefold transformers policy cursor batchSize maxRows columns s w =
          .ok (masked, truncated) (s', w') →
        List.Forall₂ KeepsNulls (rows.take maxRows) masked) ∧
      (∀ w, (∃ row ∈ rows.take maxRows, columns.length ≠ row.length) → ∃ e state,
        readMasked casefold transformers policy cursor batchSize maxRows columns s w =
          .error e state) ∧
      ∀ w log, Leads (fun state => readMasked casefold (recording transformers) policy cursor
          batchSize maxRows columns state.1 state.2) (s, w, log)
        (fun _ state => state.2.2 =
          log ++ calls casefold transformers policy columns (rows.take maxRows))
        (fun _ state => ∃ done,
          done <+: calls casefold transformers policy columns (rows.take maxRows) ∧
            state.2.2 = log ++ done) := by
  refine ⟨maskRows_eq, maskValue_null, fun rows w ⟨row, hmem, harity⟩ =>
    maskRows_arity hmem harity w, fun cursor batchSize maxRows s rows hbatch h => ?_⟩
  have hread : ∀ w, ∃ s', readMasked casefold transformers policy cursor batchSize maxRows columns
      s w = outcome [] (decide (maxRows < rows.length)) s'
        (maskRows casefold transformers policy columns (rows.take maxRows) w) :=
    fun w => readMasked_eq h hbatch w
  refine ⟨fun w => ?_, fun w masked truncated s' w' hok => ?_, fun w ⟨row, hmem, harity⟩ => ?_,
    readMasked_calls h hbatch⟩
  · obtain ⟨s', heq⟩ := hread w
    refine ⟨s', ?_⟩
    rw [heq, maskRows_eq]
    cases (rows.take maxRows).mapM (maskRow casefold transformers policy columns) w with
    | ok masked w' => rfl
    | error e w' => rfl
  · have hmask := readMasked_ok h hbatch hok
    rw [maskRows_eq] at hmask
    have hnulls : ∀ row w shown w', maskRow casefold transformers policy columns row w =
        .ok shown w' → KeepsNulls row shown := fun _ _ _ _ => maskRow_keepsNulls
    exact forall₂_of_mapM hnulls hmask
  · obtain ⟨s', heq⟩ := hread w
    obtain ⟨e, w', hmask⟩ : ∃ e w',
        maskRows casefold transformers policy columns (rows.take maxRows) w = .error e w' :=
      maskRows_arity hmem harity w
    exact ⟨.mask e, (s', w'), by rw [heq, hmask]; rfl⟩

/-- A cursor over a list that always fills its batches. -/
def listCursor (ρ : Type) : Cursor (List ρ) ρ Empty where
  fetchmany := fun n rows => .ok (rows.take n) (rows.drop n)

theorem listCursor_serves {ρ : Type} (rows : List ρ) : Serves (listCursor ρ) rows rows := by
  induction h : rows.length using Nat.strongRecOn generalizing rows with
  | _ length ih =>
    refine .intro (rows.take ·) (rows.drop ·) (rows.drop ·) (fun _ _ => rfl)
      (fun n _ => List.take_append_drop n rows) (fun n _ => List.length_take_le n rows)
      (fun n hn hsome => ?_) fun n hn hsome => ?_
    · simp [hsome, Nat.ne_of_gt hn]
    · have hpos : 0 < rows.length := List.length_pos_iff.mpr hsome
      exact ih (rows.drop n).length (by rw [List.length_drop]; omega) _ rfl

/-- Five rows read by two up to a limit of three, one of them NULL. -/
theorem batched_reading_exact_list :
    ∃ rest, readMasked id
        { canonicalize := Except.ok, transform := fun _ _ w => .ok ['*'] w, ofText := id }
        { exceptions := [], rules := [⟨⟨['c'], .exact, false⟩, (), ['m'], 0⟩],
          index_eq := by intro i rule h; match i with | 0 => cases h; rfl }
        (listCursor (List (Option Name))) 2 3 [{ outputName := ['c'] }]
        [[some ['1']], [none], [some ['3']], [some ['4']], [some ['5']]] () =
      (.ok ([[some ['*']], [none], [some ['*']]], true) (rest, ()) :
        EStateM.Result (ReadError Empty Empty) _ _) := by
  obtain ⟨-, -, -, h⟩ := batched_reading_exact id
    ({ canonicalize := Except.ok, transform := fun _ _ w => .ok ['*'] w, ofText := id } :
      Transformers Unit Name Empty Unit)
    { exceptions := [], rules := [⟨⟨['c'], .exact, false⟩, (), ['m'], 0⟩],
      index_eq := by intro i rule h; match i with | 0 => cases h; rfl }
    [{ outputName := ['c'] }]
  obtain ⟨hread, -⟩ := h (listCursor (List (Option Name))) 2 3
    [[some ['1']], [none], [some ['3']], [some ['4']], [some ['5']]] _ (by decide)
    (listCursor_serves _)
  obtain ⟨rest, heq⟩ := hread ()
  exact ⟨rest, heq⟩

end MaskGateway.Proofs.Db
