import MaskGateway.Proofs.Masking.Transformers
import MaskGateway.Proofs.Runtime.SnapshotBytes

/-!
# `MaskGateway.Proofs.Runtime.SnapshotPolicy`: a policy survives its own dump

`modelValidate_dump`: validating the dump of a document, with its keys in any order, gives the document
back, with the keys of each `config` sorted. So a `DatasourcePolicy` validates to itself
(`DatasourcePolicy.spec`), which is the law that `Datasource.Validators` asks of pydantic, here proved of
the models themselves.

What holds of every value inside a mapping holds of the parts that are read from it, and of what is
dumped again (`Composes`): distinct keys, values that `json.loads` reads back.
-/

set_option autoImplicit false

namespace MaskGateway.Proofs.Runtime.Snapshot

open MaskGateway.Runtime.Snapshot MaskGateway.Config MaskGateway.Lib
open MaskGateway.Masking (MatchMode)
open MaskGateway.Datasource (Json Floats)
open MaskGateway.Proofs.Datasource (Proper properItems_iff properFields_iff)
open MaskGateway.Proofs.Masking (lookup_of_mem flat)

/-! ### Reading fields in any order -/

section

variable {fields : List (Name × Json)}

/-- What stands under a key does not depend on the order of the keys. -/
theorem lookup_frozen (hnodup : (fields.map Prod.fst).Nodup) (key : Name) :
    (frozen fields).lookup key = (fields.lookup key).map Json.sorted := by
  have hnodup' : ((frozen fields).map Prod.fst).Nodup :=
    (keys_frozen_perm fields).nodup_iff.mpr hnodup
  have hfound : ∀ {fields : List (Name × Json)}, (fields.map Prod.fst).Nodup → ∀ value,
      fields.lookup key = some value ↔ (key, value) ∈ fields := by
    intro fields hnodup value
    constructor
    · intro h
      obtain ⟨l₁, l₂, heq, -⟩ := List.lookup_eq_some_iff.mp h
      simp [heq]
    · exact fun h => lookup_of_mem hnodup h
  ext value
  rw [hfound hnodup', (frozen_perm fields).mem_iff, List.mem_map, Option.map_eq_some_iff]
  constructor
  · rintro ⟨field, hfield, heq⟩
    cases heq
    exact ⟨field.2, (hfound hnodup field.2).mpr hfield, rfl⟩
  · rintro ⟨found, hlookup, rfl⟩
    exact ⟨(key, found), (hfound hnodup found).mp hlookup, rfl⟩

/-- No key but these, in whatever order. -/
theorem closed_frozen (names : List String) : closed (frozen fields) names = closed fields names := by
  rw [closed, closed, (frozen_perm fields).all_eq, List.all_map]
  rfl

end

/-- Items that are each read. -/
theorem mapM_map_eq_some {α β : Type} {items : List α} {f : α → Json} {read : Json → Option β}
    {g : α → β} (h : ∀ item ∈ items, read (f item) = some (g item)) :
    (items.map f).mapM read = some (items.map g) := by
  induction items with
  | nil => rfl
  | cons item items ih =>
      rw [List.map_cons, List.mapM_cons, h item List.mem_cons_self,
        ih fun other hother => h other (List.mem_cons_of_mem _ hother)]
      rfl

/-- Whatever is read is read from an item. -/
theorem exists_of_mem_mapM {α β : Type} {items : List α} {read : α → Option β} {results : List β}
    {result : β} (h : items.mapM read = some results) (hresult : result ∈ results) :
    ∃ item ∈ items, read item = some result := by
  induction items generalizing results with
  | nil =>
      cases h
      cases hresult
  | cons item items ih =>
      simp only [List.mapM_cons, Option.bind_eq_bind, Option.bind_eq_some_iff, Option.pure_def,
        Option.some.injEq] at h
      obtain ⟨first, hfirst, rest, hrest, rfl⟩ := h
      rcases List.mem_cons.mp hresult with rfl | hresult
      · exact ⟨item, List.mem_cons_self, hfirst⟩
      · obtain ⟨found, hfound, hread⟩ := ih hrest hresult
        exact ⟨found, List.mem_cons_of_mem _ hfound, hread⟩

/-! ### The dump of a document is read back -/

/-- A rule with the keys of its parameters sorted. -/
def frozenRule (rule : RuleConfig) : RuleConfig := { rule with config := frozen rule.config }

/-- A document with the keys of all parameters sorted. -/
def frozenDocument (document : Document) : Document :=
  { document with masking := document.masking.map frozenRule }

section

variable {coerce : Coercions}

theorem readMode_modeText (mode : MatchMode) : readMode (.str (modeText mode)) = some mode := by
  cases mode <;> rfl

theorem readId_idJson (id : Option Name) : readId (idJson id).sorted = some id := by
  cases id <;> rfl

theorem readRule_dump (rule : RuleConfig) :
    readRule coerce (.obj (frozen (ruleFields rule))) = some (frozenRule rule) := by
  have hnodup : ((ruleFields rule).map Prod.fst).Nodup := by simp [ruleFields]
  have hclosed : closed (ruleFields rule)
      ["match", "mode", "case_sensitive", "transformer", "config", "id"] = true := rfl
  have hmatch : (ruleFields rule).lookup "match".toList = some (.str rule.match_) := rfl
  have hmode : (ruleFields rule).lookup "mode".toList = some (.str (modeText rule.mode)) := rfl
  have hcase : (ruleFields rule).lookup "case_sensitive".toList = some (.bool rule.caseSensitive) :=
    rfl
  have htransformer : (ruleFields rule).lookup "transformer".toList = some (.str rule.transformer) :=
    rfl
  have hconfig : (ruleFields rule).lookup "config".toList = some (.obj rule.config) := rfl
  have hid : (ruleFields rule).lookup "id".toList = some (idJson rule.id) := rfl
  simp only [readRule, closed_frozen, hclosed, if_true, requiredField, optionalField, lookup_frozen hnodup,
    hmatch, hmode, hcase, htransformer, hconfig, hid, Option.map_some, Json.sorted, Option.bind_some,
    readText, readMode_modeText, coerce.bool_bool, readObject, readId_idJson, Option.bind_eq_bind]
  rfl

theorem readException_dump (item : ExceptionConfig) :
    readException coerce (.obj (frozen (exceptionFields item))) = some item := by
  have hnodup : ((exceptionFields item).map Prod.fst).Nodup := by simp [exceptionFields]
  have hclosed : closed (exceptionFields item) ["match", "mode", "case_sensitive", "id"] = true := rfl
  have hmatch : (exceptionFields item).lookup "match".toList = some (.str item.match_) := rfl
  have hmode : (exceptionFields item).lookup "mode".toList = some (.str (modeText item.mode)) := rfl
  have hcase : (exceptionFields item).lookup "case_sensitive".toList =
    some (.bool item.caseSensitive) := rfl
  have hid : (exceptionFields item).lookup "id".toList = some (idJson item.id) := rfl
  simp only [readException, closed_frozen, hclosed, if_true, requiredField, optionalField,
    lookup_frozen hnodup, hmatch, hmode, hcase, hid, Option.map_some, Json.sorted, Option.bind_some,
    readText, readMode_modeText, coerce.bool_bool, readId_idJson, Option.bind_eq_bind]
  rfl

theorem readDatabase_dump (database : DatabaseConfig) :
    readDatabase coerce (.obj (frozen (databaseFields database))) = some database := by
  have hnodup : ((databaseFields database).map Prod.fst).Nodup := by simp [databaseFields]
  have hclosed : closed (databaseFields database) ["statement_timeout_ms", "max_rows"] = true := rfl
  have htimeout : (databaseFields database).lookup "statement_timeout_ms".toList =
    some (.int database.statementTimeoutMs) := rfl
  have hrows : (databaseFields database).lookup "max_rows".toList =
    some (.int database.maxRows) := rfl
  simp only [readDatabase, closed_frozen, hclosed, if_true, optionalField, lookup_frozen hnodup, htimeout,
    hrows, Option.map_some, Json.sorted, coerce.int_int, Option.bind_eq_bind, Option.bind_some]
  rfl

/-- A list of texts has no keys to sort. -/
theorem sorted_texts (texts : List Name) :
    (Json.arr (texts.map Json.str)).sorted = .arr (texts.map Json.str) := by
  rw [Json.sorted, sortedItems_eq_map, List.map_map]
  rfl

theorem readList_texts (texts : List Name) :
    readList readText (.arr (texts.map Json.str)) = some texts := by
  have hread := @mapM_map_eq_some _ _ texts Json.str readText id fun _ _ => rfl
  rw [readList, hread, List.map_id]

theorem readSql_dump (sql : SqlConfig) :
    readSql (.obj (frozen (sqlFields sql))) = some sql := by
  have hnodup : ((sqlFields sql).map Prod.fst).Nodup := by simp [sqlFields]
  have hclosed : closed (sqlFields sql) ["allowed_pg_functions", "denied_functions"] = true := rfl
  have hallowed : (sqlFields sql).lookup "allowed_pg_functions".toList =
    some (.arr (sql.allowedPgFunctions.map Json.str)) := rfl
  have hdenied : (sqlFields sql).lookup "denied_functions".toList =
    some (.arr (sql.deniedFunctions.map Json.str)) := rfl
  simp only [readSql, closed_frozen, hclosed, if_true, optionalField, lookup_frozen hnodup, hallowed,
    hdenied, Option.map_some, sorted_texts, readList_texts, Option.bind_eq_bind, Option.bind_some]
  rfl

/-- The objects of a list, each with its keys sorted. -/
theorem sorted_objects {α : Type} (items : List α) (fieldsOf : α → List (Name × Json)) :
    (Json.arr (items.map fun item => .obj (fieldsOf item))).sorted =
      .arr (items.map fun item => .obj (frozen (fieldsOf item))) := by
  rw [Json.sorted, sortedItems_eq_map, List.map_map]
  rfl

/-- **The dump of a document is read** as the document, with the keys of its parameters sorted. -/
theorem readDocument_dump (document : Document) :
    readDocument coerce (frozen (modelDump document)) = some (frozenDocument document) := by
  have hnodup : ((modelDump document).map Prod.fst).Nodup := by simp [modelDump]
  have hclosed : closed (modelDump document)
      ["revision", "masking", "exceptions", "database", "sql"] = true := rfl
  have hrevision : (modelDump document).lookup "revision".toList =
    some (.int document.revision) := rfl
  have hmasking : (modelDump document).lookup "masking".toList =
    some (.arr (document.masking.map fun rule => .obj (ruleFields rule))) := rfl
  have hexceptions : (modelDump document).lookup "exceptions".toList =
    some (.arr (document.exceptions.map fun item => .obj (exceptionFields item))) := rfl
  have hdatabase : (modelDump document).lookup "database".toList =
    some (.obj (databaseFields document.database)) := rfl
  have hsql : (modelDump document).lookup "sql".toList = some (.obj (sqlFields document.sql)) := rfl
  have hrules : readList (readRule coerce)
      (.arr (document.masking.map fun rule => .obj (frozen (ruleFields rule)))) =
        some (document.masking.map frozenRule) :=
    mapM_map_eq_some fun rule _ => readRule_dump rule
  have hitems : readList (readException coerce)
      (.arr (document.exceptions.map fun item => .obj (frozen (exceptionFields item)))) =
        some document.exceptions := by
    have hread := @mapM_map_eq_some _ _ document.exceptions
      (fun item => .obj (frozen (exceptionFields item))) (readException coerce) id
      fun item _ => readException_dump item
    rw [readList, hread, List.map_id]
  have hcount : readRevision coerce (Json.int document.revision).sorted =
      some document.revision := by
    have hself : (Json.int document.revision).sorted = .int document.revision := rfl
    rw [hself, readRevision, coerce.int_int]
  simp only [readDocument, closed_frozen, hclosed, if_true, optionalField, lookup_frozen hnodup, hrevision,
    hmasking, hexceptions, hdatabase, hsql, Option.map_some, hcount, sorted_objects, hrules, hitems,
    sorted_obj, readDatabase_dump, readSql_dump, Option.bind_eq_bind, Option.bind_some]
  rfl

end

/-- Sorting the keys of the parameters changes nothing that the models check. -/
theorem valid_frozenDocument (document : Document) :
    (frozenDocument document).valid = document.valid := by
  have hids : (document.masking.map frozenRule).filterMap (·.id) =
      document.masking.filterMap (·.id) := by
    rw [List.filterMap_map]
    rfl
  simp only [Document.valid, Document.adoptedRequiresIds, Document.ruleIds, Document.exceptionIds,
    frozenDocument, List.all_map, hids]
  rfl

/-- The dump of a valid document is validated. -/
theorem modelValidate_dump {coerce : Coercions} {document : Document}
    (hvalid : document.valid = true) :
    modelValidate coerce (frozen (modelDump document)) =
      some ⟨frozenDocument document, (valid_frozenDocument document).trans hvalid⟩ := by
  rw [modelValidate, readDocument_dump, Option.bind_some, validateFileConfig, dif_pos]

/-- Sorting the keys of one parameter list before the rest changes nothing. -/
theorem sorted_frozen (fields : List (Name × Json)) :
    (Json.obj (frozen fields)).sorted = (Json.obj fields).sorted :=
  sorted_sorted (.obj fields)

theorem frozen_congr {fields fields' : List (Name × Json)}
    (h : Json.sortedFields fields = Json.sortedFields fields') : frozen fields = frozen fields' := by
  rw [frozen, frozen, h]

/-- A document whose parameters were sorted has the same dump, once its keys are sorted. -/
theorem frozen_modelDump (document : Document) :
    frozen (modelDump (frozenDocument document)) = frozen (modelDump document) := by
  have hrule : ∀ rule : RuleConfig, frozen (ruleFields (frozenRule rule)) =
      frozen (ruleFields rule) := by
    intro rule
    apply frozen_congr
    simp only [ruleFields, frozenRule, Json.sortedFields, sorted_frozen]
  have hmasking : (Json.arr ((frozenDocument document).masking.map fun rule =>
      .obj (ruleFields rule))).sorted =
        (Json.arr (document.masking.map fun rule => .obj (ruleFields rule))).sorted := by
    rw [sorted_objects, sorted_objects, frozenDocument, List.map_map]
    exact congrArg Json.arr (List.map_congr_left fun rule _ => congrArg Json.obj (hrule rule))
  apply frozen_congr
  simp only [modelDump, Json.sortedFields, hmasking]
  rfl

/-! ### What holds of every value inside -/

/-- A condition on values that holds of an array when it holds of its items, and of an object when its
keys are distinct and it holds of its values. -/
structure Composes (cond : Json → Prop) : Prop where
  null : cond .null
  bool : ∀ value, cond (.bool value)
  int : ∀ value, cond (.int value)
  str : ∀ value, cond (.str value)
  arr : ∀ items, cond (.arr items) ↔ ∀ item ∈ items, cond item
  obj : ∀ fields, cond (.obj fields) ↔
    (fields.map Prod.fst).Nodup ∧ ∀ field ∈ fields, cond field.2

theorem composes_proper (floats : Floats) : Composes (Proper floats) where
  null := trivial
  bool _ := trivial
  int _ := trivial
  str _ := trivial
  arr _ := properItems_iff
  obj _ := and_congr_right fun _ => properFields_iff

theorem composes_keysOnce : Composes fun value => every keysOnce value = true where
  null := rfl
  bool _ := rfl
  int _ := rfl
  str _ := rfl
  arr items := by
    rw [every, everyItem_eq_all, Bool.and_eq_true, List.all_eq_true]
    exact and_iff_right rfl
  obj fields := by
    rw [every, everyField_eq_all, Bool.and_eq_true, List.all_eq_true, keysOnce, decide_eq_true_eq]

/-- No repeated key and no double. -/
def Clean (value : Json) : Prop := every keysOnce value = true ∧ every noFloat value = true

theorem composes_clean : Composes Clean where
  null := ⟨rfl, rfl⟩
  bool _ := ⟨rfl, rfl⟩
  int _ := ⟨rfl, rfl⟩
  str _ := ⟨rfl, rfl⟩
  arr items := by
    have hkeys := composes_keysOnce.arr items
    have hfloats : every noFloat (.arr items) = true ↔ ∀ item ∈ items, every noFloat item = true := by
      rw [every, everyItem_eq_all, Bool.and_eq_true, List.all_eq_true]
      exact and_iff_right rfl
    rw [Clean, hkeys, hfloats]
    exact ⟨fun h item hitem => ⟨h.1 item hitem, h.2 item hitem⟩,
      fun h => ⟨fun item hitem => (h item hitem).1, fun item hitem => (h item hitem).2⟩⟩
  obj fields := by
    have hkeys := composes_keysOnce.obj fields
    have hfloats : every noFloat (.obj fields) = true ↔
        ∀ field ∈ fields, every noFloat field.2 = true := by
      rw [every, everyField_eq_all, Bool.and_eq_true, List.all_eq_true]
      exact and_iff_right rfl
    rw [Clean, hkeys, hfloats]
    exact ⟨fun h => ⟨h.1.1, fun field hfield => ⟨h.1.2 field hfield, h.2 field hfield⟩⟩,
      fun h => ⟨⟨h.1, fun field hfield => (h.2 field hfield).1⟩,
        fun field hfield => (h.2 field hfield).2⟩⟩

section

variable {cond : Json → Prop} (hcond : Composes cond)

include hcond

/-- What stands under a key of an object. -/
theorem Composes.lookup {fields : List (Name × Json)} (h : cond (.obj fields)) {key : Name}
    {value : Json} (hlookup : fields.lookup key = some value) : cond value := by
  obtain ⟨l₁, l₂, rfl, -⟩ := List.lookup_eq_some_iff.mp hlookup
  exact ((hcond.obj _).mp h).2 (key, value) (by simp)

/-- The parameters read from a rule. -/
theorem Composes.readRule {coerce : Coercions} {value : Json} {rule : RuleConfig} (h : cond value)
    (hread : readRule coerce value = some rule) : cond (.obj rule.config) := by
  cases value with
  | obj fields =>
      simp only [Config.readRule] at hread
      split_ifs at hread
      simp only [Option.bind_eq_bind, Option.bind_eq_some_iff, Option.pure_def,
        Option.some.injEq] at hread
      obtain ⟨_, -, _, -, _, -, _, -, config, hconfig, _, -, rfl⟩ := hread
      rw [optionalField] at hconfig
      split at hconfig
      · cases hconfig
        exact (hcond.obj []).mpr ⟨List.nodup_nil, fun _ hnot => by cases hnot⟩
      · rename_i found hlookup
        have hfound := hcond.lookup h hlookup
        cases found with
        | obj inner =>
            cases hconfig
            exact hfound
        | _ => cases hconfig
  | _ => cases hread

/-- The parameters of every rule that is read from a mapping. -/
theorem Composes.readDocument {coerce : Coercions} {fields : List (Name × Json)}
    {document : Document} (h : cond (.obj fields))
    (hread : readDocument coerce fields = some document) :
    ∀ rule ∈ document.masking, cond (.obj rule.config) := by
  simp only [Config.readDocument] at hread
  split_ifs at hread
  simp only [Option.bind_eq_bind, Option.bind_eq_some_iff, Option.pure_def, Option.some.injEq] at hread
  obtain ⟨_, -, masking, hmasking, _, -, _, -, _, -, rfl⟩ := hread
  rw [optionalField] at hmasking
  split at hmasking
  · cases hmasking
    intro rule hrule
    cases hrule
  · rename_i found hlookup
    have hfound := hcond.lookup h hlookup
    cases found with
    | arr items =>
        intro rule hrule
        obtain ⟨item, hitem, hitemread⟩ := exists_of_mem_mapM hmasking hrule
        exact hcond.readRule ((hcond.arr items).mp hfound item hitem) hitemread
    | _ => cases hmasking

/-- A document is dumped from its parameters, texts and numbers. -/
theorem Composes.modelDump {document : Document}
    (h : ∀ rule ∈ document.masking, cond (.obj rule.config)) : cond (.obj (modelDump document)) := by
  have hid : ∀ id : Option Name, cond (idJson id) := fun id => by
    cases id with
    | none => exact hcond.null
    | some id => exact hcond.str id
  have htexts : ∀ texts : List Name, cond (.arr (texts.map Json.str)) := fun texts => by
    refine (hcond.arr _).mpr fun item hitem => ?_
    obtain ⟨text, -, rfl⟩ := List.mem_map.mp hitem
    exact hcond.str text
  have hrules : cond (.arr (document.masking.map fun rule => .obj (ruleFields rule))) := by
    refine (hcond.arr _).mpr fun item hitem => ?_
    obtain ⟨rule, hrule, rfl⟩ := List.mem_map.mp hitem
    refine (hcond.obj _).mpr ⟨by simp [ruleFields], ?_⟩
    simp only [ruleFields, List.forall_mem_cons]
    exact ⟨hcond.str _, hcond.str _, hcond.bool _, hcond.str _, h rule hrule, hid _,
      fun _ hnot => by cases hnot⟩
  have hitems : cond (.arr (document.exceptions.map fun item => .obj (exceptionFields item))) := by
    refine (hcond.arr _).mpr fun value hvalue => ?_
    obtain ⟨item, -, rfl⟩ := List.mem_map.mp hvalue
    refine (hcond.obj _).mpr ⟨by simp [exceptionFields], ?_⟩
    simp only [exceptionFields, List.forall_mem_cons]
    exact ⟨hcond.str _, hcond.str _, hcond.bool _, hid _, fun _ hnot => by cases hnot⟩
  have hdatabase : cond (.obj (databaseFields document.database)) := by
    refine (hcond.obj _).mpr ⟨by simp [databaseFields], ?_⟩
    simp only [databaseFields, List.forall_mem_cons]
    exact ⟨hcond.int _, hcond.int _, fun _ hnot => by cases hnot⟩
  have hsql : cond (.obj (sqlFields document.sql)) := by
    refine (hcond.obj _).mpr ⟨by simp [sqlFields], ?_⟩
    simp only [sqlFields, List.forall_mem_cons]
    exact ⟨htexts _, htexts _, fun _ hnot => by cases hnot⟩
  refine (hcond.obj _).mpr ⟨by simp [Config.modelDump], ?_⟩
  simp only [Config.modelDump, List.forall_mem_cons]
  exact ⟨hcond.int _, hrules, hitems, hdatabase, hsql, fun _ hnot => by cases hnot⟩

end

/-! ### A policy of a datasource -/

/-- The keys of an object, distinct. -/
theorem nodup_of_keysOnce {fields : List (Name × Json)} (h : every keysOnce (.obj fields) = true) :
    (fields.map Prod.fst).Nodup :=
  ((composes_keysOnce.obj fields).mp h).1

/-- **A policy validates to a document whose dump it is.** -/
theorem DatasourcePolicy.spec {platform : Platform} (policy : DatasourcePolicy platform) :
    ∃ document : MaskingFileConfig,
      modelValidate platform.coerce policy.value = some document ∧
        frozen (modelDump document.1) = policy.value ∧
        ∀ rule ∈ document.1.masking, (rule.config.map Prod.fst).Nodup := by
  obtain ⟨raw, hkeys, hpolicy⟩ := policy.validated
  rw [policyOf, Option.map_eq_some_iff] at hpolicy
  obtain ⟨parsed, hparsed, hvalue⟩ := hpolicy
  have hread : readDocument platform.coerce raw = some parsed.1 := by
    rw [modelValidate, Option.bind_eq_some_iff] at hparsed
    obtain ⟨document, hdocument, hvalid⟩ := hparsed
    rw [validateFileConfig] at hvalid
    split_ifs at hvalid
    cases hvalid
    exact hdocument
  refine ⟨⟨frozenDocument parsed.1, (valid_frozenDocument parsed.1).trans parsed.2⟩, ?_, ?_, ?_⟩
  · rw [← hvalue]
    exact modelValidate_dump parsed.2
  · rw [← hvalue]
    exact frozen_modelDump parsed.1
  · intro rule hrule
    obtain ⟨old, hold, rfl⟩ := List.mem_map.mp hrule
    have hconfig := composes_keysOnce.readDocument hkeys hread old hold
    exact (keys_frozen_perm old.config).nodup_iff.mpr (nodup_of_keysOnce hconfig)

/-- A policy validates to itself. -/
theorem policyOf_value {platform : Platform} (policy : DatasourcePolicy platform) :
    policyOf platform policy.value = some policy.value := by
  obtain ⟨document, hvalidate, hdump, -⟩ := DatasourcePolicy.spec policy
  rw [policyOf, hvalidate, Option.map_some, hdump]

/-- Its keys are in their order. -/
theorem frozen_value {platform : Platform} (policy : DatasourcePolicy platform) :
    frozen policy.value = policy.value := by
  obtain ⟨document, -, hdump, -⟩ := DatasourcePolicy.spec policy
  rw [← hdump, frozen_frozen]

/-! ### What a policy that compiles is made of -/

/-- A flat value has no level. -/
theorem depth_of_flat {value : Json} (h : flat value = true) : depth value = 0 := by
  cases value <;> first | rfl | cases h

theorem clean_of_flat {value : Json} (h : flat value = true) : Clean value := by
  cases value <;> first | exact ⟨rfl, rfl⟩ | cases h

/-- The rules of a policy that compiles have flat parameters. -/
theorem flat_of_compileRules {σ ε : Type} {texts : MaskGateway.Masking.Texts}
    {provider : MaskGateway.Masking.SecretProvider σ ε} {rules : List RuleConfig}
    (hnodup : ∀ rule ∈ rules, (rule.config.map Prod.fst).Nodup) :
    ∀ {first : Nat} {state : σ}
      {result : List (MaskGateway.Masking.MaskingRule MaskGateway.Masking.Transformer) × σ},
      compileRules texts provider first rules state = .ok result →
        ∀ rule ∈ rules, ∀ field ∈ rule.config, flat field.2 = true := by
  induction rules with
  | nil =>
      intro first state result _ rule hrule
      cases hrule
  | cons head rules ih =>
      intro first state result h rule hrule
      simp only [compileRules, bind_eq_ok, mapError_eq_ok] at h
      obtain ⟨⟨transformer, middle⟩, hbuild, rest, hrest, -⟩ := h
      rcases List.mem_cons.mp hrule with rfl | hrule
      · exact MaskGateway.Proofs.Masking.flat_of_build (hnodup rule List.mem_cons_self) hbuild
      · exact ih (fun other hother => hnodup other (List.mem_cons_of_mem _ hother)) hrest rule hrule

/-- **A dump with flat parameters is clean and four levels deep**: the document, the list of rules, a
rule, its parameters. -/
theorem plain_modelDump {document : Document}
    (hnodup : ∀ rule ∈ document.masking, (rule.config.map Prod.fst).Nodup)
    (hflat : ∀ rule ∈ document.masking, ∀ field ∈ rule.config, flat field.2 = true) :
    Clean (.obj (modelDump document)) ∧ depth (.obj (modelDump document)) ≤ 4 := by
  constructor
  · exact composes_clean.modelDump fun rule hrule => (composes_clean.obj rule.config).mpr
      ⟨hnodup rule hrule, fun field hfield => clean_of_flat (hflat rule hrule field hfield)⟩
  · have hconfig : ∀ rule ∈ document.masking, depthFields rule.config = 0 := by
      intro rule hrule
      refine Nat.le_zero.mp (depthFields_le.mpr fun field hfield => ?_)
      exact (depth_of_flat (hflat rule hrule field hfield)).le
    have hid : ∀ id : Option Name, depth (idJson id) = 0 := fun id => by cases id <;> rfl
    have htexts : ∀ texts : List Name, depthItems (texts.map Json.str) = 0 := by
      intro texts
      refine Nat.le_zero.mp (depthItems_le.mpr fun item hitem => ?_)
      obtain ⟨text, -, rfl⟩ := List.mem_map.mp hitem
      rfl
    have hrules : depthItems (document.masking.map fun rule => .obj (ruleFields rule)) ≤ 2 := by
      refine depthItems_le.mpr fun item hitem => ?_
      obtain ⟨rule, hrule, rfl⟩ := List.mem_map.mp hitem
      simp [ruleFields, depth, depthFields, hconfig rule hrule, hid]
    have hitems : depthItems (document.exceptions.map fun item => .obj (exceptionFields item)) ≤
        2 := by
      refine depthItems_le.mpr fun value hvalue => ?_
      obtain ⟨item, -, rfl⟩ := List.mem_map.mp hvalue
      simp [exceptionFields, depth, depthFields, hid]
    simp only [modelDump, depth, depthFields, databaseFields, sqlFields, htexts]
    omega

end MaskGateway.Proofs.Runtime.Snapshot
