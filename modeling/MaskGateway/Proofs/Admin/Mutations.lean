import MaskGateway.Admin.Mutations

/-!
# `MaskGateway.Proofs.Admin.Mutations`: mutations change what they are asked to change

`Does` says, for each mutation, what an accepted one leaves: one item inserted, replaced or removed, the
rules in another order, one section written, and everything else as it was. `step_does` proves it
of every accepted mutation at an adopted document, and `mutations_preserve_document` puts it together
with what holds over a whole run: ids are distinct and come from the document or from the server, and
`allowed_pg_functions` is never changed.
-/

set_option autoImplicit false

namespace MaskGateway.Proofs.Admin

open MaskGateway.Lib MaskGateway.Config MaskGateway.Admin

/-! ### The lists of the document -/

/-- Where every item has an id, the ids are those that were collected. -/
theorem map_id_eq {α : Type} {id : α → Option Name} {items : List α}
    (hall : ∀ item ∈ items, (id item).isSome) : items.map id = (items.filterMap id).map some := by
  induction items with
  | nil => rfl
  | cons item rest ih =>
      obtain ⟨k, hk⟩ := Option.isSome_iff_exists.mp (hall item List.mem_cons_self)
      rw [List.map_cons, List.filterMap_cons_some hk, List.map_cons, hk,
        ih fun other hother => hall other (List.mem_cons_of_mem _ hother)]

/-- The items of an adopted document carry distinct ids. -/
theorem nodup_ids {α : Type} {id : α → Option Name} {items : List α}
    (hall : ∀ item ∈ items, (id item).isSome) (hnodup : (items.filterMap id).Nodup) :
    (items.map id).Nodup := by
  rw [map_id_eq hall]
  exact hnodup.map fun _ _ => Option.some.inj

/-- What an adopted document that is valid holds. -/
structure Adopted (document : Document) : Prop where
  rules : (document.masking.map (·.id)).Nodup
  exceptions : (document.exceptions.map (·.id)).Nodup
  ruleIds : document.ruleIds.Nodup
  exceptionIds : document.exceptionIds.Nodup
  named : ∀ rule ∈ document.masking, rule.id.isSome
  namedExceptions : ∀ item ∈ document.exceptions, item.id.isSome

theorem adopted_of_valid {document : Document} (hvalid : document.valid = true)
    (hadopted : document.adopted) : Adopted document := by
  simp only [Document.valid, Bool.and_eq_true] at hvalid
  have hids := hvalid.2
  rw [Document.adoptedRequiresIds, Bool.or_eq_true, beq_iff_eq] at hids
  rcases hids with hzero | hids
  · exact absurd hzero hadopted
  · simp only [Bool.and_eq_true, List.all_eq_true, decide_eq_true_eq] at hids
    obtain ⟨⟨⟨hrules, hexceptions⟩, hruleIds⟩, hexceptionIds⟩ := hids
    exact ⟨nodup_ids hrules hruleIds, nodup_ids hexceptions hexceptionIds, hruleIds, hexceptionIds,
      hrules, hexceptions⟩

/-! ### What a mutation does -/

/-- The names that a list denies, by the key of the policy: the first spelling of each, in order. -/
structure Merged (canonicalFunctionName : Name → Name) (names result : List Name) : Prop where
  distinct : (result.map canonicalFunctionName).Nodup
  keys : ∀ key, key ∈ result.map canonicalFunctionName ↔
    key ≠ [] ∧ key ∈ names.map canonicalFunctionName
  ordered : result.Sublist names
  first : ∀ name ∈ result, ∃ before after, names = before ++ name :: after ∧
    canonicalFunctionName name ∉ before.map canonicalFunctionName

/-- An id that `replace_config` gives an item: the one that was asked for, of the current ones, or a
new one. -/
def Resolved (provided : Option Name) (currentIds : List Name) (generated id : Name) : Prop :=
  (provided = some id ∧ id ∈ currentIds) ∨ (provided = none ∧ id = generated)

/-- What an accepted mutation makes of a document: `s` before, `s'` after. The revision aside, what is
not named is as it was. -/
def Does (canonicalFunctionName : Name → Name) (drawn : Drawn) (s s' : Document) : Mutation → Prop
  | .createRule rule position => ∃ masking,
      Inserted (position.getD s.masking.length) (ruleDict rule (drawn.rules 0).1) s.masking masking ∧
      s' = { s with revision := s.revision + 1, masking }
  | .replaceRule ruleId rule => ∃ masking,
      Replaced (·.id) (some ruleId) (ruleDict rule ruleId) s.masking masking ∧
      s' = { s with revision := s.revision + 1, masking }
  | .deleteRule ruleId => ∃ masking, Removed (·.id) (some ruleId) s.masking masking ∧
      s' = { s with revision := s.revision + 1, masking }
  | .reorderRules ruleIds => ∃ masking, masking.Perm s.masking ∧
      masking.map (·.id) = ruleIds.map (fun id => some id.1) ∧
      s' = { s with revision := s.revision + 1, masking }
  | .createException item => ∃ exceptions,
      Inserted s.exceptions.length (exceptionDict item (drawn.exceptions 0).1) s.exceptions
        exceptions ∧
      s' = { s with revision := s.revision + 1, exceptions }
  | .replaceException exceptionId item => ∃ exceptions,
      Replaced (·.id) (some exceptionId) (exceptionDict item exceptionId) s.exceptions exceptions ∧
      s' = { s with revision := s.revision + 1, exceptions }
  | .deleteException exceptionId => ∃ exceptions,
      Removed (·.id) (some exceptionId) s.exceptions exceptions ∧
      s' = { s with revision := s.revision + 1, exceptions }
  | .replaceDatabase database =>
      s' = { s with revision := s.revision + 1, database := database.1 }
  | .replaceSql sql => sql.allowedPgFunctionsPresent = false ∧ ∃ denied,
      Merged canonicalFunctionName (s.sql.deniedFunctions ++ sql.deniedFunctions) denied ∧
      s' = { s with revision := s.revision + 1, sql := { s.sql with deniedFunctions := denied } }
  | .replaceConfig config => config.sql.allowedPgFunctionsPresent = false ∧
      s'.revision = s.revision + 1 ∧
      List.Forall₂ (fun entry rule => ∃ id,
        Resolved (entry.1.2.map (·.1)) s.ruleIds (drawn.rules entry.2).1 id ∧
        rule = ruleDict entry.1.1 id) config.masking.zipIdx s'.masking ∧
      List.Forall₂ (fun entry item => ∃ id,
        Resolved (entry.1.2.map (·.1)) s.exceptionIds (drawn.exceptions entry.2).1 id ∧
        item = exceptionDict entry.1.1 id) config.exceptions.zipIdx s'.exceptions ∧
      s'.database = config.database.1 ∧
      s'.sql = { s.sql with deniedFunctions := config.sql.deniedFunctions }

section

variable {canonicalFunctionName : Name → Name} {drawn : Drawn}

/-! ### The denied functions -/

/-- The loop of `_merge_denied`, from what was seen. -/
theorem mergeLoop_spec {names : List Name} : ∀ {seen : List Name},
    ((mergeLoop canonicalFunctionName seen names).map canonicalFunctionName).Nodup ∧
    (∀ key, key ∈ (mergeLoop canonicalFunctionName seen names).map canonicalFunctionName ↔
      key ≠ [] ∧ key ∉ seen ∧ key ∈ names.map canonicalFunctionName) ∧
    (mergeLoop canonicalFunctionName seen names).Sublist names ∧
    ∀ name ∈ mergeLoop canonicalFunctionName seen names, ∃ before after,
      names = before ++ name :: after ∧
      canonicalFunctionName name ∉ before.map canonicalFunctionName := by
  induction names with
  | nil =>
      intro seen
      exact ⟨List.nodup_nil, fun key => by simp [mergeLoop], .slnil, nofun⟩
  | cons name rest ih =>
      intro seen
      rw [mergeLoop]
      by_cases hskip : canonicalFunctionName name = [] ∨ canonicalFunctionName name ∈ seen
      · -- a name that is blank, or was seen, leaves the list as it is
        simp only [if_pos hskip]
        obtain ⟨hnodup, hkeys, hsub, hfirst⟩ := @ih seen
        refine ⟨hnodup, fun key => ?_, hsub.cons name, fun other hother => ?_⟩
        · rw [hkeys, List.map_cons, List.mem_cons]
          constructor
          · exact fun ⟨hne, hseen, hmem⟩ => ⟨hne, hseen, Or.inr hmem⟩
          · rintro ⟨hne, hseen, rfl | hmem⟩
            · exact absurd hskip (not_or.mpr ⟨hne, hseen⟩)
            · exact ⟨hne, hseen, hmem⟩
        · obtain ⟨before, after, hsplit, hbefore⟩ := hfirst other hother
          refine ⟨name :: before, after, by rw [hsplit]; rfl, ?_⟩
          rw [List.map_cons, List.mem_cons, not_or]
          refine ⟨fun hsame => ?_, hbefore⟩
          have hkey := (hkeys _).mp (List.mem_map_of_mem hother)
          rw [← hsame] at hskip
          exact hskip.elim hkey.1 hkey.2.1
      · simp only [if_neg hskip]
        obtain ⟨hblank, hseen⟩ := not_or.mp hskip
        obtain ⟨hnodup, hkeys, hsub, hfirst⟩ := @ih (canonicalFunctionName name :: seen)
        refine ⟨?_, fun key => ?_, hsub.cons_cons name, fun other hother => ?_⟩
        · rw [List.map_cons, List.nodup_cons]
          exact ⟨fun hmem => ((hkeys _).mp hmem).2.1 List.mem_cons_self, hnodup⟩
        · rw [List.map_cons, List.map_cons, List.mem_cons, List.mem_cons, hkeys, List.mem_cons,
            not_or]
          constructor
          · rintro (rfl | ⟨hne, ⟨-, hseen'⟩, hmem⟩)
            · exact ⟨hblank, hseen, Or.inl rfl⟩
            · exact ⟨hne, hseen', Or.inr hmem⟩
          · rintro ⟨hne, hseen', hsame | hmem⟩
            · exact Or.inl hsame
            · by_cases hsame : key = canonicalFunctionName name
              · exact Or.inl hsame
              · exact Or.inr ⟨hne, ⟨hsame, hseen'⟩, hmem⟩
        · rcases List.mem_cons.mp hother with rfl | hother
          · exact ⟨[], rest, rfl, List.not_mem_nil⟩
          · obtain ⟨before, after, hsplit, hbefore⟩ := hfirst other hother
            refine ⟨name :: before, after, by rw [hsplit]; rfl, ?_⟩
            rw [List.map_cons, List.mem_cons, not_or]
            refine ⟨fun hsame => ?_, hbefore⟩
            have hkey := (hkeys _).mp (List.mem_map_of_mem hother)
            exact hkey.2.1 (hsame ▸ List.mem_cons_self)

theorem merged_mergeDenied (existing added : List Name) :
    Merged canonicalFunctionName (existing ++ added)
      (mergeDenied canonicalFunctionName existing added) := by
  obtain ⟨hdistinct, hkeys, hordered, hfirst⟩ :=
    @mergeLoop_spec canonicalFunctionName (existing ++ added) []
  refine ⟨hdistinct, fun key => ?_, hordered, hfirst⟩
  rw [mergeDenied, hkeys]
  exact ⟨fun ⟨hne, _, hmem⟩ => ⟨hne, hmem⟩, fun ⟨hne, hmem⟩ => ⟨hne, List.not_mem_nil, hmem⟩⟩

/-! ### The order of the rules -/

/-- Two lists are sorted alike when they are permutations of each other. -/
theorem sorted_eq_iff {texts texts' : List Name} : sorted texts = sorted texts' ↔ texts.Perm texts' := by
  have htotal : Std.Total (fun a b : Name => @LE.le Name List.instLE a b) :=
    ⟨fun _ _ => List.le_total _ _⟩
  have htrans : IsTrans Name (fun a b : Name => @LE.le Name List.instLE a b) :=
    ⟨fun _ _ _ => List.le_trans⟩
  constructor
  · intro h
    have hperm : (sorted texts).Perm texts' := by
      rw [h]
      exact List.perm_insertionSort _ texts'
    exact (List.perm_insertionSort _ texts).symm.trans hperm
  · intro h
    have hperm : (sorted texts).Perm (sorted texts') :=
      ((List.perm_insertionSort _ texts).trans h).trans (List.perm_insertionSort _ texts').symm
    exact hperm.eq_of_pairwise (fun a b _ _ hab hba => List.le_antisymm hab hba)
      (List.pairwise_insertionSort _ _) (List.pairwise_insertionSort _ _)

/-- The rules that a list of ids names, where it is a permutation of the ids that are there. -/
theorem reorder_ok {s : Document} (hs : Adopted s) {ruleIds : List RuleId}
    (h : (ruleIds.map (·.1)).Perm s.ruleIds) :
    ∃ masking, reorderRules ruleIds s = .ok { s with masking } ∧ masking.Perm s.masking ∧
      masking.map (·.id) = (ruleIds.map (·.1)).map some := by
  have hkeys : ((ruleIds.map (·.1)).map some).Perm (s.masking.map (·.id)) := by
    rw [map_id_eq hs.named]
    exact h.map some
  obtain ⟨masking, hperm, hids⟩ := exists_ordered hkeys
  have hpicked : (ruleIds.map (·.1)).mapM (fun id => itemOf (·.id) s.masking (some id)) =
      some masking := by
    have hall := mapM_itemOf hs.rules fun rule hrule => hperm.mem_iff.mp hrule
    rwa [hids, List.mapM_map] at hall
  refine ⟨masking, ?_, hperm, hids⟩
  have hnamed : ¬ s.masking.any (·.id.isNone) = true := by
    rw [Bool.not_eq_true, List.any_eq_false]
    intro rule hrule hnone
    have hsome := hs.named rule hrule
    rw [Option.isNone_iff_eq_none.mp hnone] at hsome
    cases hsome
  simp only [reorderRules, bind_eq_ok, refuseIf_eq_ok, hpicked, pure_eq_ok]
  refine ⟨(), hnamed, (), ?_, trivial⟩
  rw [not_or, not_not, not_not]
  exact ⟨h.length_eq, sorted_eq_iff.mpr h⟩

/-! ### One mutation -/

/-- What was validated is what the mutation proposed, under the next revision. -/
theorem nextDocument_ok {mutation : Mutation} {s s' : MaskingFileConfig}
    (h : nextDocument canonicalFunctionName drawn mutation s = .ok s') :
    ∃ proposed, mutation.propose canonicalFunctionName drawn s.1 = .ok proposed ∧
      s'.1 = { proposed with revision := s.1.revision + 1 } := by
  simp only [nextDocument, bind_eq_ok] at h
  obtain ⟨proposed, hproposed, h⟩ := h
  refine ⟨proposed, hproposed, ?_⟩
  rw [validateFileConfig] at h
  split at h
  · rename_i next hnext
    split at hnext
    · rw [← Option.some.inj hnext] at h
      rw [← Except.ok.inj h]
    · cases hnext
  · cases h

/-- An id that `_resolve_id` lets through. -/
theorem resolveId_ok {provided : Option Name} {currentIds : List Name} {generated id : Name}
    (h : resolveId provided currentIds generated = .ok id) :
    Resolved provided currentIds generated id := by
  cases provided with
  | none => exact Or.inr ⟨rfl, (Except.ok.inj h).symm⟩
  | some given =>
      simp only [resolveId] at h
      split at h
      · obtain rfl := Except.ok.inj h
        exact Or.inl ⟨rfl, ‹_›⟩
      · cases h

/-- What `replace_config` proposes. -/
theorem replaceConfig_ok {config : ConfigReplace} {s proposed : Document}
    (h : replaceConfig drawn config s = .ok proposed) :
    Does canonicalFunctionName drawn s { proposed with revision := s.revision + 1 }
      (.replaceConfig config) := by
  simp only [replaceConfig, bind_eq_ok, refuseIf_eq_ok, pure_eq_ok] at h
  obtain ⟨-, hpresent, masking, hmasking, exceptions, hexceptions, rfl⟩ := h
  refine ⟨Bool.not_eq_true _ ▸ hpresent, rfl, ?_, ?_, rfl, rfl⟩
  · refine (mapM_eq_ok.mp hmasking).imp fun entry rule hrule => ?_
    simp only [resolveRule, bind_eq_ok, pure_eq_ok] at hrule
    obtain ⟨id, hid, rfl⟩ := hrule
    exact ⟨id, resolveId_ok hid, rfl⟩
  · refine (mapM_eq_ok.mp hexceptions).imp fun entry item hitem => ?_
    simp only [resolveException, bind_eq_ok, pure_eq_ok] at hitem
    obtain ⟨id, hid, rfl⟩ := hitem
    exact ⟨id, resolveId_ok hid, rfl⟩

/-- **What a mutation proposes**, at an adopted document. -/
theorem propose_does {mutation : Mutation} {s proposed : Document} (hs : Adopted s)
    (h : mutation.propose canonicalFunctionName drawn s = .ok proposed) :
    Does canonicalFunctionName drawn s { proposed with revision := s.revision + 1 } mutation := by
  cases mutation with
  | createRule rule position =>
      simp only [Mutation.propose, createRule, bind_eq_ok, refuseIf_eq_ok, pure_eq_ok,
        Nat.not_lt] at h
      obtain ⟨-, hindex, rfl⟩ := h
      exact ⟨_, inserted_insertIdx _ hindex, rfl⟩
  | replaceRule ruleId rule =>
      simp only [Mutation.propose, replaceRule] at h
      split at h
      · cases h
      · rename_i index hindex
        rw [← Except.ok.inj h]
        exact ⟨_, replaced_set hs.rules hindex rfl, rfl⟩
  | deleteRule ruleId =>
      simp only [Mutation.propose, deleteRule] at h
      split at h
      · cases h
      · rename_i index hindex
        rw [← Except.ok.inj h]
        exact ⟨_, removed_eraseIdx hs.rules hindex, rfl⟩
  | reorderRules ruleIds =>
      have hperm : (ruleIds.map (·.1)).Perm s.ruleIds := by
        simp only [Mutation.propose, reorderRules, bind_eq_ok, refuseIf_eq_ok, not_or,
          not_not] at h
        obtain ⟨-, -, -, ⟨-, hsorted⟩, -⟩ := h
        exact sorted_eq_iff.mp hsorted
      obtain ⟨masking, hok, hrules, hids⟩ := reorder_ok hs hperm
      have hsame : proposed = { s with masking } := Except.ok.inj (h.symm.trans hok)
      rw [hsame]
      exact ⟨masking, hrules, by rw [hids, List.map_map]; rfl, rfl⟩
  | createException item =>
      rw [← Except.ok.inj h]
      exact ⟨_, ⟨s.exceptions, [], (List.append_nil _).symm, rfl, rfl⟩, rfl⟩
  | replaceException exceptionId item =>
      simp only [Mutation.propose, replaceException] at h
      split at h
      · cases h
      · rename_i index hindex
        rw [← Except.ok.inj h]
        exact ⟨_, replaced_set hs.exceptions hindex rfl, rfl⟩
  | deleteException exceptionId =>
      simp only [Mutation.propose, deleteException] at h
      split at h
      · cases h
      · rename_i index hindex
        rw [← Except.ok.inj h]
        exact ⟨_, removed_eraseIdx hs.exceptions hindex, rfl⟩
  | replaceDatabase database =>
      rw [← Except.ok.inj h]
      rfl
  | replaceSql sql =>
      simp only [Mutation.propose, replaceSql, bind_eq_ok, refuseIf_eq_ok, pure_eq_ok] at h
      obtain ⟨-, hpresent, rfl⟩ := h
      exact ⟨Bool.not_eq_true _ ▸ hpresent, _, merged_mergeDenied _ _, rfl⟩
  | replaceConfig config => exact replaceConfig_ok h

/-- What an accepted mutation does. -/
theorem step_does {event : Mutation × Drawn} {s s' : MaskingFileConfig} (hadopted : s.1.adopted)
    (h : step canonicalFunctionName s event = some s') :
    Does canonicalFunctionName event.2 s.1 s'.1 event.1 ∧ s'.1.revision = s.1.revision + 1 := by
  have hnext : nextDocument canonicalFunctionName event.2 event.1 s = .ok s' := by
    rw [step] at h
    cases hrun : nextDocument canonicalFunctionName event.2 event.1 s with
    | ok next =>
        rw [hrun] at h
        rw [Option.some.inj h]
    | error error =>
        rw [hrun] at h
        cases h
  obtain ⟨proposed, hproposed, hsame⟩ := nextDocument_ok hnext
  rw [hsame]
  exact ⟨propose_does (adopted_of_valid s.2 hadopted) hproposed, rfl⟩

/-! ### Ids and the allowed functions -/

/-- The ids of a document, those of the next one and what was drawn in between. -/
def Known (ids ids' : List Name) (drawn : Nat → Name) : Prop :=
  ∀ id ∈ ids', id ∈ ids ∨ ∃ place, id = drawn place

/-- Ids are known where every item carries one that was there, or one that was drawn. -/
theorem known_of_items {α : Type} {idOf : α → Option Name} {items items' : List α}
    {drawn : Nat → Name}
    (h : ∀ item ∈ items', (∃ old ∈ items, idOf item = idOf old) ∨
      (∃ id ∈ items.filterMap idOf, idOf item = some id) ∨ ∃ place, idOf item = some (drawn place)) :
    Known (items.filterMap idOf) (items'.filterMap idOf) drawn := by
  intro id hid
  obtain ⟨item, hitem, hsome⟩ := List.mem_filterMap.mp hid
  rcases h item hitem with ⟨old, hold, hsame⟩ | ⟨other, hother, hsame⟩ | ⟨place, hplace⟩
  · exact Or.inl (List.mem_filterMap.mpr ⟨old, hold, hsame.symm.trans hsome⟩)
  · rw [Option.some.inj (hsome.symm.trans hsame)]
    exact Or.inl hother
  · exact Or.inr ⟨place, Option.some.inj (hsome.symm.trans hplace)⟩

theorem known_refl (ids : List Name) (drawn : Nat → Name) : Known ids ids drawn :=
  fun _ hid => Or.inl hid

/-- The rules of the next document carry known ids. -/
theorem known_rules {s s' : Document} {mutation : Mutation}
    (h : Does canonicalFunctionName drawn s s' mutation) :
    Known s.ruleIds s'.ruleIds fun place => (drawn.rules place).1 := by
  cases mutation with
  | createRule rule position =>
      obtain ⟨masking, hinserted, rfl⟩ := h
      refine known_of_items fun item hitem => ?_
      rcases hinserted.mem hitem with rfl | hold
      · exact Or.inr (Or.inr ⟨0, rfl⟩)
      · exact Or.inl ⟨item, hold, rfl⟩
  | replaceRule ruleId rule =>
      obtain ⟨masking, hreplaced, rfl⟩ := h
      exact known_of_items fun item hitem => Or.inl (hreplaced.mem hitem)
  | deleteRule ruleId =>
      obtain ⟨masking, hremoved, rfl⟩ := h
      exact known_of_items fun item hitem => Or.inl ⟨item, hremoved.mem hitem, rfl⟩
  | reorderRules ruleIds =>
      obtain ⟨masking, hperm, -, rfl⟩ := h
      exact known_of_items fun item hitem => Or.inl ⟨item, hperm.mem_iff.mp hitem, rfl⟩
  | createException item =>
      obtain ⟨exceptions, -, rfl⟩ := h
      exact known_refl _ _
  | replaceException exceptionId item =>
      obtain ⟨exceptions, -, rfl⟩ := h
      exact known_refl _ _
  | deleteException exceptionId =>
      obtain ⟨exceptions, -, rfl⟩ := h
      exact known_refl _ _
  | replaceDatabase database =>
      rw [show s' = _ from h]
      exact known_refl _ _
  | replaceSql sql =>
      obtain ⟨-, denied, -, rfl⟩ := h
      exact known_refl _ _
  | replaceConfig config =>
      obtain ⟨-, -, hrules, -⟩ := h
      refine known_of_items fun rule hrule => ?_
      obtain ⟨entry, -, id, hresolved, rfl⟩ := exists_of_mem_forall₂ hrules hrule
      rcases hresolved with ⟨-, hmem⟩ | ⟨-, rfl⟩
      · exact Or.inr (Or.inl ⟨id, hmem, rfl⟩)
      · exact Or.inr (Or.inr ⟨entry.2, rfl⟩)

/-- So do the exceptions. -/
theorem known_exceptions {s s' : Document} {mutation : Mutation}
    (h : Does canonicalFunctionName drawn s s' mutation) :
    Known s.exceptionIds s'.exceptionIds fun place => (drawn.exceptions place).1 := by
  cases mutation with
  | createRule rule position =>
      obtain ⟨masking, -, rfl⟩ := h
      exact known_refl _ _
  | replaceRule ruleId rule =>
      obtain ⟨masking, -, rfl⟩ := h
      exact known_refl _ _
  | deleteRule ruleId =>
      obtain ⟨masking, -, rfl⟩ := h
      exact known_refl _ _
  | reorderRules ruleIds =>
      obtain ⟨masking, -, -, rfl⟩ := h
      exact known_refl _ _
  | createException item =>
      obtain ⟨exceptions, hinserted, rfl⟩ := h
      refine known_of_items fun other hother => ?_
      rcases hinserted.mem hother with rfl | hold
      · exact Or.inr (Or.inr ⟨0, rfl⟩)
      · exact Or.inl ⟨other, hold, rfl⟩
  | replaceException exceptionId item =>
      obtain ⟨exceptions, hreplaced, rfl⟩ := h
      exact known_of_items fun other hother => Or.inl (hreplaced.mem hother)
  | deleteException exceptionId =>
      obtain ⟨exceptions, hremoved, rfl⟩ := h
      exact known_of_items fun other hother => Or.inl ⟨other, hremoved.mem hother, rfl⟩
  | replaceDatabase database =>
      rw [show s' = _ from h]
      exact known_refl _ _
  | replaceSql sql =>
      obtain ⟨-, denied, -, rfl⟩ := h
      exact known_refl _ _
  | replaceConfig config =>
      obtain ⟨-, -, -, hexceptions, -⟩ := h
      refine known_of_items fun item hitem => ?_
      obtain ⟨entry, -, id, hresolved, rfl⟩ := exists_of_mem_forall₂ hexceptions hitem
      rcases hresolved with ⟨-, hmem⟩ | ⟨-, rfl⟩
      · exact Or.inr (Or.inl ⟨id, hmem, rfl⟩)
      · exact Or.inr (Or.inr ⟨entry.2, rfl⟩)

/-- No mutation changes `allowed_pg_functions`. -/
theorem allowed_same {s s' : Document} {mutation : Mutation}
    (h : Does canonicalFunctionName drawn s s' mutation) :
    s'.sql.allowedPgFunctions = s.sql.allowedPgFunctions := by
  cases mutation with
  | createRule | replaceRule | deleteRule | createException | replaceException | deleteException =>
      obtain ⟨_, -, rfl⟩ := h
      rfl
  | reorderRules ruleIds =>
      obtain ⟨masking, -, -, rfl⟩ := h
      rfl
  | replaceDatabase database =>
      rw [show s' = _ from h]
  | replaceSql sql =>
      obtain ⟨-, denied, -, rfl⟩ := h
      rfl
  | replaceConfig config =>
      obtain ⟨-, -, -, -, -, hsql⟩ := h
      rw [hsql]

/-! ### Reordering -/

/-- A document whose rules are in another order is as valid. -/
theorem valid_of_perm {s : Document} {masking : List RuleConfig} (hvalid : s.valid = true)
    (hs : Adopted s) (hperm : masking.Perm s.masking) :
    { s with revision := s.revision + 1, masking }.valid = true := by
  simp only [Document.valid, Document.adoptedRequiresIds, Bool.and_eq_true, Bool.or_eq_true,
    List.all_eq_true, decide_eq_true_eq] at hvalid ⊢
  obtain ⟨⟨⟨hrules, hexceptions⟩, hdatabase⟩, hids⟩ := hvalid
  refine ⟨⟨⟨fun rule hrule => hrules rule (hperm.mem_iff.mp hrule), hexceptions⟩, hdatabase⟩,
    Or.inr ⟨⟨⟨fun rule hrule => hs.named rule (hperm.mem_iff.mp hrule), hs.namedExceptions⟩, ?_⟩,
      hs.exceptionIds⟩⟩
  have hids' : (masking.filterMap RuleConfig.id).Perm s.ruleIds := hperm.filterMap RuleConfig.id
  exact hids'.nodup_iff.mpr hs.ruleIds

/-- **A reorder is accepted just when the ids are a permutation of those that are there.** -/
theorem reorder_isSome_iff {s : MaskingFileConfig} (hadopted : s.1.adopted)
    (ruleIds : List RuleId) :
    (step canonicalFunctionName s (.reorderRules ruleIds, drawn)).isSome ↔
      (ruleIds.map (·.1)).Perm s.1.ruleIds := by
  have hs := adopted_of_valid s.2 hadopted
  constructor
  · intro h
    obtain ⟨s', hstep⟩ := Option.isSome_iff_exists.mp h
    obtain ⟨⟨masking, hperm, hids, -⟩, -⟩ := step_does hadopted hstep
    have hsame : (ruleIds.map (·.1)).map some = masking.map (·.id) := by
      rw [hids, List.map_map]
      rfl
    have hmapped : ((ruleIds.map (·.1)).map some).Perm (s.1.ruleIds.map some) := by
      rw [hsame, Document.ruleIds, ← map_id_eq hs.named]
      exact hperm.map RuleConfig.id
    exact (List.map_perm_map_iff fun _ _ => Option.some.inj).mp hmapped
  · intro hperm
    obtain ⟨masking, hok, hrules, -⟩ := reorder_ok hs hperm
    have hvalid := valid_of_perm s.2 hs hrules
    have hnext : nextDocument canonicalFunctionName drawn (.reorderRules ruleIds) s =
        .ok ⟨{ s.1 with revision := s.1.revision + 1, masking }, hvalid⟩ := by
      simp only [nextDocument, Mutation.propose, bind_eq_ok]
      refine ⟨_, hok, ?_⟩
      rw [show validateFileConfig { s.1 with revision := s.1.revision + 1, masking } = some _ from
        dif_pos hvalid]
      rfl
    rw [step, hnext]
    rfl

/-! ### Runs -/

/-- What is drawn along a run. -/
def DrawnBy (events : List (Mutation × Drawn)) (draw : Drawn → Nat → Name) (id : Name) : Prop :=
  ∃ event ∈ events, ∃ place, id = draw event.2 place

/-- What holds of a document that mutations have led to. -/
structure Kept (start : Document) (events : List (Mutation × Drawn)) (s : Document) : Prop where
  adopted : s.adopted
  rules : ∀ id ∈ s.ruleIds, id ∈ start.ruleIds ∨
    DrawnBy events (fun drawn place => (drawn.rules place).1) id
  exceptions : ∀ id ∈ s.exceptionIds, id ∈ start.exceptionIds ∨
    DrawnBy events (fun drawn place => (drawn.exceptions place).1) id
  allowed : s.sql.allowedPgFunctions = start.sql.allowedPgFunctions

theorem kept_run {events : List (Mutation × Drawn)} : ∀ {start s : MaskingFileConfig},
    start.1.adopted → run (step canonicalFunctionName) start events = some s →
    Kept start.1 events s.1 := by
  induction events with
  | nil =>
      intro start s hadopted hrun
      rw [← Option.some.inj hrun]
      exact ⟨hadopted, fun id hid => Or.inl hid, fun id hid => Or.inl hid, rfl⟩
  | cons event rest ih =>
      intro start s hadopted hrun
      obtain ⟨s₁, hstep, hrest⟩ := run_cons_eq_some.mp hrun
      obtain ⟨hdoes, hrevision⟩ := step_does hadopted hstep
      have hadopted₁ : s₁.1.adopted := by
        rw [Document.adopted, hrevision]
        exact Nat.succ_ne_zero _
      have hkept := ih hadopted₁ hrest
      -- an id of the end was there after the first mutation, or was drawn later
      have hknown : ∀ {ids ids₁ : List Name} {draw : Drawn → Nat → Name} {id : Name},
          Known ids ids₁ (draw event.2) → id ∈ ids₁ ∨ DrawnBy rest draw id →
          id ∈ ids ∨ DrawnBy (event :: rest) draw id := by
        rintro ids ids₁ draw id hids (hmem | ⟨later, hlater, place, hplace⟩)
        · rcases hids id hmem with hold | ⟨place, hplace⟩
          · exact Or.inl hold
          · exact Or.inr ⟨event, List.mem_cons_self, place, hplace⟩
        · exact Or.inr ⟨later, List.mem_cons_of_mem _ hlater, place, hplace⟩
      exact ⟨hkept.adopted, fun id hid => hknown (known_rules hdoes) (hkept.rules id hid),
        fun id hid => hknown (known_exceptions hdoes) (hkept.exceptions id hid),
        hkept.allowed.trans (allowed_same hdoes)⟩

/-- What is promised of every document that mutations lead to. -/
structure Promised (canonicalFunctionName : Name → Name) (start : Document)
    (events : List (Mutation × Drawn)) (s : MaskingFileConfig) : Prop
    extends Kept start events s.1 where
  /-- Every item has an id, and no two have the same. -/
  distinct : (s.1.masking.map (·.id)).Nodup ∧ (s.1.exceptions.map (·.id)).Nodup
  named : (∀ rule ∈ s.1.masking, rule.id.isSome) ∧ ∀ item ∈ s.1.exceptions, item.id.isSome
  /-- The next mutation that is accepted does what it was asked for, with ids that are known. -/
  next : ∀ (mutation : Mutation) (drawn : Drawn) (s' : MaskingFileConfig),
    step canonicalFunctionName s (mutation, drawn) = some s' →
    Does canonicalFunctionName drawn s.1 s'.1 mutation ∧
    Known s.1.ruleIds s'.1.ruleIds (fun place => (drawn.rules place).1) ∧
    Known s.1.exceptionIds s'.1.exceptionIds fun place => (drawn.exceptions place).1
  /-- A reorder is accepted just when it names every rule once. -/
  reorder : ∀ (ruleIds : List RuleId) (drawn : Drawn),
    (step canonicalFunctionName s (.reorderRules ruleIds, drawn)).isSome ↔
      (ruleIds.map (·.1)).Perm s.1.ruleIds

/-- **Mutations preserve the document.** From any adopted document, over any accepted mutations. -/
theorem mutations_preserve_document {start s : MaskingFileConfig}
    {events : List (Mutation × Drawn)} (hadopted : start.1.adopted)
    (hrun : run (step canonicalFunctionName) start events = some s) :
    Promised canonicalFunctionName start.1 events s := by
  have hkept := kept_run hadopted hrun
  have hs := adopted_of_valid s.2 hkept.adopted
  refine { toKept := hkept, distinct := ⟨hs.rules, hs.exceptions⟩
           named := ⟨hs.named, hs.namedExceptions⟩, next := ?_
           reorder := fun ruleIds drawn => reorder_isSome_iff hkept.adopted ruleIds }
  intro mutation drawn s' hstep
  have hdoes := (step_does hkept.adopted hstep).1
  exact ⟨hdoes, known_rules hdoes, known_exceptions hdoes⟩

end

/-! ### A document with two rules -/

/-- A rule id that ends in the digit given. -/
def digitRule (digit : Char) : Name := "rul_".toList ++ List.replicate 31 '0' ++ [digit]

/-- Two rules, one exception, and two names that are denied. -/
def twoRules : MaskingFileConfig :=
  ⟨{ revision := 1
     masking := [{ match_ := "cpf".toList, transformer := "sha256".toList
                   id := some (digitRule '1') },
                 { match_ := "email".toList, transformer := "fixed".toList
                   config := [("value".toList, .str "x".toList)], id := some (digitRule '2') }]
     exceptions := [{ match_ := "id".toList
                      id := some ("exc_".toList ++ List.replicate 32 'a') }]
     sql := { allowedPgFunctions := ["now".toList]
              deniedFunctions := ["f".toList, "g".toList] } }, by decide +kernel⟩

/-- The same id whenever one is drawn. -/
def drawnNine : Drawn where
  rules _ := ⟨digitRule '9', by decide +kernel⟩
  exceptions _ := ⟨"exc_".toList ++ List.replicate 32 'b', by decide +kernel⟩

/-- A rule comes in between the two, the rules change places, and a name is denied twice. -/
def twoRulesEvents : List (Mutation × Drawn) :=
  [(.createRule ⟨"phone".toList, .contains, false, "sha256".toList, [], by decide, by decide⟩
      (some 1), drawnNine),
   (.reorderRules [⟨digitRule '2', by decide +kernel⟩, ⟨digitRule '9', by decide +kernel⟩,
      ⟨digitRule '1', by decide +kernel⟩], drawnNine),
   (.replaceSql { deniedFunctions := ["g".toList, "h".toList, "h".toList] }, drawnNine)]

/-- The mutations are accepted, and the document is as promised. -/
theorem mutations_preserve_two_rules : ∃ s, run (step id) twoRules twoRulesEvents = some s ∧
    s.1.ruleIds = [digitRule '2', digitRule '9', digitRule '1'] ∧
    s.1.sql.deniedFunctions = ["f".toList, "g".toList, "h".toList] ∧
    Promised id twoRules.1 twoRulesEvents s := by
  have hrun : ∃ s, run (step id) twoRules twoRulesEvents = some s ∧
      s.1.ruleIds = [digitRule '2', digitRule '9', digitRule '1'] ∧
      s.1.sql.deniedFunctions = ["f".toList, "g".toList, "h".toList] := ⟨_, rfl, rfl, rfl⟩
  obtain ⟨s, hrun, hids, hdenied⟩ := hrun
  exact ⟨s, hrun, hids, hdenied, mutations_preserve_document Nat.one_ne_zero hrun⟩

end MaskGateway.Proofs.Admin
