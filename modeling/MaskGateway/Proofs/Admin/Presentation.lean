import MaskGateway.Proofs.Admin.PresentationGraph

/-!
# `MaskGateway.Proofs.Admin.Presentation`: what an accepted graph is good for

Where `_graph` accepts the models, every definition has a height (`Sound`), and every reference goes
to a lower one. The height bounds the loops over nullable shapes (`unwrap_of_height`), a path of
fields (`walk_spec`) and the recursion of `_leaves` (`leaves_spec`).

The paths of `_leaves` are read by `_path` the way they were written, so `_pages` compares paths of one
kind (`checkPage_spec`). `presentation_graph` puts the parts together.
-/

set_option autoImplicit false

namespace MaskGateway.Proofs.Presentation

open MaskGateway.Lib
open MaskGateway.Admin.Presentation

/-- The references of the models. -/
def edgesOf (models : Models) : Edges := models.map fun (key, shape) => (key, shape.refs)

/-- The height of a definition. -/
abbrev HeightOf (models : Models) (key : Name) (height : Nat) : Prop :=
  IsHeight (follow (edgesOf models)) key height

/-- Models that refer to each other as they should. -/
structure Sound (models : Models) : Prop where
  defined : ∀ {key shape}, models.lookup key = some shape →
    ∀ ref ∈ shape.refs, ∃ shape', models.lookup ref = some shape'
  height : ∀ {key shape}, models.lookup key = some shape →
    ∃ height ≤ maxDepth, HeightOf models key height
  checked : ∀ {key shape}, models.lookup key = some shape → checkShape shape = .ok ()

section

variable {models : Models} {rounds : Nat}

/-- The references of a definition. -/
theorem lookup_edgesOf (key : Name) :
    (edgesOf models).lookup key = (models.lookup key).map Shape.refs := by
  induction models with
  | nil => rfl
  | cons definition models ih =>
    rw [edgesOf, List.map_cons, List.lookup_cons, List.lookup_cons]
    cases hkey : key == definition.1 with
    | true => rfl
    | false => exact ih

/-- What follows a definition. -/
theorem follow_edgesOf {key : Name} {shape : Shape} (h : models.lookup key = some shape) :
    follow (edgesOf models) key = shape.refs := by
  rw [follow, lookup_edgesOf, h]
  rfl

/-- The first part of `_graph`. -/
theorem mapM_refs {edges : Edges}
    (h : models.mapM (fun (key, shape) => do return (key, ← refs shape)) = .ok edges) :
    edges = edgesOf models ∧ ∀ definition ∈ models, checkShape definition.2 = .ok () := by
  induction models generalizing edges with
  | nil =>
    obtain rfl := Except.ok.inj h
    exact ⟨rfl, by simp⟩
  | cons definition models ih =>
    simp only [List.mapM_cons, bind_eq_ok, pure_eq_ok, refs] at h
    obtain ⟨-, ⟨-, ⟨⟨⟩, hcheck, rfl⟩, rfl⟩, rest, hrest, rfl⟩ := h
    obtain ⟨rfl, hall⟩ := ih (by simpa only [refs] using hrest)
    exact ⟨rfl, List.forall_mem_cons.mpr ⟨hcheck, hall⟩⟩

/-- What is found is in the list. -/
theorem mem_of_lookup {key : Name} {shape : Shape} (h : models.lookup key = some shape) :
    (key, shape) ∈ models := by
  obtain ⟨before, after, rfl, -⟩ := List.lookup_eq_some_iff.mp h
  simp

/-- Models that the references of `_graph` accept. -/
theorem sound_of_references (hedges : references (edgesOf models) = .ok ())
    (hchecked : ∀ definition ∈ models, checkShape definition.2 = .ok ()) : Sound models := by
  obtain ⟨hdefined, -, hbounded⟩ := references_iff.mp hedges
  have hpresent : ∀ {key}, Present (edgesOf models) key → ∃ shape, models.lookup key = some shape := by
    intro key h
    rw [Present, lookup_edgesOf, Option.isSome_map] at h
    exact Option.isSome_iff_exists.mp h
  refine ⟨fun h ref href => ?_, fun {key shape} h => ?_, fun h => hchecked _ (mem_of_lookup h)⟩
  · exact hpresent (hdefined _ ref (by rwa [follow_edgesOf h]))
  · have hkey : Present (edgesOf models) key := by
      rw [Present, lookup_edgesOf, h]
      rfl
    obtain ⟨height, hvisited⟩ := visited_of_references hedges hkey
    exact ⟨height, hvisited.le, hvisited.isHeight⟩

/-- Models that `_graph` accepts. -/
theorem sound_of_graph (h : graph models rounds = .ok ()) : Sound models := by
  simp only [graph, bind_eq_ok] at h
  obtain ⟨edges, hedges, ⟨⟩, hreferences, -⟩ := h
  obtain ⟨rfl, hchecked⟩ := mapM_refs hedges
  exact sound_of_references hreferences hchecked

/-! ### Nullable shapes -/

namespace Sound

/-- A reference goes to a lower definition. -/
theorem lower (h : Sound models) {key ref : Name} {shape : Shape} {height : Nat}
    (hkey : models.lookup key = some shape) (href : ref ∈ shape.refs)
    (hheight : HeightOf models key height) :
    ∃ shape' height', models.lookup ref = some shape' ∧ HeightOf models ref height' ∧
      height' < height := by
  obtain ⟨shape', hshape'⟩ := h.defined hkey ref href
  obtain ⟨height', -, hheight'⟩ := h.height hshape'
  refine ⟨shape', height', hshape', hheight', hheight.lt hheight' ?_⟩
  rwa [Follows, follow_edgesOf hkey]

end Sound

/-- A shape that is not nullable. -/
def Bare : Shape → Prop
  | .nullable _ => False
  | _ => True

/-- A shape is nullable or bare. -/
theorem nullable_or_bare (shape : Shape) : (∃ item, shape = .nullable item) ∨ Bare shape := by
  cases shape with
  | nullable item => exact .inl ⟨item, rfl⟩
  | text | integer | boolean | choice | object | list | union => exact .inr trivial

/-- A bare shape is unwrapped already. -/
theorem unwrap_of_bare {shape : Shape} (h : Bare shape) (rounds : Nat) :
    unwrap models rounds shape = .ok shape := by
  cases shape with
  | nullable item => exact h.elim
  | text | integer | boolean | choice | object | list | union => rw [unwrap]; simp

/-- What unwrapping a definition comes to: a bare shape, that of a definition no higher. -/
def UnwrapsTo (models : Models) (rounds : Nat) (shape : Shape) (height : Nat) : Prop :=
  ∃ bare, unwrap models rounds shape = .ok bare ∧ Bare bare ∧
    ∃ key' height', models.lookup key' = some bare ∧ HeightOf models key' height' ∧ height' ≤ height

/-- A definition is unwrapped in as many rounds as it is high. -/
theorem unwrap_of_height (h : Sound models) {key : Name} {shape : Shape} {height : Nat}
    (hkey : models.lookup key = some shape) (hheight : HeightOf models key height)
    (hle : height ≤ rounds + 1) : UnwrapsTo models rounds shape height := by
  have hbare (rounds : Nat) {key : Name} {shape : Shape} {height : Nat}
      (hkey : models.lookup key = some shape) (hheight : HeightOf models key height)
      (hb : Bare shape) : UnwrapsTo models rounds shape height :=
    ⟨shape, unwrap_of_bare hb rounds, hb, key, height, hkey, hheight, Nat.le_refl _⟩
  induction rounds generalizing key shape height with
  | zero =>
    rcases nullable_or_bare shape with ⟨item, rfl⟩ | hb
    · -- a reference is lower than one
      obtain ⟨-, height', -, hheight', hlt⟩ := h.lower hkey List.mem_cons_self hheight
      have := hheight'.pos
      omega
    · exact hbare 0 hkey hheight hb
  | succ rounds ih =>
    rcases nullable_or_bare shape with ⟨item, rfl⟩ | hb
    · obtain ⟨shape', height', hitem, hheight', hlt⟩ := h.lower hkey List.mem_cons_self hheight
      obtain ⟨bare, hunwrap, hb, key', height'', hkey', hheight'', hle'⟩ :=
        ih hitem hheight' (by omega)
      refine ⟨bare, ?_, hb, key', height'', hkey', hheight'', by omega⟩
      rw [unwrap, Models.shape, hitem]
      exact hunwrap
    · exact hbare (rounds + 1) hkey hheight hb

/-- More rounds do not change what was found. -/
theorem unwrap_mono {rounds' : Nat} (hle : rounds ≤ rounds') {shape bare : Shape}
    (h : unwrap models rounds shape = .ok bare) : unwrap models rounds' shape = .ok bare := by
  induction rounds generalizing rounds' shape with
  | zero =>
    rcases nullable_or_bare shape with ⟨item, rfl⟩ | hb
    · exact nomatch h
    · rw [unwrap_of_bare hb] at h ⊢
      exact h
  | succ rounds ih =>
    rcases nullable_or_bare shape with ⟨item, rfl⟩ | hb
    · obtain ⟨more, rfl⟩ : ∃ more, rounds' = more + 1 := ⟨rounds' - 1, by omega⟩
      rw [unwrap] at h ⊢
      simp only [bind_eq_ok] at h ⊢
      obtain ⟨shape', hshape', h⟩ := h
      exact ⟨shape', hshape', ih (by omega) h⟩
    · rw [unwrap_of_bare hb] at h ⊢
      exact h

/-! ### Nothing is left unfinished -/

/-- A run that ended. -/
def Ends {β : Type} (x : Except Failure β) : Prop := x ≠ .error .unfinished

/-- A run that ended well. -/
theorem ends_ok {β : Type} (b : β) : Ends (.ok b : Except Failure β) := fun h => nomatch h

/-- A sequence of runs. -/
theorem ends_bind {β γ : Type} {x : Except Failure β} {f : β → Except Failure γ} (hx : Ends x)
    (hf : ∀ b, x = .ok b → Ends (f b)) : Ends (x >>= f) := by
  cases x with
  | error e => exact fun h => hx (congrArg Except.error (Except.error.inj h))
  | ok b => exact hf b rfl

/-- A check. -/
theorem ends_need (condition : Bool) : Ends (need condition) := by
  cases condition <;> exact fun h => nomatch h

/-- A loop over a list. -/
theorem ends_forM {β : Type} {f : β → Except Failure Unit} {l : List β} (h : ∀ b ∈ l, Ends (f b)) :
    Ends (l.forM f) := by
  induction l with
  | nil => exact ends_ok ()
  | cons b l ih =>
    exact ends_bind (h b List.mem_cons_self) fun _ _ => ih fun b hb => h b (List.mem_cons_of_mem _ hb)

/-- A loop that keeps a value. -/
theorem ends_foldlM {β γ : Type} {f : γ → β → Except Failure γ} {l : List β}
    (h : ∀ c b, Ends (f c b)) (c : γ) : Ends (l.foldlM f c) := by
  induction l generalizing c with
  | nil => exact ends_ok c
  | cons b l ih => exact ends_bind (h c b) fun c' _ => ih c'

/-- A loop that collects. -/
theorem ends_mapM {β γ : Type} {f : β → Except Failure γ} {l : List β} (h : ∀ b ∈ l, Ends (f b)) :
    Ends (l.mapM f) := by
  induction l with
  | nil => exact ends_ok []
  | cons b l ih =>
    rw [List.mapM_cons]
    exact ends_bind (h b List.mem_cons_self) fun _ _ =>
      ends_bind (ih fun b hb => h b (List.mem_cons_of_mem _ hb)) fun _ _ => ends_ok _

/-- `models[key].shape`. -/
theorem shape_eq_ok {key : Name} {shape : Shape} :
    models.shape key = .ok shape ↔ models.lookup key = some shape := by
  rw [Models.shape]
  cases models.lookup key with
  | none => simp
  | some found => simp

theorem ends_shape (key : Name) : Ends (models.shape key) := by
  rw [Models.shape]
  split <;> exact fun h => nomatch h

/-- The loop over nullable shapes, from a definition. -/
theorem ends_unwrap (h : Sound models) (hrounds : maxDepth ≤ rounds + 1) {key : Name} {shape : Shape}
    (hkey : models.shape key = .ok shape) : Ends (unwrap models rounds shape) := by
  rw [shape_eq_ok] at hkey
  obtain ⟨height, hle, hheight⟩ := h.height hkey
  obtain ⟨bare, hunwrap, -⟩ := unwrap_of_height h hkey hheight (Nat.le_trans hle hrounds)
  rw [hunwrap]
  exact ends_ok bare

/-- The loop over nullable shapes, from any shape. -/
theorem ends_unwrap_any (h : Sound models) (hrounds : maxDepth ≤ rounds) (shape : Shape) :
    Ends (unwrap models rounds shape) := by
  rcases nullable_or_bare shape with ⟨item, rfl⟩ | hb
  · obtain ⟨more, rfl⟩ : ∃ more, rounds = more + 1 :=
      ⟨rounds - 1, by rw [maxDepth] at hrounds; omega⟩
    rw [unwrap]
    exact ends_bind (ends_shape item) fun shape hshape => ends_unwrap h hrounds hshape
  · rw [unwrap_of_bare hb]
    exact ends_ok shape

/-- `_default`. -/
theorem ends_default (h : Sound models) (hrounds : maxDepth ≤ rounds) (value : Scalar)
    (shape : Shape) : Ends (default_ models rounds value shape) := by
  have hneed : ∀ condition, Ends (need condition) := ends_need
  unfold default_
  split
  · exact ends_ok ()
  · refine ends_bind (ends_unwrap_any h hrounds shape) fun bare _ => ?_
    cases bare with
    | boolean => cases value <;> first | exact ends_ok () | exact hneed _
    | integer => cases value <;> exact hneed _
    | text =>
      cases value <;> first | exact ends_bind (hneed _) fun _ _ => hneed _ | exact hneed _
    | choice | object | list | nullable | union => exact hneed _

/-- `fields` of one name. -/
theorem ends_field (fields : List FieldLink) (name : Name) : Ends (field fields name) := by
  rw [field]
  split <;> exact fun h => nomatch h

/-- One part of a path. -/
theorem ends_pathPart (h : Sound models) (hrounds : maxDepth ≤ rounds) (model : Name)
    (part : Segment) : Ends (pathPart models rounds model part) := by
  rw [pathPart]
  refine ends_bind (ends_shape model) fun shape hshape =>
    ends_bind (ends_unwrap h (Nat.le_succ_of_le hrounds) hshape) fun bare _ => ?_
  split
  · exact ends_field _ _
  · exact ends_ok _
  · exact fun h => nomatch h

/-- `_path`. -/
theorem ends_path (h : Sound models) (hrounds : maxDepth ≤ rounds) (model : Name)
    (parts : List Segment) : Ends (path models rounds model parts) := by
  rw [path, segments]
  refine ends_bind (ends_bind (ends_need _) fun _ _ => ends_forM fun part _ => ?_) fun _ _ =>
    ends_bind (ends_need _) fun _ _ =>
      ends_bind (ends_foldlM (ends_pathPart h hrounds) model) fun model _ => ends_shape model
  cases part <;> exact ends_need _

/-- The loop of `_ref` is the one of `_path`, with the model that it started from. -/
theorem unwrapModel_eq (model : Name) :
    unwrapModel models rounds model = models.shape model >>= unwrap models rounds := by
  induction rounds generalizing model with
  | zero =>
    rw [unwrapModel]
    cases models.shape model with
    | error e => rfl
    | ok shape => cases shape <;> rfl
  | succ rounds ih =>
    rw [unwrapModel]
    cases models.shape model with
    | error e => rfl
    | ok shape =>
      rcases nullable_or_bare shape with ⟨item, rfl⟩ | hb
      · exact ih item
      · show _ = unwrap models (rounds + 1) shape
        rw [unwrap_of_bare hb]
        cases shape with
        | nullable item => exact hb.elim
        | text | integer | boolean | choice | object | list | union => rfl

/-- A part of a path that `_ref` goes is one that `_path` goes. -/
theorem pathPart_of_refPart {model part model' : Name}
    (h : refPart models rounds model part = .ok model') :
    pathPart models rounds model (.name part) = .ok model' := by
  rw [refPart, unwrapModel_eq] at h
  simp only [pathPart, bind_eq_ok] at h ⊢
  obtain ⟨bare, ⟨shape, hshape, hunwrap⟩, hfield⟩ := h
  refine ⟨shape, hshape, bare, hunwrap, ?_⟩
  cases bare with
  | object fields => exact hfield
  | text | integer | boolean | choice | list | nullable | union => cases hfield

/-- `_ref`. -/
theorem ends_ref (h : Sound models) (hrounds : maxDepth ≤ rounds) (model : Name)
    (parts : List Name) : Ends (ref models rounds model parts) := by
  refine ends_foldlM (fun model part => ?_) model
  rw [refPart, unwrapModel_eq]
  refine ends_bind (ends_bind (ends_shape model) fun shape hshape =>
    ends_unwrap h (Nat.le_succ_of_le hrounds) hshape) fun bare _ => ?_
  split
  · exact ends_field _ _
  · exact fun h => by cases h

/-! ### Leaves -/

/-- `_leaves` ends from a definition in as many rounds as it is high. -/
theorem ends_leaves_of_height (h : Sound models) {key : Name} {shape : Shape} {height : Nat}
    (hkey : models.lookup key = some shape) (hheight : HeightOf models key height)
    (hle : height ≤ rounds) (parts : List Name) : Ends (leaves models rounds key parts) := by
  induction rounds generalizing key shape height parts with
  | zero =>
    have := hheight.pos
    omega
  | succ rounds ih =>
    obtain ⟨bare, hunwrap, -, key', height', hkey', hheight', hle'⟩ :=
      unwrap_of_height h hkey hheight hle
    rw [leaves, Models.shape, hkey]
    show Ends (unwrap models rounds shape >>= _)
    rw [hunwrap]
    cases bare with
    | object fields =>
      show Ends ((fields.mapM fun field => leaves models rounds field.ref (parts ++ [field.name])) >>= _)
      refine ends_bind (ends_mapM fun link hlink => ?_) fun _ _ => ends_ok _
      obtain ⟨shape'', height'', hlower, hheight'', hlt⟩ :=
        h.lower hkey' (List.mem_map_of_mem hlink) hheight'
      exact ih hlower hheight'' (by omega) _
    | text | integer | boolean | choice | list | nullable | union => exact ends_ok _

/-- `_leaves`. -/
theorem ends_leaves (h : Sound models) (hrounds : maxDepth ≤ rounds) (key : Name)
    (parts : List Name) : Ends (leaves models rounds key parts) := by
  cases hkey : models.lookup key with
  | none =>
    obtain ⟨more, rfl⟩ : ∃ more, rounds = more + 1 :=
      ⟨rounds - 1, by rw [maxDepth] at hrounds; omega⟩
    rw [leaves, Models.shape, hkey]
    exact fun h => by cases h
  | some shape =>
    obtain ⟨height, hle, hheight⟩ := h.height hkey
    exact ends_leaves_of_height h hkey hheight (Nat.le_trans hle hrounds) parts

/-! ### `_graph` -/

/-- The checks of a shape. -/
theorem ends_checkShape (shape : Shape) : Ends (checkShape shape) := by
  cases shape with
  | object | union => exact ends_bind (ends_need _) fun _ _ => ends_need _
  | text | integer | choice => exact ends_need _
  | list | nullable | boolean => exact ends_ok ()

/-- `visit` refuses or goes on. -/
theorem ends_visit (edges : Edges) (room : Nat) (key : Name) (ancestors : List Name)
    (heights : Heights) : Ends (visit edges room key ancestors heights) := by
  induction room generalizing key ancestors heights with
  | zero => exact fun h => by cases h
  | succ room ih =>
    rw [visit]
    split
    · exact fun h => by cases h
    · split
      · exact fun h => by cases h
      · split
        · exact ends_ok _
        · refine ends_bind (ends_foldlM (fun state ref => ?_) _) fun state _ =>
            ends_bind (ends_need _) fun _ _ => ends_ok _
          exact ends_bind (ih ref _ state.2) fun _ _ => ends_ok _

/-- A definition of a union. -/
theorem ends_checkVariant (tag : Name) (variant : Variant) :
    Ends (checkVariant models tag variant) := by
  refine ends_bind (ends_shape _) fun shape _ => ?_
  split
  · split
    · refine ends_bind (ends_shape _) fun shape _ => ?_
      split <;> exact ends_need _
    · exact ends_need _
  · exact ends_need _

/-- `_graph`. -/
theorem ends_graph (hrounds : maxDepth ≤ rounds) : Ends (graph models rounds) := by
  refine ends_bind (ends_mapM fun definition _ => ?_) fun edges hedges => ?_
  · exact ends_bind (ends_bind (ends_checkShape _) fun _ _ => ends_ok _) fun _ _ => ends_ok _
  · obtain ⟨rfl, hchecked⟩ := mapM_refs hedges
    refine ends_bind ?_ fun _ hreferences => ends_forM fun definition _ => ?_
    · refine ends_bind (ends_foldlM (fun heights definition => ?_) _) fun _ _ => ends_ok _
      exact ends_bind (ends_visit _ _ _ _ _) fun _ _ => ends_ok _
    · have hsound := sound_of_references hreferences hchecked
      obtain ⟨key, shape⟩ := definition
      cases shape with
      | object fields =>
        exact ends_forM fun link _ => ends_bind (ends_shape _) fun _ _ =>
          ends_default hsound hrounds _ _
      | union tag variants => exact ends_forM fun variant _ => ends_checkVariant tag variant
      | text | integer | boolean | choice | list | nullable => exact ends_ok ()

/-! ### Paths -/

/-- What was unwrapped is the shape of a definition. -/
theorem definition_of_unwrap {key : Name} {shape bare : Shape} (hkey : models.lookup key = some shape)
    (h : unwrap models rounds shape = .ok bare) : ∃ key', models.lookup key' = some bare := by
  induction rounds generalizing key shape with
  | zero =>
    rcases nullable_or_bare shape with ⟨item, rfl⟩ | hb
    · exact nomatch h
    · rw [unwrap_of_bare hb] at h
      exact ⟨key, Except.ok.inj h ▸ hkey⟩
  | succ rounds ih =>
    rcases nullable_or_bare shape with ⟨item, rfl⟩ | hb
    · rw [unwrap] at h
      simp only [bind_eq_ok] at h
      obtain ⟨shape', hshape', h⟩ := h
      exact ih (shape_eq_ok.mp hshape') h
    · rw [unwrap_of_bare hb] at h
      exact ⟨key, Except.ok.inj h ▸ hkey⟩

/-- The names of the fields of an object, in an accepted map. -/
theorem fields_checked (h : Sound models) {key : Name} {fields : List FieldLink}
    (hkey : models.lookup key = some (.object fields)) :
    (fields.map (·.name)).Nodup ∧ ∀ link ∈ fields, link.name ≠ [] ∧ link.name ∉ forbidden := by
  have hchecked := h.checked hkey
  simp only [checkShape, bind_eq_ok, need_eq_ok, decide_eq_true_eq, List.all_eq_true] at hchecked
  obtain ⟨-, hnodup, hnames⟩ := hchecked
  exact ⟨hnodup, hnames⟩

/-- A field is found by its name. -/
theorem field_of_mem {fields : List FieldLink} {link : FieldLink}
    (hnodup : (fields.map (·.name)).Nodup) (hlink : link ∈ fields) :
    field fields link.name = .ok link.ref := by
  have hone : fields.filter (·.name == link.name) = [link] := by
    induction fields with
    | nil => exact nomatch hlink
    | cons first fields ih =>
      rw [List.map_cons, List.nodup_cons] at hnodup
      rcases List.mem_cons.mp hlink with rfl | hrest
      · have hnone : fields.filter (·.name == link.name) = [] := by
          rw [List.filter_eq_nil_iff]
          intro other hother heq
          exact hnodup.1 (List.mem_map.mpr ⟨other, hother, beq_iff_eq.mp heq⟩)
        simp only [List.filter_cons, beq_self_eq_true, if_true, hnone]
      · have hother : ¬ (first.name == link.name) = true := fun heq =>
          hnodup.1 (List.mem_map.mpr ⟨link, hrest, (beq_iff_eq.mp heq).symm⟩)
        simp only [List.filter_cons, if_neg hother, ih hnodup.2 hrest]
  rw [field, hone]

/-- What is found by a name is the reference of a field of that name. -/
theorem mem_of_field {fields : List FieldLink} {name target : Name}
    (h : field fields name = .ok target) :
    ∃ link ∈ fields, link.name = name ∧ link.ref = target := by
  rw [field] at h
  split at h
  next link hlink =>
    have hmem : link ∈ fields.filter (·.name == name) := hlink ▸ List.mem_singleton_self link
    obtain ⟨hfields, hname⟩ := List.mem_filter.mp hmem
    exact ⟨link, hfields, beq_iff_eq.mp hname, Except.ok.inj h⟩
  next => cases h

/-- A path of names goes down, through names that may stand in a path. -/
theorem walk_spec (h : Sound models) (hrounds : maxDepth ≤ rounds) {names : List Name}
    {key final : Name} {shape : Shape} {height : Nat} (hkey : models.lookup key = some shape)
    (hheight : HeightOf models key height)
    (hwalk : (names.map Segment.name).foldlM (pathPart models rounds) key = .ok final) :
    names.length < height ∧ (∃ shape', models.lookup final = some shape') ∧
      ∀ name ∈ names, name ≠ [] ∧ name ∉ forbidden := by
  induction names generalizing key shape height with
  | nil =>
    obtain rfl := Except.ok.inj hwalk
    exact ⟨hheight.pos, ⟨shape, hkey⟩, by simp⟩
  | cons name names ih =>
    simp only [List.map_cons, List.foldlM_cons, bind_eq_ok] at hwalk
    obtain ⟨next, hpart, hwalk⟩ := hwalk
    have hle : height ≤ rounds + 1 := by
      obtain ⟨height', hle, hheight'⟩ := h.height hkey
      rw [hheight.unique hheight']
      omega
    obtain ⟨bare, hunwrap, -, key', height', hkey', hheight', hlower⟩ :=
      unwrap_of_height h hkey hheight hle
    simp only [pathPart, bind_eq_ok, shape_eq_ok, hkey, Option.some_inj, exists_eq_left',
      hunwrap, Except.ok.injEq] at hpart
    cases bare with
    | object fields =>
      obtain ⟨link, hlink, rfl, rfl⟩ := mem_of_field hpart
      obtain ⟨shape'', height'', hnext, hheight'', hlt⟩ :=
        h.lower hkey' (List.mem_map_of_mem hlink) hheight'
      obtain ⟨hlen, hfinal, hnames⟩ := ih hnext hheight'' hwalk
      refine ⟨by rw [List.length_cons]; omega, hfinal, ?_⟩
      exact List.forall_mem_cons.mpr ⟨(fields_checked h hkey').2 link hlink, hnames⟩
    | text | integer | boolean | choice | list | nullable | union => cases hpart

/-- `_path` accepts a path of names that goes somewhere. -/
theorem path_of_walk (h : Sound models) (hrounds : maxDepth ≤ rounds) {names : List Name}
    {key final : Name} {shape : Shape} (hkey : models.lookup key = some shape)
    (hwalk : (names.map Segment.name).foldlM (pathPart models rounds) key = .ok final) :
    ∃ shape', path models rounds key (names.map .name) = .ok shape' := by
  obtain ⟨height, hle, hheight⟩ := h.height hkey
  obtain ⟨hlen, ⟨shape', hfinal⟩, hnames⟩ := walk_spec h hrounds hkey hheight hwalk
  refine ⟨shape', ?_⟩
  simp only [path, segments, bind_eq_ok, need_eq_ok, decide_eq_true_eq, List.length_map, hkey,
    Option.isSome_some]
  refine ⟨(), ⟨(), by omega, forM_eq_ok.mpr ?_⟩, (), trivial, final, hwalk, shape_eq_ok.mpr hfinal⟩
  intro part hpart
  obtain ⟨name, hname, rfl⟩ := List.mem_map.mp hpart
  rw [need_eq_ok, decide_eq_true_eq]
  exact hnames name hname

/-- What `_leaves` returns are paths that go somewhere. -/
theorem leaves_spec (h : Sound models) {inner : Nat} (hle : inner ≤ rounds) {key : Name}
    {parts : List Name} {found : List (List Name)}
    (hfound : leaves models inner key parts = .ok found) :
    (∃ shape, models.lookup key = some shape) ∧
      ∀ leaf ∈ found, ∃ rest final, leaf = parts ++ rest ∧
        (rest.map Segment.name).foldlM (pathPart models rounds) key = .ok final := by
  induction inner generalizing key parts found with
  | zero => cases hfound
  | succ inner ih =>
    simp only [leaves, bind_eq_ok, shape_eq_ok] at hfound
    obtain ⟨shape, hkey, bare, hunwrap, hfound⟩ := hfound
    refine ⟨⟨shape, hkey⟩, fun leaf hleaf => ?_⟩
    cases bare with
    | object fields =>
      simp only [bind_eq_ok, pure_eq_ok] at hfound
      obtain ⟨results, hresults, rfl⟩ := hfound
      obtain ⟨result, hresult, hleaf⟩ := List.mem_flatten.mp hleaf
      obtain ⟨link, hlink, hleaves⟩ := exists_of_mem_mapM hresults hresult
      obtain ⟨rest, final, rfl, hwalk⟩ := (ih (by omega) hleaves).2 leaf hleaf
      obtain ⟨key', hkey'⟩ := definition_of_unwrap hkey hunwrap
      have hpart : pathPart models rounds key (.name link.name) = .ok link.ref := by
        simp only [pathPart, bind_eq_ok, shape_eq_ok]
        exact ⟨shape, hkey, _, unwrap_mono (by omega) hunwrap,
          field_of_mem (fields_checked h hkey').1 hlink⟩
      refine ⟨link.name :: rest, final, by simp, ?_⟩
      rw [List.map_cons, List.foldlM_cons, hpart]
      exact hwalk
    | text | integer | boolean | choice | list | nullable | union =>
      obtain rfl := Except.ok.inj hfound
      exact ⟨[], key, by simpa using hleaf, rfl⟩

/-- What `_ref` walks, `_path` walks. -/
theorem walk_of_ref {names : List Name} {key model : Name}
    (h : ref models rounds key names = .ok model) :
    (names.map Segment.name).foldlM (pathPart models rounds) key = .ok model := by
  induction names generalizing key with
  | nil => exact h
  | cons name names ih =>
    simp only [ref, List.foldlM_cons, bind_eq_ok] at h
    obtain ⟨next, hpart, h⟩ := h
    rw [List.map_cons, List.foldlM_cons, pathPart_of_refPart hpart]
    exact ih h

/-! ### `_pages` -/

/-- What `_pages` has found out about a page that it accepts. -/
theorem checkPage_spec (h : Sound models) (hrounds : maxDepth ≤ rounds) {views : List View}
    {calls : List (Name × Name)} {page : Page}
    (hpage : checkPage models rounds views calls page = .ok ()) :
    ∃ view output, knownView views page.view = some view ∧ calls.lookup view.call = some output ∧
      (∀ root ∈ view.roots, ∃ model found, ref models rounds output root = .ok model ∧
        leaves models rounds model root = .ok found ∧
        ∀ leaf ∈ found, (∃ shape, path models rounds output (leaf.map .name) = .ok shape) ∧
          ∃ shown ∈ page.shown, shown <+: leaf) ∧
      ∀ shown ∈ page.shown, ∃ root ∈ view.roots, root <+: shown := by
  rw [checkPage] at hpage
  split at hpage
  · exact nomatch hpage
  next view hview =>
    split at hpage
    · exact nomatch hpage
    next output houtput =>
      simp only [bind_eq_ok, need_eq_ok] at hpage
      obtain ⟨-, -, -, -, -, hinside, hroots⟩ := hpage
      refine ⟨view, output, hview, houtput, fun root hroot => ?_, fun shown hshown => ?_⟩
      · have hchecked := forM_eq_ok.mp hroots root hroot
        simp only [bind_eq_ok, need_eq_ok, List.all_eq_true, List.any_eq_true] at hchecked
        obtain ⟨model, hmodel, found, hfound, hcovered⟩ := hchecked
        refine ⟨model, found, hmodel, hfound, fun leaf hleaf => ?_⟩
        obtain ⟨shown, hshown, hprefix⟩ := hcovered leaf hleaf
        refine ⟨?_, shown, hshown, List.isPrefixOf_iff_prefix.mp hprefix⟩
        -- the leaf is walked from the output: to the root as by `_ref`, then on
        obtain ⟨⟨shape, hdefined⟩, hleaves⟩ := leaves_spec h (Nat.le_refl rounds) hfound
        obtain ⟨rest, final, rfl, hwalk⟩ := hleaves leaf hleaf
        have hwhole : ((root ++ rest).map Segment.name).foldlM (pathPart models rounds) output =
            .ok final := by
          rw [List.map_append, List.foldlM_append, walk_of_ref hmodel]
          exact hwalk
        have hstart : ∃ shape, models.lookup output = some shape := by
          cases root with
          | nil =>
            obtain rfl := Except.ok.inj hmodel
            exact ⟨shape, hdefined⟩
          | cons name root =>
            simp only [ref, List.foldlM_cons, bind_eq_ok, refPart, unwrapModel_eq, shape_eq_ok]
              at hmodel
            obtain ⟨-, ⟨-, ⟨shape, hshape, -⟩, -⟩, -⟩ := hmodel
            exact ⟨shape, hshape⟩
        obtain ⟨shape, hshape⟩ := hstart
        exact path_of_walk h hrounds hshape hwhole
      · obtain ⟨root, hroot, hprefix⟩ :=
          List.any_eq_true.mp (List.all_eq_true.mp hinside shown hshown)
        exact ⟨root, hroot, List.isPrefixOf_iff_prefix.mp hprefix⟩

/-- **The graph of a presentation.** The references are accepted exactly where they are defined, lead
nowhere back and form no chain of more than `MAX_DEPTH` nodes, in any order of the definitions.
`_graph` itself comes to its end, and where it accepts the models so do the loops over nullable
shapes and the recursion of `_leaves`. On a page that `_pages` accepts every leaf under a read root is
a path and is shown, by itself or by a path above it, and nothing outside the read roots is shown. -/
theorem presentation_graph :
    (∀ edges : Edges,
      references edges = .ok () ↔ Defined edges ∧ Acyclic (follow edges) ∧ Bounded edges) ∧
    (∀ edges edges' : Edges, (edges.map (·.1)).Nodup → edges.Perm edges' →
      (references edges = .ok () ↔ references edges' = .ok ())) ∧
    (∀ (models : Models) (rounds : Nat), maxDepth ≤ rounds → Ends (graph models rounds)) ∧
    (∀ (models : Models) (rounds rounds' : Nat), graph models rounds = .ok () → maxDepth ≤ rounds' →
      references (edgesOf models) = .ok () ∧
      (∀ value shape, Ends (default_ models rounds' value shape)) ∧
      (∀ model parts, Ends (path models rounds' model parts)) ∧
      (∀ model parts, Ends (ref models rounds' model parts)) ∧
      ∀ model parts, Ends (leaves models rounds' model parts)) ∧
    (∀ (models : Models) (rounds : Nat) (views : List View) (calls : List (Name × Name))
      (approved : List Page), maxDepth ≤ rounds → graph models rounds = .ok () →
      pages models rounds views calls approved = .ok () → ∀ page ∈ approved, ∃ view output,
        knownView views page.view = some view ∧ calls.lookup view.call = some output ∧
        (∀ root ∈ view.roots, ∃ model found, ref models rounds output root = .ok model ∧
          leaves models rounds model root = .ok found ∧
          ∀ leaf ∈ found, (∃ shape, path models rounds output (leaf.map .name) = .ok shape) ∧
            ∃ shown ∈ page.shown, shown <+: leaf) ∧
        ∀ shown ∈ page.shown, ∃ root ∈ view.roots, root <+: shown) := by
  refine ⟨fun edges => references_iff, fun edges edges' => references_perm,
    fun models rounds hrounds => ends_graph hrounds, fun models rounds rounds' h hrounds => ?_,
    fun models rounds views calls approved hrounds h hpages page hpage => ?_⟩
  · have hsound := sound_of_graph h
    simp only [graph, bind_eq_ok] at h
    obtain ⟨edges, hedges, ⟨⟩, hreferences, -⟩ := h
    exact ⟨(mapM_refs hedges).1 ▸ hreferences, ends_default hsound hrounds,
      ends_path hsound hrounds, ends_ref hsound hrounds, ends_leaves hsound hrounds⟩
  · simp only [pages, bind_eq_ok] at hpages
    obtain ⟨-, -, hall⟩ := hpages
    exact checkPage_spec (sound_of_graph h) hrounds (forM_eq_ok.mp hall page hpage)

end

/-- A list of one text under a nullable object. -/
def limitsModels : Models :=
  [(['m', '0'], .object [⟨['l'], ['m', '1'], true, .none⟩]),
    (['m', '1'], .nullable ['m', '2']),
    (['m', '2'], .object [⟨['a'], ['m', '3'], true, .integer 4⟩, ⟨['b'], ['m', '3'], true, .none⟩]),
    (['m', '3'], .integer 1 9)]

/-- A view that reads the object, and a page with both of its fields. -/
def limitsView : View := ⟨['v'], ['c'], [⟨true, [.name ['l']], ['m', '0']⟩]⟩

def limitsPage : Page :=
  ⟨['v'], [[[.name ['l'], .name ['a']]], [[.name ['l'], .name ['b']]]]⟩

/-- It is accepted, and both fields are leaves that are shown. -/
theorem presentation_graph_limits :
    references (edgesOf limitsModels) = .ok () ∧
      ∃ view output, knownView [limitsView] limitsPage.view = some view ∧
        [((['c'] : Name), (['m', '0'] : Name))].lookup view.call = some output ∧
        ∀ shown ∈ limitsPage.shown, ∃ root ∈ view.roots, root <+: shown := by
  obtain ⟨-, -, -, haccepted, hpages⟩ := presentation_graph
  have hgraph : graph limitsModels maxDepth = .ok () := by rfl
  have hpage : pages limitsModels maxDepth [limitsView] [(['c'], ['m', '0'])] [limitsPage] =
      .ok () := by rfl
  obtain ⟨hreferences, -⟩ := haccepted limitsModels maxDepth maxDepth hgraph (Nat.le_refl _)
  obtain ⟨view, output, hview, houtput, -, hinside⟩ := hpages limitsModels maxDepth [limitsView]
    [(['c'], ['m', '0'])] [limitsPage] (Nat.le_refl _) hgraph hpage limitsPage
    (List.mem_singleton_self _)
  exact ⟨hreferences, view, output, hview, houtput, hinside⟩

end MaskGateway.Proofs.Presentation
