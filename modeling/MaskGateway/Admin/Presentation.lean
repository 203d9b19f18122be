import MaskGateway.Lib.Except

/-!
# `MaskGateway.Admin.Presentation`: the models of a presentation

`admin/ui/protocol.py`: the shapes that a presentation defines, how they refer to each other
(`_refs`, `_graph`), and what reads them: `_default`, `_path`, `_ref`, `_leaves` and `_pages`.

The loops that unwrap nullable shapes, and the recursion of `_leaves`, have no bound in the source.
Here they have one, `rounds`; a run that needs more of them is still going on (`Failure.unfinished`).
`visit` has its bound in the source: it recurs where there are fewer than `MAX_DEPTH` ancestors.
-/

set_option autoImplicit false

namespace MaskGateway.Admin.Presentation

open Lib

abbrev Name : Type := List Char

/-! ### Values and shapes -/

/-- `Scalar`. -/
inductive Scalar where
  | text (value : Name)
  | boolean (value : Bool)
  | integer (value : Int)
  | none
  deriving DecidableEq

/-- The number that Python takes a boolean or an integer for. -/
def Scalar.number : Scalar → Option Int
  | .boolean value => some (if value then 1 else 0)
  | .integer value => some value
  | .text _ | .none => Option.none

/-- `==` of Python, for which `True == 1`. -/
def Scalar.eq (a b : Scalar) : Bool :=
  a == b || (a.number.isSome && a.number == b.number)

/-- `Segment`. -/
inductive Segment where
  | name (value : Name)
  | index (value : Int)
  deriving DecidableEq

/-- `str(part)`. -/
def Segment.text : Segment → Name
  | .name value => value
  | .index value => (toString value).toList

/-- `isinstance(part, str)`. -/
def Segment.isName : Segment → Bool
  | .name _ => true
  | .index _ => false

/-- `FieldLink`. -/
structure FieldLink where
  name : Name
  ref : Name
  required : Bool
  default : Scalar
  deriving DecidableEq

/-- `Variant`. -/
structure Variant where
  value : Scalar
  ref : Name
  deriving DecidableEq

/-- `Shape`. The two types of a `Sequence` are constructors of their own. -/
inductive Shape where
  | text (min max : Nat) (prefix_ alphabet : Name)
  | integer (min max : Nat)
  | boolean
  | choice (choices : List Scalar)
  | object (fields : List FieldLink)
  | list (item : Name)
  | nullable (item : Name)
  | union (tag : Name) (variants : List Variant)
  deriving DecidableEq

/-- A `dict[str, Definition]`: the shapes of the models, in order. -/
abbrev Models : Type := List (Name × Shape)

/-- What can come of a check: it refuses the presentation, a key is missing in a dictionary, or it
goes on. -/
inductive Failure where
  | invalid
  | key
  | unfinished
  deriving DecidableEq

/-- `MAX_DEPTH`. -/
def maxDepth : Nat := 16

/-- `SAFE_INTEGER`. -/
def safeInteger : Int := 9007199254740991

/-- `FORBIDDEN`. -/
def forbidden : List Name :=
  ["__proto__".toList, "constructor".toList, "prototype".toList]

/-- `_need`. -/
def need (condition : Bool) : Except Failure Unit :=
  refuseIf (condition = false) .invalid

/-- `models[key].shape`. -/
def Models.shape (models : Models) (key : Name) : Except Failure Shape :=
  match models.lookup key with
  | some shape => .ok shape
  | none => .error .key

/-! ### The graph -/

/-- `_segments`. -/
def segments (path : List Segment) : Except Failure Unit := do
  need (path.length ≤ maxDepth)
  path.forM fun part =>
    match part with
    | .name value => need (value ≠ [] ∧ value ∉ forbidden)
    | .index value => need (0 ≤ value ∧ value ≤ safeInteger)

/-- What a shape refers to. -/
def Shape.refs : Shape → List Name
  | .object fields => fields.map (·.ref)
  | .list item | .nullable item => [item]
  | .union _ variants => variants.map (·.ref)
  | .text .. | .integer .. | .boolean | .choice _ => []

/-- The checks of `_refs`. Two scalars have the same JSON when they are the same. -/
def checkShape : Shape → Except Failure Unit
  | .object fields => do
      need (fields.map (·.name)).Nodup
      need (fields.all fun field => field.name ≠ [] ∧ field.name ∉ forbidden)
  | .union tag variants => do
      need (tag ∉ forbidden ∧ tag ≠ [])
      need (variants.map (·.value)).Nodup
  | .text min max _ _ | .integer min max => need (min ≤ max)
  | .choice choices => need choices.Nodup
  | .list _ | .nullable _ | .boolean => return

/-- `_refs`. -/
def refs (shape : Shape) : Except Failure (List Name) := do
  checkShape shape
  return shape.refs

/-- `edges`. -/
abbrev Edges : Type := List (Name × List Name)

/-- `heights`. -/
abbrev Heights : Type := List (Name × Nat)

/-- `visit`. Its first argument is `MAX_DEPTH - len(ancestors)`. -/
def visit (edges : Edges) : Nat → Name → List Name → Heights → Except Failure (Nat × Heights)
  | 0, _, _, _ => .error .invalid
  | room + 1, key, ancestors, heights =>
      match edges.lookup key with
      | none => .error .invalid
      | some refs =>
          if key ∈ ancestors then .error .invalid
          else
            match heights.lookup key with
            | some height => .ok (height, heights)
            | none => do
                let (best, heights) ← refs.foldlM (fun (best, heights) ref => do
                  let (height, heights) ← visit edges room ref (key :: ancestors) heights
                  return (max best height, heights)) (0, heights)
                need (best + 1 ≤ maxDepth)
                return (best + 1, (key, best + 1) :: heights)

/-- The part of `_graph` that is about references. -/
def references (edges : Edges) : Except Failure Unit := do
  let _ ← edges.foldlM (fun heights (key, _) => do
    let (_, heights) ← visit edges maxDepth key [] heights
    return heights) []

/-! ### Loops over nullable shapes -/

/-- `while isinstance(shape, Sequence) and shape.type == "nullable"`. -/
def unwrap (models : Models) : Nat → Shape → Except Failure Shape
  | rounds, .nullable item =>
      match rounds with
      | 0 => .error .unfinished
      | rounds + 1 => do unwrap models rounds (← models.shape item)
  | _, shape => .ok shape

/-- `_default`. -/
def default_ (models : Models) (rounds : Nat) (value : Scalar) (shape : Shape) :
    Except Failure Unit := do
  if value = .none then return
  match ← unwrap models rounds shape with
  | .boolean =>
      match value with
      | .boolean _ => return
      | _ => need false
  | .integer min max =>
      match value with
      | .integer value => need (min ≤ value ∧ value ≤ max)
      | _ => need false
  | .text min max prefix_ alphabet =>
      match value with
      | .text value => do
          need (min ≤ value.length ∧ value.length ≤ max ∧ prefix_.isPrefixOf value)
          need (alphabet = [] ∨ (value.drop prefix_.length).all (· ∈ alphabet))
      | _ => need false
  | .choice choices => need (choices.any (· == value))
  | .object _ | .list _ | .nullable _ | .union .. => need false

/-- The model of the one field of that name. -/
def field (fields : List FieldLink) (name : Name) : Except Failure Name :=
  match fields.filter (·.name == name) with
  | [link] => .ok link.ref
  | _ => .error .invalid

/-- One part of a path, in `_path`. -/
def pathPart (models : Models) (rounds : Nat) (model : Name) (part : Segment) :
    Except Failure Name := do
  match ← unwrap models rounds (← models.shape model), part with
  | .object fields, .name name => field fields name
  | .list item, .index _ => return item
  | _, _ => .error .invalid

/-- `_path`. -/
def path (models : Models) (rounds : Nat) (model : Name) (path : List Segment) :
    Except Failure Shape := do
  segments path
  need (models.lookup model).isSome
  let model ← path.foldlM (pathPart models rounds) model
  models.shape model

/-- A definition of a union, in `_graph`. -/
def checkVariant (models : Models) (tag : Name) (variant : Variant) : Except Failure Unit := do
  match ← models.shape variant.ref with
  | .object fields =>
      match fields.filter fun field => field.name == tag && field.required with
      | [link] => do
          match ← models.shape link.ref with
          | .choice [value] => need (value.eq variant.value)
          | _ => need false
      | _ => need false
  | _ => need false

/-- What `_graph` asks of one definition, after the references. -/
def checkDefinition (models : Models) (rounds : Nat) : Shape → Except Failure Unit
  | .object fields =>
      fields.forM fun field => do default_ models rounds field.default (← models.shape field.ref)
  | .union tag variants => variants.forM (checkVariant models tag)
  | .text .. | .integer .. | .boolean | .choice _ | .list _ | .nullable _ => return

/-- `_graph`. -/
def graph (models : Models) (rounds : Nat) : Except Failure Unit := do
  let edges ← models.mapM fun (key, shape) => do return (key, ← refs shape)
  references edges
  models.forM fun (_, shape) => checkDefinition models rounds shape

/-! ### Pages -/

/-- The loop over nullable shapes in `_ref`, which keeps the model too. -/
def unwrapModel (models : Models) : Nat → Name → Except Failure Shape
  | 0, model => do
      match ← models.shape model with
      | .nullable _ => .error .unfinished
      | shape => return shape
  | rounds + 1, model => do
      match ← models.shape model with
      | .nullable item => unwrapModel models rounds item
      | shape => return shape

/-- One part of a path, in `_ref`. -/
def refPart (models : Models) (rounds : Nat) (model part : Name) : Except Failure Name := do
  match ← unwrapModel models rounds model with
  | .object fields => field fields part
  | _ => .error .invalid

/-- `_ref`. -/
def ref (models : Models) (rounds : Nat) (model : Name) (path : List Name) : Except Failure Name :=
  path.foldlM (refPart models rounds) model

/-- `_leaves`. -/
def leaves (models : Models) : Nat → Name → List Name → Except Failure (List (List Name))
  | 0, _, _ => .error .unfinished
  | rounds + 1, model, path => do
      match ← unwrap models rounds (← models.shape model) with
      | .object fields => do
          let found ← fields.mapM fun field => leaves models rounds field.ref (path ++ [field.name])
          return found.flatten
      | _ => return [path]

/-- `Control`, as far as `_pages` reads it. -/
structure Control where
  isRead : Bool
  path : List Segment
  model : Name

/-- `View`, as far as `_pages` reads it. -/
structure View where
  id : Name
  call : Name
  controls : List Control

/-- `Page`: the paths of the entries, section by section. -/
structure Page where
  view : Name
  sections : List (List (List Segment))

/-- `{view.id: view for view in views}[key]`: a later view takes the place of an earlier one. -/
def knownView (views : List View) (key : Name) : Option View :=
  views.reverse.find? (·.id == key)

/-- `reads`. -/
def View.reads (view : View) : List Control :=
  view.controls.filter (·.isRead)

/-- `roots`. -/
def View.roots (view : View) : List (List Name) :=
  view.reads.map fun control => control.path.map (·.text)

/-- `shown`. -/
def Page.shown (page : Page) : List (List Name) :=
  page.sections.flatten.map fun entry => entry.map (·.text)

/-- `_pages`, for one page. `calls` gives the output of a call. -/
def checkPage (models : Models) (rounds : Nat) (views : List View) (calls : List (Name × Name))
    (page : Page) : Except Failure Unit := do
  match knownView views page.view with
  | none => .error .invalid
  | some view =>
      match calls.lookup view.call with
      | none => .error .key
      | some output => do
          need (view.reads ≠ [] ∧ view.reads.all (·.model == output))
          page.sections.flatten.forM fun entry => do
            let _ ← path models rounds output entry
            need (entry.all (·.isName))
          need (page.shown.all fun shown => view.roots.any (·.isPrefixOf shown))
          view.roots.forM fun root => do
            let model ← ref models rounds output root
            let found ← leaves models rounds model root
            need (found.all fun leaf => page.shown.any (·.isPrefixOf leaf))

/-- `_pages`. -/
def pages (models : Models) (rounds : Nat) (views : List View) (calls : List (Name × Name))
    (pages : List Page) : Except Failure Unit := do
  need (pages.map (·.view)).Nodup
  pages.forM (checkPage models rounds views calls)

end MaskGateway.Admin.Presentation
