import MarkupForms.Objects.Graph
import MarkupForms.Value.Print

/-!
# Binding contexts

Setting the context of an object evaluates its source-reading bindings against the context, lets it
stamp its rows if it does so, and moves on to everything nested in it *after* that, in order. A
value that does not fit a bound property is skipped with a warning and the earlier value stays.

An object counts as busy while it takes its values and stamps its rows, and nothing else may use it
then: not as the converter of a binding, not as the template of rows, nor as a goal of the walk. The
program breaks off where that happens. Objects may also be nested in each other in a circle, and
then the walk does not end. So the walk is bounded, and `propagate` reports `none` when its bound is
used up or a busy object is needed; `setContext` starts it with a bound that every walk on a graph
without circles stays below.
-/

namespace MarkupForms

/-- What deserves attention while a context is set. -/
inductive ContextWarning where
  /-- A binding names a resource that converts nothing; the value passes unchanged. -/
  | notAConverter (path resource : String)
  /-- A value does not fit its property. -/
  | unfitValue (path value : String) (property : ManagedProperty)
  | templateWithoutStore (typeName : String)
  | templateNotConstructible (typeName : String)
  deriving Repr, DecidableEq

/-- The text of a warning. -/
def ContextWarning.message : ContextWarning → String
  | .notAConverter path resource =>
    "binding `" ++ path ++ "`: resource " ++ resource ++ " is not a value converter; ignoring it"
  | .unfitValue path value property =>
    "binding `" ++ path ++ "`: " ++ value ++ " does not fit " ++ property.owner ++ "." ++
      property.name ++ " (" ++ property.kind.print ++ "); skipped"
  | .templateWithoutStore typeName =>
    "ListView.ItemTemplate `" ++ typeName ++ "` has no managed properties to stamp"
  | .templateNotConstructible typeName =>
    "ListView.ItemTemplate `" ++ typeName ++ "` cannot be constructed"

/-! ## One binding, one store -/

/-- The value that a binding draws from a context, if the context has one under the path. A
converter object that converts nothing lets values pass. That the converter is not busy is a matter
of the walk (`Component.blocked`). -/
def Binding.evaluate (binding : Binding) (g : Graph) (context : BindingContext) :
    Option Value × List ContextWarning :=
  match context.get? binding.path with
  | none => (none, [])
  | some source =>
    match binding.converter with
    | none => (some source, [])
    | some converter =>
      match (g.component? converter).bind (·.converter) with
      | some convert => (some (convert source), [])
      | none => (some source, [.notAConverter binding.path (g.describe [] converter)])

/-- The value that a bound property takes from a context: the binding's value, adapted to the
property's kind. -/
def BoundProperty.evaluate (bound : BoundProperty) (g : Graph) (busy : List ObjectId)
    (context : BindingContext) : Option Value × List ContextWarning :=
  if bound.binding.mode.readsSource then
    match bound.binding.evaluate g context with
    | (none, warnings) => (none, warnings)
    | (some value, warnings) =>
      match bound.property.kind.adapt value with
      | some adapted => (some adapted, warnings)
      | none =>
        let shown := value.print (g.describe busy)
        (none, warnings ++ [.unfitValue bound.binding.path shown bound.property])
  else
    (none, [])

/-- The values that the bindings draw from a context, in binding order, and the warnings. -/
def drawValues (g : Graph) (busy : List ObjectId) (context : BindingContext) :
    List (String × BoundProperty) → List (String × Value) × List ContextWarning
  | [] => ([], [])
  | (name, bound) :: rest =>
    let (value, warnings) := bound.evaluate g busy context
    let (values, others) := drawValues g busy context rest
    ((value.map (name, ·)).toList ++ values, warnings ++ others)

section DrawnValues

variable {g : Graph} {busy : List ObjectId} {context : BindingContext}

theorem drawValues_cons (name : String) (bound : BoundProperty)
    (rest : List (String × BoundProperty)) :
    (drawValues g busy context ((name, bound) :: rest)).1 =
      ((bound.evaluate g busy context).1.map (name, ·)).toList ++
        (drawValues g busy context rest).1 := rfl

theorem mem_drawValues {bindings : List (String × BoundProperty)} {name : String} {value : Value} :
    (name, value) ∈ (drawValues g busy context bindings).1 ↔
      ∃ bound, (name, bound) ∈ bindings ∧ (bound.evaluate g busy context).1 = some value := by
  induction bindings with
  | nil =>
    constructor
    · intro h
      cases h
    · rintro ⟨bound, hmem, -⟩
      cases hmem
  | cons first rest ih =>
    obtain ⟨firstName, bound⟩ := first
    rw [drawValues_cons, List.mem_append, ih, Option.mem_toList, Option.map_eq_some_iff]
    constructor
    · rintro (⟨drawn, hdrawn, hpair⟩ | ⟨other, hmem, hdrawn⟩)
      · cases hpair
        exact ⟨bound, List.mem_cons_self, hdrawn⟩
      · exact ⟨other, List.mem_cons_of_mem _ hmem, hdrawn⟩
    · rintro ⟨other, hmem, hdrawn⟩
      rcases List.mem_cons.1 hmem with heq | hmem
      · cases heq
        exact Or.inl ⟨value, hdrawn, rfl⟩
      · exact Or.inr ⟨other, hmem, hdrawn⟩

/-- Values are drawn for bound properties, in binding order. -/
theorem keys_drawValues (bindings : List (String × BoundProperty)) :
    (drawValues g busy context bindings).1.map Prod.fst =
      (bindings.filter fun entry => (entry.2.evaluate g busy context).1.isSome).map Prod.fst := by
  induction bindings with
  | nil => rfl
  | cons first rest ih =>
    obtain ⟨name, bound⟩ := first
    rw [drawValues_cons, List.map_append, ih, List.filter_cons]
    cases (bound.evaluate g busy context).1 <;> rfl

end DrawnValues

/-- The store after its bindings were evaluated. All of them see the store as it was before. -/
def PropertyStore.applyContext (store : PropertyStore) (g : Graph) (busy : List ObjectId)
    (context : BindingContext) : PropertyStore × List ContextWarning :=
  let (values, warnings) := drawValues g busy context store.bindings.toList
  ({ store with values := store.values.insertAll values }, warnings)

/-- The object after its bindings were evaluated. -/
def Component.applyContext (c : Component) (g : Graph) (busy : List ObjectId)
    (context : BindingContext) : Component × List ContextWarning :=
  match c.store with
  | none => (c, [])
  | some store =>
    let (applied, warnings) := store.applyContext g busy context
    ({ c with store := some applied }, warnings)

/-! ## Rows -/

/-- The object from which an object stamps its rows. -/
def ObjectState.itemTemplate? (state : ObjectState) : Option ObjectId :=
  (state.plain? "ItemTemplate").bind Value.asObject?

/-- The records for which an object stamps rows. -/
def ObjectState.itemsSource? (state : ObjectState) : Option (List BindingContext) :=
  (state.store.bind (·.value? "ItemsSource")).bind Value.asList?

/-- A graph on the way, and the warnings so far. -/
structure Walk where
  graph : Graph
  warnings : List ContextWarning

/-- The walk with one more warning. -/
def Walk.warn (walk : Walk) (warning : ContextWarning) : Walk :=
  { walk with warnings := walk.warnings ++ [warning] }

/-- The walk with `rows` as the rows of `id`. -/
def Walk.setRows (walk : Walk) (id : ObjectId) (rows : List ObjectId) : Walk :=
  { walk with graph := walk.graph.modify id fun c => { c with rows := some rows } }

/-- One new copy of `blank` per record, each filled from its own record. -/
def stampRecords (fill : BindingContext → ObjectId → Walk → Option Walk) (blank : Component) :
    List BindingContext → Walk → Option (List ObjectId × Walk)
  | [], walk => some ([], walk)
  | record :: records, walk =>
    let (row, graph) := walk.graph.alloc blank
    (fill record row { walk with graph := graph }).bind fun filled =>
      (stampRecords fill blank records filled).map fun (rows, done) => (row :: rows, done)

/-- The rows for the given records: new instances of the template's type with the template's values
and bindings. A template without a store, or of an abstract type, stamps none. -/
def stampFrom (fill : BindingContext → ObjectId → Walk → Option Walk) (template : Component)
    (records : List BindingContext) (walk : Walk) : Option (List ObjectId × Walk) :=
  match template.store, records with
  | none, _ => some ([], walk.warn (.templateWithoutStore template.type.name))
  | some _, [] => some ([], walk)
  | some store, records =>
    match template.type.constructor with
    | none => some ([], walk.warn (.templateNotConstructible template.type.name))
    | some state =>
      let blank : Component :=
        { state with store := state.store.map fun _ => store, type := template.type }
      stampRecords fill blank records walk

/-- Replaces the rows of an object that stamps rows; other objects stay as they are. -/
def stampRows (fill : BindingContext → ObjectId → Walk → Option Walk) (id : ObjectId)
    (walk : Walk) : Option Walk :=
  match walk.graph.component? id with
  | none => some walk
  | some c =>
    if c.rows.isNone then some walk
    else
      let cleared := walk.setRows id []
      match c.itemTemplate?.bind walk.graph.component?, c.itemsSource? with
      | some template, some records =>
        (stampFrom fill template records cleared).map fun (rows, done) => done.setRows id rows
      | _, _ => some cleared

/-! ## Busy objects -/

/-- The converter that a bound property asks for its value, if the context has one. -/
def BoundProperty.converter? (bound : BoundProperty) (context : BindingContext) : Option ObjectId :=
  if bound.binding.mode.readsSource && (context.get? bound.binding.path).isSome then
    bound.binding.converter
  else
    none

/-- The converters that an object asks while it takes its values from a context. -/
def ObjectState.consulted (state : ObjectState) (context : BindingContext) : List ObjectId :=
  ((state.store.map (·.bindings)).map fun bindings =>
    bindings.values.filterMap (·.converter? context)).getD []

/-- The template that an object copies while it stamps its rows. -/
def ObjectState.copied? (state : ObjectState) : Option ObjectId :=
  if state.rows.isSome && state.itemsSource?.isSome then state.itemTemplate? else none

/-- Whether the update of `id` needs a busy object: `id` itself, one that `c` asks for a value, or
the one that `applied` copies, which is `c` with its values from the context. -/
def Component.blocked (c applied : Component) (context : BindingContext) (id : ObjectId)
    (busy : List ObjectId) : Bool :=
  busy.contains id || (c.consulted context).any (id :: busy).contains ||
    applied.copied?.any (id :: busy).contains

/-! ## The walk -/

/-- The update of one object: it takes its values and stamps its rows. -/
def updateObject (fill : BindingContext → ObjectId → Walk → Option Walk) (busy : List ObjectId)
    (context : BindingContext) (id : ObjectId) (c : Component) (walk : Walk) : Option Walk :=
  let (applied, warnings) := c.applyContext walk.graph (id :: busy) context
  if c.blocked applied context id busy then none
  else stampRows fill id ⟨walk.graph.set id applied, walk.warnings ++ warnings⟩

/-- Sets the context of `id` and of everything nested in it. `busy` lists the objects that are being
updated around this call; `none` means that the bound, the first argument, did not suffice, or that
a busy object was needed. -/
def propagate : Nat → List ObjectId → BindingContext → ObjectId → Walk → Option Walk
  | 0, _, _, _, _ => none
  | bound + 1, busy, context, id, walk =>
    match walk.graph.component? id with
    | none => some walk
    | some c =>
      (updateObject (propagate bound (id :: busy)) busy context id c walk).bind fun stamped =>
        (stamped.graph.nested id).foldlM (fun walk child => propagate bound busy context child walk)
          stamped

/-- A bound for walks on a graph without circles. A path visits each object at most once between two
list views that are being stamped, and no list view is stamped inside its own stamping. -/
def walkBound (g : Graph) : Nat :=
  (g.size + 2) * (g.size + 2)

/-- The graph after the context of `root` was set, and the warnings in order. Where the walk has no
result, because of a circle below `root` or of a busy object, the graph stays as it is. -/
def Graph.setContext (g : Graph) (root : ObjectId) (context : BindingContext) :
    Graph × List ContextWarning :=
  match propagate (walkBound g) [] context root ⟨g, []⟩ with
  | some walk => (walk.graph, walk.warnings)
  | none => (g, [])

end MarkupForms
