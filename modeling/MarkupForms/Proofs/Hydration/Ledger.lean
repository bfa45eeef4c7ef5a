import MarkupForms.Proofs.Hydration.Chronicle

/-!
# The chronicle is right

The tables of a pass and the bindings that it has attached are what its chronicle says: resources
stand under the keys of the last insertions, an object has the key that was declared on it and not
taken since, and a binding has the converter that its key stood for when the binding was written. Of
an element on the way the chronicle says which key its tag declares, and that nobody has taken it
yet.

One lemma for each thing that can happen, one step, then any run.
-/

namespace MarkupForms

/-- The binding at a property of an object. -/
def Graph.attached? (g : Graph) (object : ObjectId) (name : String) : Option Binding :=
  (g.component? object).bind (·.binding? name)

namespace Hydration

open Markup

/-- Where something stands in a list with one more thing at its end. -/
theorem concat_eq_append_cons {α : Type} {log before after : List α} {last x : α}
    (h : log ++ [last] = before ++ x :: after) :
    after = [] ∧ before = log ∧ x = last ∨ ∃ rest, after = rest ++ [last] ∧
    log = before ++ x :: rest := by
  rcases List.eq_nil_or_concat after with rfl | ⟨rest, final, rfl⟩
  · obtain ⟨hlog, hlast⟩ := List.append_inj' h rfl
    cases hlast
    exact Or.inl ⟨rfl, hlog.symm, rfl⟩
  · rw [List.concat_eq_append, ← List.cons_append, ← List.append_assoc] at h
    obtain ⟨hlog, hlast⟩ := List.append_inj' h rfl
    cases hlast
    exact Or.inr ⟨rest, List.concat_eq_append, hlog⟩

/-- Attributes make no objects. -/
theorem Pass.size_of_applyAttribute {p next : Pass} {object : ObjectId} {type : TypeInfo}
    {attr : Markup.Attribute} (h : p.applyAttribute object type attr = .ok next) :
    next.graph.size = p.graph.size := by
  unfold applyAttribute at h
  split at h
  · exact size_of_assign h
  · cases h
    rfl
  · cases h
    rfl

theorem Pass.size_of_applyAttributes {p q : Pass} {object : ObjectId} {type : TypeInfo}
    {attrs : List Markup.Attribute} (h : p.applyAttributes object type attrs = (.ok (), q)) :
    q.graph.size = p.graph.size := by
  induction attrs generalizing p with
  | nil =>
    cases h
    rfl
  | cons attr attrs ih =>
    rw [applyAttributes] at h
    cases hattr : p.applyAttribute object type attr with
    | error error => rw [hattr] at h; cases h
    | ok next =>
      rw [hattr] at h
      exact (ih h).trans (size_of_applyAttribute hattr)

/-! ## Bindings that stay -/

/-- No object goes away, and the bindings of those that are there stay as they are. -/
structure SameBindings (g g' : Graph) : Prop where
  size : g.size ≤ g'.size
  attached {object : ObjectId} (name : String) : object.index < g.size →
    g'.attached? object name = g.attached? object name

namespace SameBindings

variable {g : Graph}

theorem refl (g : Graph) : SameBindings g g :=
  ⟨Nat.le_refl _, fun _ _ => rfl⟩

theorem alloc (g : Graph) (c : Component) : SameBindings g (g.alloc c).2 where
  size := by
    rw [Graph.size_alloc]
    exact Nat.le_succ _
  attached name hobject := by
    rw [Graph.attached?, Graph.component?_alloc_of_lt g c hobject]
    rfl

theorem attached?_set {target : ObjectId} {c : Component} (hread : g.component? target = some c)
    (written : Component) (object : ObjectId) (name : String) :
    (g.set target written).attached? object name =
      if target = object then written.binding? name else g.attached? object name := by
  unfold Graph.attached?
  split
  · next hsame =>
    subst hsame
    rw [Graph.component?_set_self hread]
    rfl
  · next hother => rw [Graph.component?_set_of_ne g hother]

theorem set {target : ObjectId} {c written : Component} (hread : g.component? target = some c)
    (hsame : ∀ name, written.binding? name = c.binding? name) :
    SameBindings g (g.set target written) where
  size := Nat.le_of_eq (Graph.size_set g target written).symm
  attached {object} name _ := by
    rw [attached?_set hread]
    split
    · next hsame' =>
      subst hsame'
      rw [hsame, Graph.attached?, hread]
      rfl
    · rfl

end SameBindings

/-! ## What the chronicle says -/

/-- The objects that a happening is about. -/
def Happening.objects : Happening → List ObjectId
  | .declared object _ | .bound object _ _ => [object]
  | .entered container _ object => [container, object]
  | .shared _ _ => []

/-- The binding at a property is the one that the last expression says that was written there, with
the converter that its key stood for by then. -/
def BindingsTold (g : Graph) (log : List Happening) : Prop :=
  ∀ before object name text after, log = before ++ .bound object name text :: after →
    (∀ later, .bound object name later ∉ after) →
    ∃ expr, Expression.BindingExpr.parse text = .ok expr ∧
      g.attached? object name = some ⟨expr.path, expr.converter.bind (declared? · before),
        expr.mode.getD .default⟩

/-- An object is put into one keyed container at most, under the key that was declared on it
before. -/
def KeysTaken (log : List Happening) : Prop :=
  ∀ before container key object after, log = before ++ .entered container key object :: after →
    keyIn object before = some key ∧ ∀ other name, .entered other name object ∉ before

/-- The pass is as its chronicle says. -/
structure Told (p : Pass) (log : List Happening) : Prop where
  resources : p.resources = .ofList (log.flatMap Happening.insertions)
  keys (object : ObjectId) : p.keys.key? object = keyIn object log
  known : ∀ happening ∈ log, ∀ object ∈ happening.objects, object.index < p.graph.size
  bindings : BindingsTold p.graph log
  taken : KeysTaken log

namespace Told

variable {p q : Pass} {log : List Happening}

theorem resource (h : Told p log) (key : String) : p.resources.get? key = declared? key log := by
  rw [h.resources, get?_ofList]
  rfl

theorem of_start (request : LoadRequest) : Told request.pass [] where
  resources := rfl
  keys _ := rfl
  known _ h := by cases h
  bindings before _ _ _ _ h := by cases before <;> cases h
  taken before _ _ _ _ h := by cases before <;> cases h

/-- Nothing happens. -/
theorem quiet (h : Told p log) (hgraph : SameBindings p.graph q.graph) (hkeys : q.keys = p.keys)
    (hresources : q.resources = p.resources) : Told q log where
  resources := hresources.trans h.resources
  keys object := by rw [hkeys, h.keys]
  known happening hmem object hobject :=
    Nat.lt_of_lt_of_le (h.known happening hmem object hobject) hgraph.size
  bindings before object name text after hlog hlast := by
    have hknown := h.known (.bound object name text) (by simp [hlog]) object List.mem_cons_self
    rw [hgraph.attached name hknown]
    exact h.bindings before object name text after hlog hlast
  taken := h.taken

/-- Something happens. -/
theorem happen (h : Told p log) {happening : Happening} (hsize : p.graph.size ≤ q.graph.size)
    (hobjects : ∀ object ∈ happening.objects, object.index < q.graph.size)
    (hkeys : ∀ object, q.keys.key? object = happening.keyLeft object (p.keys.key? object))
    (hresources : q.resources = p.resources.insertAll happening.insertions)
    (hattached : ∀ object name, object.index < p.graph.size →
      (∀ text, .bound object name text ≠ happening) →
      q.graph.attached? object name = p.graph.attached? object name)
    (hbound : ∀ object name text, .bound object name text = happening →
      ∃ expr, Expression.BindingExpr.parse text = .ok expr ∧ q.graph.attached? object name =
        some ⟨expr.path, expr.converter.bind (declared? · log), expr.mode.getD .default⟩)
    (htaken : ∀ container key object, .entered container key object = happening →
      p.keys.key? object = some key ∧ ∀ other name, .entered other name object ∉ log) :
    Told q (log ++ [happening]) where
  resources := by
    rw [hresources, h.resources, List.flatMap_append, OrderedMap.ofList, OrderedMap.ofList,
      OrderedMap.insertAll_append, List.flatMap_singleton]
  keys object := by rw [hkeys, h.keys, keyIn_concat]
  known earlier hmem object hobject := by
    rcases List.mem_append.1 hmem with hold | hnew
    · exact Nat.lt_of_lt_of_le (h.known earlier hold object hobject) hsize
    · rw [List.mem_singleton] at hnew
      subst hnew
      exact hobjects object hobject
  bindings before object name text after hlog hlast := by
    rcases concat_eq_append_cons hlog with ⟨-, rfl, hnew⟩ | ⟨rest, rfl, hold⟩
    · exact hbound object name text hnew
    · have hknown := h.known (.bound object name text) (by simp [hold]) object List.mem_cons_self
      have hother : ∀ later, .bound object name later ≠ happening := fun later heq =>
        hlast later (by simp [heq])
      rw [hattached object name hknown hother]
      exact h.bindings before object name text rest hold fun later hlater =>
        hlast later (List.mem_append_left _ hlater)
  taken before container key object after hlog := by
    rcases concat_eq_append_cons hlog with ⟨-, rfl, hnew⟩ | ⟨rest, rfl, hold⟩
    · rw [← h.keys]
      exact htaken container key object hnew
    · exact h.taken before container key object rest hold

/-! ## One thing that happens -/

/-- An attribute declares a key. -/
theorem declare (h : Told p log) {object : ObjectId} (hobject : object.index < p.graph.size)
    (key : String) :
    Told { p with keys := p.keys.declare object key } (log ++ [.declared object key]) := by
  refine h.happen (Nat.le_refl _) (fun other hother => ?_)
    (fun other => ?_) rfl (fun _ _ _ _ => rfl) ?_ ?_
  · rw [List.mem_singleton.1 hother]
    exact hobject
  · exact KeyTable.key?_declare p.keys object other key
  · intro _ _ _ heq
    cases heq
  · intro _ _ _ heq
    cases heq

/-- **An assignment.** -/
theorem assign (h : Told p log) {target : ObjectId} {type : TypeInfo} {name : String}
    {raw : RawValue} (htarget : target.index < p.graph.size)
    (hassign : p.assign target type name raw = .ok q) :
    Told q (log ++ assignmentHappenings p.graph target name raw) := by
  have hsilent : name ≠ "Resources" → (∀ text, raw = .text text → Pass.isExpression text = false) →
      assignmentHappenings p.graph target name raw = [] := by
    intro hname htext
    cases raw with
    | text text => simp [assignmentHappenings, htext text rfl]
    | object value => simp [assignmentHappenings, hname]
  cases Pass.assigned_of_assign hassign with
  | shared container entries hname hraw hentries =>
    have hshared : assignmentHappenings p.graph target name raw = [.shared container entries] := by
      simp [assignmentHappenings, hname, hraw, hentries]
    rw [hshared]
    refine h.happen (Nat.le_refl _) (fun _ hnone => ?_)
      (fun _ => rfl) rfl (fun _ _ _ _ => rfl) ?_ ?_
    · cases hnone
    · intro _ _ _ heq
      cases heq
    · intro _ _ _ heq
      cases heq
  | bound c store property binding text hname hraw htext hfind hbinding hread hstore =>
    have hbound : assignmentHappenings p.graph target name raw = [.bound target name text] := by
      simp [assignmentHappenings, hraw, htext]
    have hproperty := TypeInfo.name_of_findManaged hfind
    have hattached : ∀ object called, (p.graph.set target
        { c with store := some (store.setBinding property binding) }).attached? object called =
          if target = object ∧ name = called then some binding
          else p.graph.attached? object called := by
      intro object called
      rw [SameBindings.attached?_set hread]
      by_cases hobject : target = object
      · subst hobject
        by_cases hcalled : name = called <;>
          simp [ObjectState.binding?, PropertyStore.binding?_setBinding, hproperty, hcalled,
            Graph.attached?, hread, hstore]
      · simp [hobject]
    rw [hbound]
    refine h.happen (Nat.le_of_eq (Graph.size_set _ _ _).symm) (fun called hcalled => ?_)
      (fun _ => rfl) rfl ?_ ?_ ?_
    · rw [List.mem_singleton.1 hcalled, Pass.update, Graph.size_set]
      exact htarget
    · intro object called _ hother
      refine (hattached object called).trans (if_neg ?_)
      rintro ⟨rfl, rfl⟩
      exact hother text rfl
    · intro object called written heq
      cases heq
      unfold Pass.readBinding at hbinding
      cases hparse : Expression.BindingExpr.parse text with
      | error fault => rw [hparse] at hbinding; cases hbinding
      | ok expr =>
        rw [hparse] at hbinding
        cases hbinding
        refine ⟨expr, rfl, (hattached target name).trans ?_⟩
        rw [if_pos ⟨rfl, rfl⟩]
        simp only [Option.some.injEq, Binding.mk.injEq, true_and, and_true]
        exact congrArg expr.converter.bind (funext h.resource)
    · intro _ _ _ heq
      cases heq
  | managed c store property value hname htext hfind hvalue hread hstore =>
    rw [hsilent hname htext, List.append_nil]
    exact h.quiet (.set hread fun other => by simp [ObjectState.binding?, hstore]) rfl rfl
  | plain c state kind value hname htext hfind hplain hvalue hread hwrite =>
    rw [hsilent hname htext, List.append_nil]
    cases Pass.setPlain_eq_ok hwrite
    exact h.quiet (.set hread fun _ => rfl) rfl rfl
  | dangling kind hname hfind hplain hread =>
    have hthere : p.graph.components[target.index]? = some p.graph.components[target.index] :=
      Array.getElem?_eq_getElem htarget
    rw [Graph.component?, hthere] at hread
    cases hread

/-- An object is inserted into the one around it. -/
theorem insertChild (h : Told p log) {tag : StartTag} {parent : OpenElement}
    (outer : List OpenElement) {child : ObjectId} (hproperty : parent.property = none)
    (hparent : parent.object.index < p.graph.size) (hchild : child.index < p.graph.size)
    (hkey : keyIn child log = declaredKey tag.attributes)
    (hwaiting : ∀ container key, .entered container key child ∉ log)
    (hinsert : p.insertChild parent.object parent.type child = (.ok (), q)) :
    Told q (log ++ endHappenings tag child (parent :: outer)) := by
  have hinserted := p.inserted_insertChild parent.object parent.type child
  rw [hinsert] at hinserted
  cases hinserted with
  | item c items hkind hread hitems =>
    rw [endHappenings_of_items hproperty hkind, List.append_nil]
    exact h.quiet (.set hread fun _ => rfl) rfl rfl
  | entry c entries key resources hkind hwaits hread hentries hresources =>
    have hdeclared : declaredKey tag.attributes = some key := by rw [← hkey, ← h.keys, hwaits]
    have hsame : SameBindings p.graph
        (p.graph.set parent.object { c with entries := some (entries.insert key child) }) :=
          .set hread fun _ => rfl
    rw [endHappenings_of_keyed hproperty hkind hdeclared]
    refine h.happen hsame.size (fun other hobject => ?_) (fun other => ?_) hresources
      (fun object name hobject _ => hsame.attached name hobject) ?_ ?_
    · refine Nat.lt_of_lt_of_le ?_ hsame.size
      rcases List.mem_cons.1 hobject with rfl | hobject
      · exact hparent
      · rw [List.mem_singleton.1 hobject]
        exact hchild
    · exact KeyTable.key?_erase p.keys child other
    · intro _ _ _ heq
      cases heq
    · intro container name object heq
      cases heq
      exact ⟨hwaits, hwaiting⟩

/-! ## Attributes -/

theorem applyAttribute (h : Told p log) {object : ObjectId} {type : TypeInfo}
    {attr : Markup.Attribute} (hobject : object.index < p.graph.size)
    (happly : p.applyAttribute object type attr = .ok q) :
    Told q (log ++ attributeHappenings object attr) := by
  unfold Pass.applyAttribute at happly
  unfold attributeHappenings
  cases hrole : Pass.roleOf attr.name with
  | property name =>
    rw [hrole] at happly
    exact h.assign hobject happly
  | key =>
    rw [hrole] at happly
    cases happly
    exact h.declare hobject attr.value
  | ignored =>
    rw [hrole] at happly
    cases happly
    rw [List.append_nil]
    exact h

theorem applyAttributes (h : Told p log) {object : ObjectId} {type : TypeInfo}
    {attrs : List Markup.Attribute} (hobject : object.index < p.graph.size)
    (happly : p.applyAttributes object type attrs = (.ok (), q)) :
    Told q (log ++ attrs.flatMap (attributeHappenings object)) := by
  induction attrs generalizing p log with
  | nil =>
    cases happly
    rw [List.flatMap_nil, List.append_nil]
    exact h
  | cons attr attrs ih =>
    rw [Pass.applyAttributes] at happly
    cases hattr : p.applyAttribute object type attr with
    | error error => rw [hattr] at happly; cases happly
    | ok next =>
      rw [hattr] at happly
      have hsize := Pass.size_of_applyAttribute hattr
      rw [List.flatMap_cons, ← List.append_assoc]
      exact ih (h.applyAttribute hobject hattr) (hsize ▸ hobject) happly

/-- The object that an element is read into. -/
theorem takeObject (h : Told p log) {type : TypeInfo} {given : Option ObjectId} {object : ObjectId}
    (hgiven : ∀ root, given = some root → root.index < p.graph.size)
    (htake : p.takeObject type given = (.ok object, q)) :
    Told q log ∧ p.graph.size ≤ q.graph.size ∧ object.index < q.graph.size ∧
      object = given.getD ⟨p.graph.size⟩ := by
  cases given with
  | some root =>
    cases htake
    exact ⟨h, Nat.le_refl _, hgiven _ rfl, rfl⟩
  | none =>
    rw [Pass.takeObject] at htake
    cases hmade : construct p.graph type with
    | error error => rw [hmade] at htake; cases htake
    | ok new =>
      obtain ⟨made, graph⟩ := new
      rw [hmade] at htake
      cases htake
      obtain ⟨state, -, halloc⟩ := construct_eq_ok hmade
      cases halloc
      have hsame := SameBindings.alloc p.graph { state with type := type }
      have hnew : p.graph.size < (p.graph.alloc { state with type := type }).2.size := by
        rw [Graph.size_alloc]
        exact Nat.lt_succ_self _
      exact ⟨h.quiet hsame rfl rfl, hsame.size, hnew, rfl⟩

/-- **A tag that starts an element.** -/
theorem openElement (h : Told p log) {position : Nat → Option Position} {given : Option ObjectId}
    {tag : StartTag} {start : Nat} {opened : OpenElement}
    (hgiven : ∀ root, given = some root → root.index < p.graph.size)
    (hopen : openElement position p given tag start = (.ok opened, q)) :
    Told q (log ++ startHappenings opened.object tag) ∧ p.graph.size ≤ q.graph.size ∧
      opened.object.index < q.graph.size ∧ opened.object = given.getD ⟨p.graph.size⟩ ∧
      opened.tag = tag ∧
        opened.property = none := by
  obtain ⟨type, resolved, taken, made, hresolve, htake, happly, rfl⟩ := openElement_eq_ok hopen
  have hgraph := p.graph_resolveTag tag
  have hkeys := p.keys_resolveTag tag
  have hresources : (p.resolveTag tag).2.resources = p.resources := rfl
  rw [hresolve] at hgraph hkeys hresources
  have hresolved : Told resolved log := by
    refine h.quiet ?_ hkeys hresources
    rw [hgraph]
    exact .refl p.graph
  obtain ⟨htaken, hgrown, hknown, hobject⟩ :=
    hresolved.takeObject (by rw [hgraph]; exact hgiven) htake
  have happlied := htaken.applyAttributes hknown happly
  have hsize := Pass.size_of_applyAttributes happly
  rw [hgraph] at hgrown hobject
  rw [← hsize] at hgrown hknown
  exact ⟨happlied, hgrown, hknown, hobject, rfl, rfl⟩

end Told

/-! ## Keys of open elements -/

theorem Happening.mem_objects_of_keyed? {object : ObjectId} {happening : Happening}
    (h : happening.keyed? = some object) : object ∈ happening.objects := by
  cases happening with
  | declared => exact List.mem_singleton.2 (Option.some.inj h).symm
  | entered => exact List.mem_cons_of_mem _ (List.mem_singleton.2 (Option.some.inj h).symm)
  | bound => cases h
  | shared => cases h

theorem keyIn_eq_none {object : ObjectId} {log : List Happening}
    (h : ∀ happening ∈ log, happening.keyed? ≠ some object) : keyIn object log = none := by
  have hnothing : keyIn object ([] ++ log) = keyIn object [] := keyIn_append_of_other h
  rw [List.nil_append] at hnothing
  exact hnothing

/-- The tag of an element declares the key of its object. -/
theorem keyIn_attributes (object : ObjectId) (log : List Happening)
    (attrs : List Markup.Attribute) :
    keyIn object (log ++ attrs.flatMap (attributeHappenings object)) =
      attrs.foldl keyAfter (keyIn object log) := by
  induction attrs generalizing log with
  | nil => rw [List.flatMap_nil, List.append_nil, List.foldl_nil]
  | cons attr attrs ih =>
    have hone : keyIn object (log ++ attributeHappenings object attr) =
        keyAfter (keyIn object log) attr := by
      unfold attributeHappenings keyAfter
      cases Pass.roleOf attr.name with
      | property name =>
        dsimp only
        split
        · rw [keyIn_concat]
          rfl
        · rw [List.append_nil]
      | key => simp [keyIn_concat, Happening.keyLeft]
      | ignored => rw [List.append_nil]
    rw [List.flatMap_cons, ← List.append_assoc, ih, hone, List.foldl_cons]

/-- Attributes declare keys on the object of their tag and write bindings. -/
theorem mem_startHappenings {object : ObjectId} {tag : StartTag} {happening : Happening}
    (h : happening ∈ startHappenings object tag) :
    (∃ key, happening = .declared object key) ∨
    ∃ name text, happening = .bound object name text := by
  obtain ⟨attr, -, hattr⟩ := List.mem_flatMap.1 h
  unfold attributeHappenings at hattr
  split at hattr
  · split at hattr
    · exact Or.inr ⟨_, _, List.mem_singleton.1 hattr⟩
    · cases hattr
  · exact Or.inl ⟨_, List.mem_singleton.1 hattr⟩
  · cases hattr

theorem keyed?_startHappenings {object other : ObjectId} {tag : StartTag} {happening : Happening}
    (h : happening ∈ startHappenings object tag) (hother : happening.keyed? = some other) :
    other = object := by
  rcases mem_startHappenings h with ⟨key, rfl⟩ | ⟨name, text, rfl⟩
  · exact (Option.some.inj hother).symm
  · cases hother

theorem keyed?_assignmentHappenings {g : Graph} {object : ObjectId} {name : String} {raw : RawValue}
    {happening : Happening} (h : happening ∈ assignmentHappenings g object name raw) :
    happening.keyed? = none := by
  unfold assignmentHappenings at h
  split at h
  · split at h
    · rw [List.mem_singleton.1 h]
      rfl
    · cases h
  · split at h
    · split at h
      · rw [List.mem_singleton.1 h]
        rfl
      · cases h
    · cases h

/-- An element that ends takes its own key. -/
theorem keyed?_endHappenings {tag : StartTag} {object : ObjectId} {outer : List OpenElement}
    {happening : Happening} (h : happening ∈ endHappenings tag object outer) :
    happening.keyed? = some object := by
  unfold endHappenings at h
  split at h
  · cases h
  · split at h
    · rw [List.mem_singleton.1 h]
      rfl
    · cases h

/-- The objects of the elements on the way are different ones, each with the key that its tag
declares, and none of them is in a keyed container yet. -/
structure Standing (outline : List (StartTag × ObjectId)) (log : List Happening) : Prop where
  key : ∀ frame ∈ outline, keyIn frame.2 log = declaredKey frame.1.attributes
  waiting : ∀ frame ∈ outline, ∀ container key, .entered container key frame.2 ∉ log
  distinct : (outline.map (·.2)).Nodup

namespace Standing

variable {outline : List (StartTag × ObjectId)} {log : List Happening} {tag : StartTag}
  {object : ObjectId}

theorem nothing (log : List Happening) : Standing [] log where
  key _ h := by cases h
  waiting _ h := by cases h
  distinct := List.nodup_nil

theorem tail (h : Standing ((tag, object) :: outline) log) : Standing outline log where
  key frame hmem := h.key frame (List.mem_cons_of_mem _ hmem)
  waiting frame hmem := h.waiting frame (List.mem_cons_of_mem _ hmem)
  distinct := (List.nodup_cons.1 h.distinct).2

theorem ne_head (h : Standing ((tag, object) :: outline) log) :
    ∀ frame ∈ outline, frame.2 ≠ object := by
  rintro frame hmem rfl
  exact (List.nodup_cons.1 h.distinct).1 (List.mem_map.2 ⟨frame, hmem, rfl⟩)

/-- What happens has nothing to do with the keys of the open elements. -/
theorem others (h : Standing outline log) {more : List Happening}
    (hmore : ∀ happening ∈ more, ∀ frame ∈ outline, happening.keyed? ≠ some frame.2) :
    Standing outline (log ++ more) where
  key frame hmem := by
    rw [keyIn_append_of_other fun happening hhappening => hmore happening hhappening frame hmem]
    exact h.key frame hmem
  waiting frame hmem container key hentered := by
    rcases List.mem_append.1 hentered with hold | hnew
    · exact h.waiting frame hmem container key hold
    · exact hmore _ hnew frame hmem rfl
  distinct := h.distinct

/-- One more element starts. -/
theorem start (h : Standing outline log) (hapart : ∀ frame ∈ outline, frame.2 ≠ object)
    (hnew : ∀ happening ∈ log, happening.keyed? ≠ some object) :
    Standing ((tag, object) :: outline) (log ++ startHappenings object tag) := by
  have hothers : Standing outline (log ++ startHappenings object tag) :=
    h.others fun happening hmem frame hframe hsame =>
    hapart frame hframe (keyed?_startHappenings hmem hsame)
  refine ⟨List.forall_mem_cons.2 ⟨?_, hothers.key⟩,
    List.forall_mem_cons.2 ⟨fun container key hentered => ?_,
    hothers.waiting⟩, List.nodup_cons.2 ⟨fun hmem => ?_, h.distinct⟩⟩
  · rw [startHappenings, keyIn_attributes, keyIn_eq_none hnew]
    rfl
  · rcases List.mem_append.1 hentered with hold | hstart
    · exact hnew _ hold rfl
    · rcases mem_startHappenings hstart with ⟨_, heq⟩ | ⟨_, _, heq⟩ <;> cases heq
  · obtain ⟨frame, hframe, hsame⟩ := List.mem_map.1 hmem
    exact hapart frame hframe hsame

/-- The innermost element ends. -/
theorem finish (h : Standing ((tag, object) :: outline) log) (outer : List OpenElement) :
    Standing outline (log ++ endHappenings tag object outer) := by
  refine h.tail.others fun happening hmem frame hframe hsame => ?_
  rw [keyed?_endHappenings hmem] at hsame
  exact h.ne_head frame hframe (Option.some.inj hsame).symm

end Standing

/-! ## Steps and runs -/

/-- Where a run has come to, pass and open elements are as the chronicle says. While the root
element has not started, nothing has happened. -/
structure Agrees (p : Pass) (stage : Stage) (log : List Happening) : Prop where
  told : Told p log
  standing : Standing stage.outline log
  unread : ∀ root, stage = .prolog root → log = []

namespace Agrees

variable {position : Nat → Option Position} {p after : Pass} {stage next : Stage}
  {log : List Happening} {start : Nat}

/-- A finished object is handed over. -/
theorem delivered {tag : StartTag} {object : ObjectId} {outer : List OpenElement}
    (htold : Told p log) (hstanding : Standing ((tag, object) :: outer.map OpenElement.frame) log)
    (hobject : object.index < p.graph.size)
    (houter : ∀ element ∈ outer, element.object.index < p.graph.size)
    (h : Delivered p object outer next after) :
    Agrees after next (log ++ endHappenings tag object outer) := by
  cases h with
  | root =>
    rw [endHappenings, List.append_nil]
    exact ⟨htold, .nothing log, fun _ h => by cases h⟩
  | @value parent outer slot hproperty =>
    rw [endHappenings_of_property hproperty, List.append_nil]
    exact ⟨htold, hstanding.tail, fun _ h => by cases h⟩
  | @child parent outer after hproperty hinsert =>
    have hkey := hstanding.key (tag, object) List.mem_cons_self
    have hwaiting := hstanding.waiting (tag, object) List.mem_cons_self
    exact ⟨htold.insertChild outer hproperty (houter parent List.mem_cons_self) hobject hkey
      hwaiting hinsert, hstanding.finish (parent :: outer), fun _ h => by cases h⟩

theorem nothing_of_given (h : Agrees p stage log) {root : ObjectId}
    (hgiven : stage.given? = some root) : log = [] := by
  cases stage with
  | prolog root => exact h.unread root rfl
  | content element outer => cases hgiven
  | epilog root => cases hgiven

/-- A tag starts an element. -/
theorem opening (h : Agrees p stage log) {tag : StartTag} {opened : OpenElement}
    (hgiven : ∀ root, stage.given? = some root → root.index < p.graph.size)
    (hknown : ∀ element ∈ stage.opened, element.object.index < p.graph.size)
    (halone : stage.given?.isSome → stage.opened = [])
    (hopen : openElement position p stage.given? tag start = (.ok opened, after)) :
    Told after (log ++ startHappenings opened.object tag) ∧
      Standing ((tag, opened.object) :: stage.outline) (log ++ startHappenings opened.object tag) ∧
      p.graph.size ≤ after.graph.size ∧ opened.object.index < after.graph.size ∧
      opened.object = stage.given?.getD ⟨p.graph.size⟩ ∧ opened.tag = tag := by
  obtain ⟨htold, hsize, hobject, hwhich, htag, -⟩ := h.told.openElement hgiven hopen
  refine ⟨htold, h.standing.start ?_ ?_, hsize, hobject, hwhich, htag⟩
  · intro frame hframe hsame
    obtain ⟨element, hmem, rfl⟩ := List.mem_map.1 hframe
    cases hgive : stage.given? with
    | some root =>
      rw [halone (by rw [hgive]; rfl)] at hmem
      cases hmem
    | none =>
      have hindex := hknown element hmem
      rw [hgive] at hwhich
      rw [show element.object = opened.object from hsame, hwhich] at hindex
      exact Nat.lt_irrefl _ hindex
  · intro happening hmem hsame
    cases hgive : stage.given? with
    | some root =>
      rw [h.nothing_of_given hgive] at hmem
      cases hmem
    | none =>
      have hindex := h.told.known happening hmem _ (Happening.mem_objects_of_keyed? hsame)
      rw [hwhich, hgive] at hindex
      exact Nat.lt_irrefl _ hindex

/-- **One step.** -/
theorem step (h : Agrees p stage log) {node : Node}
    (hgiven : ∀ root, stage.given? = some root → root.index < p.graph.size)
    (hknown : ∀ element ∈ stage.opened, element.object.index < p.graph.size)
    (halone : stage.given?.isSome → stage.opened = [])
    (hstepped : Stepped position p start stage node next after) :
    Agrees after next (log ++ stage.happenings p.graph node) := by
  cases hstepped with
  | quiet houtline hprolog hnothing =>
    rw [hnothing, List.append_nil]
    refine ⟨h.told, ?_, fun root hroot => h.unread root (hprolog root hroot)⟩
    rw [houtline]
    exact h.standing
  | @assigned element outer slot value _ written hproperty hvalue hassign =>
    rw [Stage.happenings_assigned p.graph written hproperty hvalue]
    refine ⟨h.told.assign (hknown element List.mem_cons_self) hassign, ?_, fun _ h => by cases h⟩
    refine h.standing.others fun happening hmem _ _ hsame => ?_
    rw [keyed?_assignmentHappenings hmem] at hsame
    cases hsame
  | @opened _ tag opened _ hstarts hopens hopen =>
    obtain ⟨htold, hstanding, -, -, hwhich, htag⟩ := h.opening hgiven hknown halone hopen
    rw [Stage.happenings_opened hstarts hwhich hopens]
    subst htag
    exact ⟨htold, hstanding, fun _ h => by cases h⟩
  | @closed _ _ tag opened between _ hstarts hcloses hopen hdelivered =>
    obtain ⟨htold, hstanding, hsize, hobject, hwhich, -⟩ := h.opening hgiven hknown halone hopen
    rw [Stage.happenings_closed hstarts hwhich hcloses, ← List.append_assoc]
    exact delivered htold hstanding hobject
      (fun element hmem => Nat.lt_of_lt_of_le (hknown element hmem) hsize) hdelivered
  | @ended element outer _ _ written hproperty hdelivered =>
    rw [Stage.happenings_ended p.graph written hproperty]
    exact delivered h.told h.standing (hknown element List.mem_cons_self)
      (fun other hmem => hknown other (List.mem_cons_of_mem _ hmem)) hdelivered

end Agrees

section Runs

variable {request : LoadRequest} {text : String}

/-- **Any run.** A root object that is given has to exist. -/
theorem agrees_of_records {position : Nat → Option Position} {last : Progress}
    {log : List Happening}
    (hroot : ∀ given, request.root = some given → given.index < request.graph.size)
    (h : (request.progress text).Records position last log) : Agrees last.pass last.stage log := by
  induction h with
  | start => exact ⟨.of_start request, .nothing [], fun _ _ => rfl⟩
  | node hrecords hstep ih =>
    obtain ⟨hgiven, hopen, halone⟩ := known_of_reaches hroot hrecords.reaches
    exact ih.step hgiven (fun element hmem => (hopen.opened element hmem).1) halone
      (stepped_of_step hstep)

/-- **Any point of a load.** -/
theorem told_of_moment {p : Pass} {log : List Happening}
    (hroot : ∀ given, request.root = some given → given.index < request.graph.size)
    (h : request.Moment text p log) : Told p log := by
  cases h with
  | between hrecords => exact (agrees_of_records hroot hrecords).told
  | inside count hrecords hstarts hopen =>
    obtain ⟨hgiven, -, -⟩ := known_of_reaches hroot hrecords.reaches
    exact ((agrees_of_records hroot hrecords).told.openElement hgiven hopen).1

end Runs

end Hydration

end MarkupForms
