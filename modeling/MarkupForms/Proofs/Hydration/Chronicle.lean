import MarkupForms.Proofs.Hydration.LastWrite

/-!
# What happens in a pass

A chronicle tells, in the order of the document, which keys a pass declares, which bindings it
writes, which objects it enters into keyed containers and which containers it shares as resources.
It is read off the nodes and what is open around them. The tables of the pass have no part in it,
except that a container is shared with the entries that it has by then.

What a key stands for, and which key an object still has, can be asked of a chronicle, too; whether
the pass gives the same answers is another matter.
-/

namespace MarkupForms.Hydration

open Markup

/-- Something that happens in a pass and has to do with keys, resources or bindings. -/
inductive Happening where
  /-- An attribute declares a key on the object of its element. -/
  | declared (object : ObjectId) (key : String)
  /-- A text that is an expression is assigned to a property. -/
  | bound (object : ObjectId) (name text : String)
  /-- The object of an element is put into the keyed container around it, under the key of the
  element. -/
  | entered (container : ObjectId) (key : String) (object : ObjectId)
  /-- A container is assigned as `Resources`. -/
  | shared (container : ObjectId) (entries : List (String × ObjectId))
  deriving Repr, DecidableEq

namespace Happening

/-- What a happening inserts into the resources, in order. -/
def insertions : Happening → List (String × ObjectId)
  | .entered _ key object => [(key, object)]
  | .shared _ entries => entries
  | .declared _ _ | .bound _ _ _ => []

/-- What a happening inserts into a keyed container. -/
def entries : Happening → List (String × ObjectId)
  | .entered _ key object => [(key, object)]
  | .shared _ _ | .declared _ _ | .bound _ _ _ => []

/-- The key that an object has after a happening, declared and not taken yet. -/
def keyLeft (object : ObjectId) (before : Option String) : Happening → Option String
  | .declared other key => if other = object then some key else before
  | .entered _ _ other => if other = object then none else before
  | .bound _ _ _ | .shared _ _ => before

/-- The object whose key a happening declares or takes. -/
def keyed? : Happening → Option ObjectId
  | .declared object _ | .entered _ _ object => some object
  | .bound _ _ _ | .shared _ _ => none

end Happening

/-! ## Questions to a chronicle -/

/-- The object of the last insertion under a key. -/
def lastUnder? (key : String) (insertions : List (String × ObjectId)) : Option ObjectId :=
  ((insertions.filter (·.1 = key)).getLast?).map (·.2)

/-- The object of the last insertion into the resources. -/
def declared? (key : String) (log : List Happening) : Option ObjectId :=
  lastUnder? key (log.flatMap Happening.insertions)

/-- The object that was last put into a keyed container under a key. -/
def entered? (key : String) (log : List Happening) : Option ObjectId :=
  lastUnder? key (log.flatMap Happening.entries)

/-- The key of an object, declared and not taken yet. -/
def keyIn (object : ObjectId) (log : List Happening) : Option String :=
  log.foldl (Happening.keyLeft object) none

theorem lastUnder?_append (key : String) (first second : List (String × ObjectId)) :
    lastUnder? key (first ++ second) = (lastUnder? key second).or (lastUnder? key first) := by
  unfold lastUnder?
  rw [List.filter_append, List.getLast?_append]
  cases (second.filter (·.1 = key)).getLast? <;> rfl

theorem lastUnder?_single (key name : String) (object : ObjectId) :
    lastUnder? key [(name, object)] = if name = key then some object else none := by
  unfold lastUnder?
  by_cases h : name = key <;> simp [h]

/-- Reading back what was inserted. -/
theorem get?_insertAll (m : OrderedMap ObjectId) (insertions : List (String × ObjectId))
    (key : String) :
    (m.insertAll insertions).get? key = (lastUnder? key insertions).or (m.get? key) := by
  induction insertions generalizing m with
  | nil => rfl
  | cons first rest ih =>
    obtain ⟨name, object⟩ := first
    rw [OrderedMap.insertAll_cons, ih, OrderedMap.get?_insert, ← List.singleton_append,
      lastUnder?_append, lastUnder?_single, Option.or_assoc]
    by_cases hname : name = key <;> simp [hname]

theorem get?_ofList (insertions : List (String × ObjectId)) (key : String) :
    (OrderedMap.ofList insertions).get? key = lastUnder? key insertions := by
  rw [OrderedMap.ofList, get?_insertAll, OrderedMap.get?_empty, Option.or_none]

theorem keyIn_concat (object : ObjectId) (log : List Happening) (happening : Happening) :
    keyIn object (log ++ [happening]) = happening.keyLeft object (keyIn object log) := by
  rw [keyIn, List.foldl_append]
  rfl

theorem Happening.keyLeft_of_other {object : ObjectId} {happening : Happening}
    (h : happening.keyed? ≠ some object) (key : Option String) :
    happening.keyLeft object key = key := by
  cases happening with
  | declared other _ => exact if_neg fun heq => h (congrArg some heq)
  | entered _ _ other => exact if_neg fun heq => h (congrArg some heq)
  | bound => rfl
  | shared => rfl

/-- What happens to the keys of others does not matter. -/
theorem keyIn_append_of_other {object : ObjectId} {log more : List Happening}
    (h : ∀ happening ∈ more, happening.keyed? ≠ some object) :
    keyIn object (log ++ more) = keyIn object log := by
  induction more using List.reverseRecOn with
  | nil => rw [List.append_nil]
  | append_singleton more happening ih =>
    rw [← List.append_assoc, keyIn_concat, Happening.keyLeft_of_other (h happening (by simp)),
      ih fun later hlater => h later (List.mem_append_left _ hlater)]

/-! ## What happens at a node -/

/-- What happens when a value is assigned to a property. -/
def assignmentHappenings (g : Graph) (object : ObjectId) (name : String) : RawValue → List Happening
  | .text text => if Pass.isExpression text then [.bound object name text] else []
  | .object container =>
    if name = "Resources" then
      match (g.component? container).bind (·.entries) with
      | some entries => [.shared container entries.toList]
      | none => []
    else []

/-- What happens when an attribute is applied to an object. -/
def attributeHappenings (object : ObjectId) (attr : Markup.Attribute) : List Happening :=
  match Pass.roleOf attr.name with
  | .property name => if Pass.isExpression attr.value then [.bound object name attr.value] else []
  | .key => [.declared object attr.value]
  | .ignored => []

/-- What happens when the attributes of a tag are applied to an object. -/
def startHappenings (object : ObjectId) (tag : StartTag) : List Happening :=
  tag.attributes.flatMap (attributeHappenings object)

/-- What happens when an element ends with others around it: it is entered into the innermost, if
that is a keyed container and not at a property element, under the key that its tag declares. -/
def endHappenings (tag : StartTag) (object : ObjectId) : List OpenElement → List Happening
  | [] => []
  | parent :: _ =>
    match parent.property, parent.type.containerKind, declaredKey tag.attributes with
    | none, .keyed, some key => [.entered parent.object key object]
    | _, _, _ => []

/-- What happens at a tag that starts an element. A new object gets the next free number. -/
def Stage.startsWith (stage : Stage) (g : Graph) (tag : StartTag) : List Happening :=
  let object := stage.given?.getD ⟨g.size⟩
  startHappenings object tag ++ if tag.selfClosing
    then endHappenings tag object stage.opened else []

/-- **What happens at a node.** -/
def Stage.happenings (stage : Stage) (g : Graph) : Node → List Happening
  | .text _ | .blank => []
  | .element tag =>
    match stage with
    | .prolog _ => stage.startsWith g tag
    | .content _ _ => if tag.isPropertyElement then [] else stage.startsWith g tag
    | .epilog _ => []
  | .endElement _ =>
    match stage with
    | .prolog _ | .epilog _ => []
    | .content element outer =>
      match element.property with
      | none => endHappenings element.tag element.object outer
      | some slot =>
        match slot.value with
        | none => []
        | some value => assignmentHappenings g element.object slot.property value

/-! ## What a step does -/

/-- The tag of an open element and its object. -/
def OpenElement.frame (element : OpenElement) : StartTag × ObjectId :=
  (element.tag, element.object)

/-- What is open, without the property elements. -/
def Stage.outline (stage : Stage) : List (StartTag × ObjectId) :=
  stage.opened.map OpenElement.frame

/-- What becomes of a finished object that is handed over. -/
inductive Delivered (p : Pass) (object : ObjectId) : List OpenElement → Stage → Pass → Prop where
  | root : Delivered p object [] (.epilog object) p
  | value {parent : OpenElement} {outer : List OpenElement} {slot : OpenProperty}
      (hproperty : parent.property = some slot) :
      Delivered p object (parent :: outer)
        (.content { parent with property := some { slot with value := some (.object object) } }
          outer) p
  | child {parent : OpenElement} {outer : List OpenElement} {after : Pass}
      (hproperty : parent.property = none)
      (hinsert : p.insertChild parent.object parent.type object = (.ok (), after)) :
      Delivered p object (parent :: outer) (.content parent outer) after

/-- What a step does that succeeds. -/
inductive Stepped (position : Nat → Option Position) (p : Pass) (start : Nat) :
    Stage → Node → Stage → Pass → Prop where
  /-- Nothing happens; a property element may start or take a text. -/
  | quiet {stage next : Stage} {node : Node} (houtline : next.outline = stage.outline)
      (hprolog : ∀ root, next = .prolog root → stage = .prolog root)
      (hnothing : ∀ g, stage.happenings g node = []) : Stepped position p start stage node next p
  | assigned {element : OpenElement} {outer : List OpenElement} {slot : OpenProperty}
      {value : RawValue}
      {after : Pass} (written : String) (hproperty : element.property = some slot)
      (hvalue : slot.value = some value)
      (hassign : p.assign element.object element.type slot.property value = .ok after) :
      Stepped position p start (.content element outer) (.endElement written)
        (.content { element with property := none } outer) after
  | opened {stage : Stage} {tag : StartTag} {opened : OpenElement} {after : Pass}
      (hstarts : stage.Starts position start tag)
      (hopens : tag.selfClosing = false) (hopen :
        openElement position p stage.given? tag start = (.ok opened, after)) :
      Stepped position p start stage (.element tag) (.content opened stage.opened) after
  | closed {stage next : Stage} {tag : StartTag} {opened : OpenElement} {between after : Pass}
      (hstarts : stage.Starts position start tag) (hcloses : tag.selfClosing = true)
      (hopen : openElement position p stage.given? tag start = (.ok opened, between))
      (hdelivered : Delivered between opened.object stage.opened next after) :
      Stepped position p start stage (.element tag) next after
  | ended {element : OpenElement} {outer : List OpenElement} {next : Stage} {after : Pass}
      (written : String)
      (hproperty : element.property = none) (hdelivered :
        Delivered p element.object outer next after) :
      Stepped position p start (.content element outer) (.endElement written) next after

section Happenings

variable {stage : Stage} {element parent : OpenElement} {outer : List OpenElement}
  {slot : OpenProperty} {tag : StartTag} {object : ObjectId} {position : Nat → Option Position}
  {start : Nat}

theorem Stage.happenings_of_starts (h : stage.Starts position start tag) (g : Graph) :
    stage.happenings g (.element tag) = stage.startsWith g tag := by
  cases stage with
  | prolog root => rfl
  | content element outer => simp [Stage.happenings, h.1]
  | epilog root => exact h.elim

theorem Stage.happenings_opened {g : Graph} (hstarts : stage.Starts position start tag)
    (hobject : object = stage.given?.getD ⟨g.size⟩) (hopens : tag.selfClosing = false) :
    stage.happenings g (.element tag) = startHappenings object tag := by
  rw [Stage.happenings_of_starts hstarts, Stage.startsWith, ← hobject, hopens]
  exact List.append_nil _

theorem Stage.happenings_closed {g : Graph} (hstarts : stage.Starts position start tag)
    (hobject : object = stage.given?.getD ⟨g.size⟩) (hcloses : tag.selfClosing = true) :
    stage.happenings g (.element tag) = startHappenings object tag ++
      endHappenings tag object stage.opened := by
  rw [Stage.happenings_of_starts hstarts, Stage.startsWith, ← hobject, if_pos hcloses]

theorem Stage.happenings_assigned (g : Graph) (written : String) {value : RawValue}
    (hproperty : element.property = some slot) (hvalue : slot.value = some value) :
    (Stage.content element outer).happenings g (.endElement written) =
      assignmentHappenings g element.object slot.property value := by
  simp [Stage.happenings, hproperty, hvalue]

theorem Stage.happenings_ended (g : Graph) (written : String)
    (hproperty : element.property = none) :
    (Stage.content element outer).happenings g (.endElement written) =
      endHappenings element.tag element.object outer := by
  simp [Stage.happenings, hproperty]

theorem endHappenings_of_property (hproperty : parent.property = some slot) :
    endHappenings tag object (parent :: outer) = [] := by
  simp [endHappenings, hproperty]

theorem endHappenings_of_items (hproperty : parent.property = none)
    (hkind : parent.type.containerKind = .items) :
    endHappenings tag object (parent :: outer) = [] := by
  simp [endHappenings, hproperty, hkind]

theorem endHappenings_of_keyed {key : String} (hproperty : parent.property = none)
    (hkind : parent.type.containerKind = .keyed) (hkey : declaredKey tag.attributes = some key) :
    endHappenings tag object (parent :: outer) = [.entered parent.object key object] := by
  simp [endHappenings, hproperty, hkind, hkey]

end Happenings

section Steps

variable {position : Nat → Option Position} {p after : Pass} {stage next : Stage} {start : Nat}

theorem delivered_of_deliver {object : ObjectId} {outer : List OpenElement}
    (h : deliver position p object start outer = (.ok next, after)) :
    Delivered p object outer next after := by
  cases outer with
  | nil =>
    cases h
    exact .root
  | cons parent outer =>
    rw [deliver] at h
    cases hproperty : parent.property with
    | some slot =>
      rw [hproperty] at h
      cases h
      exact .value hproperty
    | none =>
      rw [hproperty] at h
      dsimp only at h
      rcases hinsert : insertObject position p parent start object with ⟨error | ⟨⟩, between⟩
      · rw [hinsert] at h
        cases h
      · rw [hinsert] at h
        cases h
        exact .child hproperty (insertObject_eq_ok hinsert)

theorem stepped_of_starts {tag : StartTag} (hstarts : stage.Starts position start tag)
    (h : step position p stage start (.element tag) = (.ok next, after)) :
    Stepped position p start stage (.element tag) next after := by
  rw [step_of_starts hstarts, startElement] at h
  rcases hopen : openElement position p stage.given? tag start with ⟨error | opened, between⟩
  · rw [hopen] at h
    cases h
  · rw [hopen] at h
    dsimp only at h
    by_cases hcloses : tag.selfClosing = true
    · rw [if_pos hcloses, closeElement_eq_deliver] at h
      exact .closed hstarts hcloses hopen (delivered_of_deliver h)
    · rw [if_neg hcloses] at h
      cases h
      exact .opened hstarts (Bool.eq_false_iff.2 hcloses) hopen

theorem stepped_of_stepElement {element : OpenElement} {outer : List OpenElement} {node : Node}
    (hproperty : element.property = none)
    (h : stepElement position p element outer start node = (.ok next, after)) :
    Stepped position p start (.content element outer) node next after := by
  cases node with
  | element tag =>
    by_cases hdotted : tag.isPropertyElement = true
    · obtain ⟨here, hposition⟩ := position_of_stepElement (congrArg Prod.fst h)
      simp only [stepElement, hposition, hdotted, if_true, startProperty] at h
      split at h
      · cases h
      · split at h
        · cases h
        · cases h
          exact .quiet rfl (fun _ h => by cases h) fun _ => by simp [Stage.happenings, hdotted]
    · have hstep : step position p (.content element outer) start (.element tag) =
          (.ok next, after) := by
        rw [step, hproperty]
        exact h
      have hplace := Option.isSome_iff_exists.2 (position_of_stepElement (congrArg Prod.fst h))
      refine stepped_of_starts ⟨Bool.eq_false_iff.2 hdotted, fun _ => hplace,
        fun slot hslot => ?_⟩ hstep
      rw [hproperty] at hslot
      cases hslot
  | endElement written =>
    simp only [stepElement, closeElement_eq_deliver] at h
    exact .ended written hproperty (delivered_of_deliver h)
  | text content =>
    cases h
    exact .quiet rfl (fun _ => id) fun _ => rfl
  | blank =>
    cases h
    exact .quiet rfl (fun _ => id) fun _ => rfl

/-- An element inside a property element is accepted as its only value. -/
theorem starts_of_stepProperty {element : OpenElement} {outer : List OpenElement}
    {slot : OpenProperty} {tag : StartTag} (hproperty : element.property = some slot)
    (h : stepProperty position p element outer slot start (.element tag) = (.ok next, after)) :
    (Stage.content element outer).Starts position start tag := by
  simp only [stepProperty] at h
  cases hvalue : slot.value with
  | some value => rw [hvalue] at h; cases h
  | none =>
    rw [hvalue] at h
    dsimp only at h
    split at h
    · cases h
    · next hobject =>
      refine ⟨Bool.eq_false_iff.2 hobject, fun hnone => ?_, fun given hgiven => ?_⟩
      · rw [hproperty] at hnone
        cases hnone
      · rw [hproperty] at hgiven
        cases hgiven
        exact hvalue

theorem stepped_of_stepProperty {element : OpenElement} {outer : List OpenElement}
    {slot : OpenProperty} {node : Node} (hproperty : element.property = some slot)
    (h : stepProperty position p element outer slot start node = (.ok next, after)) :
    Stepped position p start (.content element outer) node next after := by
  cases node with
  | element tag =>
    have hstep : step position p (.content element outer) start (.element tag) =
        (.ok next, after) := by
      rw [step, hproperty]
      exact h
    exact stepped_of_starts (starts_of_stepProperty hproperty h) hstep
  | endElement written =>
    simp only [stepProperty] at h
    cases hvalue : slot.value with
    | none => rw [hvalue] at h; cases h
    | some value =>
      rw [hvalue] at h
      dsimp only at h
      cases hassign : p.assign element.object element.type slot.property value with
      | error error => rw [hassign] at h; cases h
      | ok between =>
        rw [hassign] at h
        cases h
        exact .assigned written hproperty hvalue hassign
  | text content =>
    simp only [stepProperty] at h
    split at h
    · cases h
    · cases h
      exact .quiet rfl (fun _ h => by cases h) fun _ => rfl
  | blank =>
    cases h
    exact .quiet rfl (fun _ => id) fun _ => rfl

/-- **A step that succeeds does one of five things.** -/
theorem stepped_of_step {node : Node} (h : step position p stage start node = (.ok next, after)) :
    Stepped position p start stage node next after := by
  cases stage with
  | prolog root =>
    cases node with
    | element tag => exact stepped_of_starts trivial h
    | endElement written => cases h
    | text content => cases h; exact .quiet rfl (fun _ => id) fun _ => rfl
    | blank => cases h; exact .quiet rfl (fun _ => id) fun _ => rfl
  | content element outer =>
    rw [step] at h
    cases hproperty : element.property with
    | none =>
      rw [hproperty] at h
      exact stepped_of_stepElement hproperty h
    | some slot =>
      rw [hproperty] at h
      exact stepped_of_stepProperty hproperty h
  | epilog root =>
    cases node with
    | blank => cases h; exact .quiet rfl (fun _ => id) fun _ => rfl
    | _ => cases h

end Steps

/-! ## Runs -/

/-- What a run comes to, node by node, with all that has happened on the way. -/
inductive Progress.Records (position : Nat → Option Position) (first : Progress) :
    Progress → List Happening → Prop where
  | start : Records position first first []
  | node {p after : Pass} {stage next : Stage} {place : Place} {node : Node} {rest : NodeFeed}
      {log : List Happening} :
      Records position first ⟨p, stage, .node place node rest⟩ log →
      step position p stage place.start node = (.ok next, after) →
      Records position first ⟨after, next, rest⟩ (log ++ stage.happenings p.graph node)

/-- A point of a load, with the pass there and all that has happened by then: a point between two
nodes, or one inside a tag that starts an element, behind the first attributes of the tag. -/
inductive LoadRequest.Moment (request : LoadRequest) (text : String) : Pass → List Happening →
    Prop where
  | between {p : Pass} {stage : Stage} {unread : NodeFeed} {log : List Happening} :
      (request.progress text).Records (Position.ofOffset? text.toList) ⟨p, stage, unread⟩ log →
      Moment request text p log
  | inside {p q : Pass} {stage : Stage} {place : Place} {tag : StartTag} {rest : NodeFeed}
      {log : List Happening} {opened : OpenElement} (count : Nat) :
      (request.progress text).Records (Position.ofOffset? text.toList)
      ⟨p, stage, .node place (.element tag) rest⟩
        log →
      stage.Starts (Position.ofOffset? text.toList) place.start tag →
      openElement (Position.ofOffset? text.toList) p stage.given?
        { tag with attributes := tag.attributes.take count } place.start = (.ok opened, q) →
      Moment request text q
        (log ++ startHappenings opened.object { tag with attributes := tag.attributes.take count })

/-- All that happens in the rest of a run, as far as its nodes are accepted. -/
def chronicle (position : Nat → Option Position) (p : Pass) (stage : Stage) :
    NodeFeed → List Happening
  | .node place node rest =>
    match step position p stage place.start node with
    | (.ok next, after) => stage.happenings p.graph node ++ chronicle position after next rest
    | (.error _, _) => []
  | .fault _ _ | .finished _ => []

/-- All that happens in a load. -/
def LoadRequest.chronicle (request : LoadRequest) (text : String) : List Happening :=
  Hydration.chronicle (Position.ofOffset? text.toList) request.pass (.prolog request.root)
    (.ofText text.toList)

namespace Progress.Records

variable {position : Nat → Option Position} {first : Progress} {log : List Happening}

theorem reaches {last : Progress} (h : first.Records position last log) :
    first.Reaches position last := by
  induction h with
  | start => exact .start
  | node _ hstep ih => exact .node ih hstep

/-- A run that succeeds comes to its end, with all that happens in it on record. -/
theorem finish {p after : Pass} {stage : Stage} {feed : NodeFeed} {root : ObjectId}
    (h : first.Records position ⟨p, stage, feed⟩ log)
    (hassemble : assemble position p stage feed = (.ok root, after)) :
    ∃ place, first.Records position ⟨after, .epilog root, .finished place⟩
      (log ++ Hydration.chronicle position p stage feed) := by
  induction feed generalizing p stage log with
  | node place node rest ih =>
    rw [assemble] at hassemble
    rcases hstep : step position p stage place.start node with ⟨error | next, between⟩
    · rw [hstep] at hassemble
      cases hassemble
    · rw [hstep] at hassemble
      obtain ⟨last, hlast⟩ := ih (h.node hstep) hassemble
      rw [Hydration.chronicle, hstep]
      rw [List.append_assoc] at hlast
      exact ⟨last, hlast⟩
  | fault place fault => cases hassemble
  | finished place =>
    cases stage with
    | prolog root => cases hassemble
    | content element outer => cases hassemble
    | epilog object =>
      cases hassemble
      rw [Hydration.chronicle, List.append_nil]
      exact ⟨place, h⟩

end Progress.Records

/-- Whatever a run comes to, something is on record of it. -/
theorem Progress.Reaches.records {position : Nat → Option Position} {first last : Progress}
    (h : first.Reaches position last) : ∃ log, first.Records position last log := by
  induction h with
  | start => exact ⟨[], .start⟩
  | node _ hstep ih =>
    obtain ⟨log, hlog⟩ := ih
    exact ⟨_, hlog.node hstep⟩

/-- The end of a load that succeeds, with all that happens in it. -/
theorem LoadRequest.moment_of_load {request : LoadRequest} {text : String} {root : ObjectId}
    {graph : Graph} (h : request.load text = (.ok root, graph)) :
    ∃ p, request.Moment text p (request.chronicle text) ∧ p.graph = graph := by
  rcases hassemble : assemble (Position.ofOffset? text.toList) request.pass (.prolog request.root)
    (.ofText text.toList) with ⟨outcome, after⟩
  have hload : request.load text = (outcome, after.graph) :=
    congrArg (fun assembled : Outcome ObjectId => (assembled.1, assembled.2.graph)) hassemble
  rw [h] at hload
  cases hload
  have hstart : (request.progress text).Records (Position.ofOffset? text.toList)
      ⟨request.pass, .prolog request.root, .ofText text.toList⟩ [] := .start
  obtain ⟨place, hend⟩ := hstart.finish hassemble
  exact ⟨after, .between hend, rfl⟩

end MarkupForms.Hydration
