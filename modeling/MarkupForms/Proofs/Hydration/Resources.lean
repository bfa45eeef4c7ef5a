import MarkupForms.Proofs.Hydration.Growth
import MarkupForms.Proofs.Hydration.Isolation
import MarkupForms.Proofs.Hydration.Ledger
import MarkupForms.Proofs.Hydration.TreeShape

/-!
# Which resource a key stands for

A key stands for the object of the last insertion under it, be it that the object was entered into a
keyed container or that a container with the key was shared. So a binding has the converter that was
declared before it, wherever that stands in the document.

To share a container is to insert its entries once more. They were inserted when they were entered,
so this changes nothing unless the key was entered into another container since; then the older
object comes back (`Undone`).
-/

namespace MarkupForms

/-- The entries of an object. -/
def Graph.entries? (g : Graph) (object : ObjectId) : Option (OrderedMap ObjectId) :=
  (g.component? object).bind (·.entries)

/-- What an object contains: its items and its entries. -/
def Graph.contained? (g : Graph) (object : ObjectId) :
    Option (Option (List ObjectId) × Option (OrderedMap ObjectId)) :=
  (g.component? object).map fun c => (c.items, c.entries)

namespace Hydration

open Markup

/-! ## A key declared twice -/

/-- A label under a key in a dictionary, and another label under the same key in a dictionary inside
that one; then a binding with a converter of that key. -/
def twiceDeclaredText : String :=
  "<Label xmlns:x='http://schemas.microsoft.com/winfx/2006/xaml'><Label.Resources>" ++
    "<ResourceDictionary><Label x:Key='k'/><ResourceDictionary x:Key='d'><Label x:Key='k'/>" ++
    "</ResourceDictionary></ResourceDictionary></Label.Resources>" ++
    "<Label.Text>\x7bBinding N,Converter=\x7bStaticResource k\x7d\x7d</Label.Text></Label>"

/-- A tag that declares a key. -/
def keyedTag (name key : String) (selfClosing : Bool) : StartTag :=
  ⟨⟨name, name, ""⟩, [⟨⟨"x:Key", "Key", metadataNamespace⟩, key⟩], selfClosing⟩

theorem selfClosing_keyedTag (name key : String) (selfClosing : Bool) :
    (keyedTag name key selfClosing).selfClosing = selfClosing := rfl

theorem selfClosing_labelTextTag : labelTextTag.selfClosing = false := rfl

/-- The outer dictionary of `twiceDeclaredText`. -/
def twiceDeclaredEntries : Element :=
  .enclosing ⟨79, 0⟩ ⟨⟨"ResourceDictionary", "ResourceDictionary", ""⟩, [], false⟩ rfl
    (.element (.selfClosed ⟨99, 0⟩ (keyedTag "Label" "k" true)
      (selfClosing_keyedTag "Label" "k" true)) <|
      .element (.enclosing ⟨117, 0⟩ (keyedTag "ResourceDictionary" "d" false)
        (selfClosing_keyedTag "ResourceDictionary" "d" false)
        (.element (.selfClosed ⟨147, 0⟩ (keyedTag "Label" "k" true)
          (selfClosing_keyedTag "Label" "k" true)) .none)
        ⟨165, 0⟩) .none)
    ⟨186, 0⟩

/-- The element of `twiceDeclaredText`. -/
def twiceDeclaredLabel : Element :=
  .enclosing ⟨0, 0⟩
    ⟨⟨"Label", "Label", ""⟩, [⟨⟨"xmlns:x", "x", declarationNamespace⟩, metadataNamespace⟩],
      false⟩ rfl
    (.element (.enclosing ⟨62, 0⟩ ⟨⟨"Label.Resources", "Label.Resources", ""⟩, [], false⟩ rfl
        (.element twiceDeclaredEntries .none) ⟨207, 0⟩) <|
      .element (.enclosing ⟨225, 0⟩ labelTextTag selfClosing_labelTextTag
        (.text ⟨237, 0⟩ "\x7bBinding N,Converter=\x7bStaticResource k\x7d\x7d" .none)
        ⟨277, 0⟩) .none)
    ⟨290, 0⟩

theorem twiceDeclaredText_feed :
    NodeFeed.ofText twiceDeclaredText.toList = twiceDeclaredLabel.followedBy
      (.finished ⟨298, 0⟩) := by
  unfold twiceDeclaredText
  iterate 3 rw [String.toList_append]
  iterate 4 rw [String.toList_ofList]
  rw [NodeFeed.ofText_eq]
  decide +kernel

/-- What happens in `twiceDeclaredText` before the binding is written: the first label is entered
under the key, then the second one, and then the first one is shared. -/
def beforeBinding : List Happening :=
  [.declared ⟨2⟩ "k", .entered ⟨1⟩ "k" ⟨2⟩, .declared ⟨3⟩ "d", .declared ⟨4⟩ "k",
    .entered ⟨3⟩ "k" ⟨4⟩, .entered ⟨1⟩ "d" ⟨3⟩, .shared ⟨1⟩ [("k", ⟨2⟩), ("d", ⟨3⟩)]]

theorem chronicle_twiceDeclaredText : newObjectsRequest.chronicle twiceDeclaredText =
    beforeBinding ++
      [.bound ⟨0⟩ "Text" "\x7bBinding N,Converter=\x7bStaticResource k\x7d\x7d"] := by
  rw [LoadRequest.chronicle, twiceDeclaredText_feed]
  decide +kernel

theorem load_twiceDeclaredText : ∃ graph, newObjectsRequest.load twiceDeclaredText =
    (.ok ⟨0⟩, graph) := by
  refine exists_of_toOption ?_
  rw [LoadRequest.load_of_feed _ twiceDeclaredText_feed]
  decide +kernel

theorem moment_twiceDeclaredText : ∃ p, newObjectsRequest.Moment twiceDeclaredText p
    (newObjectsRequest.chronicle twiceDeclaredText) ∧
    p.graph = (newObjectsRequest.load twiceDeclaredText).2 := by
  obtain ⟨graph, hload⟩ := load_twiceDeclaredText
  rw [hload]
  exact LoadRequest.moment_of_load hload

theorem parse_converterK : (Expression.BindingExpr.parse
    "\x7bBinding N,Converter=\x7bStaticResource k\x7d\x7d").toOption =
      some ⟨"N", some "k", none⟩ := by
  decide +kernel

/-! ## Converters -/

section Converters

variable {request : LoadRequest} {text : String}

/-- **A binding has the converter that was declared before it.** At every point of a load, wherever
the last expression was written to a property, the binding there has the converter that its key
stood for when the expression was written: the object of the last insertion under it that had
happened by then, if there is one, whatever has happened since. In particular that is so of a load
that succeeds, with all that happens in it. -/
theorem load_converters
    (hroot : ∀ given, request.root = some given → given.index < request.graph.size) :
    (∀ p log, request.Moment text p log → BindingsTold p.graph log) ∧
      ∀ root graph, request.load text = (.ok root, graph) →
      BindingsTold graph (request.chronicle text) := by
  have hmoments : ∀ p log, request.Moment text p log → BindingsTold p.graph log :=
    fun p log h => (told_of_moment hroot h).bindings
  refine ⟨hmoments, fun root graph hload => ?_⟩
  obtain ⟨p, hmoment, rfl⟩ := LoadRequest.moment_of_load hload
  exact hmoments p _ hmoment

end Converters

/-- The binding has the first label for its converter, which was inserted last. -/
theorem load_converters_twiceDeclared :
    (newObjectsRequest.load twiceDeclaredText).2.attached? ⟨0⟩ "Text" = some ⟨"N", some ⟨2⟩,
      .default⟩ := by
  obtain ⟨graph, hload⟩ := load_twiceDeclaredText
  have htold := (load_converters (fun _ h => by cases h)).2 ⟨0⟩ graph hload
  rw [chronicle_twiceDeclaredText] at htold
  obtain ⟨expr, hparse, hattached⟩ := htold beforeBinding ⟨0⟩ "Text" _ [] rfl nofun
  have hexpr := parse_converterK
  rw [hparse] at hexpr
  cases hexpr
  rw [hload]
  exact hattached

/-! ## The last of several -/

/-- The last happening that inserts something under a key. -/
def lastOf? (inserts : Happening → List (String × ObjectId)) (key : String) (log : List Happening) :
    Option Happening :=
  (log.filter fun happening => key ∈ (inserts happening).map (·.1)).getLast?

section Last

variable {inserts : Happening → List (String × ObjectId)} {key : String} {log : List Happening}
  {happening : Happening}

theorem lastUnder?_eq_none {insertions : List (String × ObjectId)}
    (h : key ∉ insertions.map (·.1)) :
    lastUnder? key insertions = none := by
  have hnone : insertions.filter (·.1 = key) = [] := by
    rw [List.filter_eq_nil_iff]
    intro insertion hmem hkey
    exact h (List.mem_map.2 ⟨insertion, hmem, of_decide_eq_true hkey⟩)
  rw [lastUnder?, hnone]
  rfl

theorem lastUnder?_isSome {insertions : List (String × ObjectId)} (h : key ∈ insertions.map (·.1)) :
    (lastUnder? key insertions).isSome := by
  obtain ⟨insertion, hmem, hkey⟩ := List.mem_map.1 h
  have hfilter : insertion ∈ insertions.filter (·.1 = key) :=
    List.mem_filter.2 ⟨hmem, decide_eq_true hkey⟩
  rw [lastUnder?, Option.isSome_map, Option.isSome_iff_ne_none, Ne, List.getLast?_eq_none_iff]
  exact List.ne_nil_of_mem hfilter

theorem lastOf?_concat (inserts : Happening → List (String × ObjectId)) (key : String)
    (log : List Happening) (happening : Happening) : lastOf? inserts key (log ++ [happening]) =
      if key ∈ (inserts happening).map (·.1) then some happening else lastOf? inserts key log := by
  unfold lastOf?
  rw [List.filter_append]
  split
  · next hmem => simp [hmem]
  · next hmem => simp [hmem]

/-- What a key stands for is decided by the last happening that inserts something under it. -/
theorem lastUnder?_flatMap (inserts : Happening → List (String × ObjectId)) (key : String)
    (log : List Happening) :
    lastUnder? key (log.flatMap inserts) =
      (lastOf? inserts key log).bind fun happening => lastUnder? key (inserts happening) := by
  induction log using List.reverseRecOn with
  | nil => rfl
  | append_singleton log happening ih =>
    rw [List.flatMap_append, List.flatMap_singleton, lastUnder?_append, ih, lastOf?_concat]
    split
    · next hmem => rw [Option.or_of_isSome (lastUnder?_isSome hmem), Option.bind_some]
    · next hmem => rw [lastUnder?_eq_none hmem, Option.none_or]

/-- Where the last one stands. -/
theorem lastOf?_eq_some (h : lastOf? inserts key log = some happening) :
    key ∈ (inserts happening).map (·.1) ∧ ∃ before after, log = before ++ happening :: after ∧
      ∀ later ∈ after, key ∉ (inserts later).map (·.1) := by
  induction log using List.reverseRecOn with
  | nil => cases h
  | append_singleton log last ih =>
    rw [lastOf?_concat] at h
    split at h
    · next hmem =>
      cases h
      exact ⟨hmem, log, [], rfl, fun _ hlater => by cases hlater⟩
    · next hmem =>
      obtain ⟨hkey, before, after, rfl, hafter⟩ := ih h
      refine ⟨hkey, before, after ++ [last], by simp, fun later hlater => ?_⟩
      rcases List.mem_append.1 hlater with hold | hnew
      · exact hafter later hold
      · rw [List.mem_singleton.1 hnew]
        exact hmem

theorem lastOf?_mem (h : lastOf? inserts key log = some happening) : happening ∈ log :=
  List.mem_of_mem_filter (List.mem_of_getLast? h)

/-- What does not insert anything under the key may be left out at the end. -/
theorem lastOf?_append_of_none {after : List Happening}
    (h : ∀ later ∈ after, key ∉ (inserts later).map (·.1)) :
    lastOf? inserts key (log ++ after) = lastOf? inserts key log := by
  induction after using List.reverseRecOn with
  | nil => rw [List.append_nil]
  | append_singleton after last ih =>
    rw [← List.append_assoc, lastOf?_concat, if_neg (h last (by simp)),
      ih fun later hlater => h later (List.mem_append_left _ hlater)]

end Last

/-! ## Entries of containers -/

/-- What a happening inserts into one container. -/
def Happening.entriesOf (container : ObjectId) : Happening → List (String × ObjectId)
  | .entered other key object => if other = container then [(key, object)] else []
  | .shared _ _ | .declared _ _ | .bound _ _ _ => []

/-- An object that refers to nothing has no entries. -/
theorem entries_of_references {state : ObjectState} {entries : OrderedMap ObjectId}
    (h : state.references = []) (hentries : state.entries = some entries) : entries = .empty := by
  obtain ⟨hnested, -⟩ := List.append_eq_nil_iff.1 h
  obtain ⟨-, hvalues⟩ := List.append_eq_nil_iff.1 hnested
  rw [hentries] at hvalues
  obtain ⟨pairs⟩ := entries
  cases List.map_eq_nil_iff.1 hvalues
  rfl

theorem Happening.entriesOf_of_notMem {container : ObjectId} {happening : Happening}
    (h : container ∉ happening.objects) : happening.entriesOf container = [] := by
  cases happening with
  | entered other key object =>
    refine if_neg ?_
    rintro rfl
    exact h List.mem_cons_self
  | declared => rfl
  | bound => rfl
  | shared => rfl

theorem entries?_set {g : Graph} {target : ObjectId} {c : Component}
    (hread : g.component? target = some c) (written : Component) (object : ObjectId) :
    (g.set target written).entries? object =
      if target = object then written.entries else g.entries? object := by
  unfold Graph.entries?
  split
  · next hsame =>
    subst hsame
    rw [Graph.component?_set_self hread]
    rfl
  · next hother => rw [Graph.component?_set_of_ne g hother]

theorem entries?_set_of_same {g : Graph} {target : ObjectId} {c written : Component}
    (hread : g.component? target = some c) (hsame : written.entries = c.entries)
    (object : ObjectId) :
    (g.set target written).entries? object = g.entries? object := by
  rw [entries?_set hread]
  split
  · next htarget =>
    subst htarget
    rw [hsame, Graph.entries?, hread]
    rfl
  · rfl

theorem entries?_eq (g : Graph) (object : ObjectId) :
    g.entries? object = (g.contained? object).bind (·.2) := by
  unfold Graph.entries? Graph.contained?
  cases g.component? object <;> rfl

theorem contained?_set_of_same {g : Graph} {target : ObjectId} {c written : Component}
    (hread : g.component? target = some c) (hitems : written.items = c.items)
    (hentries : written.entries = c.entries) (object : ObjectId) :
    (g.set target written).contained? object = g.contained? object := by
  unfold Graph.contained?
  by_cases htarget : target = object
  · subst htarget
    rw [Graph.component?_set_self hread, hread, Option.map_some, Option.map_some, hitems, hentries]
  · rw [Graph.component?_set_of_ne g htarget]

/-- An assignment puts nothing into an object. -/
theorem contained?_of_assign {p q : Pass} {target : ObjectId} {type : TypeInfo} {name : String}
    {raw : RawValue} (h : p.assign target type name raw = .ok q) (object : ObjectId) :
    q.graph.contained? object = p.graph.contained? object := by
  cases Pass.assigned_of_assign h with
  | shared => rfl
  | dangling => rfl
  | bound c store property binding text _ _ _ _ _ hread =>
    exact contained?_set_of_same hread (by rfl) (by rfl) object
  | managed c store property value _ _ _ _ hread =>
    exact contained?_set_of_same hread (by rfl) (by rfl) object
  | plain c state kind value _ _ _ _ _ hread hwrite =>
    cases Pass.setPlain_eq_ok hwrite
    exact contained?_set_of_same hread (by rfl) (by rfl) object

theorem contained?_of_applyAttributes {p q : Pass} {target : ObjectId} {type : TypeInfo}
    {attrs : List Markup.Attribute} (h : p.applyAttributes target type attrs = (.ok (), q))
    (object : ObjectId) :
    q.graph.contained? object = p.graph.contained? object := by
  induction attrs generalizing p with
  | nil =>
    cases h
    rfl
  | cons attr attrs ih =>
    rw [Pass.applyAttributes] at h
    cases hattr : p.applyAttribute target type attr with
    | error error => rw [hattr] at h; cases h
    | ok next =>
      rw [hattr] at h
      refine (ih h).trans ?_
      unfold Pass.applyAttribute at hattr
      split at hattr
      · exact contained?_of_assign hattr object
      · cases hattr
        rfl
      · cases hattr
        rfl

/-- The entries of the objects that were made since, and those of the containers that were shared,
were entered under keys, one after the other. -/
structure Filled (first : Graph) (p : Pass) (log : List Happening) : Prop where
  entries {object : ObjectId} {entries : OrderedMap ObjectId} : first.size ≤ object.index →
    p.graph.entries? object = some entries →
    entries = .ofList (log.flatMap (Happening.entriesOf object))
  shared : ∀ before container entries after, log = before ++ .shared container entries :: after →
    entries = (OrderedMap.ofList (before.flatMap (Happening.entriesOf container))).toList

namespace Filled

variable {first : Graph} {p q : Pass} {log : List Happening}

theorem quiet (h : Filled first p log)
    (hsame : ∀ object, q.graph.entries? object = p.graph.entries? object) :
    Filled first q log where
  entries hnew hread := h.entries hnew ((hsame _).symm.trans hread)
  shared := h.shared

/-- Something happens. -/
theorem happen (h : Filled first p log) {happening : Happening}
    (hentries : ∀ object entries, first.size ≤ object.index →
      q.graph.entries? object = some entries →
      entries = .ofList (log.flatMap (Happening.entriesOf object) ++ happening.entriesOf object))
    (hshared : ∀ container entries, .shared container entries = happening →
      entries = (OrderedMap.ofList (log.flatMap (Happening.entriesOf container))).toList) :
    Filled first q (log ++ [happening]) where
  entries {object entries} hnew hread := by
    rw [List.flatMap_append, List.flatMap_singleton]
    exact hentries object entries hnew hread
  shared before container entries after hlog := by
    rcases concat_eq_append_cons hlog with ⟨-, rfl, hlast⟩ | ⟨rest, rfl, hold⟩
    · exact hshared container entries hlast
    · exact h.shared before container entries rest hold

/-- Keys are declared and bindings written. -/
theorem attributes (h : Filled first p log) (object : ObjectId) {more : List Happening}
    (hmore : ∀ happening ∈ more, (∃ key, happening = .declared object key) ∨
      ∃ name text, happening = .bound object name text) : Filled first p (log ++ more) := by
  induction more using List.reverseRecOn with
  | nil =>
    rw [List.append_nil]
    exact h
  | append_singleton more happening ih =>
    have hbefore := ih fun later hlater => hmore later (List.mem_append_left _ hlater)
    rw [← List.append_assoc]
    rcases hmore happening (by simp) with ⟨key, rfl⟩ | ⟨name, text, rfl⟩
    · refine hbefore.happen (fun object entries hnew hread => ?_) nofun
      rw [Happening.entriesOf, List.append_nil]
      exact hbefore.entries hnew hread
    · refine hbefore.happen (fun object entries hnew hread => ?_) nofun
      rw [Happening.entriesOf, List.append_nil]
      exact hbefore.entries hnew hread

/-- An assignment. What is assigned was made since. -/
theorem assign (h : Filled first p log) {target : ObjectId} {type : TypeInfo} {name : String}
    {raw : RawValue} (hmade : ∀ value, raw = .object value → first.size ≤ value.index)
    (hassign : p.assign target type name raw = .ok q) :
    Filled first q (log ++ assignmentHappenings p.graph target name raw) := by
  have hquiet : Filled first q log := h.quiet fun other => by
    rw [entries?_eq, entries?_eq, contained?_of_assign hassign]
  unfold assignmentHappenings
  split
  · next text =>
    refine hquiet.attributes target fun happening hmem => ?_
    split at hmem
    · exact Or.inr ⟨name, text, List.mem_singleton.1 hmem⟩
    · cases hmem
  · next container =>
    split
    · split
      · next entries hentries =>
        refine hquiet.happen (fun object filled hnew hread => ?_) fun filled entries heq => ?_
        · rw [Happening.entriesOf, List.append_nil]
          exact hquiet.entries hnew hread
        · cases heq
          rw [h.entries (hmade container rfl) hentries]
      · rw [List.append_nil]
        exact hquiet
    · rw [List.append_nil]
      exact hquiet

/-- The object that an element is read into. A new one has no entries. -/
theorem takeObject (h : Filled first p log)
    (hknown : ∀ happening ∈ log, ∀ object ∈ happening.objects, object.index < p.graph.size)
    {type : TypeInfo} {given : Option ObjectId} {object : ObjectId}
    (halone : ∀ state, type.constructor = some state → state.references = [])
    (htake : p.takeObject type given = (.ok object, q)) : Filled first q log := by
  cases given with
  | some root =>
    cases htake
    exact h
  | none =>
    rw [Pass.takeObject] at htake
    cases hmade : construct p.graph type with
    | error error => rw [hmade] at htake; cases htake
    | ok new =>
      obtain ⟨made, graph⟩ := new
      rw [hmade] at htake
      cases htake
      obtain ⟨state, hstate, halloc⟩ := construct_eq_ok hmade
      cases halloc
      refine ⟨fun {other entries} hother hread => ?_, h.shared⟩
      replace hread : ((p.graph.alloc { state with type := type }).2.component? other).bind
        (·.entries) = some entries := hread
      rw [Graph.component?_alloc] at hread
      split at hread
      · next hindex =>
        have hempty : entries = .empty := entries_of_references (halone state hstate) hread
        have hnothing : log.flatMap (Happening.entriesOf other) = [] := by
          rw [List.flatMap_eq_nil_iff]
          intro happening hmem
          refine happening.entriesOf_of_notMem fun hcontainer => ?_
          have hlt := hknown happening hmem other hcontainer
          rw [hindex] at hlt
          exact Nat.lt_irrefl _ hlt
        rw [hempty, hnothing]
        rfl
      · exact h.entries hother hread

theorem openElement (h : Filled first p log)
    (hknown : ∀ happening ∈ log, ∀ object ∈ happening.objects, object.index < p.graph.size)
    (halone : p.resolver.catalog.NewObjectsAlone) {position : Nat → Option Position}
    {given : Option ObjectId} {tag : StartTag} {start : Nat} {opened : OpenElement}
    (hopen : openElement position p given tag start = (.ok opened, q)) :
    Filled first q (log ++ startHappenings opened.object tag) := by
  obtain ⟨type, resolved, taken, made, hresolve, htake, happly, rfl⟩ := openElement_eq_ok hopen
  have hgraph := p.graph_resolveTag tag
  rw [hresolve] at hgraph
  have hresolved : Filled first resolved log := h.quiet fun object => by rw [hgraph]
  have hcontains := Pass.contains_of_resolveTag hresolve
  have htaken := hresolved.takeObject (by rw [hgraph]; exact hknown) (fun state hstate =>
    halone type state hcontains hstate) htake
  have happlied : Filled first q log := htaken.quiet fun other => by
    rw [entries?_eq, entries?_eq, contained?_of_applyAttributes happly]
  exact happlied.attributes made fun happening hmem => mem_startHappenings hmem

/-- A finished object is handed over. -/
theorem delivered (h : Filled first p log) {tag : StartTag} {object : ObjectId}
    {outer : List OpenElement} {next : Stage}
    (hkey : p.keys.key? object = declaredKey tag.attributes)
    (hdelivered : Delivered p object outer next q) :
    Filled first q (log ++ endHappenings tag object outer) := by
  cases hdelivered with
  | root =>
    rw [endHappenings, List.append_nil]
    exact h
  | @value parent outer slot hproperty =>
    rw [endHappenings_of_property hproperty, List.append_nil]
    exact h
  | @child parent outer after hproperty hinsert =>
    have hinserted := p.inserted_insertChild parent.object parent.type object
    rw [hinsert] at hinserted
    cases hinserted with
    | item c items hkind hread hitems =>
      rw [endHappenings_of_items hproperty hkind, List.append_nil]
      exact h.quiet fun other => entries?_set_of_same hread (by rfl) other
    | entry c entries key resources hkind hdeclared hread hentries hresources =>
      rw [hdeclared] at hkey
      rw [endHappenings_of_keyed hproperty hkind hkey.symm]
      refine h.happen (fun other filled hnew hfilled => ?_) fun _ _ hshared => by cases hshared
      replace hfilled : (p.graph.set parent.object
        { c with entries := some (entries.insert key object) }).entries? other =
        some filled := hfilled
      rw [entries?_set hread] at hfilled
      rw [Happening.entriesOf]
      split at hfilled
      · next hsame =>
        cases hfilled
        subst hsame
        have hbefore : entries = _ := h.entries hnew (by rw [Graph.entries?, hread]; exact hentries)
        rw [if_pos rfl, OrderedMap.ofList, OrderedMap.insertAll_append, ← OrderedMap.ofList,
          ← hbefore]
        rfl
      · next hother =>
        rw [if_neg hother, List.append_nil]
        exact h.entries hnew hfilled

/-- **One step.** -/
theorem step (h : Filled first p log) {stage next : Stage} {position : Nat → Option Position}
    {start : Nat} {node : Node} (hagrees : Agrees p stage log)
    (halone : p.resolver.catalog.NewObjectsAlone)
    (hgiven : ∀ root, stage.given? = some root → root.index < p.graph.size)
    (hknown : ∀ element ∈ stage.opened, element.object.index < p.graph.size)
    (hfirst : stage.given?.isSome → stage.opened = [])
    (hvalues : ∀ element ∈ stage.opened, ∀ slot object, element.property = some slot →
      slot.value = some (.object object) → first.size ≤ object.index)
    (hstepped : Stepped position p start stage node next q) :
    Filled first q (log ++ stage.happenings p.graph node) := by
  cases hstepped with
  | quiet houtline hprolog hnothing =>
    rw [hnothing, List.append_nil]
    exact h
  | @assigned element outer slot value _ written hproperty hvalue hassign =>
    rw [Stage.happenings_assigned p.graph written hproperty hvalue]
    refine h.assign (fun object hobject => ?_) hassign
    exact hvalues element List.mem_cons_self slot object hproperty (hobject ▸ hvalue)
  | @opened _ tag opened _ hstarts hopens hopen =>
    have hwhich := (hagrees.opening hgiven hknown hfirst hopen).2.2.2.2.1
    rw [Stage.happenings_opened hstarts hwhich hopens]
    exact h.openElement hagrees.told.known halone hopen
  | @closed _ _ tag opened between _ hstarts hcloses hopen hdelivered =>
    obtain ⟨htold, hstanding, -, -, hwhich, -⟩ := hagrees.opening hgiven hknown hfirst hopen
    rw [Stage.happenings_closed hstarts hwhich hcloses, ← List.append_assoc]
    refine (h.openElement hagrees.told.known halone hopen).delivered ?_ hdelivered
    rw [htold.keys]
    exact hstanding.key (tag, opened.object) List.mem_cons_self
  | @ended element outer _ _ written hproperty hdelivered =>
    rw [Stage.happenings_ended p.graph written hproperty]
    refine h.delivered ?_ hdelivered
    rw [hagrees.told.keys]
    exact hagrees.standing.key element.frame List.mem_cons_self

end Filled

section Runs

variable {request : LoadRequest} {text : String} {position : Nat → Option Position}

/-- Where a run has come to, the catalogue is that of the request, and objects in property elements
were made since. -/
theorem own_of_reaches {p : Pass} {stage : Stage} {unread : NodeFeed}
    (h : (request.progress text).Reaches position ⟨p, stage, unread⟩) :
    p.resolver.catalog = request.catalog ∧ ∀ element ∈ stage.opened, ∀ slot object,
      element.property = some slot →
      slot.value = some (.object object) → request.graph.size ≤ object.index := by
  have hisolated : Isolated request.pass request.root request.pass := Isolated.start _ _ _
  obtain ⟨hholds, hstage⟩ := h.underway (I := isolation request.pass request.root) rfl hisolated
    fun given hgiven _ _ _ _ => Or.inr hgiven
  refine ⟨hholds.catalog, fun element hmem slot object hslot hvalue => ?_⟩
  cases stage with
  | prolog root => cases hmem
  | epilog root => cases hmem
  | content innermost outer =>
    rcases hstage with ⟨hprolog, -⟩ | hunderway
    · cases hprolog
    · exact (hunderway.values element hmem slot _ hslot hvalue object rfl).1

/-- **Any run**, over types whose new objects refer to nothing. -/
theorem filled_of_records {last : Progress} {log : List Happening}
    (hroot : ∀ given, request.root = some given → given.index < request.graph.size)
    (halone : request.catalog.NewObjectsAlone)
    (h : (request.progress text).Records position last log) :
    Filled request.graph last.pass log := by
  induction h with
  | start =>
    refine ⟨fun {object entries} hnew hread => ?_, fun before container entries after hlog => by
      cases before <;> cases hlog⟩
    obtain ⟨c, hthere, -⟩ := Option.bind_eq_some_iff.1 hread
    exact absurd (Graph.index_lt_size hthere) (Nat.not_lt.2 hnew)
  | node hrecords hstep ih =>
    obtain ⟨hgiven, hopen, hfirst⟩ := known_of_reaches hroot hrecords.reaches
    obtain ⟨hcatalog, hvalues⟩ := own_of_reaches hrecords.reaches
    exact ih.step (agrees_of_records hroot hrecords) (hcatalog ▸ halone) hgiven
      (fun element hmem => (hopen.opened element hmem).1) hfirst hvalues (stepped_of_step hstep)

/-- **Any point of a load**, over types whose new objects refer to nothing. -/
theorem filled_of_moment {p : Pass} {log : List Happening}
    (hroot : ∀ given, request.root = some given → given.index < request.graph.size)
    (halone : request.catalog.NewObjectsAlone) (h : request.Moment text p log) :
    Filled request.graph p log := by
  cases h with
  | between hrecords => exact filled_of_records hroot halone hrecords
  | inside count hrecords hstarts hopen =>
    have hfilled := filled_of_records hroot halone hrecords
    have hknown := (agrees_of_records hroot hrecords).told.known
    exact hfilled.openElement hknown ((own_of_reaches hrecords.reaches).1 ▸ halone) hopen

end Runs

/-! ## Shadowing, and what undoes it -/

/-- The last insertion under a key comes of sharing a container, but it was another container into
which an object was last entered under the key. -/
def Undone (key : String) (log : List Happening) : Prop :=
  ∃ container entries other object, lastOf? Happening.insertions key log =
    some (.shared container entries) ∧
    lastOf? Happening.entries key log = some (.entered other key object) ∧ other ≠ container

section Shadowing

variable {key : String} {log : List Happening} {happening : Happening} {container : ObjectId}

theorem eq_entered_of_entries (h : key ∈ happening.entries.map (·.1)) :
    ∃ other object, happening = .entered other key object := by
  cases happening with
  | entered other key' object =>
    cases List.mem_singleton.1 h
    exact ⟨other, object, rfl⟩
  | declared => cases h
  | bound => cases h
  | shared => cases h

theorem eq_entered_of_entriesOf (h : key ∈ (happening.entriesOf container).map (·.1)) :
    ∃ object, happening = .entered container key object := by
  cases happening with
  | entered other key' object =>
    rw [Happening.entriesOf] at h
    split at h
    · next hother =>
      cases List.mem_singleton.1 h
      exact ⟨object, by rw [hother]⟩
    · cases h
  | declared => cases h
  | bound => cases h
  | shared => cases h

theorem mem_insertions_of_entries (h : key ∈ happening.entries.map (·.1)) :
    key ∈ happening.insertions.map (·.1) := by
  obtain ⟨other, object, rfl⟩ := eq_entered_of_entries h
  exact h

theorem mem_entries_of_entriesOf (h : key ∈ (happening.entriesOf container).map (·.1)) :
    key ∈ happening.entries.map (·.1) := by
  obtain ⟨object, rfl⟩ := eq_entered_of_entriesOf h
  exact List.mem_singleton_self _

/-- An object that was put into a container is not put into one again. -/
theorem KeysTaken.notMem_after (h : KeysTaken log) {before after : List Happening} {name : String}
    {object : ObjectId} (hlog : log = before ++ .entered container key object :: after)
    (other : ObjectId) :
    .entered other name object ∉ after := by
  intro hmem
  obtain ⟨between, last, rfl⟩ := List.append_of_mem hmem
  have hsplit : log = (before ++ .entered container key object :: between) ++
      .entered other name object :: last := by
    rw [hlog, List.append_assoc, List.cons_append]
  exact (h _ other name object last hsplit).2 container key (by simp)

/-- An object is put into one container at most. -/
theorem KeysTaken.unique (h : KeysTaken log) {object other : ObjectId} {name : String}
    (hmem : .entered container key object ∈ log) (hother : .entered other name object ∈ log) :
    container = other := by
  obtain ⟨before, after, rfl⟩ := List.append_of_mem hmem
  rcases List.mem_append.1 hother with hbefore | hrest
  · exact absurd hbefore ((h before container key object after rfl).2 other name)
  · rcases List.mem_cons.1 hrest with hsame | hafter
    · cases hsame
      rfl
    · exact absurd hafter (h.notMem_after rfl other)

theorem KeysTaken.earlier {before after : List Happening} (h : KeysTaken (before ++ after)) :
    KeysTaken before :=
  fun first container key object rest hsplit =>
    h first container key object (rest ++ after) (by simp [hsplit])

/-- Insertions under different keys are read back in any order. -/
theorem lastUnder?_eq_lookupEntry {insertions : List (String × ObjectId)}
    (h : (insertions.map (·.1)).Nodup) :
    lastUnder? key insertions = OrderedMap.lookupEntry key insertions := by
  induction insertions with
  | nil => rfl
  | cons first rest ih =>
    obtain ⟨name, object⟩ := first
    rw [List.map_cons, List.nodup_cons] at h
    rw [← List.singleton_append, lastUnder?_append, lastUnder?_single, List.singleton_append,
      OrderedMap.lookupEntry]
    by_cases hname : name = key
    · subst hname
      rw [lastUnder?_eq_none h.1, if_pos rfl, if_pos rfl, Option.none_or]
    · rw [if_neg hname, if_neg hname, Option.or_none, ih h.2]

/-- The entries of a map that insertions built are inserted like these. -/
theorem lastUnder?_ofList (key : String) (insertions : List (String × ObjectId)) :
    lastUnder? key (OrderedMap.ofList insertions).toList = lastUnder? key insertions := by
  have hkeys : (OrderedMap.ofList insertions).keys.Nodup :=
    OrderedMap.nodup_keys_insertAll (m := .empty) List.nodup_nil insertions
  rw [lastUnder?_eq_lookupEntry hkeys]
  exact get?_ofList insertions key

theorem lastOf?_isSome {inserts : Happening → List (String × ObjectId)} (hmem : happening ∈ log)
    (hkey : key ∈ (inserts happening).map (·.1)) : (lastOf? inserts key log).isSome := by
  have hfilter : happening ∈ log.filter fun other => key ∈ (inserts other).map (·.1) :=
    List.mem_filter.2 ⟨hmem, decide_eq_true hkey⟩
  rw [lastOf?, Option.isSome_iff_ne_none, Ne, List.getLast?_eq_none_iff]
  exact List.ne_nil_of_mem hfilter

theorem lastOf?_of_mem {inserts : Happening → List (String × ObjectId)}
    {before after : List Happening} (hkey : key ∈ (inserts happening).map (·.1))
    (hafter : ∀ later ∈ after, key ∉ (inserts later).map (·.1)) :
    lastOf? inserts key (before ++ happening :: after) = some happening := by
  rw [← List.singleton_append, ← List.append_assoc, lastOf?_append_of_none hafter, lastOf?_concat,
    if_pos hkey]

theorem lastOf?_of_notMem {inserts : Happening → List (String × ObjectId)}
    {before after : List Happening} (hkey : key ∉ (inserts happening).map (·.1))
    (hafter : ∀ later ∈ after, key ∉ (inserts later).map (·.1)) :
    lastOf? inserts key (before ++ happening :: after) = lastOf? inserts key before := by
  rw [← List.singleton_append, ← List.append_assoc, lastOf?_append_of_none hafter, lastOf?_concat,
    if_neg hkey]

/-- Where a container has got an entry under a key, some container has got the last one. -/
theorem exists_lastEntry (h : lastOf? (Happening.entriesOf container) key log = some happening) :
    ∃ other object, lastOf? Happening.entries key log = some (.entered other key object) := by
  obtain ⟨hkey, before, after, rfl, -⟩ := lastOf?_eq_some h
  have hsome : (lastOf? Happening.entries key (before ++ happening :: after)).isSome :=
    lastOf?_isSome (by simp) (mem_entries_of_entriesOf hkey)
  obtain ⟨latest, hlatest⟩ := Option.isSome_iff_exists.1 hsome
  obtain ⟨other, object, rfl⟩ := eq_entered_of_entries (lastOf?_eq_some hlatest).1
  exact ⟨other, object, hlatest⟩

/-- The last entry under a key is the last one of its container. -/
theorem lastOf?_entriesOf {object : ObjectId}
    (h : lastOf? Happening.entries key log = some (.entered container key object)) :
    lastOf? (Happening.entriesOf container) key log = some (.entered container key object) := by
  obtain ⟨-, before, after, rfl, hafter⟩ := lastOf?_eq_some h
  refine lastOf?_of_mem ?_ fun later hlater hkey =>
    hafter later hlater (mem_entries_of_entriesOf hkey)
  rw [Happening.entriesOf, if_pos rfl]
  exact List.mem_singleton_self _

/-- Without insertions there are no entries. -/
theorem lastEntry_eq_none (h : lastOf? Happening.insertions key log = none) :
    lastOf? Happening.entries key log = none := by
  cases hentry : lastOf? Happening.entries key log with
  | none => rfl
  | some happening =>
    obtain ⟨hkey, before, after, rfl, -⟩ := lastOf?_eq_some hentry
    have hsome : (lastOf? Happening.insertions key (before ++ happening :: after)).isSome :=
      lastOf?_isSome (by simp) (mem_insertions_of_entries hkey)
    rw [h] at hsome
    cases hsome

/-- What was last entered into a container under a key was last entered anywhere under the key,
exactly if that was entered into the same container. -/
theorem lastEntry_iff (htaken : KeysTaken log)
    (hsome : (lastUnder? key (log.flatMap (Happening.entriesOf container))).isSome) :
    ∃ other latest, lastOf? Happening.entries key log = some (.entered other key latest) ∧
      (lastUnder? key (log.flatMap (Happening.entriesOf container)) = some latest ↔
        other = container) := by
  rw [lastUnder?_flatMap] at hsome ⊢
  obtain ⟨_, hvalue⟩ := Option.isSome_iff_exists.1 hsome
  obtain ⟨filling, hfilling, -⟩ := Option.bind_eq_some_iff.1 hvalue
  obtain ⟨object, rfl⟩ := eq_entered_of_entriesOf (lastOf?_eq_some hfilling).1
  obtain ⟨other, latest, hlatest⟩ := exists_lastEntry hfilling
  have hentered : lastUnder? key ((Happening.entered container key object).entriesOf container) =
      some object := by
    rw [Happening.entriesOf, if_pos rfl, lastUnder?_single, if_pos rfl]
  refine ⟨other, latest, hlatest, ?_⟩
  rw [hfilling, Option.bind_some, hentered, Option.some.injEq]
  constructor
  · rintro rfl
    exact (htaken.unique (lastOf?_mem hfilling) (lastOf?_mem hlatest)).symm
  · rintro rfl
    have hsame := lastOf?_entriesOf hlatest
    rw [hfilling] at hsame
    cases hsame
    rfl

/-- Unless the last insertion comes of sharing a container, nothing is undone. -/
theorem not_undone (h : ∀ container entries,
    lastOf? Happening.insertions key log ≠ some (.shared container entries)) :
    ¬ Undone key log := by
  rintro ⟨container, entries, _, _, hinsertion, -⟩
  exact h container entries hinsertion

/-- **When the last insertion is not the last entry.** If every object is in one container at most
and the shared entries were entered before, then a key stands for the object that was last entered
under it, exactly if that has not been undone. -/
theorem declared?_eq_entered?_iff (htaken : KeysTaken log)
    (hshared : ∀ before container entries after, log =
      before ++ .shared container entries :: after →
      lastUnder? key entries = lastUnder? key (before.flatMap (Happening.entriesOf container))) :
    declared? key log = entered? key log ↔ ¬ Undone key log := by
  rw [declared?, entered?, lastUnder?_flatMap, lastUnder?_flatMap]
  cases hlast : lastOf? Happening.insertions key log with
  | none =>
    have hnot : ¬ Undone key log := not_undone fun _ _ heq => by rw [hlast] at heq; cases heq
    rw [lastEntry_eq_none hlast]
    exact ⟨fun _ => hnot, fun _ => rfl⟩
  | some happening =>
    obtain ⟨hkey, before, after, rfl, hafter⟩ := lastOf?_eq_some hlast
    have hnoEntry : ∀ later ∈ after, key ∉ later.entries.map (·.1) := fun later hlater hentry =>
      hafter later hlater (mem_insertions_of_entries hentry)
    cases happening with
    | declared => cases hkey
    | bound => cases hkey
    | entered container name object =>
      -- the last insertion is itself an entry
      have hentry : lastOf? Happening.entries key
        (before ++ .entered container name object :: after) =
        some (.entered container name object) := lastOf?_of_mem hkey hnoEntry
      have hnot : ¬ Undone key (before ++ .entered container name object :: after) :=
        not_undone fun _ _ heq => by rw [hlast] at heq; cases heq
      rw [hentry]
      exact ⟨fun _ => hnot, fun _ => rfl⟩
    | shared container entries =>
      have hentry : lastOf? Happening.entries key (before ++ .shared container entries :: after) =
        lastOf? Happening.entries key before := lastOf?_of_notMem List.not_mem_nil hnoEntry
      have hfrom := hshared before container entries after rfl
      have hsome : (lastUnder? key entries).isSome := lastUnder?_isSome hkey
      rw [hfrom] at hsome
      obtain ⟨other, latest, hlatest, hiff⟩ := lastEntry_iff htaken.earlier hsome
      rw [← hfrom] at hiff
      have hundone : Undone key (before ++ .shared container entries :: after) ↔
          other ≠ container := by
        refine ⟨?_, fun hother => ⟨container, entries, other, latest, hlast,
          hentry.trans hlatest, hother⟩⟩
        rintro ⟨_, _, _, _, hinsertion, hlastEntry, hother⟩
        rw [hlast] at hinsertion
        rw [hentry, hlatest] at hlastEntry
        cases hinsertion
        cases hlastEntry
        exact hother
      have hright : lastUnder? key (Happening.entered other key latest).entries = some latest := by
        rw [Happening.entries, lastUnder?_single, if_pos rfl]
      rw [hundone, Ne, not_not, ← hiff, hentry, hlatest, Option.bind_some, Option.bind_some, hright]
      rfl

end Shadowing

/-- **What a key stands for, at every point of a load**: the object of the last insertion under it,
or none if there was none. If new objects refer to nothing, that is the object that was last entered
under the key into any keyed container, or none if there was none, exactly as long as no container
was shared last while the key had been entered into another one since. -/
theorem resources_at_moment {request : LoadRequest} {text : String} {p : Pass}
    {log : List Happening}
    (hroot : ∀ given, request.root = some given → given.index < request.graph.size)
    (hmoment : request.Moment text p log) (key : String) :
    p.resources.get? key = declared? key log ∧
      (request.catalog.NewObjectsAlone → (p.resources.get? key = entered? key log ↔
        ¬ Undone key log)) := by
  have htold := told_of_moment hroot hmoment
  refine ⟨htold.resource key, fun halone => ?_⟩
  have hfilled := filled_of_moment hroot halone hmoment
  rw [htold.resource key]
  refine declared?_eq_entered?_iff htold.taken fun before container entries after hlog => ?_
  rw [hfilled.shared before container entries after hlog, lastUnder?_ofList]

/-- In the end the key `k` stands for the first label, although the second one was entered under it
later; the key `d` stands for the dictionary that was entered under it. -/
theorem resources_at_moment_twiceDeclared :
    ∃ p, newObjectsRequest.Moment twiceDeclaredText p
      (newObjectsRequest.chronicle twiceDeclaredText) ∧
      p.resources.get? "k" = some ⟨2⟩ ∧ Undone "k" (newObjectsRequest.chronicle twiceDeclaredText) ∧
        p.resources.get? "d" = some ⟨3⟩ ∧ ¬ Undone "d"
          (newObjectsRequest.chronicle twiceDeclaredText) := by
  obtain ⟨p, hmoment, -⟩ := moment_twiceDeclaredText
  obtain ⟨hk, hkIff⟩ := resources_at_moment (fun _ h => by cases h) hmoment "k"
  obtain ⟨hd, hdIff⟩ := resources_at_moment (fun _ h => by cases h) hmoment "d"
  refine ⟨p, hmoment, hk.trans ?_, not_not.1 fun hnot => ?_, hd.trans ?_,
    (hdIff newObjectsAlone_forms).1 (hd.trans ?_)⟩
  · rw [chronicle_twiceDeclaredText]
    decide
  · have hentered := (hkIff newObjectsAlone_forms).2 hnot
    rw [hk, chronicle_twiceDeclaredText] at hentered
    exact absurd hentered (by decide)
  · rw [chronicle_twiceDeclaredText]
    decide
  · rw [chronicle_twiceDeclaredText]
    decide

/-- Later declarations do not always shadow earlier ones. -/
theorem not_latest_everywhere :
    ¬ ∀ (request : LoadRequest) (text : String) (p : Pass) (log : List Happening),
      request.Moment text p log → ∀ key, p.resources.get? key = entered? key log := by
  intro law
  obtain ⟨p, hmoment, -⟩ := moment_twiceDeclaredText
  have htold := told_of_moment (fun _ h => by cases h) hmoment
  have hlatest := law _ _ p _ hmoment "k"
  rw [htold.resource, chronicle_twiceDeclaredText] at hlatest
  exact absurd hlatest (by decide)

end Hydration

end MarkupForms
