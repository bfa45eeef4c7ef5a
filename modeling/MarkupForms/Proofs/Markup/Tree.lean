import MarkupForms.Proofs.Markup.Feed

/-!
# Documents as trees

A document whose nodes can all be read and whose tags balance is a tree: text and white space, one
root element, white space. `followedBy` writes a tree out as the nodes that a reader finds, in front
of a feed. A tag is closed by its own name by construction, so no tree is ill-formed.

Every node of a tree keeps the place where it was found.
-/

namespace MarkupForms.Markup

mutual

/-- An element: a tag that closes itself, or a start tag, what stands between the tags, and the
place of the end tag. -/
inductive Element where
  | selfClosed (place : Place) (tag : StartTag) (closes : tag.selfClosing = true)
  | enclosing (place : Place) (tag : StartTag) (opens : tag.selfClosing = false)
      (contents : Contents) (behind : Place)

/-- What stands between two tags, in document order. -/
inductive Contents where
  | none
  | text (place : Place) (content : String) (rest : Contents)
  | blank (place : Place) (rest : Contents)
  | element (first : Element) (rest : Contents)

end

/-- Text or white space in front of the root element. -/
inductive Filler where
  | text (place : Place) (content : String)
  | blank (place : Place)

/-- A whole document: what stands in front of the root element, the root element, the places of the
white space behind it, and the place of the end. -/
structure Document where
  prolog : List Filler
  root : Element
  epilog : List Place
  finish : Place

/-! ## Reading a tree off -/

namespace Element

/-- The start tag of an element. -/
def tag : Element → StartTag
  | .selfClosed _ tag _ => tag
  | .enclosing _ tag _ _ _ => tag

/-- The place of the start tag. -/
def place : Element → Place
  | .selfClosed place _ _ => place
  | .enclosing place _ _ _ _ => place

/-- The place of the last node of an element. -/
def lastPlace : Element → Place
  | .selfClosed place _ _ => place
  | .enclosing _ _ _ _ behind => behind

/-- What stands between the tags; nothing in a tag that closes itself. -/
def contents : Element → Contents
  | .selfClosed _ _ _ => .none
  | .enclosing _ _ _ contents _ => contents

end Element

/-- The place of the first text or element. -/
def Contents.firstPlace? : Contents → Option Place
  | .none => Option.none
  | .text place _ _ => some place
  | .blank _ rest => rest.firstPlace?
  | .element first _ => some first.place

mutual

/-- The elements inside an element, at any depth, in document order. -/
def Element.inner : Element → List Element
  | .selfClosed _ _ _ => []
  | .enclosing _ _ _ contents _ => contents.inner

/-- The elements in contents, at any depth, in document order. -/
def Contents.inner : Contents → List Element
  | .none => []
  | .text _ _ rest | .blank _ rest => rest.inner
  | .element first rest => first :: (first.inner ++ rest.inner)

end

@[simp] theorem Element.inner_contents (element : Element) :
    element.contents.inner = element.inner := by
  cases element <;> rfl

mutual

/-- What stands inside an inner element stands inside the outer one. -/
theorem Element.inner_trans {a b : Element} (hb : b ∈ a.inner) :
    (element : Element) → a ∈ element.inner → b ∈ element.inner
  | .selfClosed _ _ _, ha => by cases ha
  | .enclosing _ _ _ contents _, ha => Contents.inner_trans hb contents ha

theorem Contents.inner_trans {a b : Element} (hb : b ∈ a.inner) :
    (contents : Contents) → a ∈ contents.inner → b ∈ contents.inner
  | .none, ha => by cases ha
  | .text _ _ rest, ha => Contents.inner_trans hb rest ha
  | .blank _ rest, ha => Contents.inner_trans hb rest ha
  | .element first rest, ha => by
    rw [Contents.inner] at ha ⊢
    rcases List.mem_cons.1 ha with rfl | ha
    · exact List.mem_cons_of_mem _ (List.mem_append_left _ hb)
    · refine List.mem_cons_of_mem _ (List.mem_append.2 ?_)
      exact (List.mem_append.1 ha).imp (Element.inner_trans hb first) (Contents.inner_trans hb rest)

end

/-! ## Writing a tree out -/

mutual

/-- The nodes of an element in front of a feed. -/
def Element.followedBy (rest : NodeFeed) : Element → NodeFeed
  | .selfClosed place tag _ => .node place (.element tag) rest
  | .enclosing place tag _ contents behind =>
    .node place (.element tag) (contents.followedBy
      (.node behind (.endElement tag.name.written) rest))

/-- The nodes of contents in front of a feed. -/
def Contents.followedBy (rest : NodeFeed) : Contents → NodeFeed
  | .none => rest
  | .text place content more => .node place (.text content) (more.followedBy rest)
  | .blank place more => .node place .blank (more.followedBy rest)
  | .element first more => first.followedBy (more.followedBy rest)

end

/-- The nodes behind the start tag of an element, in front of a feed. -/
def Element.behindTag (rest : NodeFeed) : Element → NodeFeed
  | .selfClosed _ _ _ => rest
  | .enclosing _ tag _ contents behind =>
    contents.followedBy (.node behind (.endElement tag.name.written) rest)

theorem Element.followedBy_eq (rest : NodeFeed) (element : Element) :
    element.followedBy rest = .node element.place (.element element.tag)
      (element.behindTag rest) := by
  cases element <;> rfl

/-- The node of a filler in front of a feed. -/
def Filler.followedBy (rest : NodeFeed) : Filler → NodeFeed
  | .text place content => .node place (.text content) rest
  | .blank place => .node place .blank rest

/-- White space in front of the end of a document. -/
def blanksThenEnd (finish : Place) (blanks : List Place) : NodeFeed :=
  blanks.foldr (fun place rest => .node place .blank rest) (.finished finish)

/-- The nodes of a document: no fault among them, and the end of the document behind them. -/
def Document.feed (doc : Document) : NodeFeed :=
  doc.prolog.foldr (fun filler rest => filler.followedBy rest)
    (doc.root.followedBy (blanksThenEnd doc.finish doc.epilog))

/-! ## Tags -/

/-- The tags of all elements in a feed. -/
def NodeFeed.tags : NodeFeed → List StartTag
  | .node _ (.element tag) rest => tag :: rest.tags
  | .node _ (.endElement _) rest | .node _ (.text _) rest | .node _ .blank rest => rest.tags
  | .fault _ _ | .finished _ => []

mutual

/-- The tags that an element is written out with are its own and those of the elements inside it. -/
theorem Element.tags_followedBy (rest : NodeFeed) : (element : Element) →
    (element.followedBy rest).tags = element.tag :: element.inner.map Element.tag ++ rest.tags
  | .selfClosed _ _ _ => rfl
  | .enclosing _ tag _ contents behind => by
    -- the element's own end tag stands in front of the rest and is no start tag
    rw [Element.followedBy, NodeFeed.tags, contents.tags_followedBy]
    rfl

theorem Contents.tags_followedBy (rest : NodeFeed) : (contents : Contents) →
    (contents.followedBy rest).tags = contents.inner.map Element.tag ++ rest.tags
  | .none => rfl
  | .text _ _ more => more.tags_followedBy rest
  | .blank _ more => more.tags_followedBy rest
  | .element first more => by
    rw [Contents.followedBy, first.tags_followedBy, more.tags_followedBy, Contents.inner]
    simp only [List.map_cons, List.map_append, List.append_assoc, List.cons_append]

end

theorem Element.tags_behindTag (rest : NodeFeed) (element : Element) :
    (element.behindTag rest).tags = element.inner.map Element.tag ++ rest.tags := by
  have htags := element.tags_followedBy rest
  rw [element.followedBy_eq] at htags
  exact (List.cons.inj htags).2

theorem tags_blanksThenEnd (finish : Place) (blanks : List Place) :
    (blanksThenEnd finish blanks).tags = [] := by
  induction blanks with
  | nil => rfl
  | cons place blanks ih => exact ih

/-! ## A nested page -/

deriving instance DecidableEq for NodeFeed

/-- A page with a nested layout, ignored text, white space and a property element. -/
def nestedText : String :=
  "\n<ContentPage>a<ContentPage.Content> <StackLayout><Label Id='A'/></StackLayout>" ++
    "</ContentPage.Content></ContentPage>\n"

/-- The tree of `nestedText`. -/
def nestedDocument : Document where
  prolog := [.blank ⟨0, 0⟩]
  root :=
    .enclosing ⟨1, 0⟩ ⟨⟨"ContentPage", "ContentPage", ""⟩, [], false⟩ rfl
      (.text ⟨14, 0⟩ "a" <|
        .element
          (.enclosing ⟨15, 0⟩ ⟨⟨"ContentPage.Content", "ContentPage.Content", ""⟩, [], false⟩ rfl
            (.blank ⟨36, 0⟩ <|
              .element
                (.enclosing ⟨37, 0⟩ ⟨⟨"StackLayout", "StackLayout", ""⟩, [], false⟩ rfl
                  (.element
                    (.selfClosed ⟨50, 0⟩
                      ⟨⟨"Label", "Label", ""⟩, [⟨⟨"Id", "Id", ""⟩, "A"⟩], true⟩ rfl)
                    .none)
                  ⟨65, 0⟩)
                .none)
            ⟨79, 0⟩)
          .none)
      ⟨101, 0⟩
  epilog := [⟨115, 0⟩]
  finish := ⟨116, 0⟩

/-- The nodes of `nestedText` are those of `nestedDocument`. -/
theorem nestedText_feed : NodeFeed.ofText nestedText.toList = nestedDocument.feed := by
  rw [NodeFeed.ofText_eq]
  decide +kernel

theorem nestedText_unmarked : nestedText.toList.head? ≠ some '\ufeff' := by
  decide +kernel

end MarkupForms.Markup
