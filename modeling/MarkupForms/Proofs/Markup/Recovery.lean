import Mathlib.Control.Monad.Basic
import MarkupForms.Proofs.Markup.Feed

/-!
# Reading on behind faults

A cursor can be asked for more nodes after a fault. Whether the namespaces of those nodes are right
is a matter of the scopes: there should be one for each element that the reader counts as open, and
an element whose start tag was refused should count as one without declarations (`intendedAfter`).

The scopes of a run are these as long as none of four things happens, and they go wrong with the
first of them (`one_scope_each_iff`). Three lose the pairing of scopes and elements (`Unpaired`): a
start tag whose attributes cannot be read opens an element without a scope, such a tag that closes
itself takes away the scope of the element around it, and an end tag with a wrong name closes an
element but leaves its scope. The fourth keeps the pairing: a start tag that is refused for its
names leaves behind what it declares (`LeavesDeclarations`).
-/

namespace MarkupForms.Markup

/-! ## What a fault does to the open elements -/

/-- What a fault does to the names of the open elements: an end tag with a wrong name closes the
innermost one. -/
def ReadFault.Moves (before after : List (List Char)) : ReadFault → Prop
  | .form (.mismatchedEnd _ _) => ∃ name, before = name :: after
  | _ => after = before

namespace Reader

/-- A finishing step keeps account of the open elements when it refuses its content. -/
def KeepsCountOnFault (finish : List Char → Reader → Reading) : Prop :=
  ∀ content next fault, (finish content next).1 = .error fault →
    fault.Moves next.opened (finish content next).2.opened

theorem keepsCountOnFault_startTag : KeepsCountOnFault startTag := by
  intro content next fault h
  unfold startTag at h
  split at h <;> cases h

theorem keepsCountOnFault_endTag : KeepsCountOnFault endTag := by
  intro content next fault h
  unfold endTag at h ⊢
  dsimp only at h ⊢
  cases hopened : next.opened with
  | nil =>
    rw [hopened] at h
    cases h
    exact hopened
  | cons expected outer =>
    rw [hopened] at h
    dsimp only at h ⊢
    by_cases hname : endName content = expected
    · rw [if_pos hname] at h
      cases h
    · rw [if_neg hname] at h ⊢
      cases h
      exact ⟨expected, rfl⟩

/-- A step that yields an event, or finds no end and halts. -/
theorem keepsCountOnFault_of_halts {finish : List Char → Reader → Reading}
    (h : ∀ content next, (∃ event, (finish content next).1 = .ok event) ∨
      ∃ fault, finish content next = (.error (.lexical fault), next.halt next.offset)) :
    KeepsCountOnFault finish := by
  intro content next fault hfault
  rcases h content next with ⟨event, hevent⟩ | ⟨other, hother⟩
  · rw [hevent] at hfault
    cases hfault
  · rw [hother] at hfault ⊢
    cases hfault
    rfl

theorem keepsCountOnFault_instruction : KeepsCountOnFault instruction := by
  apply keepsCountOnFault_of_halts
  intro content next
  unfold instruction
  split
  · exact Or.inl ⟨_, rfl⟩
  · exact Or.inr ⟨_, rfl⟩

theorem keepsCountOnFault_comment : KeepsCountOnFault comment := by
  apply keepsCountOnFault_of_halts
  intro content next
  unfold comment
  split
  · exact Or.inl ⟨_, rfl⟩
  · exact Or.inr ⟨_, rfl⟩

theorem keepsCountOnFault_characterData : KeepsCountOnFault characterData := by
  apply keepsCountOnFault_of_halts
  intro content next
  unfold characterData
  split
  · exact Or.inl ⟨_, rfl⟩
  · exact Or.inr ⟨_, rfl⟩

theorem keepsCountOnFault_doctype : KeepsCountOnFault doctype := by
  intro content next fault h
  unfold doctype at h ⊢
  split at h
  · next hname =>
    rw [if_pos hname]
    split at h <;> cases h
    rw [if_pos ‹_›]
    rfl
  · next hname =>
    cases h
    rw [if_neg hname]
    rfl

theorem piece_moves_of_fault {r : Reader} {closes : List Char → Bool} {unclosed : LexicalFault}
    {finish : List Char → Reader → Reading} {markup : List Char} {fault : ReadFault}
    (hfinish : KeepsCountOnFault finish)
    (h : (r.piece closes unclosed finish markup).1 = .error fault) :
    fault.Moves r.opened (r.piece closes unclosed finish markup).2.opened := by
  unfold piece at h ⊢
  split at h
  · next content behind hcut => exact hfinish content _ fault h
  · cases h; exact rfl

theorem markup_moves_of_fault {r : Reader} {cs : List Char} {fault : ReadFault}
    (h : (r.markup cs).1 = .error fault) : fault.Moves r.opened (r.markup cs).2.opened := by
  unfold markup at h ⊢
  split at h
  · split at h
    · exact piece_moves_of_fault keepsCountOnFault_comment h
    · exact piece_moves_of_fault keepsCountOnFault_characterData h
    · exact piece_moves_of_fault keepsCountOnFault_doctype h
    · exact piece_moves_of_fault keepsCountOnFault_doctype h
    · cases h; exact rfl
  · exact piece_moves_of_fault keepsCountOnFault_endTag h
  · exact piece_moves_of_fault keepsCountOnFault_instruction h
  · exact piece_moves_of_fault keepsCountOnFault_startTag h

theorem next_moves_of_fault {r : Reader} {fault : ReadFault} (h : r.next.1 = .error fault) :
    fault.Moves r.opened r.next.2.opened := by
  unfold next at h ⊢
  split at h
  · cases h
  · next hhalted =>
    rw [if_neg hhalted]
    split at h
    · cases h
    · exact markup_moves_of_fault h
    · cases h

theorem nextContent_moves_of_fault {asides : Nat} {r : Reader} {fault : ReadFault}
    (h : (r.nextContent asides).2.1 = .error fault) :
    fault.Moves r.opened (r.nextContent asides).2.2.opened := by
  fun_induction r.nextContent asides with
  | case1 asides r behind hread ih =>
    have hsame : behind.opened = r.opened := by
      have hmoves := @next_moves r .aside (by rw [hread])
      rwa [hread] at hmoves
    rw [← hsame]
    exact ih h
  | case2 asides r hother => exact next_moves_of_fault h

end Reader

/-! ## One call -/

/-- The scopes behind an event as they should be: one for each open element, and none of a tag that
was refused. -/
def intended (scopes : List Scope) : Except ReadFault Event → List Scope
  | .ok (.startTag content) =>
    match openTag scopes content false with
    | (.ok _, inner) => inner
    | (.error _, _) => [] :: scopes
  | .ok (.endTag _) | .error (.form (.mismatchedEnd _ _)) => scopes.tail
  | _ => scopes

namespace Cursor

/-- What the reader finds next. -/
def upcoming (c : Cursor) : Except ReadFault Event :=
  (c.reader.nextContent 0).2.1

/-- The next call loses the pairing of scopes and elements. -/
inductive Unpaired (c : Cursor) : Prop
  | startTag {content : List Char} {fault : TagFault}
    (hevent : c.upcoming = .ok (.startTag content))
      (hattributes : tagAttributes content = .error fault)
  | emptyTag {content : List Char} {fault : TagFault}
      (hevent : c.upcoming = .ok (.emptyTag content))
      (hattributes : tagAttributes content = .error fault) (hopen : c.openNames ≠ [])
  | endTag {expected found : String} (hevent :
      c.upcoming = .error (.form (.mismatchedEnd expected found)))

/-- The next call refuses a start tag for its names, but keeps what the tag declares. -/
inductive LeavesDeclarations (c : Cursor) : Prop
  | startTag {content : List Char} {attributes : List (String × String)} {fault : NodeFault}
      (hevent : c.upcoming = .ok (.startTag content))
      (hattributes : tagAttributes content = .ok attributes)
      (hdeclares : scopeOf attributes ≠ []) (hrefused : c.next.1 = .error fault)

/-- There is one scope for each element that the reader counts as open. -/
def Paired (c : Cursor) : Prop :=
  c.scopes.length = c.openNames.length

theorem scopes_next (c : Cursor) :
    c.next.2.scopes = match c.upcoming with
      | .ok event => (nodeOf c.scopes event).2
      | .error _ => c.scopes := by
  unfold upcoming next
  rcases c.reader.nextContent 0 with ⟨place, _ | event, reader⟩ <;> rfl

theorem opened_next
    (c : Cursor) : c.next.2.reader.opened = (c.reader.nextContent 0).2.2.opened := by
  unfold next
  rcases c.reader.nextContent 0 with ⟨place, _ | event, reader⟩ <;> rfl

theorem outcome_next {c : Cursor} {event : Event} (h : c.upcoming = .ok event) :
    c.next.1 = (nodeOf c.scopes event).1 := by
  unfold upcoming at h
  unfold next
  rcases hread : c.reader.nextContent 0 with ⟨place, _ | found, reader⟩
  · rw [hread] at h
    cases h
  · rw [hread] at h
    cases h
    rfl

/-- What a call does: to the scopes, to the names of the open elements, and what it should do to the
scopes. -/
inductive Call (c : Cursor) : Prop
  | still (hscopes : c.next.2.scopes = c.scopes) (hnames : c.next.2.openNames = c.openNames)
      (hintended : intended c.scopes c.upcoming = c.scopes) (hpaired : ¬ c.Unpaired)
      (hleaves : ¬ c.LeavesDeclarations)
  | opens {scope : Scope} {name : String} (hscopes : c.next.2.scopes = scope :: c.scopes)
      (hnames : c.next.2.openNames = name :: c.openNames)
      (hintended : intended c.scopes c.upcoming = scope :: c.scopes) (hpaired : ¬ c.Unpaired)
      (hleaves : ¬ c.LeavesDeclarations)
  | closes {name : String} (hscopes : c.next.2.scopes = c.scopes.tail)
      (hnames : c.openNames = name :: c.next.2.openNames)
      (hintended : intended c.scopes c.upcoming = c.scopes.tail) (hpaired : ¬ c.Unpaired)
      (hleaves : ¬ c.LeavesDeclarations)
  | leaves {scope : Scope} {name : String} (hscopes : c.next.2.scopes = scope :: c.scopes)
      (hscope : scope ≠ []) (hnames : c.next.2.openNames = name :: c.openNames)
      (hintended : intended c.scopes c.upcoming = [] :: c.scopes) (hpaired : ¬ c.Unpaired)
      (hleaves : c.LeavesDeclarations)
  | opensWithout {name : String} (hscopes : c.next.2.scopes = c.scopes)
      (hnames : c.next.2.openNames = name :: c.openNames)
      (hintended : intended c.scopes c.upcoming = [] :: c.scopes) (hpaired : c.Unpaired)
  | takesAway (hscopes : c.next.2.scopes = c.scopes.tail) (hopen : c.openNames ≠ [])
      (hnames : c.next.2.openNames = c.openNames)
      (hintended : intended c.scopes c.upcoming = c.scopes) (hpaired : c.Unpaired)
  | closesWithout {name : String} (hscopes : c.next.2.scopes = c.scopes)
      (hnames : c.openNames = name :: c.next.2.openNames)
      (hintended : intended c.scopes c.upcoming = c.scopes.tail) (hpaired : c.Unpaired)

theorem call_startTag {c : Cursor} {content : List Char}
    (h : c.upcoming = .ok (.startTag content)) : c.Call := by
  have hnames : c.next.2.openNames = String.ofList (tagName content) :: c.openNames := by
    have hmoves := Reader.nextContent_moves h
    rw [← opened_next] at hmoves
    exact congrArg (List.map String.ofList) hmoves
  have hscopes : c.next.2.scopes = (openTag c.scopes content false).2 := by
    rw [scopes_next, h]
    rfl
  have hintended : intended c.scopes c.upcoming = match openTag c.scopes content false with
      | (.ok _, inner) => inner
      | (.error _, _) => [] :: c.scopes := by
    rw [h]
    rfl
  cases hattributes : tagAttributes content with
  | error fault =>
    have htag : openTag c.scopes content false = (.error (.badTag fault), c.scopes) := by
      rw [openTag, hattributes]
    rw [htag] at hscopes hintended
    exact .opensWithout hscopes hnames hintended (.startTag h hattributes)
  | ok attributes =>
    have hpaired : ¬ c.Unpaired := by
      rintro (⟨hevent, hother⟩ | ⟨hevent, -, -⟩ | hevent)
      · rw [h] at hevent
        cases hevent
        rw [hattributes] at hother
        cases hother
      · rw [h] at hevent
        cases hevent
      · rw [h] at hevent
        cases hevent
    rcases htag : openTag c.scopes content false with ⟨outcome, inner⟩
    have hinner : inner = scopeOf attributes :: c.scopes := by
      rw [openTag, hattributes] at htag
      exact (congrArg Prod.snd htag).symm
    rw [htag, hinner] at hscopes
    rw [htag, hinner] at hintended
    have hnext : c.next.1 = outcome.map (some ∘ Node.element) := by
      rw [outcome_next h, nodeOf, htag]
    cases outcome with
    | ok tag =>
      refine .opens hscopes hnames hintended hpaired ?_
      rintro ⟨-, -, -, hrefused⟩
      rw [hnext] at hrefused
      cases hrefused
    | error fault =>
      by_cases hdeclares : scopeOf attributes = []
      · rw [hdeclares] at hscopes
        refine .opens hscopes hnames hintended hpaired ?_
        rintro ⟨hevent, hother, hne, -⟩
        rw [h] at hevent
        cases hevent
        rw [hattributes] at hother
        cases hother
        exact hne hdeclares
      · exact .leaves hscopes hdeclares hnames hintended hpaired
          (.startTag h hattributes hdeclares hnext)

theorem call_emptyTag {c : Cursor} {content : List Char} (hc : c.Paired)
    (h : c.upcoming = .ok (.emptyTag content)) :
    c.Call := by
  have hnames : c.next.2.openNames = c.openNames := by
    have hmoves := Reader.nextContent_moves h
    rw [← opened_next] at hmoves
    exact congrArg (List.map String.ofList) hmoves
  have hscopes : c.next.2.scopes = (openTag c.scopes content true).2.tail := by
    rw [scopes_next, h]
    rfl
  have hintended : intended c.scopes c.upcoming = c.scopes := by
    rw [h]
    rfl
  have hleaves : ¬ c.LeavesDeclarations := by
    rintro ⟨hevent, -, -, -⟩
    rw [h] at hevent
    cases hevent
  cases hattributes : tagAttributes content with
  | error fault =>
    rw [openTag, hattributes] at hscopes
    by_cases hopen : c.openNames = []
    · -- no scope there to take away
      have hnone : c.scopes = [] := by
        rw [Paired, hopen] at hc
        exact List.length_eq_zero_iff.1 hc
      refine .still (by rw [hscopes, hnone]; rfl) hnames hintended ?_ hleaves
      rintro (⟨hevent, -⟩ | ⟨-, -, hne⟩ | hevent)
      · rw [h] at hevent
        cases hevent
      · exact hne hopen
      · rw [h] at hevent
        cases hevent
    · exact .takesAway hscopes hopen hnames hintended (.emptyTag h hattributes hopen)
  | ok attributes =>
    rw [openTag, hattributes] at hscopes
    refine .still hscopes hnames hintended ?_ hleaves
    rintro (⟨hevent, -⟩ | ⟨hevent, hother, -⟩ | hevent)
    · rw [h] at hevent
      cases hevent
    · rw [h] at hevent
      cases hevent
      rw [hattributes] at hother
      cases hother
    · rw [h] at hevent
      cases hevent

theorem call_endTag {c : Cursor} {name : List Char} (h : c.upcoming = .ok (.endTag name)) :
    c.Call := by
  have hnames : c.openNames = String.ofList name :: c.next.2.openNames := by
    have hmoves := Reader.nextContent_moves h
    rw [← opened_next] at hmoves
    exact congrArg (List.map String.ofList) hmoves
  refine .closes (by rw [scopes_next, h]; rfl) hnames (by rw [h]; rfl) ?_ ?_
  · rintro (⟨hevent, -⟩ | ⟨hevent, -, -⟩ | hevent) <;> rw [h] at hevent <;> cases hevent
  · rintro ⟨hevent, -, -, -⟩
    rw [h] at hevent
    cases hevent

theorem call_mismatchedEnd {c : Cursor} {expected found : String}
    (h : c.upcoming = .error (.form (.mismatchedEnd expected found))) : c.Call := by
  obtain ⟨name, hname⟩ := Reader.nextContent_moves_of_fault h
  rw [← opened_next] at hname
  exact .closesWithout (by rw [scopes_next, h]) (congrArg (List.map String.ofList) hname)
    (by rw [h]; rfl) (.endTag h)

/-- What is no tag moves nothing. -/
def Quiet : Except ReadFault Event → Prop
  | .ok (.startTag _) | .ok (.emptyTag _) | .ok (.endTag _)
  | .error (.form (.mismatchedEnd _ _)) => False
  | _ => True

theorem call_of_quiet {c : Cursor} (h : Quiet c.upcoming) : c.Call := by
  refine .still ?_ ?_ ?_ ?_ ?_
  · rw [scopes_next]
    cases hup : c.upcoming with
    | error fault => rfl
    | ok event =>
      rw [hup] at h
      cases event <;> first | rfl | exact h.elim
  · rw [openNames, opened_next]
    apply congrArg (List.map String.ofList)
    cases hup : c.upcoming with
    | error fault =>
      have hmoves := Reader.nextContent_moves_of_fault hup
      rw [hup] at h
      unfold ReadFault.Moves at hmoves
      split at hmoves
      · exact h.elim
      · exact hmoves
    | ok event =>
      have hmoves := Reader.nextContent_moves hup
      rw [hup] at h
      cases event <;> first | exact hmoves | exact h.elim
  · unfold intended
    split <;> first | rfl | (next hup => rw [hup] at h; exact h.elim)
  · rintro (⟨hevent, -⟩ | ⟨hevent, -, -⟩ | hevent) <;> rw [hevent] at h <;> exact h
  · rintro ⟨hevent, -, -, -⟩
    rw [hevent] at h
    exact h

/-- Every call is one of these. -/
theorem call (c : Cursor) (hc : c.Paired) : c.Call :=
  match hup : c.upcoming with
  | .ok (.startTag _) => call_startTag hup
  | .ok (.emptyTag _) => call_emptyTag hc hup
  | .ok (.endTag _) => call_endTag hup
  | .error (.form (.mismatchedEnd _ _)) => call_mismatchedEnd hup
  | .ok (.text _) | .ok (.characterData _) | .ok .aside | .ok .finished | .error (.lexical _)
  | .error (.form (.unmatchedEnd _)) | .error (.form .missingDoctypeName) =>
    call_of_quiet (by rw [hup]; trivial)

section Steps

variable {c : Cursor}

/-- **One call, the number of scopes**: it stays right unless the call is one of the three that lose
it. -/
theorem paired_next_iff (hc : c.Paired) : c.next.2.Paired ↔ ¬ c.Unpaired := by
  unfold Paired at hc ⊢
  cases c.call hc with
  | still hscopes hnames _ hpaired _ =>
    rw [hscopes, hnames]
    exact iff_of_true hc hpaired
  | opens hscopes hnames _ hpaired _ =>
    rw [hscopes, hnames, List.length_cons, List.length_cons]
    exact iff_of_true (congrArg (· + 1) hc) hpaired
  | closes hscopes hnames _ hpaired _ =>
    rw [hnames, List.length_cons] at hc
    rw [hscopes, List.length_tail]
    exact iff_of_true (by omega) hpaired
  | leaves hscopes _ hnames _ hpaired _ =>
    rw [hscopes, hnames, List.length_cons, List.length_cons]
    exact iff_of_true (congrArg (· + 1) hc) hpaired
  | opensWithout hscopes hnames _ hunpaired =>
    rw [hscopes, hnames, List.length_cons]
    exact iff_of_false (by omega) (not_not_intro hunpaired)
  | takesAway hscopes hopen hnames _ hunpaired =>
    have hsome := List.length_pos_iff.2 hopen
    rw [hscopes, hnames, List.length_tail]
    exact iff_of_false (by omega) (not_not_intro hunpaired)
  | closesWithout hscopes hnames _ hunpaired =>
    rw [hnames, List.length_cons] at hc
    rw [hscopes]
    exact iff_of_false (by omega) (not_not_intro hunpaired)

/-- There should be one scope for each open element. -/
theorem length_intended (hc : c.Paired) :
    (intended c.scopes c.upcoming).length = c.next.2.openNames.length := by
  have hlength := hc
  unfold Paired at hlength
  cases c.call hc with
  | still _ hnames hintended _ _ | takesAway _ _ hnames hintended _ =>
    rw [hintended, hnames, hlength]
  | opens _ hnames hintended _ _ | leaves _ _ hnames hintended _ _
  | opensWithout _ hnames hintended _ =>
    rw [hintended, hnames, List.length_cons, List.length_cons, hlength]
  | closes _ hnames hintended _ _ | closesWithout _ hnames hintended _ =>
    rw [hnames, List.length_cons] at hlength
    rw [hintended, List.length_tail]
    omega

/-- **One call, the scopes themselves**: they are as they should be unless the call is one of the
four. -/
theorem scopes_next_eq_intended_iff (hc : c.Paired) :
    c.next.2.scopes = intended c.scopes c.upcoming ↔ ¬ c.Unpaired ∧ ¬ c.LeavesDeclarations := by
  constructor
  · intro hscopes
    -- the number of scopes is right, so the pairing is not lost
    have hpaired : ¬ c.Unpaired := by
      rw [← paired_next_iff hc, Paired, hscopes]
      exact length_intended hc
    refine ⟨hpaired, ?_⟩
    cases c.call hc with
    | still _ _ _ _ hleaves | opens _ _ _ _ hleaves | closes _ _ _ _ hleaves => exact hleaves
    | leaves hinner hscope _ hintended _ _ =>
      rw [hinner, hintended] at hscopes
      exact absurd (List.cons.inj hscopes).1 hscope
    | opensWithout _ _ _ hunpaired | takesAway _ _ _ _ hunpaired | closesWithout _ _ _ hunpaired =>
      exact absurd hunpaired hpaired
  · rintro ⟨hpaired, hleaves⟩
    cases c.call hc with
    | still hscopes _ hintended _ _ | opens hscopes _ hintended _ _
    | closes hscopes _ hintended _ _ =>
      rw [hscopes, hintended]
    | leaves _ _ _ _ _ hown => exact absurd hown hleaves
    | opensWithout _ _ _ hunpaired | takesAway _ _ _ _ hunpaired | closesWithout _ _ _ hunpaired =>
      exact absurd hunpaired hpaired

end Steps

/-! ## Runs -/

/-- The cursor behind a number of calls, whatever they yield. -/
def behind (c : Cursor) : (calls : Nat) → Cursor
  | 0 => c
  | calls + 1 => (c.behind calls).next.2

/-- The scopes behind a number of calls as they should be. -/
def intendedBehind (c : Cursor) : (calls : Nat) → List Scope
  | 0 => c.scopes
  | calls + 1 => intended (c.intendedBehind calls) (c.behind calls).upcoming

theorem paired_ofText (cs : List Char) : (Cursor.ofText cs).Paired := by
  show 0 = ((Reader.ofText cs).opened.map String.ofList).length
  unfold Reader.ofText
  split <;> rfl

section Runs

variable {c : Cursor}

/-- Whatever happens, there should be one scope for each open element. -/
theorem length_intendedBehind (hc : c.Paired) (calls : Nat) :
    (c.intendedBehind calls).length = (c.behind calls).openNames.length := by
  induction calls with
  | zero => exact hc
  | succ calls ih =>
    -- the reader does not look at the scopes, so it may stand beside those that should be there
    have hlength := @length_intended ⟨(c.behind calls).reader, c.intendedBehind calls,
      (c.behind calls).place⟩ ih
    rw [openNames, opened_next] at hlength
    rw [behind, openNames, opened_next]
    exact hlength

theorem paired_behind (hc : c.Paired) {calls : Nat} (h : ∀ k < calls, ¬ (c.behind k).Unpaired) :
    ∀ k ≤ calls, (c.behind k).Paired := by
  intro k hk
  induction k with
  | zero => exact hc
  | succ k ih => exact (paired_next_iff (ih (Nat.le_of_succ_le hk))).2 (h k hk)

theorem scopes_behind (hc : c.Paired) {calls : Nat}
    (h : ∀ k < calls, ¬ (c.behind k).Unpaired ∧ ¬ (c.behind k).LeavesDeclarations) :
    ∀ k ≤ calls, (c.behind k).scopes = c.intendedBehind k := by
  have hpaired := paired_behind hc fun k hk => (h k hk).1
  intro k hk
  induction k with
  | zero => rfl
  | succ k ih =>
    rw [behind, (scopes_next_eq_intended_iff (hpaired k (Nat.le_of_succ_le hk))).2 (h k hk),
      ih (Nat.le_of_succ_le hk)]
    rfl

end Runs

/-- **The scopes of a run, faults included**: there is one for each open element up to the first
call that loses the pairing, and they are those that should be there up to the first call that does
that or leaves declarations. -/
theorem one_scope_each_iff (cs : List Char) (calls : Nat) :
    ((∀ k ≤ calls, ((Cursor.ofText cs).behind k).Paired) ↔
        ∀ k < calls, ¬ ((Cursor.ofText cs).behind k).Unpaired) ∧
      ((∀ k ≤ calls, ((Cursor.ofText cs).behind k).scopes = (Cursor.ofText cs).intendedBehind k) ↔
        ∀ k < calls, ¬ ((Cursor.ofText cs).behind k).Unpaired ∧
          ¬ ((Cursor.ofText cs).behind k).LeavesDeclarations) ∧
      ∀ k, ((Cursor.ofText cs).intendedBehind k).length =
        ((Cursor.ofText cs).behind k).openNames.length := by
  have hstart := paired_ofText cs
  refine ⟨⟨?_, paired_behind hstart⟩, ⟨?_, scopes_behind hstart⟩, length_intendedBehind hstart⟩
  · intro h k hk
    exact (paired_next_iff (h k (Nat.le_of_lt hk))).1 (h (k + 1) hk)
  · intro h k hk
    have hpaired : ((Cursor.ofText cs).behind k).Paired := by
      rw [Paired, h k (Nat.le_of_lt hk)]
      exact length_intendedBehind hstart k
    rw [← scopes_next_eq_intended_iff hpaired, h k (Nat.le_of_lt hk)]
    exact h (k + 1) hk

end Cursor

/-- A start tag with an attribute that cannot be read, inside an element that declares a prefix. -/
def refusedText : String :=
  "<a xmlns:p='u'><b c></b><p:d/></a>"

/-- The element whose start tag is refused takes the scope of the element around it along: the
prefix that `a` declares is not known behind it, though `a` is open. It is known if the start tag is
in order. -/
theorem not_paired_refusedText :
    ((Cursor.ofText refusedText.toList).behind 3).openNames = ["a"] ∧
      ((Cursor.ofText refusedText.toList).behind 3).scopes = [] ∧
      (Cursor.ofText refusedText.toList).intendedBehind 3 = [[("p", "u")]] ∧
      ((Cursor.ofText refusedText.toList).behind 3).next.1 = .error (.undeclaredPrefix "p") ∧
      ((Cursor.ofText "<a xmlns:p='u'><b></b><p:d/></a>".toList).behind 3).next.1 =
        .ok (some (.element ⟨⟨"p:d", "d", "u"⟩, [], true⟩)) := by
  decide +kernel

end MarkupForms.Markup
