import Mathlib.Data.List.Forall2
import Mathlib.Data.List.Induction
import MarkupForms.OrderedMap

/-!
# Entries of ordered maps

Where the entries of a map come from after insertions, and maps that agree entry by entry.
-/

namespace MarkupForms.OrderedMap

variable {α : Type}

theorem mem_of_lookupEntry {key : String} {value : α} {entries : List (String × α)}
    (h : lookupEntry key entries = some value) : (key, value) ∈ entries := by
  induction entries with
  | nil => cases h
  | cons entry rest ih =>
    rw [lookupEntry] at h
    split at h
    · next hkey =>
      obtain ⟨name, found⟩ := entry
      cases h
      cases hkey
      exact List.mem_cons_self
    · exact List.mem_cons_of_mem _ (ih h)

theorem mem_of_get? {m : OrderedMap α} {key : String} {value : α}
    (h : m.get? key = some value) : (key, value) ∈ m.toList :=
  mem_of_lookupEntry h

/-- Under distinct keys each entry is the one that is looked up. -/
theorem get?_of_mem {m : OrderedMap α} (hkeys : m.keys.Nodup) {key : String} {value : α}
    (h : (key, value) ∈ m.toList) : m.get? key = some value := by
  obtain ⟨entries⟩ := m
  show lookupEntry key entries = some value
  induction entries with
  | nil => cases h
  | cons entry rest ih =>
    obtain ⟨hnew, hrest⟩ := List.nodup_cons.1 hkeys
    rcases List.mem_cons.1 h with rfl | hmem
    · exact if_pos rfl
    · have hne : entry.1 ≠ key := fun heq => hnew (List.mem_map.2 ⟨(key, value), hmem, heq.symm⟩)
      rw [lookupEntry, if_neg hne]
      exact ih hrest hmem

theorem mem_insertEntry {key : String} {value : α} {entries : List (String × α)}
    {entry : String × α} (h : entry ∈ insertEntry key value entries) :
    entry = (key, value) ∨ entry ∈ entries := by
  induction entries with
  | nil => exact Or.inl (List.mem_singleton.1 h)
  | cons first rest ih =>
    rw [insertEntry] at h
    split at h
    · rcases List.mem_cons.1 h with rfl | h
      · exact Or.inl rfl
      · exact Or.inr (List.mem_cons_of_mem _ h)
    · rcases List.mem_cons.1 h with rfl | h
      · exact Or.inr List.mem_cons_self
      · exact (ih h).imp_right (List.mem_cons_of_mem _)

/-- After an insertion there is the new entry, and nothing else that was not there before. -/
theorem mem_insert {m : OrderedMap α} {key : String} {value : α} {entry : String × α}
    (h : entry ∈ (m.insert key value).toList) : entry = (key, value) ∨ entry ∈ m.toList :=
  mem_insertEntry h

theorem mem_insertAll {m : OrderedMap α} {entries : List (String × α)} {entry : String × α}
    (h : entry ∈ (m.insertAll entries).toList) : entry ∈ entries ∨ entry ∈ m.toList := by
  induction entries generalizing m with
  | nil => exact Or.inr h
  | cons first rest ih =>
    rw [insertAll_cons] at h
    rcases ih h with hrest | hinsert
    · exact Or.inl (List.mem_cons_of_mem _ hrest)
    · rcases mem_insert hinsert with rfl | hold
      · exact Or.inl List.mem_cons_self
      · exact Or.inr hold

theorem lookupEntry_eq_none {key : String} {entries : List (String × α)}
    (h : key ∉ entries.map Prod.fst) : lookupEntry key entries = none := by
  induction entries with
  | nil => rfl
  | cons entry rest ih =>
    rw [List.map_cons, List.mem_cons, not_or] at h
    rw [lookupEntry, if_neg (Ne.symm h.1)]
    exact ih h.2

/-- An insertion brings in its own value and nothing else. -/
theorem count_filterMap_insert {β : Type} [DecidableEq β] (f : α → Option β) (m : OrderedMap α)
    (key : String) (value : α) (x : β) :
    ((m.insert key value).values.filterMap f).count x ≤
      (m.values.filterMap f).count x + (f value).toList.count x := by
  have hcons : ∀ (first : α) (rest : List α), ((first :: rest).filterMap f).count x =
      (f first).toList.count x + (rest.filterMap f).count x := by
    intro first rest
    cases hfirst : f first with
    | none => simp [hfirst]
    | some y =>
      rw [List.filterMap_cons_some hfirst, ← List.singleton_append, List.count_append]; rfl
  show (((insertEntry key value m.toList).map Prod.snd).filterMap f).count x ≤
    ((m.toList.map Prod.snd).filterMap f).count x + (f value).toList.count x
  induction m.toList with
  | nil => exact Nat.le_of_eq ((hcons value []).trans (Nat.add_comm _ _))
  | cons entry rest ih =>
    rw [insertEntry]
    split
    · rw [List.map_cons, List.map_cons, hcons, hcons]
      dsimp only
      omega
    · rw [List.map_cons, List.map_cons, hcons, hcons]
      omega

/-- An insertion of what `f` passes over brings in nothing that `f` does not. -/
theorem filterMap_insert_sublist {β : Type} (f : α → Option β) (m : OrderedMap α) {key : String}
    {value : α} (hvalue : f value = none) :
    ((m.insert key value).values.filterMap f).Sublist (m.values.filterMap f) := by
  show (((insertEntry key value m.toList).map Prod.snd).filterMap f).Sublist
    ((m.toList.map Prod.snd).filterMap f)
  induction m.toList with
  | nil =>
    rw [insertEntry, List.map_cons, List.filterMap_cons_none hvalue]
  | cons entry rest ih =>
    rw [insertEntry]
    split
    · rw [List.map_cons, List.map_cons, List.filterMap_cons_none hvalue]
      exact (List.sublist_cons_self _ _).filterMap f
    · rw [List.map_cons, List.map_cons, List.filterMap_cons, List.filterMap_cons]
      split
      · exact ih
      · exact ih.cons_cons _

theorem filterMap_insertAll_sublist {β : Type} (f : α → Option β) (m : OrderedMap α)
    {entries : List (String × α)} (hentries : ∀ entry ∈ entries, f entry.2 = none) :
    ((m.insertAll entries).values.filterMap f).Sublist (m.values.filterMap f) := by
  induction entries generalizing m with
  | nil => exact List.Sublist.refl _
  | cons entry rest ih =>
    rw [insertAll_cons]
    have hrest := ih (m.insert entry.1 entry.2) fun other hmem =>
      hentries other (List.mem_cons_of_mem _ hmem)
    exact hrest.trans (filterMap_insert_sublist f m (hentries entry List.mem_cons_self))

/-! ## Insertions again -/

/-- The later of two insertions under one key counts. -/
theorem insert_insert_self (m : OrderedMap α) (key : String) (value next : α) :
    (m.insert key value).insert key next = m.insert key next := by
  suffices h : ∀ entries : List (String × α),
      insertEntry key next (insertEntry key value entries) = insertEntry key next entries from
    congrArg OrderedMap.mk (h m.toList)
  intro entries
  induction entries with
  | nil => exact if_pos rfl
  | cons entry rest ih =>
    rw [insertEntry, insertEntry]
    split
    · exact if_pos rfl
    · next hkey =>
      rw [insertEntry, if_neg hkey, ih]

/-- A key that is present keeps its place, so another one may as well be inserted first. -/
theorem insert_insert_comm {m : OrderedMap α} {key other : String} (hpresent : key ∈ m.keys)
    (hne : key ≠ other) (value next : α) :
    (m.insert other next).insert key value = (m.insert key value).insert other next := by
  suffices h : ∀ entries : List (String × α), key ∈ entries.map Prod.fst →
      insertEntry key value (insertEntry other next entries) =
        insertEntry other next (insertEntry key value entries) from
    congrArg OrderedMap.mk (h m.toList hpresent)
  intro entries hmem
  induction entries with
  | nil => cases hmem
  | cons entry rest ih =>
    by_cases hkey : entry.1 = key
    · simp only [insertEntry, hkey, hne, if_true, if_false]
    · have hrest : key ∈ rest.map Prod.fst := by
        rw [List.map_cons, List.mem_cons] at hmem
        exact hmem.resolve_left (Ne.symm hkey)
      by_cases hother : entry.1 = other
      · simp only [insertEntry, hother, Ne.symm hne, if_true, if_false]
      · simp only [insertEntry, hkey, hother, if_false, ih hrest]

theorem mem_keys_insert {m : OrderedMap α} {key other : String} {value : α} :
    other ∈ (m.insert key value).keys ↔ other ∈ m.keys ∨ other = key := by
  rw [keys_insert]
  split
  · next hpresent => exact ⟨Or.inl, fun h => h.elim id fun heq => heq ▸ hpresent⟩
  · rw [List.mem_append, List.mem_singleton]

theorem mem_keys_insertAll {m : OrderedMap α} {entries : List (String × α)} {key : String} :
    key ∈ (m.insertAll entries).keys ↔ key ∈ m.keys ∨ key ∈ entries.map Prod.fst := by
  induction entries generalizing m with
  | nil => simp [insertAll_nil]
  | cons entry rest ih =>
    rw [insertAll_cons, ih, mem_keys_insert, List.map_cons, List.mem_cons, or_assoc]

/-- Insertions leave the keys different. -/
theorem nodup_keys_insertAll {m : OrderedMap α} (h : m.keys.Nodup) (entries : List (String × α)) :
    (m.insertAll entries).keys.Nodup := by
  induction entries generalizing m with
  | nil => exact h
  | cons entry rest ih =>
    refine ih ?_
    rw [keys_insert]
    split
    · exact h
    · next hnew =>
      refine List.nodup_append.2 ⟨h, by simp, fun present hpresent other hother => ?_⟩
      rw [List.mem_singleton.1 hother]
      rintro rfl
      exact hnew hpresent

/-- Present keys keep their places, and new ones follow in the order of insertion. -/
theorem keys_insertAll {m : OrderedMap α} {entries : List (String × α)}
    (h : (entries.map Prod.fst).Nodup) :
    (m.insertAll entries).keys = m.keys ++ (entries.map Prod.fst).filter (· ∉ m.keys) := by
  induction entries generalizing m with
  | nil => exact (List.append_nil m.keys).symm
  | cons entry rest ih =>
    rw [List.map_cons, List.nodup_cons] at h
    rw [insertAll_cons, ih h.2, keys_insert, List.map_cons]
    by_cases hpresent : entry.1 ∈ m.keys
    · rw [if_pos hpresent, List.filter_cons_of_neg (by simpa using hpresent)]
    · rw [if_neg hpresent, List.filter_cons_of_pos (by simpa using hpresent), List.append_assoc]
      -- no other entry has the new key
      have hother : ∀ key ∈ rest.map Prod.fst, decide (key ∉ m.keys ++ [entry.1]) =
          decide (key ∉ m.keys) := by
        intro key hkey
        have hne : key ≠ entry.1 := fun heq => h.1 (heq ▸ hkey)
        simp [hne]
      rw [List.filter_congr hother]
      rfl

theorem insertAll_append (m : OrderedMap α) (entries others : List (String × α)) :
    m.insertAll (entries ++ others) = (m.insertAll entries).insertAll others :=
  List.foldl_append

/-- An insertion before others, all under keys that are present, is lost to one after them. -/
theorem insert_insertAll_insert {m : OrderedMap α} {entries : List (String × α)}
    (hpresent : ∀ entry ∈ entries, entry.1 ∈ m.keys) (key : String) (value next : α) :
    ((m.insert key value).insertAll entries).insert key next =
      (m.insertAll entries).insert key next := by
  induction entries generalizing m value with
  | nil => exact insert_insert_self m key value next
  | cons entry rest ih =>
    have hrest : ∀ other ∈ rest, other.1 ∈ (m.insert entry.1 entry.2).keys := fun other hmem =>
      mem_keys_insert.2 (Or.inl (hpresent other (List.mem_cons_of_mem _ hmem)))
    rw [insertAll_cons, insertAll_cons]
    by_cases hkey : entry.1 = key
    · rw [← hkey, insert_insert_self]
    · rw [insert_insert_comm (hpresent entry List.mem_cons_self) hkey]
      exact ih hrest value

/-- **Inserting the same entries once more changes nothing**, also if they name a key twice. -/
theorem insertAll_insertAll_self (m : OrderedMap α) (entries : List (String × α)) :
    (m.insertAll entries).insertAll entries = m.insertAll entries := by
  induction entries using List.reverseRecOn with
  | nil => rfl
  | append_singleton rest entry ih =>
    have hpresent : ∀ other ∈ rest, other.1 ∈ (m.insertAll rest).keys := fun other hmem =>
      mem_keys_insertAll.2 (Or.inr (List.mem_map.2 ⟨other, hmem, rfl⟩))
    calc (m.insertAll (rest ++ [entry])).insertAll (rest ++ [entry])
        = (((m.insertAll rest).insert entry.1 entry.2).insertAll rest).insert entry.1 entry.2 := by
          rw [insertAll_append, insertAll_append]
          rfl
      _ = ((m.insertAll rest).insertAll rest).insert entry.1 entry.2 :=
          insert_insertAll_insert hpresent entry.1 entry.2 entry.2
      _ = m.insertAll (rest ++ [entry]) := by
          rw [ih, insertAll_append]
          rfl

/-- Insertions under other keys are not seen. -/
theorem get?_insertAll_of_notMem {m : OrderedMap α} {entries : List (String × α)} {key : String}
    (h : key ∉ entries.map Prod.fst) : (m.insertAll entries).get? key = m.get? key := by
  induction entries generalizing m with
  | nil => rfl
  | cons entry rest ih =>
    rw [List.map_cons, List.mem_cons, not_or] at h
    rw [insertAll_cons, ih h.2, get?_insert, if_neg (Ne.symm h.1)]

/-- Of insertions under different keys each is read back. -/
theorem get?_insertAll_of_mem {m : OrderedMap α} {entries : List (String × α)}
    (hkeys : (entries.map Prod.fst).Nodup) {key : String} {value : α} (h : (key, value) ∈ entries) :
    (m.insertAll entries).get? key = some value := by
  induction entries generalizing m with
  | nil => cases h
  | cons entry rest ih =>
    rw [List.map_cons, List.nodup_cons] at hkeys
    rw [insertAll_cons]
    rcases List.mem_cons.1 h with rfl | hrest
    · rw [get?_insertAll_of_notMem hkeys.1, get?_insert, if_pos rfl]
    · exact ih hkeys.2 hrest

/-! ## Keys that repeat -/

/-- Of the insertions under one key the last one is read back. -/
theorem get?_insertAll_cases {m : OrderedMap α} {entries : List (String × α)} {key : String}
    {value : α} (h : (m.insertAll entries).get? key = some value) :
    m.get? key = some value ∧ key ∉ entries.map Prod.fst ∨
      ∃ before behind, entries = before ++ (key, value) :: behind ∧ key ∉ behind.map Prod.fst := by
  induction entries using List.reverseRecOn with
  | nil => exact Or.inl ⟨h, List.not_mem_nil⟩
  | append_singleton rest entry ih =>
    rw [insertAll_append, insertAll_cons, insertAll_nil, get?_insert] at h
    split at h
    · next hkey =>
      obtain ⟨name, found⟩ := entry
      cases h
      cases hkey
      exact Or.inr ⟨rest, [], rfl, List.not_mem_nil⟩
    · next hkey =>
      have hlater : ∀ others : List (String × α), key ∉ others.map Prod.fst →
          key ∉ (others ++ [entry]).map Prod.fst := by
        intro others hothers
        rw [List.map_append, List.mem_append, not_or]
        exact ⟨hothers, fun hlast => hkey (List.mem_singleton.1 hlast).symm⟩
      rcases ih h with ⟨hold, hrest⟩ | ⟨before, behind, rfl, hbehind⟩
      · exact Or.inl ⟨hold, hlater rest hrest⟩
      · exact Or.inr ⟨before, behind ++ [entry], by simp, hlater behind hbehind⟩

theorem get?_ofList_split {entries : List (String × α)} {key : String} {value : α}
    (h : (ofList entries).get? key = some value) :
    ∃ before behind, entries = before ++ (key, value) :: behind ∧ key ∉ behind.map Prod.fst := by
  rcases get?_insertAll_cases h with ⟨hempty, -⟩ | hsplit
  · cases hempty
  · exact hsplit

theorem get?_ofList_of_split (before : List (String × α)) {behind : List (String × α)}
    {key : String} (value : α) (h : key ∉ behind.map Prod.fst) :
    (ofList (before ++ (key, value) :: behind)).get? key = some value := by
  rw [ofList, insertAll_append, insertAll_cons, get?_insertAll_of_notMem h, get?_insert, if_pos rfl]

theorem nodup_keys_ofList (entries : List (String × α)) : (ofList entries).keys.Nodup :=
  @nodup_keys_insertAll _ empty List.nodup_nil entries

/-- The keys stand where they first occur. -/
theorem keys_ofList (entries : List (String × α)) :
    (ofList entries).keys = (entries.map Prod.fst).eraseDups := by
  induction entries using List.reverseRecOn with
  | nil => rfl
  | append_singleton rest entry ih =>
    have hstep : (ofList (rest ++ [entry])).keys = ((ofList rest).insert entry.1 entry.2).keys :=
      congrArg keys (insertAll_append empty rest [entry])
    rw [hstep, keys_insert, ih, List.map_append, List.eraseDups_append]
    by_cases hold : entry.1 ∈ rest.map Prod.fst
    · rw [if_pos (List.mem_eraseDups.2 hold)]
      simp [List.removeAll, hold]
    · rw [if_neg (mt List.mem_eraseDups.1 hold)]
      simp [List.removeAll, hold, List.eraseDups_cons]

/-! ## Entries in step -/

section Related

variable {β : Type} {R : α → β → Prop}

/-- Entries under the same key with related values. -/
def SameEntry (R : α → β → Prop) (entry : String × α) (other : String × β) : Prop :=
  entry.1 = other.1 ∧ R entry.2 other.2

/-- Insertions under one key keep two maps in step. -/
theorem rel_insertEntry {entries : List (String × α)} {others : List (String × β)}
    (h : List.Forall₂ (SameEntry R) entries others) (key : String) {value : α} {other : β}
    (hvalue : R value other) :
    List.Forall₂ (SameEntry R) (insertEntry key value entries) (insertEntry key other others) := by
  induction h with
  | nil => exact .cons ⟨rfl, hvalue⟩ .nil
  | @cons entry entry' rest rest' hentry hrest ih =>
    -- equal keys: both maps replace the value here, or neither does
    rw [insertEntry, insertEntry, ← hentry.1]
    split
    · exact .cons ⟨rfl, hvalue⟩ hrest
    · exact .cons hentry ih

end Related

end MarkupForms.OrderedMap
