/-!
# Maps that remember the order of insertion

An ordered map lists its entries in the order in which their keys were first inserted. Inserting
under a key that is present replaces the value and keeps the place; a new key goes last. No key
occurs twice in a map built by `insert` from the empty one (`keys_insert`).
-/

namespace MarkupForms

/-- Entries under text keys, in order of first insertion. -/
structure OrderedMap (α : Type) where
  toList : List (String × α)

namespace OrderedMap

variable {α : Type}

/-- The map without entries. -/
def empty : OrderedMap α := ⟨[]⟩

instance : Inhabited (OrderedMap α) := ⟨empty⟩

/-- The value of the first entry under `key`. -/
def lookupEntry (key : String) : List (String × α) → Option α
  | [] => none
  | entry :: rest => if entry.1 = key then some entry.2 else lookupEntry key rest

/-- The value under `key`. -/
def get? (m : OrderedMap α) (key : String) : Option α :=
  lookupEntry key m.toList

/-- The keys in order. -/
def keys (m : OrderedMap α) : List String :=
  m.toList.map Prod.fst

/-- The values in the order of their keys. -/
def values (m : OrderedMap α) : List α :=
  m.toList.map Prod.snd

/-- The number of entries. -/
def size (m : OrderedMap α) : Nat :=
  m.toList.length

/-- Whether there is no entry. -/
def isEmpty (m : OrderedMap α) : Bool :=
  m.toList.isEmpty

/-- The entries with `value` under `key`: in the place of an earlier value, else last. -/
def insertEntry (key : String) (value : α) : List (String × α) → List (String × α)
  | [] => [(key, value)]
  | entry :: rest =>
    if entry.1 = key then (key, value) :: rest else entry :: insertEntry key value rest

/-- The map with `value` under `key`. -/
def insert (m : OrderedMap α) (key : String) (value : α) : OrderedMap α :=
  ⟨insertEntry key value m.toList⟩

/-- The map with all `entries` inserted from left to right. -/
def insertAll (m : OrderedMap α) (entries : List (String × α)) : OrderedMap α :=
  entries.foldl (fun m entry => m.insert entry.1 entry.2) m

/-- The map that the insertions `entries` build from the empty one. -/
def ofList (entries : List (String × α)) : OrderedMap α :=
  empty.insertAll entries

/-! ## What insertion does to the view -/

@[simp] theorem get?_empty (key : String) : (empty : OrderedMap α).get? key = none := rfl

theorem lookupEntry_insertEntry (key other : String) (value : α) (entries : List (String × α)) :
    lookupEntry other (insertEntry key value entries) =
      if key = other then some value else lookupEntry other entries := by
  induction entries with
  | nil => by_cases h : key = other <;> simp [insertEntry, lookupEntry, h]
  | cons entry rest ih =>
    by_cases hk : entry.1 = key
    · by_cases ho : key = other <;> simp [insertEntry, lookupEntry, hk, ho]
    · by_cases ho : key = other
      · subst ho; simp [insertEntry, lookupEntry, hk, ih]
      · simp [insertEntry, lookupEntry, hk, ho, ih]

/-- An insertion is read back under its key and changes no other key. -/
theorem get?_insert (m : OrderedMap α) (key other : String) (value : α) :
    (m.insert key value).get? other = if key = other then some value else m.get? other :=
  lookupEntry_insertEntry key other value m.toList

theorem map_fst_insertEntry (key : String) (value : α) (entries : List (String × α)) :
    (insertEntry key value entries).map Prod.fst =
      if key ∈ entries.map Prod.fst then entries.map Prod.fst
      else entries.map Prod.fst ++ [key] := by
  induction entries with
  | nil => simp [insertEntry]
  | cons entry rest ih =>
    by_cases h : entry.1 = key
    · simp [insertEntry, h]
    · have h' : key ≠ entry.1 := Ne.symm h
      by_cases hm : key ∈ rest.map Prod.fst
      · simp only [insertEntry, h, if_false, List.map_cons, ih, List.mem_cons, hm, or_true, if_true]
      · simp only [insertEntry, h, if_false, List.map_cons, ih, List.mem_cons, h', hm, or_self,
          List.cons_append]

/-- A present key keeps its place, a new one goes last. -/
theorem keys_insert (m : OrderedMap α) (key : String) (value : α) :
    (m.insert key value).keys = if key ∈ m.keys then m.keys else m.keys ++ [key] :=
  map_fst_insertEntry key value m.toList

theorem insertAll_nil (m : OrderedMap α) : m.insertAll [] = m := rfl

theorem insertAll_cons (m : OrderedMap α) (entry : String × α) (entries : List (String × α)) :
    m.insertAll (entry :: entries) = (m.insert entry.1 entry.2).insertAll entries := rfl

end OrderedMap

end MarkupForms
