import MarkupForms.Objects.Graph

/-!
# Resources and keys of a pass

A pass over a document remembers the resources declared so far, which binding expressions may name,
and the keys that elements declare until a keyed container takes them.
-/

namespace MarkupForms.Hydration

/-- The resources declared so far, in order of first declaration. A later declaration under the same
key takes the place of an earlier one. -/
abbrev ResourceTable := OrderedMap ObjectId

/-- The keys that were declared on objects and not taken yet; each object has at most one. -/
structure KeyTable where
  declared : List (ObjectId × String)
  deriving Repr, DecidableEq

namespace KeyTable

/-- The table without keys. -/
def empty : KeyTable := ⟨[]⟩

/-- The key declared on an object. -/
def key? (keys : KeyTable) (id : ObjectId) : Option String :=
  keys.declared.lookup id

/-- The table without the key of an object. -/
def erase (keys : KeyTable) (id : ObjectId) : KeyTable :=
  ⟨keys.declared.filter (·.1 != id)⟩

/-- The table with `key` as the key of an object. -/
def declare (keys : KeyTable) (id : ObjectId) (key : String) : KeyTable :=
  ⟨(id, key) :: (keys.erase id).declared⟩

/-- The number of keys. -/
def size (keys : KeyTable) : Nat :=
  keys.declared.length

/-- Whether there is no key. -/
def isEmpty (keys : KeyTable) : Bool :=
  keys.declared.isEmpty

theorem lookup_filter_ne (entries : List (ObjectId × String)) (id other : ObjectId) :
    (entries.filter (·.1 != id)).lookup other =
      if id = other then none else entries.lookup other := by
  induction entries with
  | nil => simp
  | cons entry rest ih =>
    obtain ⟨object, key⟩ := entry
    by_cases hid : object = id
    · subst hid
      by_cases ho : object = other
      · subst ho; simpa using ih
      · have : (other == object) = false := by simpa using Ne.symm ho
        simpa [List.lookup_cons, this, ho] using ih
    · by_cases ho : id = other
      · subst ho
        have : (id == object) = false := by simpa using Ne.symm hid
        simpa [List.filter_cons, hid, List.lookup_cons, this] using ih
      · by_cases hoo : other = object
        · subst hoo; simp [hid, ho]
        · have : (other == object) = false := by simpa using hoo
          simpa [List.filter_cons, hid, List.lookup_cons, this, ho] using ih

/-- A key that is taken is gone, and no other key with it. -/
theorem key?_erase (keys : KeyTable) (id other : ObjectId) :
    (keys.erase id).key? other = if id = other then none else keys.key? other :=
  lookup_filter_ne keys.declared id other

/-- A declared key is read back on its object and changes no other key. -/
theorem key?_declare (keys : KeyTable) (id other : ObjectId) (key : String) :
    (keys.declare id key).key? other = if id = other then some key else keys.key? other := by
  by_cases h : id = other
  · subst h; simp [declare, key?]
  · have hb : (other == id) = false := by simpa using Ne.symm h
    have := key?_erase keys id other
    simp only [h, if_false] at this ⊢
    rw [← this]
    simp [declare, key?, List.lookup_cons, hb]

end KeyTable

end MarkupForms.Hydration
