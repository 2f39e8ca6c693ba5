/-!
# Tables of names

A table maps names to entries.  It keeps its names in the order in which they came; a second entry under a
name takes the place of the first.
-/

namespace ScriptLang

/-- A table of entries by name. -/
abbrev Table (α : Type) := List (String × α)

namespace Table

variable {α : Type}

/-- The entry under a name. -/
def get? : Table α → String → Option α
  | [], _ => none
  | (k, v) :: t, name => if k = name then some v else get? t name

/-- Whether there is an entry under a name. -/
def has (t : Table α) (name : String) : Bool :=
  (t.get? name).isSome

/-- The table with the given entry under a name. -/
def put : Table α → String → α → Table α
  | [], name, entry => [(name, entry)]
  | (k, v) :: t, name, entry => if k = name then (k, entry) :: t else (k, v) :: put t name entry

/-- The names of a table. -/
def names (t : Table α) : List String :=
  t.map (·.1)

/-- The names of a table in the order of their bytes. -/
def sortedNames (t : Table α) : List String :=
  t.names.mergeSort fun a b => a ≤ b

/-- The table of the given entries; of several under one name the last counts. -/
def ofEntries (entries : List (String × α)) : Table α :=
  entries.foldl (fun t (name, entry) => t.put name entry) []

theorem get?_put (t : Table α) (name other : String) (entry : α) :
    (t.put name entry).get? other = if name = other then some entry else t.get? other := by
  induction t with
  | nil => simp [put, get?]
  | cons p t ih =>
    obtain ⟨k, v⟩ := p
    by_cases hk : k = name
    · subst hk; by_cases ho : k = other <;> simp [put, get?, ho]
    · by_cases ho : k = other
      · subst ho; simp [put, get?, hk, Ne.symm hk]
      · simp [put, get?, hk, ho, ih]

theorem has_put (t : Table α) (name other : String) (entry : α) :
    (t.put name entry).has other = (decide (name = other) || t.has other) := by
  by_cases h : name = other <;> simp [has, get?_put, h]

theorem get?_eq_none_iff {t : Table α} {name : String} : t.get? name = none ↔ name ∉ t.names := by
  induction t with
  | nil => simp [get?, names]
  | cons p t ih =>
    obtain ⟨k, v⟩ := p
    by_cases h : k = name
    · simp [get?, names, h]
    · simpa [get?, names, h, Ne.symm h] using ih

theorem ofEntries_eq_foldl (entries : List (String × α)) :
    ofEntries entries = entries.foldl (fun (t : Table α) p => t.put p.1 p.2) [] := rfl

end Table

end ScriptLang
