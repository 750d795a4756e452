/-
  THE STORE: what is defined at the top level.

  Names keep the order in which they were defined first; a later definition of a name changes its
  value and not its place.  Nothing is ever taken out of a store.
-/
import SmallScheme.Value

namespace SmallScheme

/-- Definitions, in the order in which the names were first defined. -/
structure Store where
  entries : List (String × Value)

namespace Store

/-- The store without definitions. -/
def empty : Store := ⟨[]⟩

/-- The store in which nothing is defined. -/
instance : Inhabited Store := ⟨empty⟩

/-- The value of a name. -/
def get? (store : Store) (name : String) : Option Value := store.entries.lookup name

/-- Is the name defined? -/
def contains (store : Store) (name : String) : Bool := (store.get? name).isSome

/-- The defined names, in order. -/
def names (store : Store) : List String := store.entries.map Prod.fst

/-- The entries with a new value for a name: in its place, or else at the end. -/
def putEntry (name : String) (v : Value) : List (String × Value) → List (String × Value)
  | [] => [(name, v)]
  | (n, w) :: rest => if n = name then (n, v) :: rest else (n, w) :: putEntry name v rest

/-- Defines a name. -/
def put (store : Store) (name : String) (v : Value) : Store := ⟨putEntry name v store.entries⟩

/-- The store that results from definitions made one after the other. -/
def ofList (definitions : List (String × Value)) : Store :=
  definitions.foldl (fun store (name, v) => store.put name v) empty

/-! ## Laws of `put` -/

/-- A name has the value that it was given last. -/
theorem get?_put_self (store : Store) (name : String) (v : Value) :
    (store.put name v).get? name = some v := by
  obtain ⟨entries⟩ := store
  show (putEntry name v entries).lookup name = some v
  induction entries with
  | nil => simp [putEntry]
  | cons entry rest ih =>
    obtain ⟨n, w⟩ := entry
    by_cases h : n = name
    · subst h
      simp [putEntry]
    · have hne : (name == n) = false := by simpa using fun hc => h hc.symm
      simp [putEntry, h, List.lookup_cons, hne, ih]

/-- The other names keep their values. -/
theorem get?_put_of_ne (store : Store) {name other : String} (v : Value) (h : other ≠ name) :
    (store.put name v).get? other = store.get? other := by
  obtain ⟨entries⟩ := store
  show (putEntry name v entries).lookup other = entries.lookup other
  induction entries with
  | nil => simp [putEntry, List.lookup_cons, beq_eq_false_iff_ne.mpr h]
  | cons entry rest ih =>
    obtain ⟨n, w⟩ := entry
    by_cases hn : n = name
    · subst hn
      simp [putEntry, List.lookup_cons, beq_eq_false_iff_ne.mpr h]
    · by_cases ho : other = n
      · subst ho
        simp [putEntry, hn]
      · simp [putEntry, hn, List.lookup_cons, beq_eq_false_iff_ne.mpr ho, ih]

/-- The names before a definition are the first of the names after it. -/
theorem names_put (store : Store) (name : String) (v : Value) :
    (store.put name v).names
      = if name ∈ store.names then store.names else store.names ++ [name] := by
  obtain ⟨entries⟩ := store
  show (putEntry name v entries).map Prod.fst
    = if name ∈ entries.map Prod.fst then entries.map Prod.fst
      else entries.map Prod.fst ++ [name]
  induction entries with
  | nil => simp [putEntry]
  | cons entry rest ih =>
    obtain ⟨n, w⟩ := entry
    by_cases h : n = name
    · subst h
      simp [putEntry]
    · have h' : ¬ name = n := fun hc => h hc.symm
      simp only [putEntry, h, if_false, List.map_cons, List.mem_cons, h', false_or, ih]
      split <;> rfl

end Store

end SmallScheme
