/-!
# Ordered dictionaries

A dictionary is a list of entries in the order in which their keys were first written. The
operations keep keys distinct: `insert` replaces a value in its place, `eraseSwap` moves the last
entry into the gap that it leaves, and `ofList` writes entry after entry.
-/

namespace DataAccess

abbrev Dict (α : Type) := List (String × α)

namespace Dict

variable {α β : Type}

def keys (d : Dict α) : List String := d.map Prod.fst

def values (d : Dict α) : List α := d.map Prod.snd

/-- No key has two entries. -/
def Distinct (d : Dict α) : Prop := d.keys.Nodup

instance (d : Dict α) : Decidable (Distinct d) := inferInstanceAs (Decidable (d.keys.Nodup))

def get? : Dict α → String → Option α
  | [], _ => none
  | (k, v) :: rest, key => if k = key then some v else get? rest key

def contains (d : Dict α) (key : String) : Bool := (d.get? key).isSome

/-- Writes a value: in the place of the key's entry, or else at the end. -/
def insert : Dict α → String → α → Dict α
  | [], key, value => [(key, value)]
  | (k, v) :: rest, key, value =>
      if k = key then (k, value) :: rest else (k, v) :: insert rest key value

/-- Writes a value at the end unless the key has an entry. -/
def insertNew (d : Dict α) (key : String) (value : α) : Dict α :=
  if d.contains key then d else d ++ [(key, value)]

/-- Removes the key's entry; the last entry takes its place. -/
def eraseSwap : Dict α → String → Dict α
  | [], _ => []
  | (k, v) :: rest, key =>
      if k = key then
        match rest.getLast? with
        | some last => last :: rest.dropLast
        | none => []
      else (k, v) :: eraseSwap rest key

/-- Writes entries one after the other; of two with one key the later wins and the earlier keeps
the place. -/
def ofList (entries : List (String × α)) : Dict α :=
  entries.foldl (fun d entry => d.insert entry.1 entry.2) []

/-- Renames keys entry by entry. -/
def mapKeys (rename : String → String) (d : Dict α) : Dict α :=
  ofList (d.map fun entry => (rename entry.1, entry.2))

/-- The entries whose value passes a test, in their order. -/
def filterValues (keep : α → Bool) (d : Dict α) : Dict α :=
  d.filter fun entry => keep entry.2

theorem get?_insert_self (d : Dict α) (key : String) (value : α) :
    (d.insert key value).get? key = some value := by
  induction d with
  | nil => simp [insert, get?]
  | cons entry rest ih =>
      obtain ⟨k, v⟩ := entry
      by_cases same : k = key
      · simp [insert, get?, same]
      · simp [insert, get?, same, ih]

theorem get?_insert_of_ne (d : Dict α) {key other : String} (value : α) (different : key ≠ other) :
    (d.insert key value).get? other = d.get? other := by
  induction d with
  | nil => simp [insert, get?, different]
  | cons entry rest ih =>
      obtain ⟨k, v⟩ := entry
      by_cases same : k = key
      · subst k
        simp [insert, get?, different]
      · simp [insert, get?, same, ih]

end Dict

end DataAccess
