/-!
# Dictionaries

A dictionary keeps its entries in increasing order of their names, so that listing it is the same
for every order of insertion. It is a plain list of pairs: trees of dictionaries then stay ordinary
inductive types, and recursion on them stays structural.
-/

namespace ScriptMachine

/-- Entries by name, in increasing order of the names. -/
abbrev Dictionary (α : Type) := List (String × α)

namespace Dictionary

variable {α : Type}

/-- The entry under a name. -/
def find? : Dictionary α → String → Option α
  | [], _ => none
  | (key, value) :: rest, name => if key = name then some value else find? rest name

/-- Puts an entry in its place, in lieu of an entry of the same name. -/
def insert : Dictionary α → String → α → Dictionary α
  | [], name, value => [(name, value)]
  | (key, old) :: rest, name, value =>
      if name = key then (name, value) :: rest
      else if name < key then (name, value) :: (key, old) :: rest
      else (key, old) :: insert rest name value

/-- Removes the entry under a name. -/
def erase : Dictionary α → String → Dictionary α
  | [], _ => []
  | (key, value) :: rest, name => if key = name then rest else (key, value) :: erase rest name

/-- The names, in increasing order. -/
def names (dictionary : Dictionary α) : List String := dictionary.map Prod.fst

def contains (dictionary : Dictionary α) (name : String) : Bool := (dictionary.find? name).isSome

/-- The dictionary of a list of pairs; of two pairs with one name the later counts. -/
def ofPairs (pairs : List (String × α)) : Dictionary α :=
  pairs.foldl (fun dictionary pair => dictionary.insert pair.1 pair.2) []

theorem length_erase_lt {dictionary : Dictionary α} {name : String} {value : α}
    (found : dictionary.find? name = some value) :
    (dictionary.erase name).length < dictionary.length := by
  induction dictionary with
  | nil => simp [find?] at found
  | cons entry rest ih =>
      obtain ⟨key, old⟩ := entry
      by_cases same : key = name
      · simp [erase, same]
      · simp only [find?, same, ↓reduceIte] at found
        simpa [erase, same] using ih found

end Dictionary

end ScriptMachine
