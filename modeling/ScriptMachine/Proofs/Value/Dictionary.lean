import ScriptMachine.Dictionary

/-!
# Reading a dictionary after a change

What stands under a name in a dictionary that an entry was put into or taken out of. Where an entry
goes depends on the names alone, so dictionaries with the same names keep the same names.
-/

namespace ScriptMachine

namespace Dictionary

variable {α : Type} {dictionary alike : Dictionary α} {name other : String} {value : α}

theorem find?_insert :
    (dictionary.insert name value).find? other =
      if other = name then some value else dictionary.find? other := by
  induction dictionary with
  | nil =>
      by_cases same : other = name
      · simp [insert, find?, same]
      · simp [insert, find?, same, Ne.symm same]
  | cons entry rest ih =>
      rcases entry with ⟨key, old⟩
      by_cases same : other = name
      · subst other
        simp only [insert]
        split
        · simp [find?]
        · split
          · simp [find?]
          · rename_i different _
            simp [find?, Ne.symm different, ih]
      · simp only [insert]
        split
        · rename_i here
          simp [find?, Ne.symm same, here ▸ Ne.symm same]
        · split
          · simp [find?, Ne.symm same]
          · simp only [find?, ih, same, ↓reduceIte]

theorem mem_of_find? (found : dictionary.find? name = some value) :
    (name, value) ∈ dictionary := by
  induction dictionary with
  | nil => cases found
  | cons entry rest ih =>
      rcases entry with ⟨key, old⟩
      by_cases same : key = name
      · simp only [find?, same, ↓reduceIte, Option.some.injEq] at found
        simp [same, found]
      · simp only [find?, same, ↓reduceIte] at found
        exact List.mem_cons_of_mem _ (ih found)

theorem erase_sublist : (dictionary.erase name).Sublist dictionary := by
  induction dictionary with
  | nil => exact .refl _
  | cons entry rest ih =>
      rcases entry with ⟨key, old⟩
      rw [erase]
      split
      · exact List.sublist_cons_self _ _
      · exact ih.cons_cons _

theorem mem_of_mem_erase {entry : String × α} (kept : entry ∈ dictionary.erase name) :
    entry ∈ dictionary :=
  erase_sublist.subset kept

theorem find?_erase (apart : dictionary.names.Nodup) :
    (dictionary.erase name).find? other =
      if other = name then none else dictionary.find? other := by
  induction dictionary with
  | nil => simp [erase, find?]
  | cons entry rest ih =>
      rcases entry with ⟨key, old⟩
      rcases List.nodup_cons.mp apart with ⟨absent, apart⟩
      rw [erase]
      split
      · rename_i here
        subst here
        split
        · rename_i same
          subst same
          cases found : find? rest other with
          | none => rfl
          | some value => exact absurd (List.mem_map.mpr ⟨_, mem_of_find? found, rfl⟩) absent
        · rename_i differ
          simp [find?, Ne.symm differ]
      · rename_i elsewhere
        rw [find?, find?, ih apart]
        split
        · rename_i same
          rw [if_neg (same ▸ elsewhere)]
        · rfl

theorem mem_insert {entry : String × α} (present : entry ∈ dictionary.insert name value) :
    entry = (name, value) ∨ entry ∈ dictionary := by
  induction dictionary with
  | nil => simpa [insert] using present
  | cons first rest ih =>
      rcases first with ⟨key, old⟩
      simp only [insert] at present
      split at present
      · rcases List.mem_cons.mp present with same | present
        · exact .inl same
        · exact .inr (List.mem_cons_of_mem _ present)
      · split at present
        · exact List.mem_cons.mp present
        · rcases List.mem_cons.mp present with same | present
          · exact .inr (same ▸ List.mem_cons_self)
          · exact (ih present).imp_right (List.mem_cons_of_mem _)

theorem contains_names : dictionary.contains name = dictionary.names.contains name := by
  induction dictionary with
  | nil => rfl
  | cons entry rest ih =>
      rcases entry with ⟨key, old⟩
      simp only [contains, names] at ih
      by_cases same : key = name
      · simp [contains, find?, names, same]
      · simp [contains, find?, names, same, Ne.symm same, ih]

theorem names_insert (same : alike.names = dictionary.names) :
    (alike.insert name value).names = (dictionary.insert name value).names := by
  induction dictionary generalizing alike with
  | nil =>
      cases alike with
      | nil => rfl
      | cons => cases same
  | cons entry rest ih =>
      cases alike with
      | nil => cases same
      | cons first others =>
          rcases entry with ⟨key, old⟩
          rcases first with ⟨other, older⟩
          simp only [names, List.map_cons, List.cons.injEq] at same
          rcases same with ⟨rfl, same⟩
          simp only [insert]
          split
          · simp [names, same]
          · split
            · simp [names, same]
            · simpa [names] using ih same

end Dictionary

end ScriptMachine
