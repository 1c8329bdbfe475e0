import ScriptMachine.Proofs.Compiler.Closures
import ScriptMachine.Proofs.Simulation.Functions

/-!
# Scripts and their programs

The functions of a script are its declared functions, their action literals, the literals in those,
and so on. Compilation lays out the same functions. If no declared function is called like a literal,
a name finds the same function in the script as in the program.
-/

namespace ScriptMachine

/-- Of entries with different keys, one is known by its key. -/
theorem eq_of_nodup_map {α β : Type} {key : α → β} {entries : List α}
    (different : (entries.map key).Nodup) {first second : α} (one : first ∈ entries)
    (two : second ∈ entries) (same : key first = key second) : first = second := by
  induction entries with
  | nil => cases one
  | cons entry rest ih =>
      rw [List.map_cons, List.nodup_cons] at different
      rcases List.mem_cons.mp one with rfl | oneLater
      · rcases List.mem_cons.mp two with rfl | twoLater
        · rfl
        · exact absurd (List.mem_map.mpr ⟨second, twoLater, same.symm⟩) different.1
      · rcases List.mem_cons.mp two with rfl | twoLater
        · exact absurd (List.mem_map.mpr ⟨first, oneLater, same⟩) different.1
        · exact ih different.2 oneLater twoLater

theorem lt_literalCount {source : FunctionSource} {sources : List FunctionSource}
    (member : source ∈ sources) : Stmt.listActionCount source.body < literalCount sources := by
  induction sources with
  | nil => cases member
  | cons first rest ih =>
      simp only [literalCount]
      rcases List.mem_cons.mp member with rfl | member
      · omega
      · have later := ih member
        omega

theorem FunctionSource.mem_family_self (source : FunctionSource) (depth : Nat) :
    source ∈ source.family depth := by
  cases depth <;> simp [family]

namespace Program.Compiled

variable {units : List ProgramUnit} {globals : List String} {program : Program}
  {placed : List Placement} {placement root : Placement} {source action : FunctionSource}
  {depth : Nat}

theorem exists_placement_of_mem_family (compiled : program.Compiled units globals placed)
    (member : root ∈ placed) (among : source ∈ root.source.family depth) :
    ∃ placement ∈ placed, placement.source = source := by
  induction depth generalizing root with
  | zero =>
      cases List.mem_singleton.mp among
      exact ⟨root, member, rfl⟩
  | succ depth ih =>
      rcases List.mem_cons.mp among with rfl | among
      · exact ⟨root, member, rfl⟩
      · rcases List.mem_flatMap.mp among with ⟨child, literal, inside⟩
        rcases compiled.exists_placement member literal with ⟨placement, known, rfl⟩
        exact ih known inside

theorem literal_lt (compiled : program.Compiled units globals placed) (member : root ∈ placed)
    (literal : source ∈ root.source.actions) :
    Stmt.listActionCount source.body < Stmt.listActionCount root.source.body := by
  rw [← Assembly.literalCount_lowerFunction (compiled.laidOut.split member).1]
  rw [← compiled.actions_eq member] at literal
  exact lt_literalCount literal

/-- A family that is deep enough holds all literals of its functions. -/
theorem family_closed (compiled : program.Compiled units globals placed) (member : root ∈ placed)
    (enough : Stmt.listActionCount root.source.body ≤ depth)
    (among : source ∈ root.source.family depth) (literal : action ∈ source.actions) :
    action ∈ root.source.family depth := by
  induction depth generalizing root with
  | zero =>
      cases List.mem_singleton.mp among
      have fewer := compiled.literal_lt member literal
      omega
  | succ depth ih =>
      apply List.mem_cons_of_mem
      rw [List.mem_flatMap]
      rcases List.mem_cons.mp among with rfl | among
      · exact ⟨action, literal, action.mem_family_self depth⟩
      · rcases List.mem_flatMap.mp among with ⟨child, nested, inside⟩
        have fewer := compiled.literal_lt member nested
        refine ⟨child, nested, ?_⟩
        rcases compiled.exists_placement member nested with ⟨placement, known, rfl⟩
        exact ih known (by omega) inside

theorem exists_placement_of_mem_functionSources (compiled : program.Compiled units globals placed)
    (among : source ∈ functionSources units) : ∃ placement ∈ placed, placement.source = source := by
  rcases List.mem_flatMap.mp among with ⟨declared, known, inside⟩
  have present : declared ∈ placed.map Placement.source := by
    rw [compiled.sources]
    exact List.mem_append_left _ known
  rcases List.mem_map.mp present with ⟨root, member, rfl⟩
  exact compiled.exists_placement_of_mem_family member inside

theorem actions_mem_functionSources (compiled : program.Compiled units globals placed)
    (among : source ∈ functionSources units) (literal : action ∈ source.actions) :
    action ∈ functionSources units := by
  rcases List.mem_flatMap.mp among with ⟨declared, known, inside⟩
  have present : declared ∈ placed.map Placement.source := by
    rw [compiled.sources]
    exact List.mem_append_left _ known
  rcases List.mem_map.mp present with ⟨root, member, rfl⟩
  exact List.mem_flatMap.mpr
    ⟨root.source, known, compiled.family_closed member (Nat.le_refl _) inside literal⟩

/-- Every function that was laid out is one of the script. The induction is on the length of its
name, since a literal's is longer than that of the function around it. -/
theorem mem_functionSources (compiled : program.Compiled units globals placed)
    (member : placement ∈ placed) : placement.source ∈ functionSources units := by
  generalize size : placement.source.name.length = count
  induction count using Nat.strongRecOn generalizing placement with
  | ind count ih =>
      have present : placement.source ∈ placed.map Placement.source := List.mem_map_of_mem member
      rw [compiled.sources, List.mem_append, List.mem_flatMap] at present
      rcases present with declared | ⟨outer, known, literal⟩
      · exact List.mem_flatMap.mpr ⟨_, declared, placement.source.mem_family_self _⟩
      · rw [compiled.actions_eq known] at literal
        rcases FunctionSource.mem_nestedFrom_reference (List.mem_map_of_mem literal) with
          ⟨index, _, same⟩
        have longer := congrArg (fun function => function.name.length) same
        have mark : ("$action" : String).length = 7 := rfl
        simp only [FunctionSource.reference, FunctionSource.literalReference,
          String.length_append] at longer
        exact compiled.actions_mem_functionSources (ih _ (by omega) known rfl) literal

end Program.Compiled

/-- The script of units, to be run as their program is. -/
def Script.of (units : List ProgramUnit) (globals : List String) (registry : Registry)
    (program : Program) (turns : Nat) : Script :=
  ⟨units, globals, registry, fun function => program.lookup? function.path function.name, turns⟩

namespace Program.Compiled

variable {units : List ProgramUnit} {globals : List String} {program : Program}
  {placed : List Placement} {placement : Placement} {registry : Registry} {turns : Nat}

theorem finds (compiled : program.Compiled units globals placed) (plain : PlainNames units)
    (member : placement ∈ placed) :
    (Script.of units globals registry program turns).Finds program placement.source.reference
      placement where
  definition := by
    have different := compiled.references_nodup plain
    cases found : (Script.of units globals registry program turns).definition?
        placement.source.reference with
    | none =>
        have other := List.find?_eq_none.mp found _ (compiled.mem_functionSources member)
        simp at other
    | some source =>
        have same := List.find?_some found
        rcases compiled.exists_placement_of_mem_functionSources (List.mem_of_find?_eq_some found)
          with ⟨other, known, rfl⟩
        rw [eq_of_nodup_map different known member (of_decide_eq_true same)]
  reference := rfl
  entry := compiled.lookup?_eq plain member

theorem linked (compiled : program.Compiled units globals placed) (plain : PlainNames units) :
    (Script.of units globals registry program turns).Linked program placed where
  declared function known := by
    rcases List.mem_map.mp known with ⟨source, declared, rfl⟩
    have present : source ∈ placed.map Placement.source := by
      rw [compiled.sources]
      exact List.mem_append_left _ declared
    rcases List.mem_map.mp present with ⟨placement, member, rfl⟩
    refine ⟨placement, member, compiled.finds plain member, ?_⟩
    rcases List.mem_flatMap.mp declared with ⟨unit, _, among⟩
    rcases List.mem_map.mp among with ⟨function, _, same⟩
    rw [← same]
    rfl
  literal function made := by
    rcases compiled.literal_of_makeClosure made with ⟨placement, member, rfl, captures⟩
    exact ⟨placement, member, compiled.finds plain member, captures⟩
  entries function := rfl

theorem built (compiled : program.Compiled units globals placed) (plain : PlainNames units) :
    (Script.of units globals registry program turns).Built ⟨program, registry⟩ placed where
  registry := rfl
  names := compiled.globals
  linked := compiled.linked plain
  lowered _ member := ⟨_, (compiled.laidOut.split member).1⟩
  emitted _ member := compiled.emitted member

end Program.Compiled

end ScriptMachine
