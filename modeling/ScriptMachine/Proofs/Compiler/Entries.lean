import ScriptMachine.Proofs.Compiler.Acceptance

/-!
# The entries of functions

The namespaces of a program hold declared functions and action literals side by side. What a name
leads to is the function that was laid out last under it, and literals are laid out after all that is
declared. So a declared function keeps its entry exactly if no literal of the program has its
namespace and name.

The name of a literal is that of the function around it with `$action` and a number behind it, which
can be read back from the end of the name. So where no declared name has `$action` in it, all
functions of the program have names of their own.
-/

namespace ScriptMachine

/-! ## What a name leads to -/

theorem lookup?_register_of_absent {placed : List Placement} {node : NamespaceNode}
    {path : List String} {name : String}
    (absent : ∀ placement ∈ placed, placement.source.reference ≠ ⟨path, name⟩) :
    (placed.foldl Placement.register node).lookup? path name = node.lookup? path name := by
  induction placed generalizing node with
  | nil => rfl
  | cons first rest ih =>
      rw [List.foldl_cons, ih fun placement later => absent placement (List.mem_cons_of_mem _ later),
        Placement.register, NamespaceNode.lookup?_insert]
      refine if_neg ?_
      rintro ⟨rfl, rfl⟩
      exact absent first List.mem_cons_self rfl

/-- The last function laid out under a name is what the name leads to. -/
theorem lookup?_register_last {first later : List Placement} {node : NamespaceNode}
    {placement : Placement}
    (last : ∀ other ∈ later, other.source.reference ≠ placement.source.reference) :
    ((first ++ placement :: later).foldl Placement.register node).lookup? placement.source.path
        placement.source.name = some placement.entry := by
  rw [List.foldl_append, List.foldl_cons, lookup?_register_of_absent last, Placement.register,
    NamespaceNode.lookup?_insert]
  simp

/-- A name that a function in a row has leads to that function or to a later one. -/
theorem exists_lookup?_register {placed : List Placement} {node : NamespaceNode}
    {path : List String} {name : String}
    (present : ∃ placement ∈ placed, placement.source.reference = ⟨path, name⟩) :
    ∃ placement ∈ placed,
      (placed.foldl Placement.register node).lookup? path name = some placement.entry := by
  induction placed generalizing node with
  | nil => rcases present with ⟨_, member, _⟩; cases member
  | cons first rest ih =>
      by_cases later : ∃ placement ∈ rest, placement.source.reference = ⟨path, name⟩
      · rcases ih later with ⟨placement, member, found⟩
        exact ⟨placement, List.mem_cons_of_mem _ member, found⟩
      · rcases present with ⟨placement, member, here⟩
        have same : placement = first := by
          rcases List.mem_cons.mp member with same | member
          · exact same
          · exact absurd ⟨placement, member, here⟩ later
        subst placement
        have path_eq : first.source.path = path := congrArg FunctionRef.path here
        have name_eq : first.source.name = name := congrArg FunctionRef.name here
        have found := @lookup?_register_last [] rest node first fun other member same =>
          later ⟨other, member, same.trans here⟩
        rw [path_eq, name_eq] at found
        exact ⟨first, List.mem_cons_self, found⟩

theorem lowerFunction_length {linkage : Linkage} {position : Nat} {source : FunctionSource}
    {code : List Instruction} {actions : List FunctionSource}
    (lowered : lowerFunction linkage position source = .ok (code, actions)) : 0 < code.length := by
  rcases lowerFunction_ok lowered with ⟨body, progress, _, rfl, _⟩
  simp [FunctionSource.wrap]

/-- The functions of a row begin at increasing offsets. -/
theorem LaidOut.offset_lt {linkage : Linkage} {offset : Nat} {first later : List Placement}
    {placement other : Placement} (laidOut : LaidOut linkage offset (first ++ placement :: later))
    (member : other ∈ later) : placement.offset < other.offset := by
  induction first generalizing offset with
  | nil =>
      cases laidOut with
      | cons lowered restLaidOut =>
          have positive := lowerFunction_length lowered
          rcases (restLaidOut.split member).2 with ⟨_, _, _, here⟩
          simp only
          omega
  | cons head rest ih =>
      cases laidOut with
      | cons _ restLaidOut => exact ih restLaidOut

/-- A function of a row keeps its entry exactly if no later one has its name. -/
theorem LaidOut.keeps_entry_iff {linkage : Linkage} {offset : Nat} {first later : List Placement}
    {placement : Placement} (laidOut : LaidOut linkage offset (first ++ placement :: later))
    (node : NamespaceNode) :
    ((first ++ placement :: later).foldl Placement.register node).lookup? placement.source.path
        placement.source.name = some placement.entry ↔
      ∀ other ∈ later, other.source.reference ≠ placement.source.reference := by
  constructor
  · intro kept other member same
    rw [List.foldl_append, List.foldl_cons] at kept
    rcases exists_lookup?_register ⟨other, member, same⟩ with ⟨last, lastMember, found⟩
    rw [kept, Option.some.injEq] at found
    have behind := laidOut.offset_lt lastMember
    have here : placement.offset = last.offset := congrArg FunctionEntry.offset found
    omega
  · exact lookup?_register_last

/-! ## Names of literals -/

/-- Where a mark stands last, what is before it and what is behind it can be told apart. -/
theorem append_mark_inj {α : Type} {mark : α} {first second one two : List α} (noneInOne : mark ∉ one)
    (noneInTwo : mark ∉ two) (same : first ++ mark :: one = second ++ mark :: two) :
    first = second ∧ one = two := by
  rcases List.append_eq_append_iff.mp same with ⟨between, rfl, rest⟩ | ⟨between, rfl, rest⟩
  · cases between with
    | nil => simpa using rest
    | cons _ more => simp_all
  · cases between with
    | nil => simpa using rest.symm
    | cons _ more => simp_all

theorem noMark_number {index : Nat} : '$' ∉ "action".toList ++ Nat.toDigits 10 index := by
  intro present
  rcases List.mem_append.mp present with early | late
  · revert early
    decide
  · have digit := Nat.isDigit_of_mem_toDigits (by decide) (by decide) late
    revert digit
    decide

/-- The name of a literal tells the name of the function around it, and the number. -/
theorem literalName_inj {outer other : String} {index number : Nat}
    (same : outer ++ "$action" ++ toString index = other ++ "$action" ++ toString number) :
    outer = other ∧ index = number := by
  have letters : outer.toList ++ '$' :: ("action".toList ++ Nat.toDigits 10 index) =
      other.toList ++ '$' :: ("action".toList ++ Nat.toDigits 10 number) := by
    simpa [toString, Nat.toList_repr] using congrArg String.toList same
  rcases append_mark_inj noMark_number noMark_number letters with ⟨sameOuter, sameEnd⟩
  refine ⟨String.toList_inj.mp sameOuter, ?_⟩
  have sameDigits : Nat.toDigits 10 index = Nat.toDigits 10 number := List.append_cancel_left sameEnd
  rw [← @Nat.ofDigitChars_toDigits 10 index (by decide) (by decide), sameDigits,
    Nat.ofDigitChars_toDigits (by decide) (by decide)]

namespace FunctionSource

/-- What the literal with a number is called. -/
def literalReference (source : FunctionSource) (index : Nat) : FunctionRef :=
  ⟨source.path, source.name ++ "$action" ++ toString index⟩

theorem literalReference_inj {source other : FunctionSource} {index number : Nat}
    (same : source.literalReference index = other.literalReference number) :
    source.reference = other.reference ∧ index = number := by
  have names := literalName_inj (congrArg FunctionRef.name same)
  have paths : source.path = other.path := congrArg FunctionRef.path same
  exact ⟨by rw [reference, reference, paths, names.1], names.2⟩

theorem mem_nestedFrom_reference {source : FunctionSource} {index : Nat}
    {literals : List ActionLiteral} {function : FunctionRef}
    (present : function ∈ (source.nestedFrom index literals).map reference) :
    ∃ number, index ≤ number ∧ function = source.literalReference number := by
  simp only [nestedFrom, List.map_map, List.mem_map] at present
  rcases present with ⟨⟨literal, number⟩, numbered, rfl⟩
  exact ⟨number, List.le_snd_of_mem_zipIdx numbered, rfl⟩

/-- Literals of one function have different names. -/
theorem nestedFrom_nodup (source : FunctionSource) (index : Nat) (literals : List ActionLiteral) :
    ((source.nestedFrom index literals).map reference).Nodup := by
  induction literals generalizing index with
  | nil => exact List.nodup_nil
  | cons literal rest ih =>
      refine List.nodup_cons.mpr ⟨fun present => ?_, ih (index + 1)⟩
      rcases mem_nestedFrom_reference present with ⟨number, later, same⟩
      have := (@literalReference_inj source source index number same).2
      omega

/-- How often a name is that of a literal in a function. -/
theorem count_actions_le (source outer : FunctionSource) (index : Nat) :
    (source.actions.map reference).count (outer.literalReference index) ≤
      if source.reference = outer.reference then 1 else 0 := by
  split
  · exact List.nodup_iff_count.mp (source.nestedFrom_nodup 0 _) _
  · rename_i different
    refine Nat.le_of_eq (List.count_eq_zero.mpr fun present => different ?_)
    rcases mem_nestedFrom_reference present with ⟨number, _, same⟩
    exact (literalReference_inj same.symm).1

end FunctionSource

/-! ## Functions of a program -/

namespace Placement

def reference (placement : Placement) : FunctionRef := placement.source.reference

/-- The code of the function stands in a program where its offset says. -/
def Emitted (program : Program) (placement : Placement) : Prop :=
  ∃ before after, program.instructions.toList = before ++ placement.code ++ after ∧
    before.length = placement.offset

end Placement

theorem count_literals_le {placed : List Placement} {outer : FunctionSource} {index : Nat}
    (lowered : ∀ placement ∈ placed, placement.actions = placement.source.actions) :
    ((placed.flatMap Placement.actions).map FunctionSource.reference).count
        (outer.literalReference index) ≤
      (placed.map Placement.reference).count outer.reference := by
  induction placed with
  | nil => exact Nat.le_refl _
  | cons first rest ih =>
      have here := first.source.count_actions_le outer index
      have more := ih fun placement later => lowered placement (List.mem_cons_of_mem _ later)
      rw [← lowered first List.mem_cons_self] at here
      rw [List.flatMap_cons, List.map_append, List.count_append, List.map_cons, List.count_cons]
      simp only [Placement.reference, beq_iff_eq] at here ⊢
      exact Nat.le_trans (Nat.add_le_add here more) (Nat.le_of_eq (Nat.add_comm _ _))

/-- No declared function is called like a literal. -/
def PlainNames (units : List ProgramUnit) : Prop :=
  ∀ unit ∈ units, ∀ function ∈ unit.functions, ∀ before after,
    function.name ≠ before ++ "$action" ++ after

/-- A name that is too short cannot be called like a literal. -/
theorem PlainNames.of_length {units : List ProgramUnit}
    (short : ∀ unit ∈ units, ∀ function ∈ unit.functions, function.name.length < 7) :
    PlainNames units := by
  intro unit unitMem function functionMem before after same
  have length := congrArg String.length same
  have below := short unit unitMem function functionMem
  have long : ("$action" : String).length = 7 := rfl
  simp only [String.length_append] at length
  omega

namespace Program.Compiled

variable {units : List ProgramUnit} {globals : List String} {program : Program}
  {placed : List Placement}

theorem actions_eq (compiled : program.Compiled units globals placed) {placement : Placement}
    (member : placement ∈ placed) : placement.actions = placement.source.actions :=
  actions_of_lowerFunction (compiled.laidOut.split member).1

theorem references (compiled : program.Compiled units globals placed) :
    placed.map Placement.reference = (declaredSources units).map FunctionSource.reference ++
      (placed.flatMap Placement.actions).map FunctionSource.reference := by
  rw [← List.map_append, ← compiled.sources, List.map_map]
  rfl

theorem count_declared (compiled : program.Compiled units globals placed)
    (function : FunctionRef) :
    ((declaredSources units).map FunctionSource.reference).count function ≤ 1 :=
  List.nodup_iff_count.mp (firstDuplicate?_eq_none.mp compiled.unique).1 function

/-- The literal of which function a name is, if it is one's. -/
theorem exists_outer (compiled : program.Compiled units globals placed) {function : FunctionRef}
    (present : function ∈ (placed.flatMap Placement.actions).map FunctionSource.reference) :
    ∃ placement ∈ placed, ∃ index, function = placement.source.literalReference index := by
  rcases List.mem_map.mp present with ⟨action, met, rfl⟩
  rcases List.mem_flatMap.mp met with ⟨placement, member, among⟩
  rw [compiled.actions_eq member] at among
  rcases FunctionSource.mem_nestedFrom_reference (List.mem_map_of_mem among) with
    ⟨index, _, same⟩
  exact ⟨placement, member, index, same⟩

/-- All functions of a program have names of their own unless a declared one is called like a
literal. The induction is on the length of the name: a literal's is longer than that of the function
around it. -/
theorem count_reference (compiled : program.Compiled units globals placed)
    (plain : PlainNames units) (function : FunctionRef) :
    (placed.map Placement.reference).count function ≤ 1 := by
  generalize size : function.name.length = count
  induction count using Nat.strongRecOn generalizing function with
  | ind count ih =>
      rw [compiled.references, List.count_append]
      by_cases literal :
          function ∈ (placed.flatMap Placement.actions).map FunctionSource.reference
      · rcases compiled.exists_outer literal with ⟨outer, member, index, rfl⟩
        have notDeclared : outer.source.literalReference index ∉
            (declaredSources units).map FunctionSource.reference := by
          intro declared
          rcases List.mem_map.mp declared with ⟨source, known, same⟩
          rcases List.mem_flatMap.mp known with ⟨unit, unitKnown, among⟩
          rcases List.mem_map.mp among with ⟨function, functionKnown, rfl⟩
          exact plain unit unitKnown function functionKnown _ _ (congrArg FunctionRef.name same)
        have shorter : outer.reference.name.length < count := by
          rw [← size, Placement.reference, FunctionSource.reference,
            FunctionSource.literalReference, String.length_append, String.length_append]
          have mark : ("$action" : String).length = 7 := rfl
          simp only
          omega
        have once := ih _ shorter outer.reference rfl
        have bound := @count_literals_le placed outer.source index fun placement member =>
          compiled.actions_eq member
        rw [List.count_eq_zero.mpr notDeclared, Nat.zero_add]
        exact Nat.le_trans bound once
      · rw [List.count_eq_zero.mpr literal]
        exact compiled.count_declared function

theorem references_nodup (compiled : program.Compiled units globals placed)
    (plain : PlainNames units) : (placed.map Placement.reference).Nodup :=
  List.nodup_iff_count.mpr (compiled.count_reference plain)

/-- The functions of a row around a declared one: those before it, the declared ones after it, and
the literals. -/
theorem split_declared (compiled : program.Compiled units globals placed) {source : FunctionSource}
    (declared : source ∈ declaredSources units) :
    ∃ first placement later literals, placed = first ++ placement :: (later ++ literals) ∧
      placement.source = source ∧
      (∀ other ∈ later, other.reference ≠ source.reference) ∧
      literals.map Placement.source = placed.flatMap Placement.actions := by
  rcases List.append_eq_map_iff.mp compiled.sources.symm with
    ⟨declaredPlaced, literals, parted, sameDeclared, sameLiterals⟩
  rw [← sameDeclared] at declared
  rcases List.mem_map.mp declared with ⟨placement, member, rfl⟩
  rcases List.append_of_mem member with ⟨first, later, rfl⟩
  refine ⟨first, placement, later, literals, by rw [parted]; simp, rfl, ?_, sameLiterals⟩
  have unique := (firstDuplicate?_eq_none.mp compiled.unique).1
  rw [← sameDeclared, List.map_map, List.map_append, List.map_cons] at unique
  have apart := (List.nodup_cons.mp (List.nodup_append.mp unique).2.1).1
  intro other among same
  exact apart (List.mem_map.mpr ⟨other, among, same⟩)

theorem emitted (compiled : program.Compiled units globals placed) {placement : Placement}
    (member : placement ∈ placed) : placement.Emitted program := by
  rcases (compiled.laidOut.split member).2 with ⟨first, later, rfl, here⟩
  refine ⟨first.flatMap Placement.code, later.flatMap Placement.code, ?_, ?_⟩
  · rw [compiled.instructions]
    simp
  · rw [here, Nat.zero_add]

/-- A declared function is laid out somewhere, and its name leads there exactly if no literal bears
that name. -/
theorem declared_entry (compiled : program.Compiled units globals placed) {unit : ProgramUnit}
    {function : FunctionDef} (known : unit ∈ units) (declared : function ∈ unit.functions) :
    ∃ placement ∈ placed, placement.source = .declared unit function ∧
      placement.Emitted program ∧
      (program.namespaces.lookup? unit.path function.name =
          some ⟨placement.offset, function.params.length⟩ ↔
        ∀ literal ∈ placed.flatMap Placement.actions,
          literal.reference ≠ ⟨unit.path, function.name⟩) := by
  have among : FunctionSource.declared unit function ∈ declaredSources units :=
    List.mem_flatMap.mpr ⟨unit, known, List.mem_map_of_mem declared⟩
  rcases compiled.split_declared among with
    ⟨first, placement, later, literals, parted, source, apart, sameLiterals⟩
  have member : placement ∈ placed := by simp [parted]
  refine ⟨placement, member, source, compiled.emitted member, ?_⟩
  have laidOut := compiled.laidOut
  rw [parted] at laidOut
  have kept := laidOut.keeps_entry_iff .empty
  rw [← parted, ← compiled.namespaces, Placement.entry, source] at kept
  refine kept.trans ⟨fun others literal met => ?_, fun others => ?_⟩
  · rw [← sameLiterals] at met
    rcases List.mem_map.mp met with ⟨other, behind, rfl⟩
    exact others other (List.mem_append_right _ behind)
  · refine forall_mem_append apart fun other behind => others other.source ?_
    rw [← sameLiterals]
    exact List.mem_map_of_mem behind

end Program.Compiled

/-- Every declared function is laid out somewhere, and its name leads there exactly if no action
literal of the program bears that name. -/
theorem declared_entry_iff {units : List ProgramUnit} {globals : List String} {program : Program}
    (accepted : compileUnits units globals = .ok program) :
    ∃ placed, program.Compiled units globals placed ∧
      ∀ unit ∈ units, ∀ function ∈ unit.functions, ∃ placement ∈ placed,
        placement.source = .declared unit function ∧ placement.Emitted program ∧
        (program.namespaces.lookup? unit.path function.name =
            some ⟨placement.offset, function.params.length⟩ ↔
          ∀ literal ∈ placed.flatMap Placement.actions,
            literal.reference ≠ ⟨unit.path, function.name⟩) := by
  rcases compileUnits_ok accepted with ⟨placed, compiled⟩
  exact ⟨placed, compiled, fun unit known function declared =>
    compiled.declared_entry known declared⟩

/-- Two functions, of which the second is called like the action literal in the first. -/
def clashingUnit : ProgramUnit where
  name := "clash"
  path := []
  functions := [
    ⟨"make", [], [.returnValue (some (.action [] []))], .nowhere⟩,
    ⟨"make$action0", ["first", "second"], [], .nowhere⟩]

theorem declared_entry_iff_clashing :
    ∃ program, compileUnits [clashingUnit] [] = .ok program ∧
      ∃ placed, program.Compiled [clashingUnit] [] placed ∧
        ∀ unit ∈ [clashingUnit], ∀ function ∈ unit.functions, ∃ placement ∈ placed,
          placement.source = .declared unit function ∧ placement.Emitted program ∧
          (program.namespaces.lookup? unit.path function.name =
              some ⟨placement.offset, function.params.length⟩ ↔
            ∀ literal ∈ placed.flatMap Placement.actions,
              literal.reference ≠ ⟨unit.path, function.name⟩) :=
  ⟨_, rfl, declared_entry_iff rfl⟩

/-- The function that is called like a literal has lost its entry to it: the entry is for one
argument, not for two. -/
theorem clashing_entry_replaced :
    ∃ program, compileUnits [clashingUnit] [] = .ok program ∧
      program.namespaces.lookup? [] "make$action0" = some ⟨14, 1⟩ :=
  ⟨_, rfl, by decide⟩

end ScriptMachine
