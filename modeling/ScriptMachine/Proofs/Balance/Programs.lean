import ScriptMachine.Proofs.Balance.Code

/-!
# Charts of programs

Every place of a compiled program has a point, and every instruction leads from its point to those
of its successors. The chart is made function by function along the row in which they were laid
out; jumps never leave a function, and behind its last instruction, a return, control never goes on.
-/

namespace ScriptMachine

/-- The shape of the function that each place belongs to, and the point there. -/
abbrev Chart := Nat → Option (Shape × Point)

/-- What the code of a function can rely on in a program. -/
def Program.context (program : Program) (shape : Shape) : CodeContext where
  linked function := (program.lookup? function.path function.name).isSome
  globals := program.globals.length
  shape := shape

/-- A program whose every place has a point, of which each follows from those before it. -/
structure Program.Charted (program : Program) (chart : Chart) : Prop where
  checked : ∀ ip shape point, chart ip = some (shape, point) →
    ∃ instruction next, program.instructions[ip]? = some instruction ∧
      Checked (program.context shape) (fun target there => chart target = some (shape, there))
        instruction point next ∧
      ∀ after, next = some after →
        ∃ there, chart (ip + 1) = some (shape, there) ∧ after.Meets there
  total : ∀ ip, ip < program.size → (chart ip).isSome
  entries : ∀ path name entry, program.lookup? path name = some entry →
    ∃ shape, shape.arity = entry.arity ∧ chart entry.offset = some (shape, .entry)

/-! ## Functions -/

/-- No labels. -/
def noLabel (_ : Nat) (_ : Point) : Prop := False

theorem standing_parameters {source : FunctionSource} {context : CodeContext} {position : Nat}
    (same : context.shape.source = source) :
    Standing context (source.site position) 0 none [] [] := by
  refine ⟨rfl, ?_, nofun, nofun⟩
  rintro ⟨name, slot⟩ member
  rw [same]
  have lower := List.le_snd_of_mem_zipIdx (List.mem_reverse.mp member)
  have upper := List.snd_lt_add_of_mem_zipIdx (List.mem_reverse.mp member)
  refine ⟨.inl ⟨lower, ?_⟩, by simp⟩
  simp only [Shape.arity, FunctionSource.arity]
  omega

/-- The code of a function is checked up to the return at its end. -/
theorem checked_function {linkage : Linkage} {position : Nat} {source : FunctionSource}
    {code : List Instruction} {actions : List FunctionSource} {linked : FunctionRef → Prop}
    (lowered : lowerFunction linkage position source = .ok (code, actions))
    (declared : ∀ function ∈ linkage.declared, linked function)
    (literals : ∀ literal ∈ actions, linked literal.reference) :
    ∃ locals front, code = front ++ [.returnValue source.arity] ∧
      Segment ⟨linked, linkage.globals.length, ⟨source, locals⟩⟩ noLabel none position
        (.ofInstructions front) .entry (.leaving [.any]) := by
  rcases lowerFunction_ok lowered with ⟨body, progress, bodyLowered, rfl, rfl⟩
  refine ⟨progress.locals,
    [.allocFrame progress.locals, .pushDebug ⟨source.unit, source.qualified, source.range⟩] ++
      body.closeLoop (position + 2 + body.length) ++ [.pushConst .unit, .popDebug],
    by simp [FunctionSource.wrap], ?_⟩
  have bodyChecked := @LowersStmts.checked ⟨linked, linkage.globals.length,
    ⟨source, progress.locals⟩⟩ _ _ _ _ _ _ bodyLowered ⟨rfl, rfl, declared⟩ noLabel none [] []
    ⟨Nat.le_refl _, literals⟩ (standing_parameters rfl)
  simp only [Code.ofInstructions, List.map_append]
  refine .follow (.follow (.prepend (.checked .allocFrame) (.checked .pushDebug))
    (bodyChecked.closeLoop ?_)) (.prepend (.leaves 0 rfl) (.checked .popDebug))
  rintro _ ⟨⟩

/-! ## Rows of functions -/

/-- A chart of the instructions from an offset on. -/
structure Chart.Covers (chart : Chart) (linked : FunctionRef → Prop)
    (globals offset : Nat) (instructions : List Instruction) : Prop where
  checked : ∀ index shape point, chart (offset + index) = some (shape, point) →
    ∃ instruction next, instructions[index]? = some instruction ∧
      Checked ⟨linked, globals, shape⟩
        (fun target there => chart target = some (shape, there)) instruction point next ∧
      ∀ after, next = some after →
        ∃ there, chart (offset + index + 1) = some (shape, there) ∧ after.Meets there
  total : ∀ index, index < instructions.length → (chart (offset + index)).isSome
  below : ∀ ip, ip < offset → chart ip = none

/-- The chart of a function in front of others. -/
def Chart.prepend (rest : Chart) (offset length : Nat) (shape : Shape)
    (points : Nat → Point) : Chart := fun ip =>
  if ip < offset then none
  else if ip < offset + length then some (shape, points ip)
  else rest ip

theorem Chart.covers_prepend {rest : Chart} {linked : FunctionRef → Prop}
    {globals offset : Nat} {front others : List Instruction} {shape : Shape} {points : Nat → Point}
    {final : Instruction}
    (restCovers : rest.Covers linked globals (offset + (front ++ [final]).length) others)
    (segment : ∀ index cell, (Code.ofInstructions front)[index]? = some cell →
      ∃ next, CellChecked ⟨linked, globals, shape⟩
          (inside noLabel points offset (Code.ofInstructions front).length) none cell
          (points (offset + index)) next ∧
        ∀ point, next = some point → point.Meets (points (offset + index + 1)))
    (ends : Checked ⟨linked, globals, shape⟩ noLabel final (points (offset + front.length)) none) :
    (rest.prepend offset (front ++ [final]).length shape points).Covers linked globals offset
      (front ++ [final] ++ others) := by
  have here : ∀ ip, offset ≤ ip → ip ≤ offset + front.length →
      rest.prepend offset (front ++ [final]).length shape points ip = some (shape, points ip) := by
    intro ip lower upper
    rw [prepend, if_neg (Nat.not_lt.mpr lower), if_pos]
    simp
    omega
  have behind : ∀ ip, offset + (front ++ [final]).length ≤ ip →
      rest.prepend offset (front ++ [final]).length shape points ip = rest ip := by
    intro ip bound
    rw [prepend, if_neg (by omega), if_neg (by omega)]
  refine ⟨?_, ?_, ?_⟩
  · intro index found point same
    rcases Nat.lt_trichotomy index front.length with early | last | late
    · rw [here _ (by omega) (by omega)] at same
      cases same
      rcases segment index (.ready front[index]) (by simp [Code.ofInstructions, early]) with
        ⟨next, cellChecked, falls⟩
      cases cellChecked with
      | ready checked =>
          refine ⟨front[index], next, ?_, checked.mono ?_, ?_⟩
          · rw [List.append_assoc, List.getElem?_append_left early, List.getElem?_eq_getElem early]
          · rintro target there (impossible | ⟨lower, upper, rfl⟩)
            · exact impossible.elim
            · rw [Code.length_ofInstructions] at upper
              exact here target lower upper
          · intro after same
            exact ⟨_, here _ (by omega) (by omega), falls after same⟩
    · subst last
      rw [here _ (by omega) (by omega)] at same
      cases same
      refine ⟨final, none, by simp, ends.mono fun _ _ impossible => impossible.elim, ?_⟩
      rintro _ ⟨⟩
    · have length : (front ++ [final]).length = front.length + 1 := by simp
      rw [behind _ (by omega)] at same
      have place : offset + index =
          offset + (front ++ [final]).length + (index - (front ++ [final]).length) := by omega
      rw [place] at same
      rcases restCovers.checked _ _ _ same with ⟨instruction, next, found, checked, falls⟩
      refine ⟨instruction, next, ?_, checked.mono ?_, ?_⟩
      · rw [List.getElem?_append_right (by omega)]
        exact found
      · intro target there known
        rcases Nat.lt_or_ge target (offset + (front ++ [final]).length) with low | high
        · rw [restCovers.below target low] at known
          cases known
        · rw [behind target high]
          exact known
      · intro after same
        rcases falls after same with ⟨there, known, meets⟩
        refine ⟨there, ?_, meets⟩
        rw [place, behind _ (by omega)]
        exact known
  · intro index bound
    rcases Nat.lt_or_ge index (front ++ [final]).length with early | late
    · rw [here _ (by omega) (by simp at early; omega)]
      rfl
    · rw [behind _ (by omega)]
      have place : offset + index =
          offset + (front ++ [final]).length + (index - (front ++ [final]).length) := by omega
      rw [place]
      apply restCovers.total
      rw [List.length_append] at bound
      omega
  · intro ip low
    exact if_pos low

/-- A chart that knows in which function each place lies. -/
def Chart.Homes (chart : Chart) (placed : List Placement) : Prop :=
  ∀ placement ∈ placed, ∃ locals,
    chart placement.offset = some (⟨placement.source, locals⟩, .entry) ∧
    ∀ index, index < placement.code.length →
      ∃ point, chart (placement.offset + index) = some (⟨placement.source, locals⟩, point)

theorem Chart.Homes.prepend {chart : Chart} {placed : List Placement} {linked : FunctionRef → Prop}
    {globals offset length : Nat} {instructions : List Instruction} {shape : Shape}
    {points : Nat → Point} (homes : chart.Homes placed)
    (covers : chart.Covers linked globals (offset + length) instructions) :
    (chart.prepend offset length shape points).Homes placed := by
  have behind : ∀ ip known, chart ip = some known →
      chart.prepend offset length shape points ip = some known := by
    intro ip known here
    have high : offset + length ≤ ip := by
      rcases Nat.lt_or_ge ip (offset + length) with low | high
      · rw [covers.below _ low] at here
        cases here
      · exact high
    rw [Chart.prepend, if_neg (by omega), if_neg (by omega), here]
  intro placement member
  rcases homes placement member with ⟨locals, start, inside⟩
  refine ⟨locals, behind _ _ start, ?_⟩
  intro index bound
  rcases inside index bound with ⟨point, here⟩
  exact ⟨point, behind _ _ here⟩

theorem LaidOut.charted {linkage : Linkage} {offset : Nat} {placed : List Placement}
    {linked : FunctionRef → Prop} (laidOut : LaidOut linkage offset placed)
    (declared : ∀ function ∈ linkage.declared, linked function)
    (literals : ∀ placement ∈ placed, ∀ literal ∈ placement.actions, linked literal.reference) :
    ∃ chart : Chart,
      chart.Covers linked linkage.globals.length offset (placed.flatMap Placement.code) ∧
      chart.Homes placed := by
  induction laidOut with
  | nil =>
      exact ⟨fun _ => none, ⟨nofun, by simp, fun _ _ => rfl⟩, nofun⟩
  | @cons offset source code actions rest lowered restLaidOut ih =>
      rcases ih fun placement member => literals placement (List.mem_cons_of_mem _ member) with
        ⟨chart, covers, homes⟩
      rcases checked_function lowered declared (literals _ List.mem_cons_self) with
        ⟨locals, front, rfl, points, start, stop, segment⟩
      refine ⟨chart.prepend offset (front ++ [Instruction.returnValue source.arity]).length
        ⟨source, locals⟩ points, ?_, ?_⟩
      · refine Chart.covers_prepend covers segment ?_
        rw [Code.length_ofInstructions] at stop
        rw [stop]
        exact .returnValue
      · intro placement member
        rcases List.mem_cons.mp member with rfl | member
        · refine ⟨locals, by simp [Chart.prepend, start], ?_⟩
          intro index bound
          refine ⟨points (offset + index), ?_⟩
          dsimp only at bound ⊢
          rw [Chart.prepend, if_neg (by omega), if_pos (by omega)]
        · exact homes.prepend covers placement member

/-- A compiled program can be charted. -/
theorem Program.Compiled.charted_homes {units : List ProgramUnit} {globals : List String}
    {program : Program} {placed : List Placement}
    (compiled : program.Compiled units globals placed) :
    ∃ chart, program.Charted chart ∧ chart.Homes placed := by
  have linked : ∀ source ∈ placed.map Placement.source,
      (program.lookup? source.path source.name).isSome := by
    intro source member
    rcases List.mem_map.mp member with ⟨placement, placementMem, rfl⟩
    rw [Program.lookup?, compiled.namespaces]
    exact isSome_lookup?_register (.inr ⟨placement, placementMem, rfl⟩)
  have declared : ∀ function ∈ (declaredSources units).map FunctionSource.reference,
      (program.lookup? function.path function.name).isSome := by
    intro function member
    rcases List.mem_map.mp member with ⟨source, sourceMem, rfl⟩
    apply linked
    rw [compiled.sources]
    exact List.mem_append_left _ sourceMem
  have literals : ∀ placement ∈ placed, ∀ literal ∈ placement.actions,
      (program.lookup? literal.reference.path literal.reference.name).isSome := by
    intro placement placementMem literal literalMem
    apply linked
    rw [compiled.sources]
    exact List.mem_append_right _ (List.mem_flatMap.mpr ⟨placement, placementMem, literalMem⟩)
  rcases @LaidOut.charted _ _ _
    (fun function => (program.lookup? function.path function.name).isSome) compiled.laidOut declared
    literals with ⟨chart, covers, homes⟩
  rw [← compiled.instructions] at covers
  refine ⟨chart, ⟨?_, ?_, ?_⟩, homes⟩
  · intro ip shape point known
    have checked := covers.checked ip shape point
    rw [Nat.zero_add] at checked
    simpa [Program.context, compiled.globals] using checked known
  · intro ip bound
    have some := covers.total ip (by simpa [Program.size] using bound)
    rwa [Nat.zero_add] at some
  · intro path name entry found
    rw [Program.lookup?, compiled.namespaces] at found
    rcases lookup?_register found with ⟨placement, member, _, rfl⟩ | none
    · rcases homes placement member with ⟨locals, start, _⟩
      exact ⟨⟨placement.source, locals⟩, rfl, start⟩
    · rw [NamespaceNode.lookup?_empty] at none
      cases none

theorem Program.Compiled.charted {units : List ProgramUnit} {globals : List String}
    {program : Program} {placed : List Placement}
    (compiled : program.Compiled units globals placed) : ∃ chart, program.Charted chart := by
  rcases compiled.charted_homes with ⟨chart, charted, _⟩
  exact ⟨chart, charted⟩

end ScriptMachine
