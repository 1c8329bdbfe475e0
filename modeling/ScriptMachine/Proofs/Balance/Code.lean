import ScriptMachine.Proofs.Balance.Points
import ScriptMachine.Proofs.Compiler.Pieces

/-!
# Lowered code is checked

By induction on how code is put together: the code of an expression leads from its operands to the
same operands and one more, the code of a statement from its operands to the same operands. What
carries the induction is `Standing`: the operands that lowering counts are those of the point, the
slots in scope belong to the frame, and none of them is a slot that holds an iterator.
-/

namespace ScriptMachine

/-- A context that fits the function that is lowered. -/
structure CodeContext.Suits (context : CodeContext) (frame : Frame) : Prop where
  source : context.shape.source = frame.source
  globals : context.globals = frame.linkage.globals.length
  declared : ∀ function ∈ frame.linkage.declared, context.linked function

theorem CodeContext.Suits.arity {context : CodeContext} {frame : Frame}
    (suits : context.Suits frame) : context.shape.arity = frame.source.arity :=
  congrArg FunctionSource.arity suits.source

/-- A context that has room for the slots taken and knows the literals met. -/
structure CodeContext.Allows (context : CodeContext) (progress : Progress) : Prop where
  locals : progress.locals ≤ context.shape.locals
  actions : ∀ source ∈ progress.actions, context.linked source.reference

theorem CodeContext.Allows.of_grows {context : CodeContext} {before after : Progress} {count : Nat}
    (allows : context.Allows after) (grows : before.Grows after count) : context.Allows before :=
  ⟨Nat.le_trans grows.locals allows.locals,
    fun source met => allows.actions source (grows.mem_actions met)⟩

theorem CodeContext.Allows.of_take {context : CodeContext} {progress : Progress} {count : Nat}
    (allows : context.Allows (progress.take count)) : context.Allows progress :=
  ⟨Nat.le_trans (Nat.le_add_right _ _) allows.locals, allows.actions⟩

/-- What a site says about the point that stands there. -/
structure Standing (context : CodeContext) (site : Site) (locals : Nat) (loop : Option Point)
    (operands : List Tag) (iterators : List Nat) : Prop where
  height : operands.length = site.operands
  scope : ∀ entry ∈ site.scope,
    Shape.HasSlot ⟨context.shape.source, locals⟩ entry.2 ∧ entry.2 ∉ iterators
  hidden : ∀ slot ∈ iterators, context.shape.arity + frameHeader ≤ slot ∧
    slot < context.shape.arity + frameHeader + locals
  leaving : ∀ waiting, site.loopOperands = some waiting → ∃ more kept known,
    operands = more ++ kept ∧ kept.length = waiting ∧ loop = some (.running kept known) ∧
      known ⊆ iterators

theorem Shape.HasSlot.grow {source : FunctionSource} {fewer more slot : Nat}
    (valid : HasSlot ⟨source, fewer⟩ slot) (bound : fewer ≤ more) : HasSlot ⟨source, more⟩ slot := by
  simp only [HasSlot, arity] at valid ⊢
  omega

namespace Standing

variable {context : CodeContext} {site : Site} {locals more count : Nat} {loop : Option Point}
  {operands : List Tag} {iterators : List Nat}

theorem after (standing : Standing context site locals loop operands iterators) :
    Standing context (site.after count) locals loop operands iterators :=
  ⟨standing.height, standing.scope, standing.hidden, standing.leaving⟩

theorem deeper (standing : Standing context site locals loop operands iterators)
    (waiting : List Tag) :
    Standing context (site.deeper waiting.length) locals loop (waiting ++ operands) iterators := by
  refine ⟨?_, standing.scope, standing.hidden, ?_⟩
  · simp [Site.deeper, standing.height, Nat.add_comm]
  · intro height inLoop
    rcases standing.leaving height inLoop with ⟨above, kept, known, same, rest⟩
    exact ⟨waiting ++ above, kept, known, by rw [same, List.append_assoc], rest⟩

theorem grow (standing : Standing context site locals loop operands iterators)
    (bound : locals ≤ more) : Standing context site more loop operands iterators := by
  refine ⟨standing.height, ?_, ?_, standing.leaving⟩
  · intro entry member
    exact ⟨(standing.scope entry member).1.grow bound, (standing.scope entry member).2⟩
  · intro slot member
    have inside := standing.hidden slot member
    omega

/-- A slot that has just been taken holds no iterator. -/
theorem fresh (standing : Standing context site locals loop operands iterators)
    (bound : locals ≤ more) : context.shape.arity + frameHeader + more ∉ iterators := by
  intro member
  have inside := standing.hidden _ member
  omega

theorem bind (standing : Standing context site locals loop operands iterators) {name : String}
    {slot : Nat} (valid : Shape.HasSlot ⟨context.shape.source, locals⟩ slot)
    (free : slot ∉ iterators) :
    Standing context (site.bind name slot) locals loop operands iterators := by
  refine ⟨standing.height, ?_, standing.hidden, standing.leaving⟩
  intro entry member
  rcases List.mem_cons.mp member with rfl | member
  · exact ⟨valid, free⟩
  · exact standing.scope entry member

/-- A slot that has just been taken may hold an iterator from now on. -/
theorem iterator (standing : Standing context site locals loop operands iterators)
    (bound : locals < more) :
    Standing context site more loop operands
      ((context.shape.arity + frameHeader + locals) :: iterators) := by
  refine ⟨standing.height, ?_, ?_, ?_⟩
  · intro entry member
    rcases standing.scope entry member with ⟨valid, free⟩
    refine ⟨valid.grow (Nat.le_of_lt bound), ?_⟩
    intro present
    rcases List.mem_cons.mp present with same | present
    · simp only [Shape.HasSlot, Shape.arity] at valid same
      omega
    · exact free present
  · intro slot member
    rcases List.mem_cons.mp member with rfl | member
    · omega
    · have inside := standing.hidden slot member
      omega
  · intro waiting inLoop
    rcases standing.leaving waiting inLoop with ⟨above, kept, known, same, height, here, covers⟩
    exact ⟨above, kept, known, same, height, here, List.subset_cons_of_subset _ covers⟩

theorem enterLoop (standing : Standing context site locals loop operands iterators)
    {known : List Nat} (covers : known ⊆ iterators) :
    Standing context site.enterLoop locals (some (.running operands known)) operands iterators := by
  refine ⟨standing.height, standing.scope, standing.hidden, ?_⟩
  intro waiting inLoop
  refine ⟨[], operands, known, rfl, ?_, rfl, covers⟩
  rw [standing.height]
  exact Option.some.inj inLoop

theorem behind (standing : Standing context site locals loop operands iterators) {code : Code} :
    Standing context (site.behind code site.scope) locals loop operands iterators :=
  ⟨standing.height, standing.scope, standing.hidden, standing.leaving⟩

end Standing

/-! ## Single instructions -/

namespace Segment

variable {context : CodeContext} {label : Nat → Point → Prop} {loop : Option Point}
  {position slot : Nat} {operands : List Tag} {iterators : List Nat} {instruction : Instruction}
  {tag : Tag} {function : FunctionRef}

/-- An instruction that takes operands and leaves a value. -/
theorem leaves (taken : Nat) (effect : instruction.plainEffect? = some (taken, 1)) :
    Segment context label loop position [.ready instruction]
      (.running (List.replicate taken .any ++ operands) iterators)
      (.running (.any :: operands) iterators) :=
  .cell (.ready (.plain effect)) fun _ same => Option.some.inj same ▸ .refl _

/-- An instruction that takes operands and leaves nothing. -/
theorem takes (taken : Nat) (effect : instruction.plainEffect? = some (taken, 0)) :
    Segment context label loop position [.ready instruction]
      (.running (List.replicate taken .any ++ operands) iterators) (.running operands iterators) :=
  .cell (.ready (.plain effect)) fun _ same => Option.some.inj same ▸ .refl _

theorem checked {before after : Point} (one : Checked context label instruction before (some after)) :
    Segment context label loop position [.ready instruction] before after :=
  .cell (.ready one) fun _ same => Option.some.inj same ▸ .refl _

/-- An instruction behind which control never goes on. -/
theorem ends {before after : Point} (one : Checked context label instruction before none) :
    Segment context label loop position [.ready instruction] before after :=
  .cell (.ready one) nofun

end Segment

namespace Frame

variable {frame : Frame} {scope : List (String × Nat)} {name : String}

/-- A function that keeps values takes them as its first argument. -/
theorem carrierCount_of_capture {index : Nat}
    (kept : (frame.source.captures.getD []).idxOf? name = some index) :
    0 < frame.source.carrierCount := by
  cases captures : frame.source.captures with
  | none => simp [captures] at kept
  | some names => simp [FunctionSource.carrierCount, captures]

end Frame

/-! ## Fixed pieces -/

section Pieces

variable {context : CodeContext} {frame : Frame} {site : Site} {locals : Nat}
  {label : Nat → Point → Prop} {loop : Option Point} {position : Nat} {operands : List Tag}
  {iterators : List Nat}

theorem hasSlot_of_standing {name : String} {slot : Nat}
    (standing : Standing context site locals loop operands iterators)
    (room : locals ≤ context.shape.locals) (member : (name, slot) ∈ site.scope) :
    context.shape.HasSlot slot :=
  (standing.scope _ member).1.grow room

theorem checked_carrier (suits : context.Suits frame) {name : String} {index : Nat}
    (kept : (frame.source.captures.getD []).idxOf? name = some index) :
    Segment context label loop position (.ofInstructions [.loadLocal 0])
      (.running operands iterators) (.running (.carrier :: operands) iterators) := by
  have keeps := Frame.carrierCount_of_capture kept
  rw [← suits.source] at keeps
  exact .checked (.loadCarrier keeps)

theorem checked_load {name : String} {loads : List Instruction} (suits : context.Suits frame)
    (standing : Standing context site locals loop operands iterators)
    (room : locals ≤ context.shape.locals) (loaded : frame.load site.scope name = .ok loads) :
    Segment context label loop position (.ofInstructions loads) (.running operands iterators)
      (.running (.any :: operands) iterators) := by
  rcases Frame.load_cases loaded with ⟨slot, _, member, rfl⟩ | ⟨index, _, kept, rfl⟩ |
    ⟨slot, _, found, rfl⟩
  · exact .checked (.loadLocal (hasSlot_of_standing standing room member))
  · exact .prepend (checked_carrier suits kept) (.prepend (.leaves 0 rfl) (.checked .loadKept))
  · refine .checked (.loadGlobal ?_)
    have bound := Linkage.globalSlotFrom?_lt found
    rw [suits.globals]
    omega

theorem replicate_any_cons (count : Nat) (rest : List Tag) :
    List.replicate count Tag.any ++ .any :: rest = List.replicate (count + 1) .any ++ rest := by
  rw [List.replicate_succ', List.append_assoc]
  rfl

theorem checked_loads {names : List String} {loads : List (List Instruction)}
    (suits : context.Suits frame)
    (standing : Standing context site locals loop operands iterators)
    (room : locals ≤ context.shape.locals)
    (loaded : names.mapM (frame.load site.scope) = .ok loads) :
    Segment context label loop position (.ofInstructions loads.flatten)
      (.running operands iterators)
      (.running (List.replicate names.length .any ++ operands) iterators) := by
  induction names generalizing loads operands site position with
  | nil =>
      cases loaded
      exact .nil
  | cons name rest ih =>
      rw [List.mapM_cons] at loaded
      rcases exists_of_bind_ok loaded with ⟨first, firstLoaded, loaded⟩
      rcases exists_of_bind_ok loaded with ⟨others, restLoaded, loaded⟩
      cases loaded
      have deeper := @ih _ (position + first.length) _ _ (standing.deeper [.any]) restLoaded
      rw [List.singleton_append, replicate_any_cons] at deeper
      simp only [List.flatten_cons, Code.ofInstructions, List.map_append]
      refine (checked_load suits standing room firstLoaded).follow ?_
      simpa [Code.ofInstructions] using deeper

theorem hasSlot_local {shape : Shape} {index : Nat} (room : index < shape.locals) :
    shape.HasSlot (shape.arity + frameHeader + index) :=
  .inr ⟨Nat.le_add_right _ _, by omega⟩

/-- A slot that lowering has taken belongs to the frame. -/
theorem hasSlot_slot {index : Nat} (suits : context.Suits frame) (taken : index < locals) :
    Shape.HasSlot ⟨context.shape.source, locals⟩ (frame.slot index) := by
  rw [Frame.slot, ← suits.source]
  exact @hasSlot_local ⟨context.shape.source, locals⟩ index taken

/-- The loop of an `await` turns its source into one value. -/
theorem checked_awaitLoop
    (standing : Standing context site locals loop operands iterators)
    (room : locals + 2 ≤ context.shape.locals) :
    Segment context label loop position
      (.ofInstructions (Code.awaitLoop (position + 4) (context.shape.arity + frameHeader + locals)
        (context.shape.arity + frameHeader + (locals + 1))))
      (.running (.any :: operands) iterators) (.running (.any :: operands) iterators) := by
  generalize here : context.shape.arity + frameHeader + locals = iterator
  generalize there : context.shape.arity + frameHeader + (locals + 1) = current
  have iteratorValid : context.shape.HasSlot iterator := here ▸ hasSlot_local (by omega)
  have currentValid : context.shape.HasSlot current := there ▸ hasSlot_local (by omega)
  have currentFree : current ∉ iterator :: iterators := by
    have free := standing.fresh (Nat.le_add_right locals 1)
    rw [there] at free
    simp only [List.mem_cons, not_or]
    exact ⟨by omega, free⟩
  have setUp : Segment context label loop position
      (.ofInstructions [.getIterator, .storeLocal iterator, .pushConst .unit, .storeLocal current])
      (.running (.any :: operands) iterators) (.running operands (iterator :: iterators)) :=
    .prepend (.checked .getIterator)
      (.prepend (.checked (.storeIterator iteratorValid))
        (.prepend (.leaves 0 rfl) (.checked (.storeLocal currentValid currentFree))))
  have round : Segment context label loop (position + 4)
      (.ofInstructions [.loadLocal iterator, .iterMoveNext, .jumpIfFalse (position + 4 + 9),
        .loadLocal iterator, .iterCurrent, .storeLocal current, .loadLocal current, .yieldValue,
        .jump (position + 4)])
      (.running operands (iterator :: iterators)) (.running operands (iterator :: iterators)) := by
    refine .enclose _ rfl ?_
    exact .prepend (.checked (.loadIterator iteratorValid List.mem_cons_self))
      (.prepend (.checked .iterMoveNext)
        (.prepend (.checked (.jumpIfFalse (.inr ⟨rfl, rfl⟩) (.refl _)))
          (.prepend (.checked (.loadIterator iteratorValid List.mem_cons_self))
            (.prepend (.checked .iterCurrent)
              (.prepend (.checked (.storeLocal currentValid currentFree))
                (.prepend (.checked (.loadLocal currentValid))
                  (.prepend (.takes 1 rfl)
                    (.ends (.jump (.inl (.inr ⟨rfl, rfl⟩)) (.refl _))))))))))
  have last : Segment context label loop (position + 4 + 9)
      (.ofInstructions [.loadLocal current])
      (.running operands (iterator :: iterators)) (.running (.any :: operands) iterators) := by
    refine .cell (.ready (.loadLocal currentValid)) ?_
    intro point same
    rw [← Option.some.inj same]
    exact .running (List.subset_cons_self _ _)
  exact setUp.follow (round.follow last)

/-- The test of a numeric loop leads into the loop, or out of it. -/
theorem checked_rangeTest {after slot stopSlot stepSlot : Nat}
    (valid : context.shape.HasSlot slot) (stopValid : context.shape.HasSlot stopSlot)
    (stepValid : context.shape.HasSlot stepSlot)
    (leaves : label after (.running operands iterators)) :
    Segment context label loop position
      (.ofInstructions (Code.rangeTest position after slot stopSlot stepSlot))
      (.running operands iterators) (.running operands iterators) := by
  have compare (target : Nat) (wider : Nat → Point → Prop) (operator : BinaryOp) :
      Segment context wider loop target
        (.ofInstructions [.loadLocal slot, .loadLocal stopSlot, .binary operator])
        (.running operands iterators) (.running (.any :: operands) iterators) :=
    .prepend (.checked (.loadLocal valid))
      (.prepend (.checked (.loadLocal stopValid)) (.leaves 2 rfl))
  -- The two comparisons meet at the last instruction, and the second starts where the step is
  -- found not to be negative.
  have rising : Segment context
      (withLabel label (position + 11) (.running (.any :: operands) iterators)) loop position
      (.ofInstructions
        [.loadLocal stepSlot, .pushConst (.int 0), .binary .lt, .jumpIfFalse (position + 8),
          .loadLocal slot, .loadLocal stopSlot, .binary .ge, .jump (position + 11),
          .loadLocal slot, .loadLocal stopSlot, .binary .le])
      (.running operands iterators) (.running (.any :: operands) iterators) := by
    have falling : Segment context
        (withLabel (withLabel label (position + 11) (.running (.any :: operands) iterators))
          (position + 8) (.running operands iterators)) loop position
        (.ofInstructions
          [.loadLocal stepSlot, .pushConst (.int 0), .binary .lt, .jumpIfFalse (position + 8),
            .loadLocal slot, .loadLocal stopSlot, .binary .ge, .jump (position + 11)])
        (.running operands iterators) (.running operands iterators) := by
      refine .prepend (.checked (.loadLocal stepValid))
        (.prepend (.leaves 0 rfl)
          (.prepend (.leaves 2 rfl)
            (.prepend (.checked (.jumpIfFalse (.inr ⟨rfl, rfl⟩) (.refl _))) ?_)))
      exact (compare _ _ .ge).follow (.ends (.jump (.inl (.inr ⟨rfl, rfl⟩)) (.refl _)))
    exact .append _ rfl falling (compare _ _ .le)
  exact .append _ rfl rising (.checked (.jumpIfFalse (.inl leaves) (.refl _)))

/-- The end of a numeric loop goes back to its test. -/
theorem checked_rangeNext {first slot stepSlot : Nat} {point : Point}
    (valid : context.shape.HasSlot slot) (stepValid : context.shape.HasSlot stepSlot)
    (free : slot ∉ iterators) (again : label first (.running operands iterators)) :
    Segment context label loop position (.ofInstructions (Code.rangeNext first slot stepSlot))
      (.running operands iterators) point :=
  .prepend (.checked (.loadLocal valid))
    (.prepend (.checked (.loadLocal stepValid))
      (.prepend (.leaves 2 rfl)
        (.prepend (.checked (.storeLocal valid free)) (.ends (.jump again (.refl _))))))

/-- The test of a loop over an iterator leads into the loop, or out of it. -/
theorem checked_eachTest {after iterator slot : Nat} {known : List Nat}
    (iteratorValid : context.shape.HasSlot iterator) (valid : context.shape.HasSlot slot)
    (present : iterator ∈ iterators) (free : slot ∉ iterators) (covers : known ⊆ iterators)
    (leaves : label after (.running operands known)) :
    Segment context label loop position (.ofInstructions (Code.eachTest after iterator slot))
      (.running operands iterators) (.running operands iterators) :=
  .prepend (.checked (.loadIterator iteratorValid present))
    (.prepend (.checked .iterMoveNext)
      (.prepend (.checked (.jumpIfFalse leaves (.running covers)))
        (.prepend (.checked (.loadIterator iteratorValid present))
          (.prepend (.checked .iterCurrent) (.checked (.storeLocal valid free))))))

/-- Dropping operands. -/
theorem checked_pops {waiting : List Tag} :
    Segment context label loop position
      (List.replicate waiting.length (.ready .pop))
      (.running (waiting ++ operands) iterators) (.running operands iterators) := by
  induction waiting generalizing position with
  | nil => exact .nil
  | cons tag rest ih => exact .prepend (.checked .pop) ih

end Pieces

/-! ## Lowered code -/

/-- Code at a site that leaves so many values more. -/
def Code.Leaves (context : CodeContext) (site : Site) (before after : Progress) (count : Nat)
    (code : Code) : Prop :=
  ∀ label {loop operands iterators}, context.Allows after →
    Standing context site before.locals loop operands iterators →
    Segment context label loop site.position code (.running operands iterators)
      (.running (List.replicate count .any ++ operands) iterators)

/-- Code of a statement, behind which the site stands as before. -/
def Code.Balanced (context : CodeContext) (site : Site) (before after : Progress)
    (scope : List (String × Nat)) (code : Code) : Prop :=
  ∀ label {loop operands iterators}, context.Allows after →
    Standing context site before.locals loop operands iterators →
    Segment context label loop site.position code (.running operands iterators)
        (.running operands iterators) ∧
      Standing context (site.behind code scope) after.locals loop operands iterators

section Composition

variable {context : CodeContext} {frame : Frame} {site : Site} {before middle after : Progress}
  {first second code : Code} {count more : Nat}

namespace Code.Leaves

/-- Code whose values wait while the code behind it is carried out. -/
theorem waiting {met metLater : Nat} (one : first.Leaves context site before middle count)
    (grows : before.Grows middle met) (growsLater : middle.Grows after metLater)
    (two : second.Leaves context ((site.after first.length).deeper count) middle after more) :
    (first ++ second).Leaves context site before after (more + count) := by
  intro label loop operands iterators allows standing
  have deeper := (standing.grow grows.locals).deeper (List.replicate count .any)
  rw [List.length_replicate] at deeper
  have rest := two label allows deeper.after
  rw [← List.append_assoc, List.replicate_append_replicate] at rest
  exact (one label (allows.of_grows growsLater) standing).follow rest

/-- Code behind which an instruction takes all the values and leaves others. -/
theorem finish {instruction : Instruction} (one : code.Leaves context site before after count)
    (effect : instruction.plainEffect? = some (count, more)) :
    (code ++ [CodeCell.ready instruction]).Leaves context site before after more := by
  intro label loop operands iterators allows standing
  exact (one label allows standing).follow (.checked (.plain effect))

/-- Code that leaves nothing is a statement that binds no name. -/
theorem balanced {met : Nat} (one : code.Leaves context site before after 0)
    (grows : before.Grows after met) : code.Balanced context site before after site.scope :=
  fun label _ _ _ allows standing =>
    ⟨one label allows standing, (standing.grow grows.locals).behind⟩

/-- Code that leaves nothing, followed by other code. -/
theorem next {there : Nat} {met metLater : Nat} (one : first.Leaves context site before middle 0)
    (grows : before.Grows middle met) (growsLater : middle.Grows after metLater)
    (place : first.length = there)
    (two : second.Leaves context (site.after there) middle after count) :
    (first ++ second).Leaves context site before after count := by
  subst there
  intro label loop operands iterators allows standing
  exact (one label (allows.of_grows growsLater) standing).follow
    (two label allows (standing.grow grows.locals).after)

/-- Code behind which its value is kept in a fresh slot. -/
theorem keep {met : Nat} (suits : context.Suits frame)
    (one : code.Leaves context site before after 1) (grows : before.Grows after met) :
    (code ++ [CodeCell.ready (.storeLocal (frame.slot after.locals))]).Leaves context site before
      (after.take 1) 0 := by
  intro label loop operands iterators allows standing
  have slot : frame.slot after.locals = context.shape.arity + frameHeader + after.locals := by
    rw [Frame.slot, suits.arity]
  rw [slot]
  exact (one label allows.of_take standing).follow
    (.checked (.storeLocal (hasSlot_local allows.locals) (standing.fresh grows.locals)))

/-- A call of a named function, once its arguments are there. -/
theorem call {path : List String} {name : String} (one : code.Leaves context site before after count)
    (suits : context.Suits frame) :
    (code ++ [CodeCell.ready (callInstruction frame path name count)]).Leaves context site before
      after 1 := by
  intro label loop operands iterators allows standing
  refine (one label allows standing).follow ?_
  unfold callInstruction
  cases found : frame.linkage.findFunction? frame.source.path path name with
  | none => exact .checked (.plain rfl)
  | some target =>
      refine .checked (.callFunction ?_)
      exact suits.declared _ (Linkage.mem_declared_of_findFunction? found)

/-- Two operands of which the second is evaluated only if the first does not decide. -/
theorem shortCircuit {operator : BinaryOp} {jump : Nat → Instruction} {met metLater : Nat}
    (short : shortCircuit? operator = some jump) (one : first.Leaves context site before middle 1)
    (grows : before.Grows middle met) (growsLater : middle.Grows after metLater)
    (two : second.Leaves context (site.after (first.length + 1)) middle after 1) :
    (first ++ CodeCell.ready (jump (site.position + first.length + 1 + second.length)) ::
      second).Leaves context site before after 1 := by
  intro label loop operands iterators allows standing
  refine .enclose (site.position + first.length + 1 + second.length) (by simp; omega) ?_
  refine (one _ (allows.of_grows growsLater) standing).follow (.prepend ?_
    (two _ allows (standing.grow grows.locals).after))
  cases operator <;> cases short
  · exact .checked (.jumpIfFalseKeep (.inr ⟨rfl, rfl⟩) (.refl _))
  · exact .checked (.jumpIfTrueKeep (.inr ⟨rfl, rfl⟩) (.refl _))

/-- A condition with its two branches. -/
theorem branch {third : Code} {afterTest afterThen : Progress} {met metThen metElse : Nat}
    (test : first.Leaves context site before afterTest 1)
    (grows : before.Grows afterTest met) (growsThen : afterTest.Grows afterThen metThen)
    (growsElse : afterThen.Grows after metElse)
    (thenChecked : second.Leaves context (site.after (first.length + 1)) afterTest afterThen 1)
    (elseChecked : third.Leaves context
      (site.after (first.length + 1 + second.length + 1)) afterThen after 1) :
    (first ++ CodeCell.ready
        (.jumpIfFalse (site.position + (first.length + 1 + second.length + 1))) :: second ++
      CodeCell.ready (.jump (site.position + (first.length + 1 + second.length + 1) +
        third.length)) :: third).Leaves context site before after 1 := by
  intro label loop operands iterators allows standing
  generalize atElse : site.position + (first.length + 1 + second.length + 1) = elseStart
  generalize atStop : elseStart + third.length = stop
  have allowsThen := allows.of_grows growsElse
  have grown := standing.grow grows.locals
  rw [List.append_cons]
  refine .enclose stop (by simp; omega) (.append elseStart (by simp; omega)
    (.follow (.follow (test _ (allowsThen.of_grows growsThen) standing)
      (.prepend (.checked (.jumpIfFalse (.inr ⟨rfl, rfl⟩) (.refl _)))
        (thenChecked _ allowsThen grown.after)))
      (.ends (.jump (.inl (.inr ⟨rfl, rfl⟩)) (.refl _)))) ?_)
  exact (elseChecked _ allows (grown.grow growsThen.locals).after).moved atElse

/-- A loop with its test in front. -/
theorem whileLoop {met metLater : Nat} (test : first.Leaves context site before middle 1)
    (grows : before.Grows middle met) (growsLater : middle.Grows after metLater)
    (body : second.Leaves context (site.after (first.length + 1)).enterLoop middle after 0) :
    (first ++
      CodeCell.ready (.jumpIfFalse (site.position + first.length + 1 + second.length + 1)) ::
      ofInstructions (second.closeLoop (site.position + first.length + 1 + second.length + 1) ++
        [.jump site.position])).Leaves context site before after 0 := by
  intro label loop operands iterators allows standing
  generalize atStop : site.position + first.length + 1 + second.length + 1 = stop
  have bodyChecked := body
    (withLabel (withLabel label site.position (.running operands iterators)) stop
      (.running operands iterators))
    allows ((standing.grow grows.locals).after.enterLoop (List.Subset.refl _))
  have closed : ∀ point, some (Point.running operands iterators) = some point →
      withLabel (withLabel label site.position (.running operands iterators)) stop
        (.running operands iterators) stop point :=
    fun point same => .inr ⟨rfl, (Option.some.inj same).symm⟩
  simp only [ofInstructions, List.map_append]
  refine .enclose stop (by simp; omega)
    ((test _ (allows.of_grows growsLater) standing).follow
      (.prepend (.checked (.jumpIfFalse (.inr ⟨rfl, rfl⟩) (.refl _)))
        ((bodyChecked.closeLoop closed).follow
          (.ends (.jump (.inl (.inr ⟨rfl, rfl⟩)) (.refl _))))))

/-- The loop of a numeric `for`, once its slots are filled. -/
theorem rangeLoop {slot stop step : Nat} {name : String} {met : Nat} (suits : context.Suits frame)
    (slotTaken : slot < middle.locals) (stopTaken : stop < middle.locals)
    (stepTaken : step < middle.locals) (grows : middle.Grows after met)
    (body : code.Leaves context ((site.after 12).bind name (frame.slot slot)).enterLoop middle
      after 0) {label : Nat → Point → Prop} {loop : Option Point} {operands : List Tag}
    {iterators : List Nat} (allows : context.Allows after)
    (standing : Standing context site middle.locals loop operands iterators)
    (free : frame.slot slot ∉ iterators) :
    Segment context label loop site.position
      (ofInstructions (rangeTest site.position (site.position + 12 + code.length + 5)
          (frame.slot slot) (frame.slot stop) (frame.slot step)) ++
        ofInstructions (code.closeLoop (site.position + 12 + code.length + 5)) ++
        ofInstructions (rangeNext site.position (frame.slot slot) (frame.slot step)))
      (.running operands iterators) (.running operands iterators) := by
  generalize atStop : site.position + 12 + code.length + 5 = last
  have valid (index : Nat) (taken : index < middle.locals) :=
    hasSlot_slot suits taken
  have room : middle.locals ≤ context.shape.locals := Nat.le_trans grows.locals allows.locals
  have bodyChecked := body
    (withLabel (withLabel label site.position (.running operands iterators)) last
      (.running operands iterators))
    allows ((standing.after.bind (valid slot slotTaken) free).enterLoop (List.Subset.refl _))
  have closed : ∀ point, some (Point.running operands iterators) = some point →
      withLabel (withLabel label site.position (.running operands iterators)) last
        (.running operands iterators) last point :=
    fun point same => .inr ⟨rfl, (Option.some.inj same).symm⟩
  refine .enclose last (by simp [rangeTest, rangeNext]; omega)
    (.follow (.follow
      (checked_rangeTest ((valid slot slotTaken).grow room) ((valid stop stopTaken).grow room)
        ((valid step stepTaken).grow room) (.inr ⟨rfl, rfl⟩))
      (bodyChecked.closeLoop closed)) ?_)
  exact checked_rangeNext ((valid slot slotTaken).grow room) ((valid step stepTaken).grow room)
    free (.inl (.inr ⟨rfl, rfl⟩))

/-- A numeric loop behind the code of its bounds. -/
theorem forRange {stop step start body : Code} {name : String}
    {afterStop afterStep afterStart : Progress} {metStop metStep metStart metBody : Nat}
    (suits : context.Suits frame) (stopChecked : stop.Leaves context site before afterStop 1)
    (stopGrows : before.Grows afterStop metStop)
    (stepChecked : step.Leaves context (site.after (stop.length + 1)) (afterStop.take 1)
      afterStep 1)
    (stepGrows : (afterStop.take 1).Grows afterStep metStep)
    (startChecked : start.Leaves context
      ((site.after (stop.length + 1)).after (step.length + 2)) (afterStep.take 1) afterStart 1)
    (startGrows : (afterStep.take 1).Grows afterStart metStart)
    (bodyChecked : body.Leaves context
      (((((site.after (stop.length + 1)).after (step.length + 2)).after (start.length + 1)).after
        12).bind name (frame.slot afterStart.locals)).enterLoop (afterStart.take 1) after 0)
    (bodyGrows : (afterStart.take 1).Grows after metBody) (first : Nat)
    (here : first = site.position + (stop.length + 1) + (step.length + 2) + (start.length + 1)) :
    (stop ++ CodeCell.ready (.storeLocal (frame.slot afterStop.locals)) ::
      step ++ ofInstructions [.checkStep, .storeLocal (frame.slot afterStep.locals)] ++
      start ++ ofInstructions
        (.storeLocal (frame.slot afterStart.locals) ::
          rangeTest first (first + 12 + body.length + 5) (frame.slot afterStart.locals)
            (frame.slot afterStop.locals) (frame.slot afterStep.locals) ++
          body.closeLoop (first + 12 + body.length + 5) ++
          rangeNext first (frame.slot afterStart.locals) (frame.slot afterStep.locals))).Leaves
      context site before after 0 := by
  have stopKept := stopChecked.keep suits stopGrows
  have stepKept :=
    (@finish _ _ _ _ _ _ _ .checkStep stepChecked rfl).keep suits stepGrows
  have startKept := startChecked.keep suits startGrows
  have stopTaken : before.Grows (afterStop.take 1) metStop := stopGrows.take
  have stepTaken : (afterStop.take 1).Grows (afterStep.take 1) metStep := stepGrows.take
  have startTaken : (afterStep.take 1).Grows (afterStart.take 1) metStart := startGrows.take
  have setUp := stopKept.next stopTaken (stepTaken.trans startTaken) (by simp)
    (stepKept.next stepTaken startTaken (by simp) startKept)
  intro label loop operands iterators allows standing
  have order : afterStop.locals < afterStep.locals ∧ afterStep.locals < afterStart.locals :=
    ⟨stepGrows.locals, startGrows.locals⟩
  have free : frame.slot afterStart.locals ∉ iterators := by
    rw [Frame.slot, ← suits.arity]
    exact standing.fresh (by have := stopGrows.locals; omega)
  have bound : before.locals ≤ (afterStart.take 1).locals := by
    have := stopGrows.locals
    simp only [Progress.take]
    omega
  have grown := standing.grow bound
  have looped := @rangeLoop context frame
    (((site.after (stop.length + 1)).after (step.length + 2)).after (start.length + 1))
    (afterStart.take 1) after body afterStart.locals afterStop.locals afterStep.locals name metBody
    suits (Nat.lt_succ_self _) (by simp only [Progress.take]; omega)
    (by simp only [Progress.take]; omega) bodyGrows bodyChecked label loop operands iterators allows
    grown.after.after.after free
  have whole := (setUp label (allows.of_grows bodyGrows) standing).follow (looped.moved (by
    simp [Site.after]
    omega))
  subst first
  simpa [ofInstructions, Site.after] using whole

/-- A loop over an iterator, once its source is on the stack. -/
theorem eachLoop {name : String} {met : Nat} (suits : context.Suits frame)
    (grows : (middle.take 2).Grows after met)
    (body : code.Leaves context
      (((site.after 2).after 6).bind name (frame.slot (middle.locals + 1))).enterLoop
      (middle.take 2) after 0) {label : Nat → Point → Prop} {loop : Option Point}
    {operands : List Tag} {iterators : List Nat} (allows : context.Allows after)
    (standing : Standing context site middle.locals loop operands iterators) :
    Segment context label loop site.position
      (ofInstructions [.getIterator, .storeLocal (frame.slot middle.locals)] ++
        (ofInstructions (eachTest (site.position + 2 + 6 + code.length + 1)
            (frame.slot middle.locals) (frame.slot (middle.locals + 1))) ++
          ofInstructions (code.closeLoop (site.position + 2 + 6 + code.length + 1)) ++
          ofInstructions [.jump (site.position + 2)]))
      (.running (.any :: operands) iterators) (.running operands iterators) := by
  generalize atStop : site.position + 2 + 6 + code.length + 1 = last
  have room : (middle.take 2).locals ≤ context.shape.locals :=
    Nat.le_trans grows.locals allows.locals
  have iteratorValid := (@hasSlot_slot _ _ (middle.take 2).locals _ suits
    (Nat.lt_add_of_pos_right (Nat.zero_lt_two))).grow room
  have valid := @hasSlot_slot _ _ (middle.take 2).locals _ suits
    (Nat.lt_succ_self (middle.locals + 1))
  have inner := @Standing.iterator _ _ _ (middle.take 2).locals _ _ _ standing
    (Nat.lt_add_of_pos_right (Nat.zero_lt_two))
  have sameSlot : context.shape.arity + frameHeader + middle.locals = frame.slot middle.locals := by
    rw [Frame.slot, suits.arity]
  rw [sameSlot] at inner
  have free : frame.slot (middle.locals + 1) ∉ frame.slot middle.locals :: iterators := by
    have notHeld := standing.fresh (Nat.le_add_right middle.locals 1)
    rw [suits.arity] at notHeld
    simp only [List.mem_cons, not_or, Frame.slot]
    exact ⟨by omega, notHeld⟩
  have covers : iterators ⊆ frame.slot middle.locals :: iterators := List.subset_cons_self _ _
  have bodyChecked := body
    (withLabel (withLabel label (site.position + 2)
      (.running operands (frame.slot middle.locals :: iterators))) last (.running operands iterators))
    allows ((inner.after.after.bind valid free).enterLoop covers)
  have closed : ∀ point, some (Point.running operands iterators) = some point →
      withLabel (withLabel label (site.position + 2)
        (.running operands (frame.slot middle.locals :: iterators))) last
        (.running operands iterators) last point :=
    fun point same => .inr ⟨rfl, (Option.some.inj same).symm⟩
  refine .follow (.prepend (.checked .getIterator) (.checked (.storeIterator iteratorValid))) ?_
  refine .enclose last (by simp [eachTest]; omega) (.follow (.follow
    (checked_eachTest iteratorValid (valid.grow room) List.mem_cons_self free covers
      (.inr ⟨rfl, rfl⟩))
    (bodyChecked.closeLoop closed)) ?_)
  exact .ends (.jump (.inl (.inr ⟨rfl, rfl⟩)) (.refl _))

end Code.Leaves

/-- Code behind a statement. -/
theorem Code.Balanced.follow {scope : List (String × Nat)} {met : Nat}
    (one : first.Balanced context site before middle scope) (grows : middle.Grows after met)
    (two : second.Leaves context (site.behind first scope) middle after count) :
    (first ++ second).Leaves context site before after count := by
  intro label loop operands iterators allows standing
  rcases one label (allows.of_grows grows) standing with ⟨segment, standingNext⟩
  exact segment.follow (two label allows standingNext)

end Composition

mutual

theorem LowersExpr.checked {context : CodeContext} {frame : Frame} {site : Site}
    {before after : Progress} {expr : Expr} {code : Code}
    (lowered : LowersExpr frame site before expr code after) (suits : context.Suits frame) :
    code.Leaves context site before after 1 := by
  cases lowered with
  | literal => exact fun _ _ _ _ _ _ => .leaves 0 rfl
  | var loaded =>
      intro label loop operands iterators allows standing
      exact checked_load suits standing allows.locals loaded
  | shortCircuit short leftLowered rightLowered =>
      have leftChecked := leftLowered.checked suits
      have rightChecked := rightLowered.checked suits
      exact .shortCircuit short leftChecked leftLowered.grows rightLowered.grows rightChecked
  | binary _ leftLowered rightLowered =>
      have leftChecked := leftLowered.checked suits
      have rightChecked := rightLowered.checked suits
      exact (leftChecked.waiting leftLowered.grows rightLowered.grows rightChecked).finish (by rfl)
  | unary operandLowered => exact (operandLowered.checked suits).finish (by rfl)
  | callVariable loaded argsLowered =>
      have argsChecked := argsLowered.checked suits
      have loadChecked : (Code.ofInstructions _).Leaves context site before before 1 :=
        fun label _ _ _ allows standing => checked_load suits standing allows.locals loaded
      rw [← Code.length_ofInstructions] at argsChecked
      exact (loadChecked.waiting .refl argsLowered.grows argsChecked).finish (by rfl)
  | call _ argsLowered => exact (argsLowered.checked suits).call suits
  | staticCall _ argsLowered => exact (argsLowered.checked suits).finish (by rfl)
  | methodCall _ receiverLowered argsLowered =>
      have receiverChecked := receiverLowered.checked suits
      have argsChecked := argsLowered.checked suits
      exact (receiverChecked.waiting receiverLowered.grows argsLowered.grows argsChecked).finish (by rfl)
  | invoke calleeLowered argsLowered =>
      have calleeChecked := calleeLowered.checked suits
      have argsChecked := argsLowered.checked suits
      exact (calleeChecked.waiting calleeLowered.grows argsLowered.grows argsChecked).finish (by rfl)
  | staticField => exact fun _ _ _ _ _ _ => .leaves 0 rfl
  | field _ targetLowered => exact (targetLowered.checked suits).finish (by rfl)
  | index targetLowered positionLowered =>
      have targetChecked := targetLowered.checked suits
      have positionChecked := positionLowered.checked suits
      exact (targetChecked.waiting targetLowered.grows positionLowered.grows
        positionChecked).finish (by rfl)
  | ifElse testLowered thenLowered elseLowered =>
      have testChecked := testLowered.checked suits
      have thenChecked := thenLowered.checked suits
      have elseChecked := elseLowered.checked suits
      exact .branch testChecked testLowered.grows thenLowered.grows elseLowered.grows thenChecked
        elseChecked
  | action loaded =>
      intro label loop operands iterators allows standing
      have linked := allows.actions _ (List.mem_append_right _ (List.mem_singleton_self _))
      simp only [Code.ofInstructions, List.map_append]
      exact (checked_loads suits standing allows.locals loaded).follow
        (.prepend (.checked .makeCarrier) (.checked (.makeClosure linked)))
  | array itemsLowered => exact (itemsLowered.checked suits).finish (by rfl)
  | await sourceLowered =>
      have sourceChecked := sourceLowered.checked suits
      intro label loop operands iterators allows standing
      refine (sourceChecked label allows.of_take standing).follow ?_
      simp only [Frame.slot, ← suits.arity]
      exact checked_awaitLoop (standing.grow sourceLowered.grows.locals) allows.locals

theorem LowersOperands.checked {context : CodeContext} {frame : Frame} {site : Site}
    {before after : Progress} {items : List Expr} {code : Code}
    (lowered : LowersOperands frame site before items code after) (suits : context.Suits frame) :
    code.Leaves context site before after items.length := by
  cases lowered with
  | nil => exact fun _ _ _ _ _ _ => .nil
  | cons itemLowered restLowered =>
      have itemChecked := itemLowered.checked suits
      have restChecked := restLowered.checked suits
      exact itemChecked.waiting itemLowered.grows restLowered.grows restChecked

theorem LowersOption.checked {context : CodeContext} {frame : Frame} {site : Site}
    {default : Constant} {before after : Progress} {value : Option Expr} {code : Code}

    (lowered : LowersOption frame site default before value code after) (suits : context.Suits frame) :
    code.Leaves context site before after 1 := by
  cases lowered with
  | none => exact fun _ _ _ _ _ _ => .leaves 0 rfl
  | some valueLowered => exact valueLowered.checked suits

theorem LowersBlock.checked {context : CodeContext} {frame : Frame} {site : Site}
    {before after : Progress} {body : List Stmt} {code : Code}
    (lowered : LowersBlock frame site before body code after) (suits : context.Suits frame) :
    code.Leaves context site before after 1 := by
  cases lowered with
  | empty => exact fun _ _ _ _ _ _ => .leaves 0 rfl
  | trailing valueLowered => exact valueLowered.checked suits
  | statement _ statementLowered restLowered =>
      have statementChecked := statementLowered.checked suits
      have restChecked := restLowered.checked suits
      exact statementChecked.follow restLowered.grows restChecked

theorem LowersElse.checked {context : CodeContext} {frame : Frame} {site : Site}
    {before after : Progress} {body : Option (List Stmt)} {code : Code}
    (lowered : LowersElse frame site before body code after) (suits : context.Suits frame) :
    code.Leaves context site before after 1 := by
  cases lowered with
  | absent => exact fun _ _ _ _ _ _ => .leaves 0 rfl
  | present bodyLowered => exact bodyLowered.checked suits

theorem LowersStmts.checked {context : CodeContext} {frame : Frame} {site : Site}
    {before after : Progress} {body : List Stmt} {code : Code}
    (lowered : LowersStmts frame site before body code after) (suits : context.Suits frame) :
    code.Leaves context site before after 0 := by
  cases lowered with
  | nil => exact fun _ _ _ _ _ _ => .nil
  | cons statementLowered restLowered =>
      have statementChecked := statementLowered.checked suits
      have restChecked := restLowered.checked suits
      exact statementChecked.follow restLowered.grows restChecked

theorem LowersStmt.checked {context : CodeContext} {frame : Frame} {site : Site}
    {before after : Progress} {statement : Stmt} {code : Code} {scope : List (String × Nat)}

    (lowered : LowersStmt frame site before statement code scope after) (suits : context.Suits frame) :
    code.Balanced context site before after scope := by
  cases lowered with
  | letVar valueLowered =>
      have kept := (valueLowered.checked suits).keep suits valueLowered.grows
      intro label loop operands iterators allows standing
      refine ⟨kept label allows standing, ?_⟩
      have grown := standing.grow (Nat.le_trans valueLowered.grows.locals (Nat.le_add_right _ 1))
      refine grown.behind.bind (hasSlot_slot suits (Nat.lt_succ_self _)) ?_
      rw [Frame.slot, ← suits.arity]
      exact standing.fresh valueLowered.grows.locals
  | assignLocal resolved valueLowered =>
      have valueChecked := valueLowered.checked suits
      refine Code.Leaves.balanced ?_ valueLowered.grows
      intro label loop operands iterators allows standing
      rcases Frame.resolve?_cases resolved with ⟨slot, same, member⟩ | ⟨_, other, _⟩ | ⟨_, other, _⟩
      · cases same
        rcases standing.scope _ member with ⟨valid, free⟩
        exact (valueChecked label allows standing).follow (.checked (.storeLocal
          (valid.grow (Nat.le_trans valueLowered.grows.locals allows.locals)) free))
      · cases other
      · cases other
  | @assignCapture _ _ _ _ index _ _ resolved valueLowered =>
      have valueChecked := valueLowered.checked suits
      refine Code.Leaves.balanced ?_ valueLowered.grows
      intro label loop operands iterators allows standing
      rcases Frame.resolve?_cases resolved with ⟨_, other, _⟩ | ⟨_, same, kept⟩ | ⟨_, other, _⟩
      · cases other
      · cases same
        have front : Segment context label loop site.position (Code.ofInstructions [.loadLocal 0,
            .pushConst (.int (Int64.ofNat index))]) (.running operands iterators)
            (.running (.any :: .carrier :: operands) iterators) :=
          .prepend (checked_carrier suits kept) (.leaves 0 rfl)
        have waiting := standing.deeper [.any, .carrier]
        exact (front.follow (valueChecked label allows waiting.after)).follow (.checked .storeKept)
      · cases other
  | assignGlobal resolved valueLowered =>
      have valueChecked := valueLowered.checked suits
      refine Code.Leaves.balanced ?_ valueLowered.grows
      intro label loop operands iterators allows standing
      rcases Frame.resolve?_cases resolved with ⟨_, other, _⟩ | ⟨_, other, _⟩ | ⟨slot, same, found⟩
      · cases other
      · cases other
      · cases same
        have bound := Linkage.globalSlotFrom?_lt found
        refine (valueChecked label allows standing).follow (.checked (.storeGlobal ?_))
        rw [suits.globals]
        omega
  | fieldAssign targetLowered valueLowered =>
      have targetChecked := targetLowered.checked suits
      have valueChecked := valueLowered.checked suits
      exact ((targetChecked.waiting targetLowered.grows valueLowered.grows valueChecked).finish
        (by rfl)).balanced (targetLowered.grows.trans valueLowered.grows)
  | indexAssign targetLowered positionLowered valueLowered =>
      have targetChecked := targetLowered.checked suits
      have positionChecked := positionLowered.checked suits
      have valueChecked := valueLowered.checked suits
      rw [← List.length_append] at valueChecked
      have operandsChecked := targetChecked.waiting targetLowered.grows positionLowered.grows
        positionChecked
      have operandsGrow := targetLowered.grows.trans positionLowered.grows
      exact ((operandsChecked.waiting operandsGrow valueLowered.grows valueChecked).finish
        (by rfl)).balanced (operandsGrow.trans valueLowered.grows)
  | whileLoop testLowered bodyLowered =>
      have testChecked := testLowered.checked suits
      have bodyChecked := bodyLowered.checked suits
      exact (Code.Leaves.whileLoop testChecked testLowered.grows bodyLowered.grows
        bodyChecked).balanced (testLowered.grows.trans bodyLowered.grows)
  | @forRange _ _ name _ _ _ _ stopCode afterStop stepCode afterStep startCode afterStart bodyCode
      after first stopLowered stepLowered startLowered here bodyLowered =>
      have stopChecked := stopLowered.checked suits
      have stepChecked := stepLowered.checked suits
      have startChecked := startLowered.checked suits
      have bodyChecked := bodyLowered.checked suits
      exact (Code.Leaves.forRange suits stopChecked stopLowered.grows stepChecked stepLowered.grows
        startChecked startLowered.grows bodyChecked bodyLowered.grows first here).balanced
        (((stopLowered.grows.take.trans stepLowered.grows).take.trans
          startLowered.grows).take.trans bodyLowered.grows)
  | forEach sourceLowered here bodyLowered =>
      have sourceChecked := sourceLowered.checked suits
      have bodyChecked := bodyLowered.checked suits
      refine Code.Leaves.balanced ?_ (sourceLowered.grows.take.trans bodyLowered.grows)
      intro label loop operands iterators allows standing
      have grown := standing.grow sourceLowered.grows.locals
      have whole := (sourceChecked label (allows.of_grows bodyLowered.grows).of_take
        standing).follow
        (Code.Leaves.eachLoop suits bodyLowered.grows bodyChecked allows grown.after)
      rw [← Nat.add_assoc] at here
      subst here
      simpa [Code.ofInstructions, Site.after] using whole
  | @breakLoop _ _ waiting inLoop =>
      refine Code.Leaves.balanced ?_ .refl
      intro label loop operands iterators allows standing
      rcases standing.leaving _ inLoop with ⟨more, kept, known, rfl, height, here, covers⟩
      have count : site.operands - waiting = more.length := by
        rw [← standing.height, List.length_append, height, Nat.add_sub_cancel]
      rw [count]
      exact checked_pops.follow (.cell (.leaveLoop here (.running covers)) nofun)
  | yieldValue valueLowered =>
      exact ((valueLowered.checked suits).finish (by rfl)).balanced valueLowered.grows
  | returnValue valueLowered =>
      have valueChecked := valueLowered.checked suits
      refine Code.Leaves.balanced ?_ valueLowered.grows
      intro label loop operands iterators allows standing
      rw [Frame.leave, ← suits.arity]
      exact (valueChecked label allows standing).follow
        (.prepend (.checked .popDebug) (.ends .returnValue))
  | expr valueLowered =>
      exact ((valueLowered.checked suits).finish (by rfl)).balanced valueLowered.grows

end

end ScriptMachine
