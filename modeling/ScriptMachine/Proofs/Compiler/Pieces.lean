import ScriptMachine.Proofs.Compiler.Literals

/-!
# Code piece by piece

Much of what is to be said about lowered code does not depend on what the code does: that it is
bound to no host, that its calls lead somewhere, that a closure comes right behind the array of what
it keeps. Such a fact is clear for the few pieces that lowering is made of and stays true when
pieces are put together.

This file lists the pieces and goes through the rules of lowering once. Most pieces are single
instructions. Two instructions stand together where a captured variable is reached through the
carrier, two where a closure is made, and two where the function is left.
-/

namespace ScriptMachine

/-! ## What names stand for -/

theorem mem_of_lookup {scope : List (String × Nat)} {name : String} {slot : Nat}
    (found : scope.lookup name = some slot) : (name, slot) ∈ scope := by
  induction scope with
  | nil => cases found
  | cons entry rest ih =>
      rcases entry with ⟨key, value⟩
      rw [List.lookup_cons] at found
      split at found
      · rename_i same
        cases found
        simp [eq_of_beq same]
      · exact List.mem_cons_of_mem _ (ih found)

namespace Linkage

theorem globalSlotFrom?_lt {names : List String} {first slot : Nat} {name : String}
    (found : globalSlotFrom? first names name = some slot) : slot < first + names.length := by
  induction names generalizing first with
  | nil => cases found
  | cons global rest ih =>
      simp only [globalSlotFrom?] at found
      split at found
      · rename_i later
        cases found
        have bound := ih later
        simp only [List.length_cons]
        omega
      · split at found
        · cases found
          simp
        · cases found

theorem mem_declared_of_findFunction? {linkage : Linkage} {current path target : List String}
    {name : String} (found : linkage.findFunction? current path name = some target) :
    ⟨target, name⟩ ∈ linkage.declared := by
  have declared : ∀ namespaces, linkage.isDeclared namespaces name = true →
      ⟨namespaces, name⟩ ∈ linkage.declared := fun _ known => List.contains_iff_mem.mp known
  unfold findFunction? at found
  split at found
  all_goals
    split at found
    · rename_i known
      exact Option.some.inj found ▸ declared _ known
    · split at found
      · rename_i known
        exact Option.some.inj found ▸ declared _ known
      · cases found

end Linkage

namespace Frame

variable {frame : Frame} {scope : List (String × Nat)} {name : String}

/-- What a name stands for is a variable in scope, a kept value or a global. -/
theorem resolve?_cases {binding : Binding} (resolved : frame.resolve? scope name = some binding) :
    (∃ slot, binding = .localSlot slot ∧ (name, slot) ∈ scope) ∨
      (∃ index, binding = .capture index ∧
        (frame.source.captures.getD []).idxOf? name = some index) ∨
      ∃ slot, binding = .globalSlot slot ∧ frame.linkage.globalSlot? name = some slot := by
  unfold resolve? at resolved
  split at resolved
  · rename_i slot found
    exact .inl ⟨slot, (Option.some.inj resolved).symm, mem_of_lookup found⟩
  · split at resolved
    · rename_i index found
      exact .inr (.inl ⟨index, (Option.some.inj resolved).symm, found⟩)
    · rcases Option.map_eq_some_iff.mp resolved with ⟨slot, found, same⟩
      exact .inr (.inr ⟨slot, same.symm, found⟩)

theorem mem_scope_of_resolve? {slot : Nat}
    (resolved : frame.resolve? scope name = some (.localSlot slot)) : (name, slot) ∈ scope := by
  rcases resolve?_cases resolved with ⟨_, same, member⟩ | ⟨_, other, _⟩ | ⟨_, other, _⟩
  · cases same
    exact member
  · cases other
  · cases other

/-- The code that reads a name goes by what the name stands for. -/
theorem load_cases {loads : List Instruction} (loaded : frame.load scope name = .ok loads) :
    (∃ slot, frame.resolve? scope name = some (.localSlot slot) ∧ (name, slot) ∈ scope ∧
        loads = [.loadLocal slot]) ∨
      (∃ index, frame.resolve? scope name = some (.capture index) ∧
        (frame.source.captures.getD []).idxOf? name = some index ∧
        loads = [.loadLocal 0, .pushConst (.int (Int64.ofNat index)), .loadIndex]) ∨
      ∃ slot, frame.resolve? scope name = some (.globalSlot slot) ∧
        frame.linkage.globalSlot? name = some slot ∧ loads = [.loadGlobal slot] := by
  unfold load at loaded
  cases resolved : frame.resolve? scope name with
  | none =>
      rw [resolved] at loaded
      cases loaded
  | some binding =>
      rw [resolved] at loaded
      rcases resolve?_cases resolved with ⟨slot, rfl, member⟩ | ⟨index, rfl, kept⟩ |
        ⟨slot, rfl, global⟩
      · exact .inl ⟨slot, rfl, member, (Except.ok.inj loaded).symm⟩
      · exact .inr (.inl ⟨index, rfl, kept, (Except.ok.inj loaded).symm⟩)
      · exact .inr (.inr ⟨slot, rfl, global, (Except.ok.inj loaded).symm⟩)

/-- Where a kept value lies in the carrier. -/
theorem capture_lt {index : Nat}
    (resolved : frame.resolve? scope name = some (.capture index)) :
    index < frame.source.kept.length := by
  rcases resolve?_cases resolved with ⟨_, other, _⟩ | ⟨_, same, kept⟩ | ⟨_, other, _⟩
  · cases other
  · cases same
    rcases List.findIdx?_eq_some_iff_getElem.mp kept with ⟨bound, _⟩
    exact bound
  · cases other

end Frame

/-- No name in scope stands for the carrier. -/
def Site.Clear (frame : Frame) (site : Site) : Prop :=
  ∀ entry ∈ site.scope, frame.source.carrierCount ≤ entry.2

namespace Site.Clear

variable {frame : Frame} {site : Site} {name : String}

theorem parameters (source : FunctionSource) (linkage : Linkage) (position : Nat) :
    (source.site position).Clear ⟨linkage, source⟩ := by
  rintro ⟨name, slot⟩ among
  exact List.le_snd_of_mem_zipIdx (List.mem_reverse.mp among)

theorem carrierCount_le_slot (locals : Nat) : frame.source.carrierCount ≤ frame.slot locals := by
  simp only [Frame.slot, FunctionSource.arity]
  omega

theorem bind (clear : site.Clear frame) (locals : Nat) :
    (site.bind name (frame.slot locals)).Clear frame := by
  intro entry among
  rcases List.mem_cons.mp among with rfl | among
  · exact carrierCount_le_slot locals
  · exact clear entry among

theorem behind (clear : site.Clear frame) {before after : Progress} {statement : Stmt}
    {code : Code} {scope : List (String × Nat)}
    (lowered : LowersStmt frame site before statement code scope after) :
    (site.behind code scope).Clear frame := by
  cases lowered with
  | letVar => exact clear.bind _
  | _ => exact clear

end Site.Clear

/-! ## Pieces -/

/-- Whether an instruction stays in the function and refers to no other one, to no local and to
nothing in a registry. -/
def Instruction.isPlain : Instruction → Bool
  | .loadLocal _ | .storeLocal _ | .callFunction _ _ | .callHost _ _ _ | .makeClosure _
  | .returnValue _ => false
  | .callStatic _ _ _ bound | .loadStatic _ _ bound => !bound
  | _ => true

/-- An instruction that lowering puts somewhere by itself. Locals lie behind the carrier. -/
inductive Frame.Emits (frame : Frame) : Instruction → Prop
  | plain {instruction} (isPlain : instruction.isPlain = true) : Emits frame instruction
  | loadLocal {slot} (behind : frame.source.carrierCount ≤ slot) : Emits frame (.loadLocal slot)
  | storeLocal {slot} (behind : frame.source.carrierCount ≤ slot) : Emits frame (.storeLocal slot)
  | call {path name argc} : Emits frame (callInstruction frame path name argc)

/-- Instructions that are put together from pieces, with the literals that their closures are of, in
order. -/
inductive Frame.Composes (frame : Frame) : List FunctionSource → List Instruction → Prop
  | nil : Composes frame [] []
  | single {literals instruction rest} (emits : frame.Emits instruction)
      (composed : Composes frame literals rest) : Composes frame literals (instruction :: rest)
  | carrier {index literals rest} (kept : index < frame.source.kept.length)
      (composed : Composes frame literals rest) :
      Composes frame literals (.loadLocal 0 :: .pushConst (.int (Int64.ofNat index)) :: rest)
  | closure {literal kept literals rest} (keeps : literal.captures = some kept)
      (composed : Composes frame literals rest) :
      Composes frame (literal :: literals)
        (.makeArray kept.length :: .makeClosure literal.reference :: rest)
  | leave {literals rest} (composed : Composes frame literals rest) :
      Composes frame literals (.popDebug :: .returnValue frame.source.arity :: rest)

theorem Frame.Composes.append {frame : Frame} {literals more : List FunctionSource}
    {first second : List Instruction} (one : frame.Composes literals first)
    (two : frame.Composes more second) :
    frame.Composes (literals ++ more) (first ++ second) := by
  induction one with
  | nil => exact two
  | single emits _ ih => exact .single emits ih
  | carrier kept _ ih => exact .carrier kept ih
  | closure keeps _ ih => exact .closure keeps ih
  | leave _ ih => exact .leave ih

namespace Code

@[simp]
theorem length_ofInstructions {instructions : List Instruction} :
    (ofInstructions instructions).length = instructions.length := by
  simp [ofInstructions]

@[simp]
theorem length_closeLoop {code : Code} {stop : Nat} :
    (code.closeLoop stop).length = code.length := by
  simp [closeLoop]

@[simp]
theorem closeLoop_append (stop : Nat) (first second : Code) :
    (first ++ second).closeLoop stop = first.closeLoop stop ++ second.closeLoop stop :=
  List.map_append

@[simp]
theorem closeLoop_ofInstructions (stop : Nat) (instructions : List Instruction) :
    (ofInstructions instructions).closeLoop stop = instructions := by
  simp [closeLoop, ofInstructions, Function.comp_def, closeCell]

end Code

/-- Code that is put together from pieces on the way from one point of lowering to another, wherever
the loop around it ends. -/
def Frame.Builds (frame : Frame) (before : Progress) (code : Code) (after : Progress) : Prop :=
  ∃ met, after.actions = before.actions ++ met ∧ ∀ stop, frame.Composes met (code.closeLoop stop)

namespace Frame.Builds

variable {frame : Frame} {before middle after : Progress} {code first second : Code}
  {instruction : Instruction}

theorem still (composed : ∀ stop, frame.Composes [] (code.closeLoop stop)) :
    frame.Builds before code before := ⟨[], (List.append_nil _).symm, composed⟩

theorem nil : frame.Builds before [] before := still fun _ => .nil

theorem append (one : frame.Builds before first middle) (two : frame.Builds middle second after) :
    frame.Builds before (first ++ second) after := by
  rcases one with ⟨met, same, composed⟩
  rcases two with ⟨metLater, sameLater, composedLater⟩
  refine ⟨met ++ metLater, ?_, fun stop => ?_⟩
  · rw [sameLater, same, List.append_assoc]
  · rw [Code.closeLoop_append]
    exact (composed stop).append (composedLater stop)

theorem take (part : frame.Builds before code after) (count : Nat) :
    frame.Builds before code (after.take count) := part

theorem closeLoop (body : frame.Builds before code after) (stop : Nat) :
    frame.Builds before (.ofInstructions (code.closeLoop stop)) after := by
  rcases body with ⟨met, same, composed⟩
  refine ⟨met, same, fun _ => ?_⟩
  rw [Code.closeLoop_ofInstructions]
  exact composed stop

theorem leaveLoop : frame.Builds before [.leaveLoop] before :=
  still fun _ => .single (.plain rfl) .nil

theorem single (emits : frame.Emits instruction) :
    frame.Builds before [.ready instruction] before :=
  still fun _ => .single emits .nil

theorem plain (isPlain : instruction.isPlain = true) :
    frame.Builds before [.ready instruction] before := single (.plain isPlain)

theorem cons (emits : frame.Emits instruction) (rest : frame.Builds before code after) :
    frame.Builds before (.ready instruction :: code) after := (single emits).append rest

theorem snoc (front : frame.Builds before code after) (isPlain : instruction.isPlain = true) :
    frame.Builds before (code ++ [.ready instruction]) after := front.append (plain isPlain)

theorem emitted {instructions : List Instruction}
    (emits : ∀ instruction ∈ instructions, frame.Emits instruction) :
    frame.Builds before (.ofInstructions instructions) before := by
  induction instructions with
  | nil => exact nil
  | cons instruction rest ih =>
      rcases List.forall_mem_cons.mp emits with ⟨here, later⟩
      exact cons here (ih later)

theorem carrier {index : Nat} (kept : index < frame.source.kept.length) :
    frame.Builds before
      (.ofInstructions [.loadLocal 0, .pushConst (.int (Int64.ofNat index))]) before :=
  still fun _ => .carrier kept .nil

theorem closure {literal : FunctionSource} {kept : List String}
    (keeps : literal.captures = some kept) :
    frame.Builds before
      (.ofInstructions [.makeArray kept.length, .makeClosure literal.reference])
      (before.meet literal) :=
  ⟨[literal], rfl, fun _ => .closure keeps .nil⟩

theorem leave : frame.Builds before (.ofInstructions frame.leave) before :=
  still fun _ => .leave .nil

theorem appendInstructions {one two : List Instruction}
    (front : frame.Builds before (.ofInstructions one) middle)
    (back : frame.Builds middle (.ofInstructions two) after) :
    frame.Builds before (.ofInstructions (one ++ two)) after := by
  rw [Code.ofInstructions, List.map_append]
  exact front.append back

theorem load {site : Site} (clear : site.Clear frame) {name : String} {loads : List Instruction}
    (loaded : frame.load site.scope name = .ok loads) :
    frame.Builds before (.ofInstructions loads) before := by
  rcases Frame.load_cases loaded with ⟨slot, _, member, rfl⟩ | ⟨index, resolved, _, rfl⟩ |
    ⟨slot, _, _, rfl⟩
  · exact single (.loadLocal (clear _ member))
  · exact (carrier (Frame.capture_lt resolved)).snoc rfl
  · exact plain rfl

theorem loads {site : Site} (clear : site.Clear frame) {names : List String}
    {loads : List (List Instruction)} (loaded : names.mapM (frame.load site.scope) = .ok loads) :
    frame.Builds before (.ofInstructions loads.flatten) before := by
  induction names generalizing loads with
  | nil =>
      cases loaded
      exact nil
  | cons name names ih =>
      rw [List.mapM_cons] at loaded
      rcases exists_of_bind_ok loaded with ⟨first, firstLoaded, loaded⟩
      rcases exists_of_bind_ok loaded with ⟨others, othersLoaded, loaded⟩
      cases loaded
      rw [List.flatten_cons]
      exact (load clear firstLoaded).appendInstructions (ih othersLoaded)

end Frame.Builds

theorem isPlain_shortCircuit {operator : BinaryOp} {jump : Nat → Instruction}
    (short : shortCircuit? operator = some jump) (target : Nat) :
    (jump target).isPlain = true := by
  cases operator <;> cases short <;> rfl

namespace Frame.Emits

variable {frame : Frame}

theorem loadSlot (locals : Nat) : frame.Emits (.loadLocal (frame.slot locals)) :=
  .loadLocal (Site.Clear.carrierCount_le_slot locals)

theorem storeSlot (locals : Nat) : frame.Emits (.storeLocal (frame.slot locals)) :=
  .storeLocal (Site.Clear.carrierCount_le_slot locals)

theorem awaitLoop (start iterator current : Nat) :
    ∀ instruction ∈ Code.awaitLoop start (frame.slot iterator) (frame.slot current),
      frame.Emits instruction := by
  simp only [Code.awaitLoop, List.forall_mem_cons]
  exact ⟨.plain rfl, storeSlot _, .plain rfl, storeSlot _, loadSlot _, .plain rfl, .plain rfl,
    loadSlot _, .plain rfl, storeSlot _, loadSlot _, .plain rfl, .plain rfl, loadSlot _, nofun⟩

theorem checkStep (step : Nat) :
    ∀ instruction ∈ [.checkStep, .storeLocal (frame.slot step)], frame.Emits instruction := by
  simp only [List.forall_mem_cons]
  exact ⟨.plain rfl, storeSlot _, nofun⟩

theorem rangeTest (first after slot stop step : Nat) :
    ∀ instruction ∈ .storeLocal (frame.slot slot) ::
      Code.rangeTest first after (frame.slot slot) (frame.slot stop) (frame.slot step),
      frame.Emits instruction := by
  simp only [Code.rangeTest, List.forall_mem_cons]
  exact ⟨storeSlot _, loadSlot _, .plain rfl, .plain rfl, .plain rfl, loadSlot _, loadSlot _,
    .plain rfl, .plain rfl, loadSlot _, loadSlot _, .plain rfl, .plain rfl, nofun⟩

theorem rangeNext (first slot step : Nat) :
    ∀ instruction ∈ Code.rangeNext first (frame.slot slot) (frame.slot step),
      frame.Emits instruction := by
  simp only [Code.rangeNext, List.forall_mem_cons]
  exact ⟨loadSlot _, loadSlot _, .plain rfl, storeSlot _, .plain rfl, nofun⟩

theorem eachTest (after iterator slot : Nat) :
    ∀ instruction ∈ [.getIterator, .storeLocal (frame.slot iterator)] ++
      Code.eachTest after (frame.slot iterator) (frame.slot slot), frame.Emits instruction := by
  simp only [Code.eachTest, List.cons_append, List.nil_append, List.forall_mem_cons]
  exact ⟨.plain rfl, storeSlot _, loadSlot _, .plain rfl, .plain rfl, loadSlot _, .plain rfl,
    storeSlot _, nofun⟩

end Frame.Emits

/-! ## Lowering puts pieces together -/

open Frame.Emits Frame.Builds

mutual

theorem LowersExpr.builds {frame : Frame} {site : Site} {before after : Progress} {expr : Expr}
    {code : Code} (lowered : LowersExpr frame site before expr code after)
    (clear : site.Clear frame) : frame.Builds before code after := by
  cases lowered with
  | literal => exact plain rfl
  | var loaded => exact load clear loaded
  | shortCircuit short leftLowered rightLowered =>
      exact (leftLowered.builds clear).append
        (.cons (.plain (isPlain_shortCircuit short _)) (rightLowered.builds clear))
  | binary _ leftLowered rightLowered =>
      exact ((leftLowered.builds clear).append (rightLowered.builds clear)).snoc rfl
  | unary operandLowered => exact (operandLowered.builds clear).snoc rfl
  | callVariable loaded argsLowered =>
      exact ((load clear loaded).append (argsLowered.builds clear)).snoc rfl
  | call _ argsLowered => exact (argsLowered.builds clear).append (.single .call)
  | staticCall _ argsLowered => exact (argsLowered.builds clear).snoc rfl
  | methodCall _ receiverLowered argsLowered =>
      exact ((receiverLowered.builds clear).append (argsLowered.builds clear)).snoc rfl
  | invoke calleeLowered argsLowered =>
      exact ((calleeLowered.builds clear).append (argsLowered.builds clear)).snoc rfl
  | staticField => exact plain rfl
  | field _ targetLowered => exact (targetLowered.builds clear).snoc rfl
  | index targetLowered positionLowered =>
      exact ((targetLowered.builds clear).append (positionLowered.builds clear)).snoc rfl
  | ifElse testLowered thenLowered elseLowered =>
      have test := testLowered.builds clear
      exact (test.append (.cons (.plain rfl) (thenLowered.builds clear))).append
        (.cons (.plain rfl) (elseLowered.builds clear))
  | action loaded => exact (loads clear loaded).appendInstructions (closure rfl)
  | array itemsLowered => exact (itemsLowered.builds clear).snoc rfl
  | await sourceLowered =>
      exact ((sourceLowered.builds clear).append (emitted (awaitLoop _ _ _))).take 2

theorem LowersOperands.builds {frame : Frame} {site : Site} {before after : Progress}
    {items : List Expr} {code : Code}
    (lowered : LowersOperands frame site before items code after) (clear : site.Clear frame) :
    frame.Builds before code after := by
  cases lowered with
  | nil => exact .nil
  | cons itemLowered restLowered =>
      exact (itemLowered.builds clear).append (restLowered.builds clear)

theorem LowersOption.builds {frame : Frame} {site : Site} {default : Constant}
    {before after : Progress} {value : Option Expr} {code : Code}
    (lowered : LowersOption frame site default before value code after)
    (clear : site.Clear frame) : frame.Builds before code after := by
  cases lowered with
  | none => exact plain rfl
  | some valueLowered => exact valueLowered.builds clear

theorem LowersBlock.builds {frame : Frame} {site : Site} {before after : Progress}
    {body : List Stmt} {code : Code} (lowered : LowersBlock frame site before body code after)
    (clear : site.Clear frame) : frame.Builds before code after := by
  cases lowered with
  | empty => exact plain rfl
  | trailing valueLowered => exact valueLowered.builds clear
  | statement _ statementLowered restLowered =>
      exact (statementLowered.builds clear).append
        (restLowered.builds (clear.behind statementLowered))

theorem LowersElse.builds {frame : Frame} {site : Site} {before after : Progress}
    {body : Option (List Stmt)} {code : Code}
    (lowered : LowersElse frame site before body code after) (clear : site.Clear frame) :
    frame.Builds before code after := by
  cases lowered with
  | absent => exact plain rfl
  | present bodyLowered => exact bodyLowered.builds clear

theorem LowersStmts.builds {frame : Frame} {site : Site} {before after : Progress}
    {body : List Stmt} {code : Code} (lowered : LowersStmts frame site before body code after)
    (clear : site.Clear frame) : frame.Builds before code after := by
  cases lowered with
  | nil => exact .nil
  | cons statementLowered restLowered =>
      exact (statementLowered.builds clear).append
        (restLowered.builds (clear.behind statementLowered))

theorem LowersStmt.builds {frame : Frame} {site : Site} {before after : Progress}
    {statement : Stmt} {code : Code} {scope : List (String × Nat)}
    (lowered : LowersStmt frame site before statement code scope after)
    (clear : site.Clear frame) : frame.Builds before code after := by
  cases lowered with
  | letVar valueLowered =>
      exact ((valueLowered.builds clear).append (single (storeSlot _))).take 1
  | assignLocal resolved valueLowered =>
      have member := Frame.mem_scope_of_resolve? resolved
      exact (valueLowered.builds clear).append (single (.storeLocal (clear _ member)))
  | assignCapture resolved valueLowered =>
      have kept := Frame.capture_lt resolved
      exact ((carrier kept).append (valueLowered.builds clear)).snoc rfl
  | assignGlobal _ valueLowered => exact (valueLowered.builds clear).snoc rfl
  | fieldAssign targetLowered valueLowered =>
      exact ((targetLowered.builds clear).append (valueLowered.builds clear)).snoc rfl
  | indexAssign targetLowered positionLowered valueLowered =>
      exact (((targetLowered.builds clear).append (positionLowered.builds clear)).append
        (valueLowered.builds clear)).snoc rfl
  | whileLoop testLowered bodyLowered =>
      have body := bodyLowered.builds clear
      exact (testLowered.builds clear).append
        (.cons (.plain rfl) ((body.closeLoop _).appendInstructions (plain rfl)))
  | forRange stopLowered stepLowered startLowered _ bodyLowered =>
      have stop := (stopLowered.builds clear).take 1
      have step := stepLowered.builds clear
      have start := startLowered.builds clear
      have body := bodyLowered.builds (clear.bind _)
      refine (((Frame.Builds.take ?bounds 1).append start).take 1).append ?loop
      case bounds => exact (stop.append (.cons (storeSlot _) step)).append (emitted (checkStep _))
      case loop =>
        refine appendInstructions ?_ (emitted (rangeNext _ _ _))
        exact (emitted (rangeTest _ _ _ _ _)).appendInstructions (body.closeLoop _)
  | forEach sourceLowered _ bodyLowered =>
      have body := bodyLowered.builds (clear.bind _)
      exact ((sourceLowered.builds clear).take 2).append
        (((emitted (eachTest _ _ _)).appendInstructions (body.closeLoop _)).appendInstructions
          (plain rfl))
  | breakLoop =>
      refine append ?_ leaveLoop
      rw [← List.map_replicate]
      exact emitted fun instruction pop => by
        rw [List.eq_of_mem_replicate pop]
        exact .plain rfl
  | yieldValue valueLowered => exact (valueLowered.builds clear).snoc rfl
  | returnValue valueLowered => exact (valueLowered.builds clear).append leave
  | expr valueLowered => exact (valueLowered.builds clear).snoc rfl

end

/-- The code of a function is put together from pieces, and its closures are of the literals that
were met in it. -/
theorem lowerFunction_composes {linkage : Linkage} {position : Nat} {source : FunctionSource}
    {code : List Instruction} {actions : List FunctionSource}
    (lowered : lowerFunction linkage position source = .ok (code, actions)) :
    Frame.Composes ⟨linkage, source⟩ actions code := by
  rcases lowerFunction_ok lowered with ⟨body, progress, bodyLowered, rfl, rfl⟩
  rcases bodyLowered.builds (.parameters source linkage position) with ⟨met, same, composed⟩
  rw [List.nil_append] at same
  have tail : Frame.Composes ⟨linkage, source⟩ []
      [.pushConst .unit, .popDebug, .returnValue source.arity] :=
    .single (.plain rfl) (.leave .nil)
  rw [same, ← List.append_nil met]
  exact .single (.plain rfl) (.single (.plain rfl) ((composed _).append tail))

/-! ## How instructions stand -/

/-- How an instruction of composed code stands between those before it and those behind it: alone,
in front of the number of a kept value, behind the array of what the closure keeps, or behind the
end of the function's note for fault reports. -/
inductive Frame.Stands (frame : Frame) (literals : List FunctionSource) :
    List Instruction → Instruction → List Instruction → Prop
  | alone {front instruction back} (emits : frame.Emits instruction) :
      Stands frame literals front instruction back
  | carrier {front index back} (kept : index < frame.source.kept.length) :
      Stands frame literals front (.loadLocal 0) (.pushConst (.int (Int64.ofNat index)) :: back)
  | closure {front literal kept back} (met : literal ∈ literals)
      (keeps : literal.captures = some kept) :
      Stands frame literals (front ++ [.makeArray kept.length]) (.makeClosure literal.reference)
        back
  | leave {front back} :
      Stands frame literals (front ++ [.popDebug]) (.returnValue frame.source.arity) back

theorem Frame.Stands.behind {frame : Frame} {literals more : List FunctionSource}
    {front back : List Instruction} {instruction : Instruction}
    (stands : frame.Stands literals front instruction back) (earlier : List Instruction)
    (among : ∀ literal ∈ literals, literal ∈ more) :
    frame.Stands more (earlier ++ front) instruction back := by
  cases stands with
  | alone emits => exact .alone emits
  | carrier kept => exact .carrier kept
  | closure met keeps =>
      rw [← List.append_assoc]
      exact .closure (among _ met) keeps
  | leave =>
      rw [← List.append_assoc]
      exact .leave

theorem Frame.Composes.stands {frame : Frame} {literals : List FunctionSource}
    {code front back : List Instruction} {instruction : Instruction}
    (composed : frame.Composes literals code) (split : code = front ++ instruction :: back) :
    frame.Stands literals front instruction back := by
  induction composed generalizing front with
  | nil => simp at split
  | single emits _ ih =>
      cases front with
      | nil =>
          cases split
          exact .alone emits
      | cons first front =>
          cases split
          exact (ih rfl).behind [_] fun _ => id
  | carrier kept _ ih =>
      rcases front with _ | ⟨first, _ | ⟨second, front⟩⟩
      · cases split
        exact .carrier kept
      · cases split
        exact .alone (.plain rfl)
      · cases split
        exact (ih rfl).behind [_, _] fun _ => id
  | closure keeps _ ih =>
      rcases front with _ | ⟨first, _ | ⟨second, front⟩⟩
      · cases split
        exact .alone (.plain rfl)
      · cases split
        exact @Stands.closure _ _ [] _ _ _ List.mem_cons_self keeps
      · cases split
        exact (ih rfl).behind [_, _] fun _ => List.mem_cons_of_mem _
  | leave _ ih =>
      rcases front with _ | ⟨first, _ | ⟨second, front⟩⟩
      · cases split
        exact .alone (.plain rfl)
      · cases split
        exact @Stands.leave _ _ [] _
      · cases split
        exact (ih rfl).behind [_, _] fun _ => id

theorem Program.Compiled.composes {units : List ProgramUnit} {globals : List String}
    {program : Program} {placed : List Placement} {placement : Placement}
    (compiled : program.Compiled units globals placed) (member : placement ∈ placed) :
    Frame.Composes
      ⟨⟨globals, (declaredSources units).map FunctionSource.reference⟩, placement.source⟩
      placement.actions placement.code :=
  lowerFunction_composes (compiled.laidOut.split member).1

end ScriptMachine
