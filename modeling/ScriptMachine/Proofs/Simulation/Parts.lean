import ScriptMachine.Proofs.Simulation.Calls

/-!
# Parts of functions

The pieces of code that lowering uses again and again: those that read and write names, make
closures, and step through iterators.
-/

namespace ScriptMachine

/-! ## Numbers of literals -/

section Numbers

mutual

/-- How many literals there are does not depend on what is in scope. -/
theorem Expr.length_literals {kept names others mentioned : List String}
    (expr : Expr) :
    (expr.literals kept names).length = (expr.literals mentioned others).length := by
  cases expr with
  | literal value => rfl
  | var name => rfl
  | binary operator left right =>
      simp only [Expr.literals, List.length_append]
      exact congr (congrArg _ left.length_literals) right.length_literals
  | unary operator operand => exact operand.length_literals
  | call path name args => exact Expr.length_listLiterals args
  | methodCall receiver name args =>
      simp only [Expr.literals, List.length_append]
      exact congr (congrArg _ receiver.length_literals) (Expr.length_listLiterals args)
  | invoke callee args =>
      simp only [Expr.literals, List.length_append]
      exact congr (congrArg _ callee.length_literals) (Expr.length_listLiterals args)
  | field target name => exact target.length_literals
  | index target position =>
      simp only [Expr.literals, List.length_append]
      exact congr (congrArg _ target.length_literals) position.length_literals
  | ifElse condition thenBody elseBody =>
      simp only [Expr.literals, List.length_append]
      exact congr (congrArg _ (congr (congrArg _ condition.length_literals)
        (Stmt.length_listLiterals thenBody))) (Stmt.length_bodyLiterals elseBody)
  | action params body => rfl
  | array items => exact Expr.length_listLiterals items
  | await iterable => exact iterable.length_literals

theorem Expr.length_listLiterals {kept names others mentioned : List String}
    (items : List Expr) :
    (Expr.listLiterals kept names items).length =
      (Expr.listLiterals mentioned others items).length := by
  cases items with
  | nil => rfl
  | cons item rest =>
      simp only [Expr.listLiterals, List.length_append]
      exact congr (congrArg _ item.length_literals) (Expr.length_listLiterals rest)

theorem Expr.length_optionLiterals {kept names others mentioned : List String}
    (value : Option Expr) :
    (Expr.optionLiterals kept names value).length =
      (Expr.optionLiterals mentioned others value).length := by
  cases value with
  | none => rfl
  | some value => exact value.length_literals

theorem Stmt.length_literals {kept names others mentioned : List String}
    (statement : Stmt) :
    (statement.literals kept names).length = (statement.literals mentioned others).length := by
  cases statement with
  | letVar name value => exact value.length_literals
  | assign name value => exact value.length_literals
  | fieldAssign target name value =>
      simp only [Stmt.literals, List.length_append]
      exact congr (congrArg _ target.length_literals) value.length_literals
  | indexAssign target position value =>
      simp only [Stmt.literals, List.length_append]
      exact congr (congrArg _ (congr (congrArg _ target.length_literals)
        position.length_literals)) value.length_literals
  | whileLoop condition body =>
      simp only [Stmt.literals, List.length_append]
      exact congr (congrArg _ condition.length_literals) (Stmt.length_listLiterals body)
  | forRange name start stop step body =>
      simp only [Stmt.literals, List.length_append]
      exact congr (congrArg _ (congr (congrArg _ (congr (congrArg _ stop.length_literals)
        (Expr.length_optionLiterals step))) start.length_literals)) (Stmt.length_listLiterals body)
  | forEach name iterable body =>
      simp only [Stmt.literals, List.length_append]
      exact congr (congrArg _ iterable.length_literals) (Stmt.length_listLiterals body)
  | breakLoop => rfl
  | yieldValue value => exact Expr.length_optionLiterals value
  | returnValue value => exact Expr.length_optionLiterals value
  | expr value => exact value.length_literals

theorem Stmt.length_listLiterals {kept names others mentioned : List String}
    (body : List Stmt) :
    (Stmt.listLiterals kept names body).length =
      (Stmt.listLiterals mentioned others body).length := by
  cases body with
  | nil => rfl
  | cons statement rest =>
      simp only [Stmt.listLiterals, List.length_append]
      exact congr (congrArg _ statement.length_literals) (Stmt.length_listLiterals rest)

theorem Stmt.length_bodyLiterals {kept names others mentioned : List String}
    (body : Option (List Stmt)) :
    (Stmt.bodyLiterals kept names body).length =
      (Stmt.bodyLiterals mentioned others body).length := by
  cases body with
  | none => rfl
  | some body => exact Stmt.length_listLiterals body

end

variable {frame : Frame} {site : Site} {before after : Progress} {code : Code}

theorem Progress.Meets.number {source : FunctionSource} {literals : List ActionLiteral}
    (meets : Progress.Meets source before after literals) :
    after.actions.length = before.actions.length + literals.length := by
  rw [meets, List.length_append, FunctionSource.length_nestedFrom]

theorem LowersExpr.number {expr : Expr} (lowered : LowersExpr frame site before expr code after) :
    after.actions.length = before.actions.length + expr.literalCount :=
  lowered.literals.number.trans (congrArg _ expr.length_literals)

theorem LowersOption.number {default : Constant} {value : Option Expr}
    (lowered : LowersOption frame site default before value code after) :
    after.actions.length = before.actions.length + Expr.optionLiteralCount value :=
  lowered.literals.number.trans (congrArg _ (Expr.length_optionLiterals value))

theorem LowersBlock.number {body : List Stmt}
    (lowered : LowersBlock frame site before body code after) :
    after.actions.length = before.actions.length + Stmt.listLiteralCount body :=
  lowered.literals.number.trans (congrArg _ (Stmt.length_listLiterals body))

theorem LowersStmt.number {statement : Stmt} {scope : List (String × Nat)}
    (lowered : LowersStmt frame site before statement code scope after) :
    after.actions.length = before.actions.length + statement.literalCount :=
  lowered.literals.number.trans (congrArg _ statement.length_literals)

end Numbers

/-! ## Names -/

/-- The name of a global is that of its slot. -/
theorem Linkage.getElem?_globalSlotFrom? {names : List String} {first slot : Nat} {name : String}
    (found : globalSlotFrom? first names name = some slot) :
    first ≤ slot ∧ names[slot - first]? = some name := by
  induction names generalizing first with
  | nil => cases found
  | cons global rest ih =>
      simp only [globalSlotFrom?] at found
      split at found
      · rename_i later
        cases found
        rcases ih later with ⟨behind, here⟩
        have split : slot - first = slot - (first + 1) + 1 := by omega
        exact ⟨by omega, by rw [split, List.getElem?_cons_succ, here]⟩
      · split at found
        · rename_i same
          cases found
          simp [same]
        · cases found

theorem Frame.lookup_of_resolve? {frame : Frame} {scope : List (String × Nat)} {name : String}
    {slot : Nat} (resolved : frame.resolve? scope name = some (.localSlot slot)) :
    scope.lookup name = some slot := by
  unfold resolve? at resolved
  split at resolved
  · rename_i found
    cases resolved
    exact found
  · split at resolved
    · cases resolved
    · rcases Option.map_eq_some_iff.mp resolved with ⟨_, _, same⟩
      cases same

theorem Frame.isSome_resolve?_of_load {frame : Frame} {scope : List (String × Nat)} {name : String}
    {loads : List Instruction} (loaded : frame.load scope name = .ok loads) :
    (frame.resolve? scope name).isSome := by
  unfold load at loaded
  cases resolved : frame.resolve? scope name with
  | some binding => rfl
  | none =>
      rw [resolved] at loaded
      cases loaded

namespace Stage

variable {stage : Stage} {here : Standpoint} {frame : Frame} {placed : List Placement}
  {left : Scene → Machine → Prop} {rest : List Instruction} {stop ip slot locals : Nat}
  {site : Site} {hidden : List (Nat × Value)} {operands : List Value} {value : Value}
  {scene : Scene} {machine : Machine} {name : String}

theorem Shows.referent? {scope : List (String × Nat)} (same : here.Of frame)
    (shows : stage.Shows scope hidden ip operands scene machine) :
    here.referent? scene.bindings name = (frame.resolve? scope name).map Binding.referent := by
  rcases shows with ⟨_, slots, _, holds⟩
  rw [holds.bindings]
  exact Standpoint.referent?_eq same scope slots name

namespace Does

/-- What lowering takes for a host type names one. -/
theorem hostTypes {α : Type} {post : α → Scene → Machine → Prop} {scope : List (String × Nat)}
    {receiver : Expr} {next : Option String → Evaluation α} (same : here.Of frame)
    (shows : stage.Shows scope hidden ip operands scene machine)
    (does : stage.Does left post machine (next (frame.staticReceiver? scope receiver)) scene) :
    stage.Does left post machine (here.hostType receiver >>= next) scene := by
  have found : here.hostType receiver scene =
      (.normal (frame.staticReceiver? scope receiver), scene) := by
    cases receiver with
    | var name =>
        have means := @Shows.referent? _ _ _ _ _ _ _ _ name _ same shows
        simp only [Standpoint.hostType, Frame.staticReceiver?]
        refine (Evaluation.bind_normal rfl).trans ?_
        simp only [means, Option.isNone_map]
        split <;> rfl
    | _ => rfl
  unfold Does
  rw [Evaluation.bind_normal found]
  exact does

theorem reads {loads : List Instruction} (suits : stage.Suits here frame placed)
    (ready : stage.Ready frame left stop site locals hidden operands)
    (inside : frame.slot locals ≤ stage.slots) (loaded : frame.load site.scope name = .ok loads)
    (stands : stage.Stands ip loads)
    (shows : stage.Shows site.scope hidden ip operands scene machine) :
    stage.Does left
      (fun value => stage.Shows site.scope hidden (ip + loads.length) (operands ++ [value])) machine
      (here.read name) scene := by
  have solid := suits.solid
  refine .inspect ?_
  rw [shows.referent? suits.of]
  rcases Frame.load_cases loaded with ⟨slot, resolved, _, rfl⟩ | ⟨index, resolved, kept, rfl⟩ |
    ⟨slot, resolved, global, rfl⟩
  · rw [resolved]
    have found := Frame.lookup_of_resolve? resolved
    refine loadVariable solid stands shows ready.arranged inside found ?_
    intro later shows
    exact .inspect (.pure shows)
  · rw [resolved]
    have carried := ready.fixed (suits.carried name index kept)
    refine loadHidden solid stands shows carried ?_
    intro later shows
    refine pushConst solid stands.tail shows ?_
    intro later shows
    rw [List.append_assoc] at shows
    change stage.Does left _ later (.effect _) scene
    rw [suits.registry]
    exact delivers solid stands.tail.tail shows step_loadIndex
  · rw [resolved]
    have bound : slot < stage.globals := by
      have below := Linkage.globalSlotFrom?_lt global
      rw [suits.globals]
      omega
    refine loadGlobal solid stands shows bound ?_
    intro later shows
    exact .inspect (.pure shows)

theorem readsVariable (suits : stage.Suits here frame placed)
    (ready : stage.Ready frame left stop site locals hidden operands)
    (inside : frame.slot locals ≤ stage.slots)
    (resolved : frame.resolve? site.scope name = some (.localSlot slot))
    (stands : stage.Stands ip (.loadLocal slot :: rest))
    (shows : stage.Shows site.scope hidden ip operands scene machine) :
    stage.Does left (fun value => stage.Shows site.scope hidden (ip + 1) (operands ++ [value]))
      machine (here.read name) scene := by
  have loaded : frame.load site.scope name = .ok [.loadLocal slot] := by
    rw [Frame.load, resolved]
  exact reads suits ready inside loaded (@Stands.left stage ip [.loadLocal slot] rest stands) shows

theorem readsAll {names : List String} {loads : List (List Instruction)}
    (suits : stage.Suits here frame placed)
    (ready : stage.Ready frame left stop site locals hidden operands)
    (inside : frame.slot locals ≤ stage.slots)
    (loaded : names.mapM (frame.load site.scope) = .ok loads)
    (stands : stage.Stands ip loads.flatten)
    (shows : stage.Shows site.scope hidden ip operands scene machine) :
    stage.Does left
      (fun values scene machine => values.length = names.length ∧
        stage.Shows site.scope hidden (ip + loads.flatten.length) (operands ++ values) scene machine)
      machine (here.readAll names) scene := by
  induction names generalizing loads operands site ip scene machine with
  | nil =>
      cases loaded
      refine .pure ⟨rfl, ?_⟩
      rw [List.append_nil]
      exact shows
  | cons name names ih =>
      rw [List.mapM_cons] at loaded
      rcases exists_of_bind_ok loaded with ⟨first, firstLoaded, loaded⟩
      rcases exists_of_bind_ok loaded with ⟨others, restLoaded, loaded⟩
      cases loaded
      rw [List.flatten_cons] at stands
      refine (reads suits ready inside firstLoaded stands.left shows).bind ?_
      intro value scene machine shows
      refine (ih (ready.deeper [value]) restLoaded stands.right shows).bind ?_
      intro values scene machine ⟨length, shows⟩
      refine .pure ⟨congrArg (· + 1) length, ?_⟩
      rw [List.flatten_cons, List.length_append, ← Nat.add_assoc, List.append_cons]
      exact shows

theorem writesVariable (suits : stage.Suits here frame placed)
    (ready : stage.Ready frame left stop site locals hidden operands)
    (inside : frame.slot locals ≤ stage.slots)
    (resolved : frame.resolve? site.scope name = some (.localSlot slot))
    (stands : stage.Stands ip (.storeLocal slot :: rest))
    (shows : stage.Shows site.scope hidden ip (operands ++ [value]) scene machine) :
    stage.Does left (fun _ => stage.Shows site.scope hidden (ip + 1) operands) machine
      (here.write name value) scene := by
  refine .inspect ?_
  rw [shows.referent? suits.of, resolved]
  exact assigns suits.solid stands shows ready.arranged inside (Frame.lookup_of_resolve? resolved)

theorem writesKept {index : Nat} (suits : stage.Suits here frame placed)
    (resolved : frame.resolve? site.scope name = some (.capture index))
    (stands : stage.Stands ip (.storeIndex :: rest))
    (shows : stage.Shows site.scope hidden ip
      (operands ++ [here.carried, .int (Int64.ofNat index), value]) scene machine) :
    stage.Does left (fun _ => stage.Shows site.scope hidden (ip + 1) operands) machine
      (here.write name value) scene := by
  refine .inspect ?_
  rw [shows.referent? suits.of, resolved]
  change stage.Does left _ machine (.effect _) scene
  rw [suits.registry]
  exact settles suits.solid stands shows step_storeIndex

/-- The assignment to a global: to the copy on the stack and to the cell of the host. -/
theorem writesGlobal (suits : stage.Suits here frame placed)
    (resolved : frame.resolve? site.scope name = some (.globalSlot slot))
    (stands : stage.Stands ip (.storeGlobal slot :: rest))
    (shows : stage.Shows site.scope hidden ip (operands ++ [value]) scene machine) :
    stage.Does left (fun _ => stage.Shows site.scope hidden (ip + 1) operands) machine
      (here.write name value) scene := by
  refine .inspect ?_
  rw [shows.referent? suits.of, resolved]
  rcases shows with ⟨early, slots, rfl, holds⟩
  rcases Frame.resolve?_cases resolved with ⟨_, same, _⟩ | ⟨_, same, _⟩ | ⟨_, same, global⟩
  · cases same
  · cases same
  cases same
  have filled : slot < scene.world.globals.length := by
    have below := Linkage.globalSlotFrom?_lt global
    rw [holds.globals, suits.globals]
    omega
  have named : stage.surroundings.program.globals[slot]? = some name := by
    rw [suits.names]
    exact (Linkage.getElem?_globalSlotFrom? global).2
  let store := (stage.surroundings.registry.setGlobal? scene.world.store name value).getD
    scene.world.store
  have steps : stage.surroundings.Steps (stage.machine ip slots (operands ++ [value]) scene.world)
      (.ok .next, stage.machine (ip + 1) slots operands
        ⟨scene.world.globals.set slot value, store, scene.world.yielded⟩) := by
    refine stands.stepsWith suits.solid ?_
    rw [step_storeGlobal (by simp only [List.length_append]; omega), named]
    simp only [Effect.storeGlobal, Stage.machine, List.length_set, store]
    rw [List.set_append_left _ _ (by simp only [List.length_append]; omega),
      List.set_append_left _ _ (by simp only [List.length_append]; omega),
      List.set_append_left _ _ (by omega)]
  simp only [List.length_append] at early
  change stage.Does left _ _ (Evaluation.effect (.storeGlobal _ (some name) value) >>= _) scene
  rw [suits.registry]
  refine .effect_ok rfl (.step steps ?_)
  intro _ _
  refine ⟨_, .stay, by omega, slots, rfl, holds.size, ?_, holds.bindings, holds.hidden⟩
  exact (List.length_set ..).trans holds.globals

/-! ## Closures -/

theorem closes {number : Nat} {params : List String} {body : List Stmt}
    {loads : List (List Instruction)} (suits : stage.Suits here frame placed)
    (ready : stage.Ready frame left stop site locals hidden operands)
    (inside : frame.slot locals ≤ stage.slots)
    (loaded : (frame.captured site.scope params body).mapM (frame.load site.scope) = .ok loads)
    (stands : stage.Stands ip (loads.flatten ++
      [.makeArray (frame.captured site.scope params body).length,
        .makeClosure (frame.literal site.scope number params body).reference]))
    (shows : stage.Shows site.scope hidden ip operands scene machine) :
    stage.Does left
      (fun value => stage.Shows site.scope hidden (ip + loads.flatten.length + 2)
        (operands ++ [value]))
      machine (here.close number params body) scene := by
  have solid := suits.solid
  have names : scene.bindings.map Prod.fst = site.scope.map Prod.fst := by
    rcases shows with ⟨_, slots, _, holds⟩
    rw [holds.bindings, names_readScope]
  refine .inspect ?_
  rw [names, suits.of.source, ← Frame.captured_eq]
  refine (readsAll suits ready inside loaded stands.left shows).bind ?_
  intro values scene machine ⟨length, shows⟩
  have makes := stands.right
  rw [← length] at makes
  refine (deliversAs solid .array makes shows step_makeArray).bind ?_
  intro carrier scene machine shows
  refine (deliversAs solid .closure makes.tail shows (step_makeClosure _ _)).bind ?_
  intro closure scene machine shows
  exact .pure shows

/-! ## Iterators -/

theorem iterates {scope : List (String × Nat)} (suits : stage.Suits here frame placed)
    (stands : stage.Stands ip (.getIterator :: rest))
    (shows : stage.Shows scope hidden ip (operands ++ [value]) scene machine) :
    stage.Does left
      (fun id => stage.Shows scope hidden (ip + 1) (operands ++ [.iterator id])) machine
      (.iterator value) scene := by
  have solid := suits.solid
  rcases shows with ⟨early, slots, rfl, holds⟩
  simp only [List.length_append, List.length_cons, List.length_nil] at early
  have fewer : stage.start + operands.length ≤ ip := by omega
  have room := solid.room_operands stands fewer holds
  rcases result : value.toIterator scene.world.store with ⟨cause | given, store⟩
  · have steps : stage.surroundings.Steps (stage.machine ip slots (operands ++ [value]) scene.world)
        (.error cause, stage.machine (ip + 1) slots operands ⟨scene.world.globals, store, []⟩) := by
      refine stands.stepsWith solid ?_
      rw [step_getIterator, result]
      rfl
    exact .effect_error result steps rfl
  · rcases Value.toIterator_ok (congrArg Prod.fst result) with ⟨id, rfl⟩
    have steps : stage.surroundings.Steps (stage.machine ip slots (operands ++ [value]) scene.world)
        (.ok .next, stage.machine (ip + 1) slots (operands ++ [.iterator id])
          ⟨scene.world.globals, store, scene.world.yielded⟩) := by
      refine stands.stepsWith solid ?_
      rw [step_getIterator, result, deliver_room room, machine_append]
    refine .effect_ok result (.step steps (.pure ⟨?_, slots, rfl, holds.withStore _ _⟩))
    simp only [List.length_append, List.length_cons, List.length_nil]
    omega

/-- The code that looks for the next element of an iterator. -/
theorem nexts {scope : List (String × Nat)} {id : IteratorId} {after : Nat}
    (suits : stage.Suits here frame placed)
    (stands : stage.Stands ip (.loadLocal slot :: .iterMoveNext :: .jumpIfFalse after ::
      .loadLocal slot :: .iterCurrent :: rest))
    (known : (slot, .iterator id) ∈ hidden) (forward : ip ≤ after)
    (shows : stage.Shows scope hidden ip operands scene machine) :
    stage.Does left
      (fun next => match next with
        | some element => stage.Shows scope hidden (ip + 5) (operands ++ [element])
        | none => stage.Shows scope hidden after operands)
      machine (.nextElement id) scene := by
  have solid := suits.solid
  have early := shows.1
  refine loadHidden solid stands shows known ?_
  intro later shows
  refine (deliversAs solid .bool stands.tail shows (step_iterMoveNext id)).bind ?_
  intro advanced scene machine shows
  refine branches solid stands.tail.tail shows (by omega) ?_
  intro later shows
  cases advanced with
  | false => exact .pure shows
  | true =>
      refine loadHidden solid stands.tail.tail.tail shows known ?_
      intro later shows
      refine (delivers solid stands.tail.tail.tail.tail shows (step_iterCurrent id)).bind ?_
      intro element scene machine shows
      exact .pure shows

end Does

end Stage

end ScriptMachine
