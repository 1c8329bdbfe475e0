import ScriptMachine.Proofs.Simulation.Constructs

/-!
# Bodies of functions

Lowered code does what the expressions and statements mean that it was lowered from. The proof is by
induction on the rules of lowering: each construct follows from its parts.
-/

namespace ScriptMachine

open Stage

theorem Progress.Grows.fits {frame : Frame} {before after : Progress} {count slots : Nat}
    (grows : before.Grows after count) (inside : frame.slot after.locals ≤ slots) :
    frame.slot before.locals ≤ slots := by
  have more := grows.locals
  simp only [Frame.slot] at inside ⊢
  omega

section Statements

variable {frame : Frame} {site : Site} {before after : Progress} {statement : Stmt} {code : Code}
  {scope : List (String × Nat)} {stage : Stage} {left : Scene → Machine → Prop} {stop ip : Nat}
  {hidden : List (Nat × Value)} {operands : List Value} {scene : Scene} {machine : Machine}

/-- A statement brings one variable into scope at most. -/
theorem LowersStmt.scope_cases (lowered : LowersStmt frame site before statement code scope after) :
    scope = site.scope ∨ ∃ name locals, scope = (name, frame.slot locals) :: site.scope ∧
      before.locals ≤ locals ∧ after.locals = locals + 1 := by
  cases lowered with
  | letVar valueLowered => exact .inr ⟨_, _, rfl, valueLowered.grows.locals, rfl⟩
  | _ => exact .inl rfl

theorem LowersStmt.ready (lowered : LowersStmt frame site before statement code scope after)
    (ready : stage.Ready frame left stop site before.locals hidden operands) :
    stage.Ready frame left stop (site.behind code scope) after.locals hidden operands := by
  rcases lowered.scope_cases with rfl | ⟨name, locals, rfl, grows, count⟩
  · exact (ready.mono lowered.grows.locals).after code.length
  · rw [count]
    exact ((ready.mono grows).after code.length).bind name

theorem LowersStmt.outer (lowered : LowersStmt frame site before statement code scope after)
    (shows : stage.Shows scope hidden ip operands (scene.outer scope.length) machine) :
    stage.Shows site.scope hidden ip operands (scene.outer site.scope.length) machine := by
  rcases lowered.scope_cases with rfl | ⟨name, locals, rfl, _⟩
  · exact shows
  · exact shows.outer

end Statements

section Bodies

variable {stage : Stage} {here : Standpoint} {frame : Frame} {placed : List Placement}

mutual

/-- The code of an expression leaves its value. -/
theorem LowersExpr.does {left : Scene → Machine → Prop} {stop : Nat} {site : Site}
    {before after : Progress} {expr : Expr} {code : Code} {hidden : List (Nat × Value)}
    {operands : List Value} (lowered : LowersExpr frame site before expr code after)
    (suits : stage.Suits here frame placed)
    (ready : stage.Ready frame left stop site before.locals hidden operands)
    (inside : frame.slot after.locals ≤ stage.slots)
    (stands : stage.Stands site.position (code.closeLoop stop)) :
    stage.Evaluates left site.scope hidden operands site.position (site.position + code.length)
      (expr.eval here before.actions.length) := by
  have solid := suits.solid
  intro scene machine shows
  cases lowered with
  | literal =>
      rw [Expr.eval]
      refine .pushConst solid stands shows ?_
      intro later shows
      exact .pure shows
  | var loaded =>
      rw [Expr.eval, Code.length_ofInstructions]
      exact .reads suits ready inside loaded stands.plain shows
  | shortCircuit short leftLowered rightLowered =>
      have leftDoes := leftLowered.does suits ready (rightLowered.grows.fits inside) stands.front
      have rightDoes := rightLowered.does suits
        ((ready.mono leftLowered.grows.locals).after _) inside stands.back.tail
      rw [Expr.eval, ← leftLowered.number, List.length_append, List.length_cons,
        Nat.add_comm _ 1, ← Nat.add_assoc, ← Nat.add_assoc]
      exact .shortCircuits solid short leftDoes stands.back (by omega) rightDoes shows
  | binary strict leftLowered rightLowered =>
      rw [List.append_assoc] at stands
      rw [Expr.eval, ← leftLowered.number, List.append_assoc, List.length_append,
        List.length_append, ← Nat.add_assoc, ← Nat.add_assoc]
      refine (leftLowered.does suits ready (rightLowered.grows.fits inside) stands.front scene
        machine shows).bind ?_
      intro first scene machine shows
      simp only [Does.decidedBy?_of_strict strict]
      refine (rightLowered.does suits
        (((ready.mono leftLowered.grows.locals).after _).deeper [first]) inside stands.back.front
        scene machine shows).bind ?_
      intro second scene machine shows
      rw [List.append_assoc] at shows
      rw [suits.registry]
      exact .delivers solid stands.back.back shows (step_binary _)
  | unary operandLowered =>
      rw [Expr.eval, List.length_append, ← Nat.add_assoc]
      refine (operandLowered.does suits ready inside stands.front scene machine shows).bind ?_
      intro value scene machine shows
      exact .delivers solid stands.back shows (step_unary _)
  | callVariable loaded argsLowered =>
      rw [List.append_assoc] at stands
      rw [Expr.eval, List.append_assoc, List.length_append, List.length_append, ← Nat.add_assoc,
        ← Nat.add_assoc]
      refine .inspect ?_
      rw [shows.referent? suits.of]
      have bound : (frame.resolve? site.scope _).isSome := Frame.isSome_resolve?_of_load loaded
      rw [Option.isSome_map, if_pos (by simpa using bound), Code.length_ofInstructions]
      refine (Does.reads suits ready (argsLowered.grows.fits inside) loaded stands.front.plain
        shows).bind ?_
      intro callee scene machine shows
      have behind := stands.back
      rw [Code.length_ofInstructions] at behind
      refine (argsLowered.does suits ((ready.after _).deeper [callee]) inside behind.front
        shows).bind ?_
      intro values scene machine ⟨length, shows⟩
      have called := behind.back
      rw [← length] at called
      rw [List.append_assoc] at shows
      exact .invokes suits called shows
  | call notVariable argsLowered =>
      rw [Expr.eval, List.length_append, ← Nat.add_assoc]
      refine .inspect ?_
      rw [shows.referent? suits.of, Option.isSome_map, if_neg (by simpa using notVariable)]
      refine (argsLowered.does suits ready inside stands.front shows).bind ?_
      intro values scene machine ⟨length, shows⟩
      have called := stands.back
      rw [← length] at called
      exact .callsNamed suits called shows
  | staticCall static argsLowered =>
      rw [Expr.eval, List.length_append, ← Nat.add_assoc]
      refine .hostTypes suits.of shows ?_
      rw [static]
      refine (argsLowered.does suits ready inside stands.front shows).bind ?_
      intro values scene machine ⟨length, shows⟩
      have called := stands.back
      rw [← length] at called
      rw [suits.registry]
      exact .delivers solid called shows (step_callStatic _ _ _)
  | methodCall dynamic receiverLowered argsLowered =>
      rw [List.append_assoc] at stands
      rw [Expr.eval, ← receiverLowered.number, List.append_assoc, List.length_append,
        List.length_append, ← Nat.add_assoc, ← Nat.add_assoc]
      refine .hostTypes suits.of shows ?_
      rw [dynamic]
      refine (receiverLowered.does suits ready (argsLowered.grows.fits inside) stands.front scene
        machine shows).bind ?_
      intro target scene machine shows
      refine (argsLowered.does suits
        (((ready.mono receiverLowered.grows.locals).after _).deeper [target]) inside
        stands.back.front shows).bind ?_
      intro values scene machine ⟨length, shows⟩
      have called := stands.back.back
      rw [← length] at called
      rw [List.append_assoc] at shows
      exact .callsMember suits called shows
  | invoke calleeLowered argsLowered =>
      rw [List.append_assoc] at stands
      rw [Expr.eval, ← calleeLowered.number, List.append_assoc, List.length_append,
        List.length_append, ← Nat.add_assoc, ← Nat.add_assoc]
      refine (calleeLowered.does suits ready (argsLowered.grows.fits inside) stands.front scene
        machine shows).bind ?_
      intro target scene machine shows
      refine (argsLowered.does suits
        (((ready.mono calleeLowered.grows.locals).after _).deeper [target]) inside
        stands.back.front shows).bind ?_
      intro values scene machine ⟨length, shows⟩
      have called := stands.back.back
      rw [← length] at called
      rw [List.append_assoc] at shows
      exact .invokes suits called shows
  | staticField static =>
      rw [Expr.eval]
      refine .hostTypes suits.of shows ?_
      rw [static, suits.registry]
      refine .delivers solid stands (List.append_nil operands ▸ shows) ?_
      intros
      rw [List.append_nil]
      exact step_loadStatic _ _ _
  | field dynamic targetLowered =>
      rw [Expr.eval, List.length_append, ← Nat.add_assoc]
      refine .hostTypes suits.of shows ?_
      rw [dynamic]
      refine (targetLowered.does suits ready inside stands.front scene machine shows).bind ?_
      intro value scene machine shows
      rw [suits.registry]
      exact .delivers solid stands.back shows (step_loadField _)
  | index targetLowered positionLowered =>
      rw [List.append_assoc] at stands
      rw [Expr.eval, ← targetLowered.number, List.append_assoc, List.length_append,
        List.length_append, ← Nat.add_assoc, ← Nat.add_assoc]
      refine (targetLowered.does suits ready (positionLowered.grows.fits inside) stands.front scene
        machine shows).bind ?_
      intro value scene machine shows
      refine (positionLowered.does suits
        (((ready.mono targetLowered.grows.locals).after _).deeper [value]) inside stands.back.front
        scene machine shows).bind ?_
      intro place scene machine shows
      rw [List.append_assoc] at shows
      rw [suits.registry]
      exact .delivers solid stands.back.back shows step_loadIndex
  | ifElse testLowered thenLowered elseLowered =>
      rw [List.append_assoc, List.cons_append] at stands
      have testDoes := testLowered.does suits ready
        (thenLowered.grows.fits (elseLowered.grows.fits inside)) stands.front
      have readyThen := ready.mono testLowered.grows.locals
      have thenDoes := thenLowered.does suits (readyThen.after _) (elseLowered.grows.fits inside)
        stands.back.tail.front
      have jumps := stands.back.tail.back
      have elseDoes := elseLowered.does suits
        ((readyThen.mono thenLowered.grows.locals).after _) inside
        (jumps.tail.at (by simp only [Site.after]; omega))
      rw [Expr.eval, ← testLowered.number, ← thenLowered.number]
      refine (Does.conditional solid testDoes stands.back thenDoes jumps elseDoes ?_ shows).mono ?_
      · simp only [Site.after]
        omega
      · intro value scene machine shows
        refine shows.at ?_
        simp only [List.length_append, List.length_cons]
        omega
  | action loaded =>
      rw [Expr.eval, Code.length_ofInstructions, List.length_append, ← Nat.add_assoc]
      exact .closes suits ready inside loaded stands.plain shows
  | array itemsLowered =>
      rw [Expr.eval, List.length_append, ← Nat.add_assoc]
      refine (itemsLowered.does suits ready inside stands.front shows).bind ?_
      intro values scene machine ⟨length, shows⟩
      have makes := stands.back
      rw [← length] at makes
      refine (Does.deliversAs solid .array makes shows step_makeArray).bind ?_
      intro carrier scene machine shows
      exact .pure shows
  | await sourceLowered =>
      have loops := stands.back.plain
      have next := ready.mono sourceLowered.grows.locals
      simp only [Frame.slot, Progress.take] at inside
      rw [Expr.eval, List.length_append, ← Nat.add_assoc]
      refine (sourceLowered.does suits ready (by simp only [Frame.slot]; omega) stands.front scene
        machine shows).bind ?_
      intro value scene machine shows
      refine (Does.iterates suits loops shows).bind ?_
      intro id scene machine shows
      refine .storeHidden solid loops.tail shows next.arranged (by simp only [Frame.slot]; omega) ?_
      intro later shows
      refine .pushConst solid loops.tail.tail shows ?_
      intro later shows
      have nextInner := next.hide (.iterator id)
      refine .storeHidden solid loops.tail.tail.tail shows nextInner.arranged
        (by simp only [Frame.slot]; omega) ?_
      intro later shows
      refine (Does.awaits suits nextInner.arranged (by simp only [Frame.slot]; omega)
        List.mem_cons_self loops.tail.tail.tail.tail shows).mono ?_
      intro value scene machine shows
      exact shows.mono (List.subset_cons_self _ _)

theorem LowersOperands.does {left : Scene → Machine → Prop} {stop : Nat} {site : Site}
    {before after : Progress} {items : List Expr} {code : Code} {hidden : List (Nat × Value)}
    {operands : List Value} {scene : Scene} {machine : Machine}
    (lowered : LowersOperands frame site before items code after)
    (suits : stage.Suits here frame placed)
    (ready : stage.Ready frame left stop site before.locals hidden operands)
    (inside : frame.slot after.locals ≤ stage.slots)
    (stands : stage.Stands site.position (code.closeLoop stop))
    (shows : stage.Shows site.scope hidden site.position operands scene machine) :
    stage.Does left
      (fun values scene machine => values.length = items.length ∧
        stage.Shows site.scope hidden (site.position + code.length) (operands ++ values) scene
          machine)
      machine (Expr.evalAll here before.actions.length items) scene := by
  cases lowered with
  | nil =>
      rw [Expr.evalAll]
      refine .pure ⟨rfl, ?_⟩
      rw [List.append_nil]
      exact shows
  | cons itemLowered restLowered =>
      rw [Expr.evalAll, ← itemLowered.number]
      refine (itemLowered.does suits ready (restLowered.grows.fits inside) stands.front scene
        machine shows).bind ?_
      intro value scene machine shows
      refine (restLowered.does suits
        (((ready.mono itemLowered.grows.locals).after _).deeper [value]) inside stands.back
        shows).bind ?_
      intro values scene machine ⟨length, shows⟩
      refine .pure ⟨congrArg (· + 1) length, ?_⟩
      rw [List.length_append, ← Nat.add_assoc, List.append_cons]
      exact shows

theorem LowersOption.does {left : Scene → Machine → Prop} {stop : Nat} {site : Site}
    {default : Constant} {before after : Progress} {value : Option Expr} {code : Code}
    {hidden : List (Nat × Value)} {operands : List Value}
    (lowered : LowersOption frame site default before value code after)
    (suits : stage.Suits here frame placed)
    (ready : stage.Ready frame left stop site before.locals hidden operands)
    (inside : frame.slot after.locals ≤ stage.slots)
    (stands : stage.Stands site.position (code.closeLoop stop)) :
    stage.Evaluates left site.scope hidden operands site.position (site.position + code.length)
      (Expr.evalOption here before.actions.length default value) := by
  cases lowered with
  | none =>
      intro scene machine shows
      rw [Expr.evalOption]
      refine .pushConst suits.solid stands shows ?_
      intro later shows
      exact .pure shows
  | some valueLowered =>
      rw [Expr.evalOption]
      exact valueLowered.does suits ready inside stands

theorem LowersBlock.does {left : Scene → Machine → Prop} {stop : Nat} {site : Site}
    {before after : Progress} {body : List Stmt} {code : Code} {hidden : List (Nat × Value)}
    {operands : List Value} (lowered : LowersBlock frame site before body code after)
    (suits : stage.Suits here frame placed)
    (ready : stage.Ready frame left stop site before.locals hidden operands)
    (inside : frame.slot after.locals ≤ stage.slots)
    (stands : stage.Stands site.position (code.closeLoop stop)) :
    stage.Concludes left site.scope hidden operands site.position (site.position + code.length)
      (Stmt.evalBlock here before.actions.length body) := by
  intro scene machine shows
  cases lowered with
  | empty =>
      rw [Stmt.evalBlock]
      refine .pushConst suits.solid stands shows ?_
      intro later shows
      exact .pure shows.outer_self
  | trailing valueLowered =>
      rw [Stmt.evalBlock]
      refine (valueLowered.does suits ready inside stands scene machine shows).mono ?_
      intro value scene machine shows
      exact shows.outer_self
  | statement notTrailing statementLowered restLowered =>
      rw [Stmt.evalBlock, ← statementLowered.number]
      · refine (statementLowered.does suits ready (restLowered.grows.fits inside) stands.front
          shows).bind ?_
        intro _ scene machine shows
        refine (restLowered.does suits (statementLowered.ready ready) inside stands.back scene
          machine shows).mono ?_
        intro value later machine shows
        rw [List.length_append, ← Nat.add_assoc]
        exact statementLowered.outer shows
      · exact notTrailing

theorem LowersElse.does {left : Scene → Machine → Prop} {stop : Nat} {site : Site}
    {before after : Progress} {body : Option (List Stmt)} {code : Code}
    {hidden : List (Nat × Value)} {operands : List Value}
    (lowered : LowersElse frame site before body code after)
    (suits : stage.Suits here frame placed)
    (ready : stage.Ready frame left stop site before.locals hidden operands)
    (inside : frame.slot after.locals ≤ stage.slots)
    (stands : stage.Stands site.position (code.closeLoop stop)) :
    stage.Concludes left site.scope hidden operands site.position (site.position + code.length)
      (Stmt.evalElse here before.actions.length body) := by
  cases lowered with
  | absent =>
      intro scene machine shows
      rw [Stmt.evalElse]
      refine .pushConst suits.solid stands shows ?_
      intro later shows
      exact .pure shows.outer_self
  | present bodyLowered =>
      rw [Stmt.evalElse]
      exact bodyLowered.does suits ready inside stands

theorem LowersStmts.does {left : Scene → Machine → Prop} {stop : Nat} {site : Site}
    {before after : Progress} {body : List Stmt} {code : Code} {hidden : List (Nat × Value)}
    {operands : List Value} (lowered : LowersStmts frame site before body code after)
    (suits : stage.Suits here frame placed)
    (ready : stage.Ready frame left stop site before.locals hidden operands)
    (inside : frame.slot after.locals ≤ stage.slots)
    (stands : stage.Stands site.position (code.closeLoop stop)) :
    stage.CarriesOut left site.scope hidden operands site.position (site.position + code.length)
      (Stmt.evalAll here before.actions.length body) := by
  intro scene machine shows
  cases lowered with
  | nil =>
      rw [Stmt.evalAll]
      exact .pure shows.outer_self
  | cons statementLowered restLowered =>
      rw [Stmt.evalAll, ← statementLowered.number]
      refine (statementLowered.does suits ready (restLowered.grows.fits inside) stands.front
        shows).bind ?_
      intro _ scene machine shows
      refine (restLowered.does suits (statementLowered.ready ready) inside stands.back scene
        machine shows).mono ?_
      intro _ later machine shows
      rw [List.length_append, ← Nat.add_assoc]
      exact statementLowered.outer shows

theorem LowersStmt.does {left : Scene → Machine → Prop} {stop : Nat} {site : Site}
    {before after : Progress} {statement : Stmt} {code : Code} {scope : List (String × Nat)}
    {hidden : List (Nat × Value)} {operands : List Value} {scene : Scene} {machine : Machine}
    (lowered : LowersStmt frame site before statement code scope after)
    (suits : stage.Suits here frame placed)
    (ready : stage.Ready frame left stop site before.locals hidden operands)
    (inside : frame.slot after.locals ≤ stage.slots)
    (stands : stage.Stands site.position (code.closeLoop stop))
    (shows : stage.Shows site.scope hidden site.position operands scene machine) :
    stage.Does left
      (fun _ => stage.Shows scope hidden (site.position + code.length) operands) machine
      (statement.eval here before.actions.length) scene := by
  have solid := suits.solid
  cases lowered with
  | letVar valueLowered =>
      have free := (ready.mono valueLowered.grows.locals).arranged
      simp only [Frame.slot, Progress.take] at inside
      rw [Stmt.eval, List.length_append, ← Nat.add_assoc]
      refine (valueLowered.does suits ready (by simp only [Frame.slot]; omega) stands.front scene
        machine shows).bind ?_
      intro value scene machine shows
      exact .declares solid stands.back shows free (by simp only [Frame.slot]; omega)
  | assignLocal resolved valueLowered =>
      rw [Stmt.eval, List.length_append, ← Nat.add_assoc]
      refine (valueLowered.does suits ready inside stands.front scene machine shows).bind ?_
      intro value scene machine shows
      exact .writesVariable suits (ready.mono valueLowered.grows.locals) inside resolved stands.back
        shows
  | assignCapture resolved valueLowered =>
      rcases Frame.resolve?_cases resolved with ⟨_, same, _⟩ | ⟨_, same, kept⟩ | ⟨_, same, _⟩
      · cases same
      · cases same
        have carried := ready.fixed (suits.carried _ _ kept)
        rw [List.append_assoc] at stands
        have loads := stands.front.plain
        rw [Stmt.eval, List.append_assoc, List.length_append, List.length_append, ← Nat.add_assoc,
          ← Nat.add_assoc]
        refine .loadHidden solid loads shows carried ?_
        intro later shows
        refine .pushConst solid loads.tail shows ?_
        intro later shows
        rw [List.append_assoc] at shows
        refine (valueLowered.does suits
          ((ready.after 2).deeper [here.carried, .int (Int64.ofNat _)]) inside stands.back.front
          scene later shows).bind ?_
        intro value scene machine shows
        rw [List.append_assoc] at shows
        exact .writesKept suits resolved stands.back.back shows
      · cases same
  | assignGlobal resolved valueLowered =>
      rw [Stmt.eval, List.length_append, ← Nat.add_assoc]
      refine (valueLowered.does suits ready inside stands.front scene machine shows).bind ?_
      intro value scene machine shows
      exact .writesGlobal suits resolved stands.back shows
  | fieldAssign targetLowered valueLowered =>
      rw [List.append_assoc] at stands
      rw [Stmt.eval, ← targetLowered.number, List.append_assoc, List.length_append,
        List.length_append, ← Nat.add_assoc, ← Nat.add_assoc]
      refine (targetLowered.does suits ready (valueLowered.grows.fits inside) stands.front scene
        machine shows).bind ?_
      intro object scene machine shows
      refine (valueLowered.does suits
        (((ready.mono targetLowered.grows.locals).after _).deeper [object]) inside stands.back.front
        scene machine shows).bind ?_
      intro content scene machine shows
      rw [List.append_assoc] at shows
      rw [suits.registry]
      exact .settles solid stands.back.back shows (step_storeField _)
  | indexAssign targetLowered positionLowered valueLowered =>
      rw [List.append_assoc, List.append_assoc] at stands
      have readyPosition := ready.mono targetLowered.grows.locals
      have readyValue := readyPosition.mono positionLowered.grows.locals
      rw [Stmt.eval, ← targetLowered.number, ← positionLowered.number]
      refine (targetLowered.does suits ready
        (positionLowered.grows.fits (valueLowered.grows.fits inside)) stands.front scene machine
        shows).bind ?_
      intro object scene machine shows
      refine (positionLowered.does suits ((readyPosition.after _).deeper [object])
        (valueLowered.grows.fits inside) stands.back.front scene machine shows).bind ?_
      intro place scene machine shows
      rw [List.append_assoc] at shows
      refine (valueLowered.does suits ((readyValue.after _).deeper [object, place]) inside
        (stands.back.back.front.at (Nat.add_assoc ..)) scene machine
        (shows.at (Nat.add_assoc ..))).bind ?_
      intro content scene machine shows
      rw [List.append_assoc] at shows
      rw [suits.registry]
      have stores := stands.back.back.back
      refine (Does.settles solid (stores.at (by simp only [Site.after, Site.deeper]; omega)) shows
        step_storeIndex).mono ?_
      intro _ scene machine shows
      refine shows.at ?_
      simp only [List.length_append, List.length_cons, List.length_nil, Site.after, Site.deeper]
      omega
  | whileLoop testLowered bodyLowered =>
      have early := shows.1
      have testDoes := testLowered.does suits ready (bodyLowered.grows.fits inside) stands.front
      have loops := stands.back.tail.plain
      have back := loops.right
      rw [Code.length_closeLoop] at back
      have bodyDoes := bodyLowered.does suits
        (((ready.mono testLowered.grows.locals).after _).leavesTo (by omega)) inside loops.left
      rw [Stmt.eval, ← testLowered.number]
      refine (Does.whiles solid testDoes stands.back bodyDoes back (by omega) shows).discard ?_
      intro _ scene machine shows
      refine shows.at ?_
      simp only [List.length_append, List.length_cons, List.length_nil, Code.length_ofInstructions,
        Code.length_closeLoop]
      omega
  | forRange stopLowered stepLowered startLowered here bodyLowered =>
      subst here
      have early := shows.1
      have fitsStart := bodyLowered.grows.fits inside
      have fitsStep := startLowered.grows.take.fits fitsStart
      have fitsStop := stepLowered.grows.take.fits fitsStep
      rw [List.append_assoc, List.append_assoc, List.append_assoc, List.cons_append] at stands
      have steps := stands.back.tail
      have starts := steps.back.back
      simp only [Code.length_ofInstructions, List.length_cons, List.length_nil] at starts
      have readyStop := ready.mono stopLowered.grows.locals
      rw [Stmt.eval, ← stopLowered.number]
      refine (stopLowered.does suits ready (Progress.Grows.refl.take.fits fitsStop) stands.front _ _
        shows).bind ?_
      intro last scene machine shows
      refine .storeHidden solid stands.back shows readyStop.arranged fitsStop ?_
      intro later shows
      refine (stepLowered.does suits ((readyStop.hide last).after _)
        (Progress.Grows.refl.take.fits fitsStep) steps.front _ _ shows).bind ?_
      intro stride scene machine shows
      have readyStep := (readyStop.hide last).mono stepLowered.grows.locals
      refine (Does.checksStep solid steps.back.front.plain shows).bind ?_
      intro _ scene machine shows
      refine .storeHidden solid steps.back.front.plain.tail shows readyStep.arranged fitsStep ?_
      intro later shows
      have readyStart := readyStep.hide stride
      have numberStep := stepLowered.number
      have numberStart := startLowered.number
      simp only [Progress.take] at numberStep numberStart
      rw [← numberStep, ← numberStart]
      refine (startLowered.does suits ((readyStart.after _).after _)
        (Progress.Grows.refl.take.fits fitsStart) starts.front _ _ shows).bind ?_
      intro first scene machine shows
      have readyLoop := readyStart.mono startLowered.grows.locals
      have loops := starts.back.plain
      rw [List.cons_append, List.cons_append, List.append_assoc] at loops
      have back := loops.tail.right.right
      rw [Code.length_closeLoop] at back
      have bodyDoes := bodyLowered.does suits
        ((((((readyLoop.after _).after _).after _).after 12).bind _).leavesTo (by omega)) inside
        loops.tail.right.left
      refine (Does.rangesFrom suits readyLoop fitsStart (List.mem_cons_of_mem _ List.mem_cons_self)
        List.mem_cons_self loops loops.tail.left bodyDoes back (by omega) shows).mono ?_
      intro _ scene machine shows
      have kept := shows.mono (List.subset_cons_self _ _)
      refine (kept.mono (List.subset_cons_self _ _)).at ?_
      simp only [List.length_append, List.length_cons, List.length_nil, Code.length_ofInstructions,
        Code.length_closeLoop, Code.rangeTest, Code.rangeNext]
      omega
  | forEach sourceLowered here bodyLowered =>
      subst here
      have early := shows.1
      have fits := bodyLowered.grows.fits inside
      simp only [Frame.slot, Progress.take] at fits
      have loops := stands.back.plain
      rw [List.append_assoc, List.append_assoc] at loops
      have looping := loops.right
      simp only [List.length_cons, List.length_nil] at looping
      have back := looping.right.right
      rw [Code.length_closeLoop] at back
      have next := ready.mono sourceLowered.grows.locals
      rw [Stmt.eval, ← sourceLowered.number]
      refine (sourceLowered.does suits ready (by simp only [Frame.slot]; omega) stands.front _ _
        shows).bind ?_
      intro value scene machine shows
      refine (Does.iterates suits loops shows).bind ?_
      intro id scene machine shows
      refine .storeHidden solid loops.tail shows next.arranged (by simp only [Frame.slot]; omega) ?_
      intro later shows
      have inner := next.hide (.iterator id)
      have bodyDoes := bodyLowered.does suits
        ((((inner.after _).after 6).bind _).leavesToOuter (by omega)) inside looping.right.left
      refine (Does.eachs suits inner.arranged (by simp only [Frame.slot]; omega) List.mem_cons_self
        looping bodyDoes back (by omega) shows).discard ?_
      intro _ scene machine shows
      refine (shows.mono (List.subset_cons_self _ _)).at ?_
      simp only [List.length_append, List.length_cons, List.length_nil, Code.length_ofInstructions,
        Code.length_closeLoop, Code.eachTest]
      omega
  | breakLoop inLoop =>
      rw [Stmt.eval]
      refine .leavesLoop solid ready inLoop ?_ shows
      rw [Code.closeLoop, List.map_append, List.map_replicate] at stands
      exact stands
  | yieldValue valueLowered =>
      rw [Stmt.eval, List.length_append, ← Nat.add_assoc]
      refine (valueLowered.does suits ready inside stands.front scene machine shows).bind ?_
      intro value scene machine shows
      exact .emits solid stands.back shows
  | returnValue valueLowered =>
      rw [Stmt.eval]
      refine (valueLowered.does suits ready inside stands.front scene machine shows).bind ?_
      intro value scene machine shows
      exact .returns suits.arity ready.fixed stands.back.plain shows
  | expr valueLowered =>
      rw [Stmt.eval, List.length_append, ← Nat.add_assoc]
      refine (valueLowered.does suits ready inside stands.front scene machine shows).bind ?_
      intro value scene machine shows
      refine .pops solid stands.back shows ?_
      intro later shows
      exact .pure shows

end

end Bodies

end ScriptMachine
