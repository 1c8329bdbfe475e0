import ScriptMachine.Engine.Basic
import ScriptMachine.Proofs.Engine.Steps

/-!
# Setting up the first frame

An engine that starts pushes the globals, the arguments and an empty header, each in the order of
its slots. If that succeeds, what is on the stack is known.
-/

namespace ScriptMachine

variable {registry : Registry} {capacity ip base depth : Nat} {values args : List Value}
  {debug : List DebugContext} {store : Store} {machine : Machine}

open Step

/-- Pushing the globals, if it succeeds, puts their values on the stack. -/
theorem run_pushGlobals_ok {names : List String} (held : values.length ≤ capacity)
    (pushed : (Engine.pushGlobals registry names).run
      ⟨.ofList capacity values, ip, base, depth, debug, store⟩ = (.ok (), machine)) :
    ∃ more, names.map (registry.global? store) = more.map some ∧
      (values ++ more).length ≤ capacity ∧
      machine = ⟨.ofList capacity (values ++ more), ip, base, depth, debug, store⟩ := by
  induction names generalizing values with
  | nil =>
      cases pushed
      exact ⟨[], rfl, by simpa using held, by simp⟩
  | cons name rest ih =>
      rw [Engine.pushGlobals] at pushed
      cases found : registry.global? store name with
      | none =>
          simp only [run_bind, run_store, found, run_throw] at pushed
          cases pushed
      | some value =>
          rcases Nat.lt_or_ge values.length capacity with room | full
          · simp only [run_bind, run_store, found, run_push room] at pushed
            rcases ih (by simp; omega) pushed with ⟨more, same, fits, rfl⟩
            exact ⟨value :: more, by simp [found, same], by simpa using fits, by simp⟩
          · simp only [run_bind, run_store, found, run_push_full full] at pushed
            cases pushed

theorem run_pushAll_ok (held : values.length ≤ capacity)
    (pushed : (pushAll args).run ⟨.ofList capacity values, ip, base, depth, debug, store⟩ =
      (.ok (), machine)) :
    (values ++ args).length ≤ capacity ∧
      machine = ⟨.ofList capacity (values ++ args), ip, base, depth, debug, store⟩ := by
  rcases Nat.lt_or_ge capacity (values.length + args.length) with full | room
  · rcases @run_pushAll_full capacity ip base depth values args debug store held full with
      ⟨later, fails⟩
    cases pushed.symm.trans fails
  · rw [run_pushAll room] at pushed
    cases pushed
    exact ⟨by simpa using room, rfl⟩

theorem run_push_ok {value : Value} (pushed : (push value).run
      ⟨.ofList capacity values, ip, base, depth, debug, store⟩ = (.ok (), machine)) :
    (values ++ [value]).length ≤ capacity ∧
      machine = ⟨.ofList capacity (values ++ [value]), ip, base, depth, debug, store⟩ := by
  rcases Nat.lt_or_ge values.length capacity with room | full
  · rw [run_push room] at pushed
    cases pushed
    exact ⟨by simp; omega, rfl⟩
  · rw [run_push_full full] at pushed
    cases pushed

/-- What a run of a step that succeeds has gone through. -/
theorem run_bind_ok {α β : Type} {first : Step α} {next : α → Step β} {before later : Machine}
    {result : β} (ran : (first >>= next).run before = (.ok result, later)) :
    ∃ value middle, first.run before = (.ok value, middle) ∧
      (next value).run middle = (.ok result, later) := by
  rw [run_bind] at ran
  generalize first.run before = result at ran
  rcases result with ⟨_ | value, middle⟩
  · cases ran
  · exact ⟨value, middle, rfl, ran⟩

/-- What an engine has set up when it has entered a function. -/
theorem enter_ok {surroundings : Surroundings} {entry name : String} {path : List String}
    (entered : (Engine.enter surroundings entry path name args).run
      ⟨.ofCapacity capacity, ip, base, depth, debug, store⟩ = (.ok (), machine)) :
    ∃ function globals, surroundings.program.lookup? path name = some function ∧
      function.arity = args.length ∧
      surroundings.program.globals.map (surroundings.registry.global? store) = globals.map some ∧
      (globals ++ args ++ headerWords 0 0).length ≤ capacity ∧
      machine = ⟨.ofList capacity (globals ++ args ++ headerWords 0 0), function.offset,
        globals.length, 1, debug, store⟩ := by
  unfold Engine.enter at entered
  cases found : surroundings.program.lookup? path name with
  | none =>
      rw [found] at entered
      cases entered
  | some function =>
      rw [found] at entered
      rcases Decidable.em (function.arity = args.length) with arity | arity
      · simp only [arity, ne_eq, not_true_eq_false, if_false] at entered
        rcases run_bind_ok entered with ⟨_, _, pushed, entered⟩
        rcases @run_pushGlobals_ok _ _ _ _ _ [] _ _ _ _ (Nat.zero_le _) pushed with
          ⟨globals, named, held, rfl⟩
        rw [List.nil_append] at held entered
        rw [run_bind, run_modify] at entered
        rcases run_bind_ok entered with ⟨_, _, pushed, entered⟩
        rcases run_pushAll_ok held pushed with ⟨_, rfl⟩
        rcases run_bind_ok entered with ⟨_, _, pushed, entered⟩
        rcases run_push_ok pushed with ⟨_, rfl⟩
        rcases run_bind_ok entered with ⟨_, _, pushed, entered⟩
        rcases run_push_ok pushed with ⟨room, rfl⟩
        rw [run_modify] at entered
        cases entered
        have words : globals ++ args ++ [.int 0] ++ [.int 0] = globals ++ args ++ headerWords 0 0 := by
          simp [headerWords]
        rw [words] at room ⊢
        exact ⟨function, globals, rfl, arity, named, room, by simp⟩
      · simp only [ne_eq, arity, not_false_eq_true, if_true] at entered
        cases entered

theorem store_of_enter_ok {surroundings : Surroundings} {entry name : String} {path : List String}
    (entered : (Engine.enter surroundings entry path name args).run
      ⟨.ofCapacity capacity, ip, base, depth, debug, store⟩ = (.ok (), machine)) :
    machine.store = store := by
  rcases enter_ok entered with ⟨_, _, _, _, _, _, rfl⟩
  rfl

theorem run_bind_error {α β : Type} {first : Step α} {next : α → Step β} {before later : Machine}
    {fault : RuntimeFault} (ran : (first >>= next).run before = (.error fault, later)) :
    first.run before = (.error fault, later) ∨
      ∃ value middle, first.run before = (.ok value, middle) ∧
        (next value).run middle = (.error fault, later) := by
  rw [run_bind] at ran
  generalize first.run before = result at ran
  rcases result with ⟨_ | value, middle⟩
  · cases ran
    exact .inl rfl
  · exact .inr ⟨value, middle, rfl, ran⟩

theorem push_error {value : Value} {before later : Machine} {fault : RuntimeFault}
    (ran : (push value).run before = (.error fault, later)) :
    fault = .stackOverflow before.stack.capacity := by
  simp only [push, run_onStack, ValueStack.push] at ran
  split at ran
  · cases ran
    rfl
  · cases ran

theorem pushAll_error {before later : Machine} {fault : RuntimeFault}
    (ran : (pushAll args).run before = (.error fault, later)) :
    ∃ capacity, fault = .stackOverflow capacity := by
  induction args generalizing before with
  | nil => cases ran
  | cons first rest ih =>
      rw [pushAll] at ran
      rcases run_bind_error ran with pushed | ⟨_, _, _, ran⟩
      · exact ⟨_, push_error pushed⟩
      · exact ih ran

theorem pushGlobals_error {names : List String} {before later : Machine} {fault : RuntimeFault}
    (ran : (Engine.pushGlobals registry names).run before = (.error fault, later)) :
    (∃ capacity, fault = .stackOverflow capacity) ∨ ∃ name, fault = .globalNotFound name := by
  induction names generalizing before with
  | nil => cases ran
  | cons name rest ih =>
      rw [Engine.pushGlobals, run_bind, run_store] at ran
      cases found : registry.global? before.store name with
      | none =>
          simp only [found, run_bind, run_throw] at ran
          cases ran
          exact .inr ⟨name, rfl⟩
      | some value =>
          simp only [found] at ran
          rcases run_bind_error ran with pushed | ⟨_, _, _, ran⟩
          · exact .inl ⟨_, push_error pushed⟩
          · exact ih ran

/-- The faults of entering a function are about what the host asks for. -/
theorem enter_error {surroundings : Surroundings} {entry name : String} {path : List String}
    {before later : Machine} {fault : RuntimeFault}
    (ran : (Engine.enter surroundings entry path name args).run before = (.error fault, later)) :
    fault = .functionNotFound entry ∨ (∃ expected, fault = .argumentCount entry expected args.length) ∨
      (∃ name, fault = .globalNotFound name) ∨ ∃ capacity, fault = .stackOverflow capacity := by
  unfold Engine.enter at ran
  cases found : surroundings.program.lookup? path name with
  | none =>
      rw [found] at ran
      cases ran
      exact .inl rfl
  | some function =>
      rw [found] at ran
      rcases Decidable.em (function.arity = args.length) with arity | arity
      · simp only [arity, ne_eq, not_true_eq_false, if_false] at ran
        rcases run_bind_error ran with pushed | ⟨_, _, _, ran⟩
        · rcases pushGlobals_error pushed with overflow | missing
          · exact .inr (.inr (.inr overflow))
          · exact .inr (.inr (.inl missing))
        · rw [run_bind, run_modify] at ran
          rcases run_bind_error ran with pushed | ⟨_, _, _, ran⟩
          · exact .inr (.inr (.inr (pushAll_error pushed)))
          · rcases run_bind_error ran with pushed | ⟨_, _, _, ran⟩
            · exact .inr (.inr (.inr ⟨_, push_error pushed⟩))
            · rcases run_bind_error ran with pushed | ⟨_, _, _, ran⟩
              · exact .inr (.inr (.inr ⟨_, push_error pushed⟩))
              · cases ran
      · simp only [ne_eq, arity, not_false_eq_true, if_true] at ran
        cases ran
        exact .inr (.inl ⟨_, rfl⟩)

end ScriptMachine
