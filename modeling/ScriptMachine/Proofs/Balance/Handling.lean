import Mathlib.Data.List.Basic
import ScriptMachine.Proofs.Balance.Passages
import ScriptMachine.Proofs.Balance.Steps
import ScriptMachine.Proofs.Engine.Anatomy

/-!
# Allowed operands

An instruction that leaves slots and frames alone obeys a discipline if the operands that it takes
are allowed: those that it leaves are allowed again, and the store follows. The store also does where
the instruction faults, whether in its effect or because the stack is full.
-/

namespace ScriptMachine

namespace Discipline

variable {discipline : Discipline} {surroundings : Surroundings} {store later : Store}
  {instruction : Instruction} {popped pushed : List Tag} {taken left args : List Value}

theorem Keeps.given {result : Except RuntimeFault Value × Store} {value : Value}
    (kept : discipline.Keeps store result) (gives : result = (.ok value, later)) :
    discipline.follows store later ∧ ∀ other ∈ [value], discipline.allows later other := by
  subst gives
  exact ⟨kept.follows, List.forall_mem_singleton.mpr (kept.allows value rfl)⟩

namespace Lawful

variable (lawful : discipline.Lawful surroundings) (obeys : discipline.obeys store)

include lawful obeys

/-- What an instruction makes of allowed operands. -/
theorem works {behind there : Nat}
    (works : instruction.Works surroundings behind store taken left later there)
    (handles : instruction.Handles popped pushed)
    (allowed : ∀ value ∈ taken, discipline.allows store value) :
    discipline.follows store later ∧ ∀ value ∈ left, discipline.allows later value := by
  have same := lawful.refl obeys
  cases works with
  | nop | jump => exact ⟨same, nofun⟩
  | pop | yieldValue | falseJumps | falseStays | falseDrops | trueDrops => exact ⟨same, nofun⟩
  | checkStep | falseKeeps | trueKeeps => exact ⟨same, allowed⟩
  | @pushConst constant =>
      refine ⟨same, List.forall_mem_singleton.mpr (lawful.plain ?_)⟩
      cases constant <;> trivial
  | loadStatic gives => exact (lawful.loadStatic obeys).given gives
  | unary gives => exact (lawful.unary obeys).given gives
  | binary gives =>
      exact (lawful.binary obeys (allowed _ (by simp)) (allowed _ (by simp))).given gives
  | loadField gives => exact (lawful.loadField obeys).given gives
  | @storeField name target value later gives =>
      have follows := @Lawful.storeField _ _ _ lawful obeys target value name (allowed _ (by simp))
      rw [gives] at follows
      exact ⟨follows, nofun⟩
  | loadIndex gives =>
      exact (lawful.loadIndex obeys (.inr (allowed _ (by simp))) (allowed _ (by simp))).given gives
  | @storeIndex target index value later gives =>
      have follows := @Lawful.storeIndex _ _ _ lawful obeys target index value
        (allowed _ (by simp)) (allowed _ (by simp)) (allowed _ (by simp))
      rw [gives] at follows
      exact ⟨follows, nofun⟩
  | callHost gives => exact (lawful.callNamed obeys allowed).given gives
  | callStatic gives => exact (lawful.callStatic obeys allowed).given gives
  | @callMethod name receiver value args later gives =>
      have called := @Lawful.callMember _ _ _ lawful obeys args receiver name allowed
      rw [gives] at called
      exact ⟨called.1, List.forall_mem_singleton.mpr (called.2 _ rfl)⟩
  | makeArray =>
      have made := lawful.newArray obeys fun value present =>
        allowed value (List.mem_toArray.mp present)
      exact ⟨made.1, List.forall_mem_singleton.mpr made.2⟩
  | makeClosure =>
      cases handles with
      | plain effect => cases effect
  | getIterator gives => exact (lawful.toIterator obeys (allowed _ (by simp))).given gives
  | @iterMoveNext id advanced later gives =>
      have follows := @Lawful.moveNext _ _ _ lawful obeys id
      rw [gives] at follows
      exact ⟨follows, List.forall_mem_singleton.mpr (lawful.plain trivial)⟩
  | iterCurrent => exact ⟨same, List.forall_mem_singleton.mpr (lawful.current obeys)⟩

/-! ## Steps that may fault -/

omit lawful obeys

section Results

variable {capacity ip base depth : Nat} {values : List Value} {debug : List DebugContext}

theorem store_deliver (result : Except RuntimeFault Value × Store) :
    (deliver capacity values ip base depth debug result).2.store = result.2 := by
  rcases result with ⟨_ | value, later⟩
  · rfl
  · rw [deliver]
    split <;> rfl

theorem store_settle (result : Except RuntimeFault Unit × Store) :
    (settle capacity values ip base depth debug result).2.store = result.2 := by
  rcases result with ⟨_ | value, later⟩ <;> rfl

/-- Once the function of a closure is found, nothing more happens to the store. -/
theorem store_callClosure {id : ClosureId} {program : Program} :
    ((Step.callClosure program id args).run
        ⟨.ofList capacity values, ip, base, depth, debug, store⟩).2.store =
      (Effect.resolveClosure program id (args.length + 1) store).2 := by
  rcases resolved : Effect.resolveClosure program id (args.length + 1) store with ⟨fault | offset, later⟩
  · rw [run_callClosure_fault resolved]
  · rcases Nat.lt_or_ge capacity (values.length + args.length + 3) with full | room
    · rcases @run_callClosure_full capacity ip base depth values args debug store id offset later
        program full resolved with ⟨more, fails⟩
      rw [fails]
    · rw [run_callClosure room resolved]

theorem step_callMethod (lawful : discipline.Lawful surroundings) (obeys : discipline.obeys store)
    {receiver : Value} {name : String}
    (allowed : ∀ value ∈ receiver :: args, discipline.allows store value) :
    discipline.follows store ((ScriptMachine.step surroundings (.callMethod name args.length)).run
      ⟨.ofList capacity (values ++ receiver :: args), ip, base, depth, debug, store⟩).2.store := by
  have called := @Lawful.callMember _ _ _ lawful obeys args receiver name allowed
  rw [ScriptMachine.step_callMethod]
  generalize Effect.callMember surroundings.registry receiver name args store = result at called ⊢
  rcases result with ⟨fault | member, later⟩
  · exact called.1
  · cases member with
    | value value =>
        dsimp only [Step.finishMember]
        rw [run_push_next, store_deliver]
        exact called.1
    | closure id =>
        have further := @Lawful.resolveClosure _ _ _ lawful (lawful.kept obeys called.1) id
          (args.length + 1)
        have entered := @store_callClosure later args capacity ip base depth values debug id
          surroundings.program
        dsimp only [Step.finishMember]
        rw [Step.run_bind]
        generalize (Step.callClosure surroundings.program id args).run
          ⟨.ofList capacity values, ip, base, depth, debug, later⟩ = result at entered
        rw [← entered] at further
        rcases result with ⟨_ | _, latest⟩ <;> exact lawful.trans called.1 further

theorem step_invokeClosure (lawful : discipline.Lawful surroundings)
    (obeys : discipline.obeys store) {callee : Value} :
    discipline.follows store ((ScriptMachine.step surroundings (.invokeClosure args.length)).run
      ⟨.ofList capacity (values ++ callee :: args), ip, base, depth, debug, store⟩).2.store := by
  cases callee with
  | closure id =>
      have further := @Lawful.resolveClosure _ _ _ lawful obeys id (args.length + 1)
      rw [step_invokeClosure_callee, Step.run_bind, Step.run_resolveClosure, Step.run_onStore]
      generalize Effect.resolveClosure surroundings.program id (args.length + 1) store = result
        at further ⊢
      rcases result with ⟨fault | offset, later⟩
      · exact further
      · dsimp only
        have blind := Step.Blind.bind (Step.Blind.enterCall offset (args.length + 1)) fun _ =>
          Step.Blind.pure Control.next
        rw [blind.keeps]
        exact further
  | _ =>
      rw [step_invokeClosure_notCallable fun _ => Value.noConfusion]
      exact lawful.refl obeys

/-- The store after an instruction with allowed operands, whether it faults or not. -/
theorem step (lawful : discipline.Lawful surroundings) (obeys : discipline.obeys store)
    (handles : instruction.Handles popped pushed) (matched : Matches Tag.Admits popped args)
    (allowed : ∀ value ∈ args, discipline.allows store value) :
    discipline.follows store ((ScriptMachine.step surroundings instruction).run
      ⟨.ofList capacity (values ++ args), ip, base, depth, debug, store⟩).2.store := by
  have same := lawful.refl obeys
  have length := matched.length
  cases handles with
  | @plain _ taken left effect =>
      rw [List.length_replicate] at length
      cases instruction with
      | nop => exact same
      | pushConst constant =>
          rw [step_pushConst, store_deliver]
          exact same
      | loadStatic typeName name bound =>
          rw [step_loadStatic, store_deliver]
          exact (lawful.loadStatic obeys).follows
      | pop =>
          cases effect
          rcases List.length_eq_one_iff.mp length with ⟨value, rfl⟩
          rw [step_pop]
          exact same
      | yieldValue =>
          cases effect
          rcases List.length_eq_one_iff.mp length with ⟨value, rfl⟩
          rw [step_yieldValue]
          exact same
      | unary operator =>
          cases effect
          rcases List.length_eq_one_iff.mp length with ⟨value, rfl⟩
          rw [step_unary, store_deliver]
          exact (lawful.unary obeys).follows
      | loadField name =>
          cases effect
          rcases List.length_eq_one_iff.mp length with ⟨value, rfl⟩
          rw [step_loadField, store_deliver]
          exact (lawful.loadField obeys).follows
      | checkStep =>
          cases effect
          rcases List.length_eq_one_iff.mp length with ⟨value, rfl⟩
          rw [step_checkStep]
          split <;> exact same
      | binary operator =>
          cases effect
          rcases List.length_eq_two.mp length with ⟨left, right, rfl⟩
          rw [step_binary, store_deliver]
          exact (lawful.binary obeys (allowed _ (by simp)) (allowed _ (by simp))).follows
      | loadIndex =>
          cases effect
          rcases List.length_eq_two.mp length with ⟨target, index, rfl⟩
          rw [step_loadIndex, store_deliver]
          exact (lawful.loadIndex obeys (.inr (allowed _ (by simp))) (allowed _ (by simp))).follows
      | storeField name =>
          cases effect
          rcases List.length_eq_two.mp length with ⟨target, value, rfl⟩
          rw [step_storeField, store_settle]
          exact lawful.storeField obeys (allowed _ (by simp))
      | storeIndex =>
          cases effect
          rcases List.length_eq_three.mp length with ⟨target, index, value, rfl⟩
          rw [step_storeIndex, store_settle]
          exact lawful.storeIndex obeys (allowed _ (by simp)) (allowed _ (by simp))
            (allowed _ (by simp))
      | callHost name argc binding =>
          cases effect
          subst length
          rw [step_callHost, store_deliver]
          exact (lawful.callNamed obeys allowed).follows
      | callStatic typeName name argc bound =>
          cases effect
          subst length
          rw [step_callStatic, store_deliver]
          exact (lawful.callStatic obeys allowed).follows
      | makeArray count =>
          cases effect
          subst length
          rw [step_makeArray, store_deliver]
          exact (lawful.newArray obeys fun value present =>
            allowed value (List.mem_toArray.mp present)).1
      | callMethod name argc =>
          cases effect
          rcases List.exists_cons_of_length_eq_add_one length with ⟨receiver, args, rfl⟩
          cases Nat.succ.inj length
          exact lawful.step_callMethod obeys allowed
      | invokeClosure argc =>
          cases effect
          rcases List.exists_cons_of_length_eq_add_one length with ⟨callee, args, rfl⟩
          cases Nat.succ.inj length
          exact lawful.step_invokeClosure obeys
      | _ => cases effect
  | pop =>
      rcases List.length_eq_one_iff.mp length with ⟨value, rfl⟩
      rw [step_pop]
      exact same
  | loadKept =>
      rcases List.length_eq_two.mp length with ⟨target, index, rfl⟩
      rw [step_loadIndex, store_deliver]
      exact (lawful.loadIndex obeys (.inr (allowed _ (by simp))) (allowed _ (by simp))).follows
  | storeKept =>
      rcases List.length_eq_three.mp length with ⟨target, index, value, rfl⟩
      rw [step_storeIndex, store_settle]
      exact lawful.storeIndex obeys (allowed _ (by simp)) (allowed _ (by simp))
        (allowed _ (by simp))
  | getIterator =>
      rcases List.length_eq_one_iff.mp length with ⟨value, rfl⟩
      rw [step_getIterator, store_deliver]
      exact (lawful.toIterator obeys (allowed _ (by simp))).follows
  | iterMoveNext =>
      rcases matched with ⟨_, _, rfl, ⟨id, rfl⟩, rfl⟩
      rw [List.nil_append, step_iterMoveNext, store_deliver]
      exact lawful.moveNext obeys
  | iterCurrent =>
      rcases matched with ⟨_, _, rfl, ⟨id, rfl⟩, rfl⟩
      rw [List.nil_append, step_iterCurrent, store_deliver]
      exact same
  | jump =>
      cases List.length_eq_zero_iff.mp length
      exact same
  | jumpIfFalse =>
      rcases List.length_eq_one_iff.mp length with ⟨value, rfl⟩
      rw [step_jumpIfFalse]
      exact same
  | falseKeeps | falseDrops =>
      rcases List.length_eq_one_iff.mp length with ⟨value, rfl⟩
      rw [step_jumpIfFalseKeep]
      split <;> exact same
  | trueKeeps | trueDrops =>
      rcases List.length_eq_one_iff.mp length with ⟨value, rfl⟩
      rw [step_jumpIfTrueKeep]
      split <;> exact same

end Results

end Lawful

end Discipline

end ScriptMachine
