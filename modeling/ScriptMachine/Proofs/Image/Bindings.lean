import ScriptMachine.Compiler.Binding
import ScriptMachine.Image.Decode
import ScriptMachine.Proofs.Compiler.Pieces

/-!
# What a program is bound to

Compilation binds nothing, so whatever is bound in a program was bound against a registry that has
it. Registrations only add to a registry or put a type in lieu of one of its name, so what is bound
stays there.
-/

namespace ScriptMachine

/-! ## Compiled code is not bound -/

/-- Whether an instruction is free of references into a registry. -/
def Instruction.isUnbound : Instruction → Bool
  | .callHost _ _ binding => binding.isNone
  | .callStatic _ _ _ bound | .loadStatic _ _ bound => !bound
  | _ => true

theorem Frame.Emits.isUnbound {frame : Frame} {instruction : Instruction}
    (emits : frame.Emits instruction) : instruction.isUnbound = true := by
  cases emits with
  | @plain instruction isPlain =>
      cases instruction with
      | callHost => cases isPlain
      | callStatic => exact isPlain
      | loadStatic => exact isPlain
      | _ => rfl
  | loadLocal => rfl
  | storeLocal => rfl
  | call =>
      unfold callInstruction
      split <;> rfl

theorem Program.Compiled.isUnbound {units : List ProgramUnit} {globals : List String}
    {program : Program} {placed : List Placement}
    (compiled : program.Compiled units globals placed) :
    ∀ instruction ∈ program.instructions.toList, instruction.isUnbound = true := by
  intro instruction member
  rw [compiled.instructions] at member
  rcases List.mem_flatMap.mp member with ⟨placement, isPlaced, among⟩
  rcases List.append_of_mem among with ⟨front, back, split⟩
  cases (compiled.composes isPlaced).stands split with
  | alone emits => exact emits.isUnbound
  | carrier => rfl
  | closure => rfl
  | leave => rfl

/-! ## Registries that grow -/

namespace Registry

/-- A registry and those that further registrations make of it. -/
inductive Grows (registry : Registry) : Registry → Prop
  | refl : Grows registry registry
  | function {later : Registry} (grows : Grows registry later) (function : HostFunction) :
      Grows registry (later.registerFunction function)
  | type {later : Registry} (grows : Grows registry later) (type : HostType) :
      Grows registry (later.registerType type)
  | global {later : Registry} (grows : Grows registry later) (store : Store) (name : String)
      (value : Value) : Grows registry (later.registerGlobal store name value).1

variable {registry later : Registry}

theorem overloads_registerFunction (function : HostFunction) (name : String) :
    (registry.registerFunction function).overloads name =
      if name = function.name then registry.overloads name ++ [function]
      else registry.overloads name := by
  simp only [registerFunction, HostType.addOverload, overloads, Dictionary.find?_insert]
  split
  · rename_i same
    subst same
    rfl
  · rfl

theorem registerGlobal_keeps (store : Store) (name : String) (value : Value) :
    (registry.registerGlobal store name value).1.functions = registry.functions ∧
      (registry.registerGlobal store name value).1.types = registry.types := by
  unfold registerGlobal
  split <;> exact ⟨rfl, rfl⟩

/-- Overloads stay, and new ones come behind them. -/
theorem Grows.overloads (grows : registry.Grows later) (name : String) :
    ∃ more, later.overloads name = registry.overloads name ++ more := by
  induction grows with
  | refl => exact ⟨[], (List.append_nil _).symm⟩
  | function _ function ih =>
      rcases ih with ⟨more, same⟩
      rw [overloads_registerFunction]
      split
      · exact ⟨more ++ [function], by rw [same, List.append_assoc]⟩
      · exact ⟨more, same⟩
  | type _ _ ih => exact ih
  | global _ store name value ih =>
      unfold Registry.overloads at ih ⊢
      rw [(registerGlobal_keeps store name value).1]
      exact ih

theorem Grows.type? (grows : registry.Grows later) {name : String}
    (present : (registry.type? name).isSome = true) : (later.type? name).isSome = true := by
  induction grows with
  | refl => exact present
  | function _ _ ih => exact ih
  | type _ type ih =>
      simp only [Registry.type?, registerType, Dictionary.find?_insert]
      split
      · rfl
      · exact ih
  | global _ store name value ih =>
      unfold Registry.type? at ih ⊢
      rw [(registerGlobal_keeps store name value).2]
      exact ih

/-- In a registry made by registrations every overload goes by its own name. -/
theorem Grows.names (made : empty.Grows registry) {name : String} {function : HostFunction}
    (present : function ∈ registry.overloads name) : function.name = name := by
  induction made with
  | refl => cases present
  | function _ added ih =>
      rw [overloads_registerFunction] at present
      split at present
      · rename_i same
        rcases List.mem_append.mp present with before | last
        · exact ih before
        · rw [List.mem_singleton.mp last, same]
      · exact ih present
  | type _ _ ih => exact ih present
  | global _ store name value ih =>
      unfold Registry.overloads at ih present
      rw [(registerGlobal_keeps store name value).1] at present
      exact ih present

theorem Grows.functionBySignature? (grows : registry.Grows later) {name : String}
    {signature : List TypeRef}
    (present : (registry.functionBySignature? name signature).isSome = true) :
    (later.functionBySignature? name signature).isSome = true := by
  rcases grows.overloads name with ⟨more, same⟩
  unfold Registry.functionBySignature? at present ⊢
  rw [same, List.find?_append]
  simp [present]

end Registry

/-! ## Bound programs -/

/-- Whatever is bound against a registry is there, and stays there. -/
theorem Instruction.checkBinding_bind {registry later : Registry}
    (made : Registry.empty.Grows registry) (grows : registry.Grows later)
    {instruction : Instruction} (unbound : instruction.isUnbound = true) :
    Image.checkBinding later ((instruction.bind? registry).getD instruction) = .ok () := by
  cases instruction with
  | callHost name argc binding =>
      cases binding with
      | some reference => cases unbound
      | none =>
          simp only [bind?]
          split
          · rename_i only sole
            have named : only.name = name := made.names (by rw [sole]; exact List.mem_cons_self)
            have present :
                (registry.functionBySignature? name only.signature).isSome = true := by
              simp [Registry.functionBySignature?, sole]
            simp [Image.checkBinding, HostFunction.reference, named,
              grows.functionBySignature? present]
          · rfl
  | callStatic typeName name argc bound =>
      cases bound with
      | true => cases unbound
      | false =>
          simp only [bind?]
          split
          · rename_i present
            simp [Image.checkBinding, grows.type? present]
          · rfl
  | loadStatic typeName name bound =>
      cases bound with
      | true => cases unbound
      | false =>
          simp only [bind?]
          split
          · rename_i present
            simp [Image.checkBinding, grows.type? present]
          · rfl
  | _ => rfl

/-- Binding moves no jump. -/
theorem Instruction.jumpTarget?_bind (registry : Registry) (instruction : Instruction) :
    ((instruction.bind? registry).getD instruction).jumpTarget? = instruction.jumpTarget? := by
  cases instruction with
  | callHost name argc binding =>
      cases binding with
      | some reference => rfl
      | none =>
          simp only [bind?]
          split <;> rfl
  | callStatic typeName name argc bound =>
      cases bound with
      | true => rfl
      | false =>
          simp only [bind?]
          split <;> rfl
  | loadStatic typeName name bound =>
      cases bound with
      | true => rfl
      | false =>
          simp only [bind?]
          split <;> rfl
  | _ => rfl

end ScriptMachine
