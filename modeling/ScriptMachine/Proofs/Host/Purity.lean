import ScriptMachine.Proofs.Value.Likeness

/-!
# Callables that are pure

A callable of the host is pure if it is a function of what its arguments hold. It changes nothing
that is in the store, it gives the same for arguments that are the same up to what they refer to, and
what it returns refers to nothing but to what the arguments refer to and to what is new.

Overload resolution looks at the types of arguments alone, so the same overload is chosen in two
stores, and the values that are passed to it are the same up to what they refer to.
-/

namespace ScriptMachine

/-- Results that fail alike or are related. -/
inductive SameResult {ε α : Type} (same : α → α → Prop) : Except ε α → Except ε α → Prop
  | ok {first second : α} (related : same first second) :
      SameResult same (.ok first) (.ok second)
  | error {failure : ε} : SameResult same (.error failure) (.error failure)

theorem SameResult.of_eq {ε α : Type} {same : α → α → Prop} {first second : Except ε α}
    (equal : first = second) (reflexive : ∀ value, first = .ok value → same value value) :
    SameResult same first second := by
  subst equal
  cases first with
  | ok value => exact .ok (reflexive value rfl)
  | error failure => exact .error

theorem SameResult.mapError {ε δ α : Type} {same : α → α → Prop} {first second : Except ε α}
    (results : SameResult same first second) (change : ε → δ) :
    SameResult same (first.mapError change) (second.mapError change) := by
  cases results with
  | ok related => exact .ok related
  | error => exact .error

/-- A pairing that goes on while the first store only gets new things. -/
structure Pairing.Adds (pairs later : Pairing) (before after : Store) : Prop where
  keeps : ∀ {kind here there}, pairs kind here there → later kind here there
  fresh : ∀ {kind here there}, later kind here there →
    pairs kind here there ∨ before.thing? kind here = none
  still : ∀ {kind here thing}, before.thing? kind here = some thing →
    after.thing? kind here = some thing

theorem Pairing.Adds.later {pairs later : Pairing} {before after : Store}
    (adds : pairs.Adds later before after) : pairs.Later later before after where
  keeps := adds.keeps
  fresh := adds.fresh
  frame found _ := adds.still found
  grows {kind here} absent := by
    cases found : before.thing? kind here with
    | none => rfl
    | some thing => cases absent.symm.trans (adds.still found)

/-- Calls whose arguments are the same up to what they refer to. -/
structure HostCall.Twins (pairs : Pairing) (first second : HostCall) : Prop where
  args : List.Forall₂ (Value.Twins pairs) first.args second.args
  typeArgs : first.typeArgs = second.typeArgs

/-- A host body that is a function of what its arguments hold. -/
def HostBody.Pure (body : HostBody) : Prop :=
  ∀ (pairs : Pairing) (first second : Store) (call twin : HostCall), pairs.Joins first second →
    call.Twins pairs twin →
    ∃ later : Pairing, later.Joins (body call first).2 (body twin second).2 ∧
      pairs.Adds later first (body call first).2 ∧
      SameResult (Value.Twins later) (body call first).1 (body twin second).1

/-- A host whose callables are pure and whose static fields refer to nothing. -/
structure Registry.Pure (registry : Registry) : Prop where
  callables : ∀ function, registry.Offers function → HostBody.Pure function.body
  statics : ∀ entry ∈ registry.types, ∀ field ∈ entry.2.staticFields, field.2.IsPlain

/-! ## Overloads -/

section Overloads

variable {pairs : Pairing} {first second : Store} {args twins : List Value}
  {hierarchy : TypeHierarchy}

theorem Value.Twins.isDefault {one other : Value} (same : one.Twins pairs other) :
    decide (one = .useDefault) = decide (other = .useDefault) := by
  cases same <;> rfl

/-- Only whole numbers are ever converted. -/
theorem Overload.convert_eq_self {value : Value} (other : ∀ number, value ≠ .int number)
    (param : HostParam) (fit : ParamMatch) : convert param fit value = value := by
  unfold convert
  split
  · split
    · exact absurd rfl (other _)
    · exact absurd rfl (other _)
    · rfl
  · rfl

theorem Overload.isPlain_convert (param : HostParam) (fit : ParamMatch) (number : Int64) :
    (convert param fit (.int number)).IsPlain := by
  unfold convert
  split
  · split <;> trivial
  · trivial

theorem Overload.convert_twins {one other : Value} (same : one.Twins pairs other)
    (param : HostParam) (fit : ParamMatch) :
    (convert param fit one).Twins pairs (convert param fit other) := by
  by_cases whole : ∃ number, one = .int number
  · rcases whole with ⟨number, rfl⟩
    cases same
    exact .of_isPlain (isPlain_convert param fit number)
  · have here : ∀ number, one ≠ .int number := fun number equal => whole ⟨number, equal⟩
    have there : ∀ number, other ≠ .int number := by
      rintro number rfl
      cases same
      exact here number rfl
    rwa [convert_eq_self here, convert_eq_self there]

theorem Overload.filled_twins (same : List.Forall₂ (Value.Twins pairs) args twins) (count : Nat) :
    List.Forall₂ (Value.Twins pairs) (args ++ List.replicate (count - args.length) .useDefault)
      (twins ++ List.replicate (count - twins.length) .useDefault) := by
  rw [same.length_eq]
  exact List.rel_append same (List.forall₂_same.mpr fun _ present =>
    List.eq_of_mem_replicate present ▸ .useDefault)

theorem Overload.convertArgs_twins (same : List.Forall₂ (Value.Twins pairs) args twins)
    (params : List HostParam) (fits : List ParamMatch) :
    List.Forall₂ (Value.Twins pairs) (convertArgs params fits args)
      (convertArgs params fits twins) := by
  induction same generalizing params fits with
  | nil =>
      have filled := @filled_twins pairs [] [] .nil params.length
      cases params with
      | nil => exact filled
      | cons param params => cases fits <;> exact filled
  | cons value rest ih =>
      cases params with
      | nil => exact filled_twins (.cons value rest) 0
      | cons param params =>
          cases fits with
          | nil => exact filled_twins (.cons value rest) (params.length + 1)
          | cons fit fits => exact .cons (convert_twins value param fit) (ih params fits)

variable (joins : pairs.Joins first second) (same : List.Forall₂ (Value.Twins pairs) args twins)

include joins same

theorem Overload.evaluateArgs_twins (bindings : Bindings) (params : List HostParam) :
    evaluateArgs hierarchy first bindings args params =
      evaluateArgs hierarchy second bindings twins params := by
  induction same generalizing bindings params with
  | nil => rfl
  | cons value _ ih =>
      cases params with
      | nil => rfl
      | cons param params =>
          simp only [evaluateArgs, value.isDefault, value.runtimeType joins, ih]

theorem Overload.evaluate?_twins (function : HostFunction) :
    evaluate? hierarchy first args function = evaluate? hierarchy second twins function := by
  rw [evaluate?, evaluate?, evaluateArgs_twins joins same, same.length_eq]

end Overloads

/-- Chosen overloads that are the same, with arguments that are twins. -/
structure Resolved.Twins (pairs : Pairing) (first second : Resolved) : Prop where
  function : first.function = second.function
  call : first.call.Twins pairs second.call

section Calls

variable {pairs : Pairing} {first second : Store} {args twins : List Value}
  (joins : pairs.Joins first second) (same : List.Forall₂ (Value.Twins pairs) args twins)

include joins same

/-- Overload resolution chooses alike. -/
theorem resolveOverload_twins (name : String) (candidates : List HostFunction)
    (hierarchy : TypeHierarchy) :
    SameResult (Resolved.Twins pairs) (resolveOverload name candidates args hierarchy first)
      (resolveOverload name candidates twins hierarchy second) := by
  have types : args.map (fun value => (value.runtimeType first).render) =
      twins.map fun value => (value.runtimeType second).render := by
    induction same with
    | nil => rfl
    | cons value _ ih => rw [List.map_cons, List.map_cons, value.runtimeType joins, ih]
  have fitting :
      Overload.evaluate? hierarchy first args = Overload.evaluate? hierarchy second twins :=
    funext fun function => Overload.evaluate?_twins joins same function
  unfold resolveOverload
  rw [fitting, types]
  split
  · exact .error
  · dsimp only
    split
    · exact .ok ⟨rfl, Overload.convertArgs_twins same _ _, rfl⟩
    · exact .error

/-- A type is asked for operators by its name. -/
theorem Registry.operators_twins (registry : Registry) (operator : BinaryOp) :
    registry.operators first operator args = registry.operators second operator twins := by
  refine congrArg (List.flatMap _) (List.rel_foldl (P := Eq) ?_ rfl same)
  rintro seen _ rfl value twin twins
  cases twins with
  | object paired => simp only [(joins.object paired).1]
  | _ => rfl

end Calls

end ScriptMachine
