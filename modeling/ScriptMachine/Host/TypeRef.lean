/-!
# Declared types

The type that a host function declares for a parameter, or a host type for its base. A generic name
stands for a type that the argument of a call determines.
-/

namespace ScriptMachine

/-- A type as the host declares it. -/
inductive TypeRef where
  /-- Accepts everything, in the last resort. -/
  | any
  | named (name : String)
  | nullable (inner : TypeRef)
  | generic (name : String)
  /-- A generic type with its arguments. -/
  | applied (base : String) (args : List TypeRef)
deriving Inhabited

namespace TypeRef

mutual

/-- Whether two types are the same. -/
def decEq : (left right : TypeRef) → Decidable (left = right)
  | .any, .any => isTrue rfl
  | .named left, .named right =>
      if same : left = right then isTrue (by rw [same]) else isFalse (by simp [same])
  | .nullable left, .nullable right =>
      match decEq left right with
      | isTrue same => isTrue (by rw [same])
      | isFalse differ => isFalse (by simp [differ])
  | .generic left, .generic right =>
      if same : left = right then isTrue (by rw [same]) else isFalse (by simp [same])
  | .applied leftBase leftArgs, .applied rightBase rightArgs =>
      if same : leftBase = rightBase then
        match decEqList leftArgs rightArgs with
        | isTrue sameArgs => isTrue (by rw [same, sameArgs])
        | isFalse differ => isFalse (by simp [differ])
      else isFalse (by simp [same])
  | .any, .named _ | .any, .nullable _ | .any, .generic _ | .any, .applied _ _
  | .named _, .any | .named _, .nullable _ | .named _, .generic _ | .named _, .applied _ _
  | .nullable _, .any | .nullable _, .named _ | .nullable _, .generic _ | .nullable _, .applied _ _
  | .generic _, .any | .generic _, .named _ | .generic _, .nullable _ | .generic _, .applied _ _
  | .applied _ _, .any | .applied _ _, .named _ | .applied _ _, .nullable _
  | .applied _ _, .generic _ => isFalse nofun

/-- Whether two lists of types are the same. -/
def decEqList : (left right : List TypeRef) → Decidable (left = right)
  | [], [] => isTrue rfl
  | leftHead :: leftRest, rightHead :: rightRest =>
      match decEq leftHead rightHead with
      | isTrue same =>
          match decEqList leftRest rightRest with
          | isTrue sameRest => isTrue (by rw [same, sameRest])
          | isFalse differ => isFalse (by simp [differ])
      | isFalse differ => isFalse (by simp [differ])
  | [], _ :: _ | _ :: _, [] => isFalse nofun

end

instance : DecidableEq TypeRef := decEq

/-- The name of the outermost type that has one. -/
def baseName? : TypeRef → Option String
  | .any | .generic _ => none
  | .named name => some name
  | .nullable inner => inner.baseName?
  | .applied base _ => some base

mutual

/-- The text that messages and listings show. -/
def render : TypeRef → String
  | .any => "any"
  | .named name => name
  | .nullable inner => inner.render ++ "?"
  | .generic name => "'" ++ name
  | .applied base args => base ++ "<" ++ ", ".intercalate (renderAll args) ++ ">"

def renderAll : List TypeRef → List String
  | [] => []
  | item :: rest => item.render :: renderAll rest

end

end TypeRef

end ScriptMachine
