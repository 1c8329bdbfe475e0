import Mathlib.Data.Finset.Card
import Mathlib.Data.List.Forall2
import ScriptMachine.Value.Rendering

/-!
# What the text of a value shows

Arrays may hold each other in any way, themselves too. Going down into them still ends as long as no
array is entered that is being written already, because the arrays that are not grow fewer. So a
value is shown as a finite tree. The formatter writes the pieces of that tree, whatever the outlet
does with them, and leaves the notes on active arrays as they were.
-/

namespace ScriptMachine

/-! ## Going down into arrays -/

namespace Store

variable {store : Store} {active : List ArrayId} {id : ArrayId}

/-- How many arrays are not being written. -/
def unvisited (store : Store) (active : List ArrayId) : Nat :=
  ((Finset.range store.arrays.size).filter fun index => ⟨index⟩ ∉ active).card

theorem unvisited_le : store.unvisited active ≤ store.arrays.size :=
  (Finset.card_filter_le _ _).trans (Nat.le_of_eq (Finset.card_range _))

theorem unvisited_cons_lt (fresh : id ∉ active) (inside : id.index < store.arrays.size) :
    store.unvisited (id :: active) < store.unvisited active := by
  apply Finset.card_lt_card
  rw [Finset.ssubset_iff_of_subset]
  · exact ⟨id.index, by simp [inside, fresh], by simp⟩
  · intro index member
    simp only [Finset.mem_filter, List.mem_cons, not_or] at member ⊢
    exact ⟨member.1, member.2.2⟩

theorem array_eq_empty (absent : store.arrays.size ≤ id.index) : store.array id = #[] := by
  rw [array, Array.getD_eq_getD_getElem?, Array.getElem?_eq_none absent]
  rfl

theorem inside_of_mem {item : Value} (member : item ∈ (store.array id).toList) :
    id.index < store.arrays.size := by
  by_contra absent
  simp [array_eq_empty (Nat.le_of_not_lt absent)] at member

end Store

theorem Value.flat_or_array (value : Value) :
    (∀ id, value ≠ .array id) ∨ ∃ id, value = .array id :=
  forall_or_exists_not _ |>.imp_right fun ⟨id, same⟩ => ⟨id, not_not.mp same⟩

/-- Induction on a value along the arrays that are entered, none of them twice. -/
theorem Value.nesting_induction (store : Store) {motive : List ArrayId → Value → Prop}
    (flat : ∀ active value, (∀ id, value ≠ .array id) → motive active value)
    (nested : ∀ active id, id ∈ active → motive active (.array id))
    (entered : ∀ active id, id ∉ active →
      (∀ item ∈ (store.array id).toList, motive (id :: active) item) → motive active (.array id))
    (active : List ArrayId) (value : Value) : motive active value := by
  induction fewer : store.unvisited active using Nat.strongRecOn generalizing active value with
  | ind count ih =>
      cases value with
      | array id =>
          by_cases fresh : id ∈ active
          · exact nested active id fresh
          · refine entered active id fresh fun item member => ih _ ?_ _ item rfl
            exact fewer ▸ Store.unvisited_cons_lt fresh (Store.inside_of_mem member)
      | _ => exact flat active _ fun id => nofun

/-! ## Trees -/

/-- What is seen of a value in its text. -/
inductive Shown where
  /-- A value with a text of its own. -/
  | flat (value : Value)
  /-- The mark in place of an array. -/
  | mark (id : ArrayId)
  /-- All elements of an array. -/
  | full (id : ArrayId) (items : List Shown)

namespace Shown

/-- Pieces of several texts with commas between them. -/
def separated : List (List String) → List String
  | [] => []
  | first :: rest => first ++ rest.flatMap fun pieces => ", " :: pieces

def pieces (store : Store) (form : TextForm) : Shown → List String
  | flat value => [value.surface store form]
  | mark _ => [nestedMark]
  | full _ items => "[" :: separated (items.map (pieces store form)) ++ ["]"]

def text (store : Store) (form : TextForm) (shown : Shown) : String :=
  String.join (shown.pieces store form)

/-- What is seen at a place, given by the positions on the way to it. -/
def at? : Shown → List Nat → Option Shown
  | shown, [] => some shown
  | full _ items, index :: place => items[index]?.bind fun item => item.at? place
  | _, _ :: _ => none

end Shown

/-- What is seen of a value while the arrays in `active` are being written. -/
def Value.shown (store : Store) (active : List ArrayId) : Value → Shown
  | .array id =>
      if id ∈ active then .mark id
      else if id.index < store.arrays.size then
        .full id ((store.array id).toList.map (shown store (id :: active)))
      else .full id []
  | value => .flat value
termination_by store.unvisited active
decreasing_by exact Store.unvisited_cons_lt ‹_› ‹_›

namespace Value

variable {store : Store} {active : List ArrayId} {value : Value} {id : ArrayId}

theorem shown_flat (flat : ∀ id, value ≠ .array id) : value.shown store active = .flat value := by
  cases value with
  | array id => exact absurd rfl (flat id)
  | _ => rw [shown]; nofun

theorem shown_nested (nested : id ∈ active) : (array id).shown store active = .mark id := by
  rw [shown, if_pos nested]

theorem shown_entered (fresh : id ∉ active) :
    (array id).shown store active =
      .full id ((store.array id).toList.map (shown store (id :: active))) := by
  rw [shown, if_neg fresh]
  split
  · rfl
  · rename_i absent
    rw [Store.array_eq_empty (Nat.le_of_not_lt absent)]
    rfl

end Value

/-! ## Writing -/

section Writing

variable {σ : Type}

/-- What comes of pieces that are offered one after the other, until one is refused. -/
def Outlet.offer (takes : Outlet σ) : List String → σ → Except Interruption Unit × σ
  | [], outlet => (.ok (), outlet)
  | piece :: rest, outlet =>
      match takes piece outlet with
      | (true, after) => offer takes rest after
      | (false, after) => (.error .refused, after)

theorem Outlet.offer_append (takes : Outlet σ) (first second : List String) (outlet : σ) :
    takes.offer (first ++ second) outlet =
      match takes.offer first outlet with
      | (.ok _, after) => takes.offer second after
      | (.error reason, after) => (.error reason, after) := by
  induction first generalizing outlet with
  | nil => rfl
  | cons piece rest ih =>
      rw [List.cons_append, offer, offer]
      split
      · exact ih _
      · rfl

theorem Outlet.offer_memory (pieces : List String) (text : String) :
    Outlet.memory.offer pieces text = (.ok (), pieces.foldl (· ++ ·) text) := by
  induction pieces generalizing text with
  | nil => rfl
  | cons piece rest ih => exact ih _

namespace Formatter

/-- A formatter that offers these pieces while the arrays in `active` are being written, and leaves
the notes on them as they were, also when it is interrupted. -/
def Writes (takes : Outlet σ) (active : List ArrayId) (formatter : Formatter σ Unit)
    (pieces : List String) : Prop :=
  ∀ outlet, formatter.run ⟨active, outlet⟩ =
    ((takes.offer pieces outlet).1, ⟨active, (takes.offer pieces outlet).2⟩)

variable {takes : Outlet σ} {active : List ArrayId} {first second body : Formatter σ Unit}
  {firstPieces secondPieces pieces : List String}

theorem writes_pure : Writes takes active (pure ()) [] := fun _ => rfl

theorem run_seq (formatting : Formatting σ) :
    (do first; second : Formatter σ Unit).run formatting =
      match first.run formatting with
      | (.ok _, after) => second.run after
      | (.error reason, after) => (.error reason, after) := by
  have unfolded : (do first; second : Formatter σ Unit).run formatting =
      ExceptT.bindCont (fun _ => second) (first.run formatting).1 (first.run formatting).2 := rfl
  rw [unfolded]
  rcases first.run formatting with ⟨_ | _, after⟩ <;> rfl

theorem run_finally (last : Formatting σ → Formatting σ) (formatting : Formatting σ) :
    (try body finally modify last : Formatter σ Unit).run formatting =
      ((body.run formatting).1, last (body.run formatting).2) := by
  rcases ended : body formatting with ⟨_ | _, after⟩ <;>
    simp [tryFinally, tryFinally', ExceptT.run, ExceptT.mk, Functor.map, ExceptT.map, bind,
      StateT.bind, ended] <;>
    rfl

theorem run_write (piece : String) (formatting : Formatting σ) :
    (write takes piece).run formatting =
      (if (takes piece formatting.outlet).1 then .ok () else .error .refused,
        { formatting with outlet := (takes piece formatting.outlet).2 }) := by
  change (if (takes piece formatting.outlet).1 then pure () else throw .refused :
    Formatter σ Unit).run _ = _
  split <;> rfl

theorem run_within (id : ArrayId) (formatting : Formatting σ) :
    (within takes id body).run formatting =
      if formatting.active.contains id then (write takes nestedMark).run formatting
      else
        let ended := body.run { formatting with active := id :: formatting.active }
        (ended.1, { ended.2 with active := ended.2.active.tail }) := by
  change (if formatting.active.contains id then write takes nestedMark else _).run _ = _
  split
  · rfl
  · exact run_finally _ _

theorem writes_write (piece : String) : Writes takes active (write takes piece) [piece] := by
  intro outlet
  rw [run_write, Outlet.offer]
  rcases takes piece outlet with ⟨_ | _, after⟩ <;> rfl

theorem Writes.seq (one : Writes takes active first firstPieces)
    (other : Writes takes active second secondPieces) :
    Writes takes active (do first; second) (firstPieces ++ secondPieces) := by
  intro outlet
  rw [run_seq, one, Outlet.offer_append]
  rcases takes.offer firstPieces outlet with ⟨_ | _, after⟩
  · rfl
  · exact other after

theorem writes_within_nested {id : ArrayId} (nested : id ∈ active) :
    Writes takes active (within takes id body) [nestedMark] := by
  intro outlet
  rw [run_within, if_pos (by simpa using nested)]
  exact writes_write nestedMark outlet

theorem Writes.within {id : ArrayId} (fresh : id ∉ active)
    (writes : Writes takes (id :: active) body pieces) :
    Writes takes active (within takes id body) pieces := by
  intro outlet
  rw [run_within, if_neg (by simpa using fresh), writes]
  rfl

section Lists

variable {α : Type} {items : List α} {body : α → Formatter σ Unit} {pieces : α → List String}

theorem writes_rest (each : ∀ item ∈ items, Writes takes active (body item) (pieces item)) :
    Writes takes active ((items.map body).forM fun item => do write takes ", "; item)
      ((items.map pieces).flatMap fun pieces => ", " :: pieces) := by
  induction items with
  | nil => exact writes_pure
  | cons item rest ih =>
      rw [List.forall_mem_cons] at each
      exact ((writes_write ", ").seq each.1).seq (ih each.2)

theorem writes_separated (each : ∀ item ∈ items, Writes takes active (body item) (pieces item)) :
    Writes takes active (separated takes (items.map body))
      (Shown.separated (items.map pieces)) := by
  cases items with
  | nil => exact writes_pure
  | cons item rest =>
      rw [List.forall_mem_cons] at each
      exact each.1.seq (writes_rest each.2)

theorem writes_bracketed (each : ∀ item ∈ items, Writes takes active (body item) (pieces item)) :
    Writes takes active (bracketed takes (items.map body))
      ("[" :: Shown.separated (items.map pieces) ++ ["]"]) :=
  (writes_write "[").seq ((writes_separated each).seq (writes_write "]"))

end Lists

end Formatter

end Writing

namespace Value

variable {σ : Type} {store : Store}

theorem format_flat {value : Value} (flat : ∀ id, value ≠ .array id) (takes : Outlet σ)
    (form : TextForm) (bound : Nat) :
    value.format takes store form bound = Formatter.write takes (value.surface store form) := by
  cases value with
  | array id => exact absurd rfl (flat id)
  | _ => cases bound <;> rfl

/-- The formatter writes the tree of a value, whatever the bound, if it is large enough. -/
theorem format_writes (takes : Outlet σ) (form : TextForm) (active : List ArrayId) (value : Value)
    (bound : Nat) (enough : store.unvisited active < bound) :
    (value.format takes store form bound).Writes takes active
      ((value.shown store active).pieces store form) := by
  induction active, value using nesting_induction store generalizing bound with
  | flat active value flat =>
      rw [format_flat flat, shown_flat flat, Shown.pieces]
      exact Formatter.writes_write _
  | nested active id nested =>
      rw [shown_nested nested, Shown.pieces]
      cases bound <;> exact Formatter.writes_within_nested nested
  | entered active id fresh ih =>
      cases bound with
      | zero => exact absurd enough (Nat.not_lt_zero _)
      | succ bound =>
          rw [shown_entered fresh, Shown.pieces, List.map_map]
          refine .within fresh <| Formatter.writes_bracketed fun item member =>
            ih item member bound ?_
          have fewer := Store.unvisited_cons_lt fresh (Store.inside_of_mem member)
          omega

theorem text_eq (form : TextForm) (value : Value) :
    value.text store form = (value.shown store []).text store form := by
  have writes := format_writes Outlet.memory form [] value (store.arrays.size + 1)
    (Nat.lt_succ_of_le Store.unvisited_le) ""
  rw [Outlet.offer_memory] at writes
  exact congrArg (fun ended => ended.2.outlet) writes

end Value

/-! ## Occurrences -/

/-- What is found at a place in a value, given by the positions on the way to it, and the arrays
that are passed on the way, the outermost first. -/
inductive Store.Occurs (store : Store) : Value → List Nat → List ArrayId → Value → Prop
  | here (value : Value) : Occurs store value [] [] value
  | inside {id : ArrayId} {index : Nat} {item found : Value} {place : List Nat}
      {passed : List ArrayId} (held : (store.array id)[index]? = some item)
      (deeper : Occurs store item place passed found) :
      Occurs store (.array id) (index :: place) (id :: passed) found

/-- How a value is shown. -/
inductive Manner where
  /-- By a text of its own. -/
  | flat (value : Value)
  /-- An array, by the mark. -/
  | mark (id : ArrayId)
  /-- An array, with so many elements. -/
  | full (id : ArrayId) (count : Nat)

def Shown.manner : Shown → Manner
  | flat value => .flat value
  | mark id => .mark id
  | full id items => .full id items.length

/-- How a value is to be shown inside these arrays. -/
def Value.manner (store : Store) (inside : List ArrayId) : Value → Manner
  | .array id => if id ∈ inside then .mark id else .full id (store.array id).size
  | value => .flat value

theorem Store.occurs_nil {store : Store} {value found : Value} {passed : List ArrayId} :
    store.Occurs value [] passed found ↔ passed = [] ∧ found = value := by
  constructor
  · intro occurs
    cases occurs
    exact ⟨rfl, rfl⟩
  · rintro ⟨rfl, rfl⟩
    exact .here _

namespace Value

variable {store : Store} {active : List ArrayId} {value : Value} {id : ArrayId}

theorem manner_flat (flat : ∀ id, value ≠ .array id) (inside : List ArrayId) :
    value.manner store inside = .flat value := by
  rcases value with _ | _ | _ | _ | _ | id
  case array => exact absurd rfl (flat id)
  all_goals rfl

/-- It does not matter in which order arrays were passed. -/
theorem manner_passed (passed : List ArrayId) (value : Value) :
    value.manner store (id :: passed ++ active) = value.manner store (passed ++ id :: active) := by
  cases value with
  | array other =>
      simp only [manner, List.cons_append, List.mem_cons, List.mem_append, or_left_comm]
  | _ => rfl

theorem manner_shown : (value.shown store active).manner = value.manner store active := by
  rcases value.flat_or_array with flat | ⟨id, rfl⟩
  · rw [shown_flat flat, manner_flat flat, Shown.manner]
  · by_cases nested : id ∈ active
    · simp [shown_nested nested, Shown.manner, manner, nested]
    · simp [shown_entered nested, Shown.manner, manner, nested]

theorem at?_shown_entered (fresh : id ∉ active) (index : Nat) (place : List Nat) :
    ((array id).shown store active).at? (index :: place) =
      (store.array id)[index]?.bind fun item => (item.shown store (id :: active)).at? place := by
  rw [shown_entered fresh, Shown.at?, List.getElem?_map, Array.getElem?_toList, Option.bind_map]
  rfl

/-- What is seen at a place is what is found there, provided that no array is passed twice on the
way. It is marked if it is an array that was passed. -/
theorem manner_at?_shown (place : List Nat) (manner : Manner) :
    ((value.shown store active).at? place).map Shown.manner = some manner ↔
      ∃ passed found, store.Occurs value place passed found ∧ passed.Nodup ∧
        passed.Disjoint active ∧ found.manner store (passed ++ active) = manner := by
  induction place generalizing active value with
  | nil => simp [Shown.at?, manner_shown, Store.occurs_nil]
  | cons index place ih =>
      constructor
      · intro seen
        -- Something is seen inside, so this is an array that is entered.
        rcases value.flat_or_array with flat | ⟨id, rfl⟩
        · rw [shown_flat flat] at seen
          cases seen
        by_cases fresh : id ∈ active
        · rw [shown_nested fresh] at seen
          cases seen
        rw [at?_shown_entered fresh, Option.map_bind, Option.bind_eq_some_iff] at seen
        obtain ⟨item, held, seen⟩ := seen
        obtain ⟨passed, found, occurs, nodup, apart, rfl⟩ := ih.mp seen
        rw [List.disjoint_cons_right] at apart
        refine ⟨id :: passed, found, .inside held occurs, ?_, ?_, manner_passed passed found⟩
        · exact List.nodup_cons.mpr ⟨apart.1, nodup⟩
        · exact List.disjoint_cons_left.mpr ⟨fresh, apart.2⟩
      · rintro ⟨_, found, occurs, nodup, apart, rfl⟩
        cases occurs with
        | @inside id _ item _ _ passed held occurs =>
            rw [List.nodup_cons] at nodup
            rw [List.disjoint_cons_left] at apart
            rw [at?_shown_entered apart.1, held]
            exact ih.mpr ⟨passed, found, occurs, nodup.2,
              List.disjoint_cons_right.mpr ⟨nodup.1, apart.2⟩, (manner_passed passed found).symm⟩

end Value

/-- Formatting ends, for every value of every store, and leaves the notes on active arrays as they
were. What it writes is a tree in which every occurrence of a value is seen that can be reached
without passing an array twice: an array that is being passed by its mark, any other one in full. -/
theorem formatting_ends_as_it_began (store : Store) (value : Value) (active : List ArrayId) :
    ∃ shown : Shown,
      (∀ place manner, (shown.at? place).map Shown.manner = some manner ↔
        ∃ passed found, store.Occurs value place passed found ∧ passed.Nodup ∧
          passed.Disjoint active ∧ found.manner store (passed ++ active) = manner) ∧
      (∀ (σ : Type) (takes : Outlet σ) (outlet : σ) (form : TextForm) (bound : Nat),
        store.arrays.size < bound →
          (value.format takes store form bound).run ⟨active, outlet⟩ =
            ((takes.offer (shown.pieces store form) outlet).1,
              ⟨active, (takes.offer (shown.pieces store form) outlet).2⟩)) ∧
      (active = [] → value.display store = shown.text store .plain ∧
        value.inspect store = shown.text store .exact) := by
  refine ⟨value.shown store active, Value.manner_at?_shown, ?_, ?_⟩
  · intro σ takes outlet form bound enough
    exact Value.format_writes takes form active value bound
      (Store.unvisited_le.trans_lt enough) outlet
  · rintro rfl
    exact ⟨Value.text_eq .plain value, Value.text_eq .exact value⟩

/-- An array with twice the same array in it, and then itself. -/
example :
    let store : Store := { Store.empty with
      arrays := #[#[.array ⟨1⟩, .array ⟨1⟩, .array ⟨0⟩], #[.bool true]] }
    (Value.array ⟨0⟩).display store = "[[true], [true], [...]]" := by decide

/-! ## Stores that look the same -/

/-- Values of two stores that cannot be told apart by their texts. Arrays hold such values, and are
the same array in one store where their partners are in the other. -/
structure Store.LooksLike (first second : Store) (arrays : ArrayId → ArrayId → Prop)
    (values : Value → Value → Prop) : Prop where
  one_to_one : ∀ {here there other otherThere}, arrays here there → arrays other otherThere →
    (here = other ↔ there = otherThere)
  items : ∀ {here there}, arrays here there →
    List.Forall₂ values (first.array here).toList (second.array there).toList
  split : ∀ {one other}, values one other →
    (∃ here there, arrays here there ∧ one = .array here ∧ other = .array there) ∨
      (∀ id, one ≠ .array id) ∧ (∀ id, other ≠ .array id) ∧
        ∀ form, one.surface first form = other.surface second form

namespace Store.LooksLike

variable {first second : Store} {arrays : ArrayId → ArrayId → Prop}
  {values : Value → Value → Prop} {path pathTwin : List ArrayId} {here there : ArrayId}
  {one other : Value}

theorem mem_iff (alike : first.LooksLike second arrays values)
    (along : List.Forall₂ arrays path pathTwin) (paired : arrays here there) :
    here ∈ path ↔ there ∈ pathTwin := by
  induction along with
  | nil => simp
  | cons pairedAlong _ ih =>
      rw [List.mem_cons, List.mem_cons, alike.one_to_one paired pairedAlong, ih]

theorem pieces_eq (alike : first.LooksLike second arrays values) (form : TextForm)
    (along : List.Forall₂ arrays path pathTwin) (same : values one other) :
    (one.shown first path).pieces first form =
      (other.shown second pathTwin).pieces second form := by
  induction path, one using Value.nesting_induction first generalizing pathTwin other with
  | flat path one flat =>
      rcases alike.split same with ⟨here, _, _, rfl, _⟩ | ⟨_, flatTwin, surface⟩
      · exact absurd rfl (flat here)
      · rw [Value.shown_flat flat, Value.shown_flat flatTwin, Shown.pieces, Shown.pieces, surface]
  | nested path here nested =>
      rcases alike.split same with ⟨_, there, paired, ⟨⟩, rfl⟩ | ⟨flat, _⟩
      · rw [Value.shown_nested nested, Value.shown_nested ((alike.mem_iff along paired).mp nested),
          Shown.pieces, Shown.pieces]
      · exact absurd rfl (flat here)
  | entered path here fresh ih =>
      rcases alike.split same with ⟨_, there, paired, ⟨⟩, rfl⟩ | ⟨flat, _⟩
      · have freshTwin := mt (alike.mem_iff along paired).mpr fresh
        have texts : (first.array here).toList.map
              (fun item => (item.shown first (here :: path)).pieces first form) =
            (second.array there).toList.map
              fun item => (item.shown second (there :: pathTwin)).pieces second form := by
          have items := alike.items paired
          generalize (first.array here).toList = some at items ih
          generalize (second.array there).toList = others at items
          induction items with
          | nil => rfl
          | cons item _ rest =>
              rw [List.forall_mem_cons] at ih
              rw [List.map_cons, List.map_cons, ih.1 (.cons paired along) item, rest ih.2]
        rw [Value.shown_entered fresh, Value.shown_entered freshTwin, Shown.pieces, Shown.pieces,
          List.map_map, List.map_map]
        exact congrArg (fun texts => "[" :: Shown.separated texts ++ ["]"]) texts
      · exact absurd rfl (flat here)

theorem text_eq (alike : first.LooksLike second arrays values) (form : TextForm)
    (same : values one other) : one.text first form = other.text second form := by
  rw [Value.text_eq, Value.text_eq, Shown.text, Shown.text, alike.pieces_eq form .nil same]

end Store.LooksLike

end ScriptMachine
