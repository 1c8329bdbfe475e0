import Mathlib.Data.List.Perm.Subperm
import ScriptMachine.Proofs.Image.Bindings
import ScriptMachine.Proofs.Value.PairLists

/-!
# Lineages

A host may declare any base for a type: none, one without a name, one that is not registered, or
one that leads back to where it came from. The bases of a type may then lead on without an end,
along the same types again and again. The lineage stops short of the first name that comes back.

Registered types go by the names under which they are found, so a name that comes back is a type
that comes back, and what is behind it is what was behind it before. That is why nothing is missed
by stopping there: the lineage has the ancestors at all distances. It has each of them once, so what
is read along it, such as methods, sees each ancestor once and nearer ones first.

The walk is described step by step, with the types that it has met. The induction is on its steps,
and what carries it is that the types met so far are the ancestors at the first distances and have
different names.
-/

namespace ScriptMachine

namespace Registry

/-- The registered type that the base of a type names. -/
def parent? (registry : Registry) (type : HostType) : Option HostType :=
  type.baseName?.bind registry.type?

/-- The type that is so many bases away from the one of a name, whether or not it is there at a
smaller distance as well. -/
def ancestor? (registry : Registry) (name : String) : Nat → Option HostType
  | 0 => registry.type? name
  | distance + 1 => (registry.ancestor? name distance).bind registry.parent?

/-- The walk along the bases, from the types that were met and the one that is next to all types
that are met in the end. It stops where no type is next, or one with a name that was met. -/
inductive Climbs (registry : Registry) : List HostType → Option HostType → List HostType → Prop
  | top {met : List HostType} : Climbs registry met none met
  | again {met : List HostType} {type : HostType} (seen : type.name ∈ met.map HostType.name) :
      Climbs registry met (some type) met
  | further {met types : List HostType} {type : HostType}
      (fresh : type.name ∉ met.map HostType.name)
      (onward : Climbs registry (met ++ [type]) (registry.parent? type) types) :
      Climbs registry met (some type) types

/-- What keeps a lineage from going on behind its last type. -/
inductive EndsWith (registry : Registry) (lineage : List HostType) (last : HostType) : Prop
  | baseless (without : last.base = none)
  | unnamed {base : TypeRef} (declares : last.base = some base) (without : base.baseName? = none)
  | unregistered {base : TypeRef} {name : String} (declares : last.base = some base)
      (named : base.baseName? = some name) (missing : registry.type? name = none)
  | met {base : TypeRef} {name : String} {earlier : HostType} (declares : last.base = some base)
      (named : base.baseName? = some name) (registered : registry.type? name = some earlier)
      (before : earlier ∈ lineage)

/-- What the nearest ancestor that has a certain part has there. -/
inductive Nearest (registry : Registry) (name : String) (part : HostType → Option HostFunction) :
    Option HostFunction → Prop
  | found {distance : Nat} {type : HostType} {function : HostFunction}
      (ancestor : registry.ancestor? name distance = some type) (has : part type = some function)
      (first : ∀ nearer < distance, ∀ other ∈ registry.ancestor? name nearer, part other = none) :
      Nearest registry name part (some function)
  | missing (without : ∀ distance, ∀ type ∈ registry.ancestor? name distance, part type = none) :
      Nearest registry name part none

variable {registry : Registry} {name : String} {met types : List HostType}
  {next : Option HostType} {type above : HostType}

theorem parent?_eq_some_iff :
    registry.parent? type = some above ↔ ∃ base key, type.base = some base ∧
      base.baseName? = some key ∧ registry.type? key = some above := by
  simp only [parent?, HostType.baseName?, Option.bind_eq_some_iff]
  grind

/-! ## Registered types -/

/-- Types are found under their own names, among entries in the order of the names. -/
structure Filed (registry : Registry) : Prop where
  ordered : registry.types.Ordered
  named : ∀ {name type}, registry.type? name = some type → type.name = name

theorem Grows.filed (made : empty.Grows registry) : registry.Filed := by
  induction made with
  | refl => exact ⟨List.Pairwise.nil, nofun⟩
  | function _ _ ih => exact ⟨ih.ordered, ih.named⟩
  | type _ added ih =>
      refine ⟨ih.ordered.insert, fun {name type} found => ?_⟩
      rw [Registry.type?, registerType, Dictionary.find?_insert] at found
      split at found
      · rename_i same
        rw [← Option.some.inj found, same]
      · exact ih.named found
  | @global later _ store name value ih =>
      have kept := (@registerGlobal_keeps later store name value).2
      refine ⟨kept ▸ ih.ordered, fun {name type} found => ih.named ?_⟩
      rwa [Registry.type?, kept] at found

theorem Filed.type?_name (filed : registry.Filed) {distance : Nat}
    (ancestor : registry.ancestor? name distance = some type) :
    registry.type? type.name = some type := by
  have under {key : String} (found : registry.type? key = some type) :
      registry.type? type.name = some type := by
    rwa [filed.named found]
  cases distance with
  | zero => exact under ancestor
  | succ distance =>
      rw [ancestor?, Option.bind_eq_some_iff] at ancestor
      rcases ancestor with ⟨below, -, leads⟩
      rcases parent?_eq_some_iff.mp leads with ⟨_, key, -, -, found⟩
      exact under found

/-! ## The walk -/

theorem Climbs.unique {others : List HostType} (climbs : registry.Climbs met next types)
    (again : registry.Climbs met next others) : others = types := by
  induction climbs with
  | top =>
      cases again
      rfl
  | again seen =>
      cases again with
      | again => rfl
      | further fresh => exact absurd seen fresh
  | further fresh _ ih =>
      cases again with
      | again seen => exact absurd seen fresh
      | further _ onward => exact ih onward

/-- Taking the types that were met out of the registry comes to the same as looking at their
names. -/
theorem Filed.climbs_lineageIn (filed : registry.Filed) {left : Dictionary HostType}
    (apart : left.names.Nodup)
    (others : ∀ key, left.find? key =
      if key ∈ met.map HostType.name then none else registry.type? key) :
    registry.Climbs met (registry.type? name) (met ++ lineageIn left name) := by
  fun_induction lineageIn left name generalizing met with
  | case1 left name missing =>
      -- The name is not registered at all, or was met and is taken out.
      rw [others, ite_eq_left_iff] at missing
      rw [List.append_nil]
      cases found : registry.type? name with
      | none => exact .top
      | some type =>
          refine .again ?_
          rw [filed.named found]
          by_contra fresh
          cases (missing fresh).symm.trans found
  | case2 left name type found ih =>
      rw [others, ite_eq_iff'] at found
      have fresh : name ∉ met.map HostType.name := fun seen => nomatch found.1 seen
      have registered := found.2 fresh
      have named := filed.named registered
      rw [registered]
      refine .further (named ▸ fresh) ?_
      cases base : type.baseName? with
      | none =>
          rw [parent?, base]
          exact .top
      | some key =>
          have onward : registry.Climbs (met ++ [type]) (registry.type? key)
              (met ++ [type] ++ lineageIn (left.erase name) key) := by
            refine ih key (apart.sublist (Dictionary.erase_sublist.map _)) fun other => ?_
            rw [Dictionary.find?_erase apart, others, List.map_append, List.map_singleton, named]
            grind
          rw [parent?, base]
          rwa [List.append_assoc] at onward

theorem Filed.climbs_lineage (filed : registry.Filed) (name : String) :
    registry.Climbs [] (registry.type? name) (registry.lineage name) :=
  filed.climbs_lineageIn filed.ordered.nodup (by simp [type?])

/-- Types that a walk has met: they have different names, and are the ancestors at the first
distances. -/
structure Trail (registry : Registry) (name : String) (met : List HostType) : Prop where
  apart : (met.map HostType.name).Nodup
  places : ∀ place < met.length, met[place]? = registry.ancestor? name place

theorem Trail.ancestor?_eq {place : Nat} (trail : registry.Trail name met)
    (stands : met[place]? = some type) : registry.ancestor? name place = some type := by
  rw [← trail.places place (List.getElem?_eq_some_iff.mp stands).1, stands]

theorem Trail.further (trail : registry.Trail name met)
    (fresh : type.name ∉ met.map HostType.name)
    (next : registry.ancestor? name met.length = some type) :
    registry.Trail name (met ++ [type]) where
  apart := by
    rw [List.map_append, List.map_singleton, ← List.concat_eq_append, List.nodup_concat]
    exact ⟨fresh, trail.apart⟩
  places := by
    intro place inside
    rw [List.length_append, List.length_singleton] at inside
    rcases Nat.lt_succ_iff_lt_or_eq.mp inside with before | rfl
    · rw [List.getElem?_append_left before, trail.places place before]
    · rw [List.getElem?_concat_length, next]

/-- The walk ends with a trail behind which there is nothing, or the name of a type that was met. -/
theorem Climbs.trail (climbs : registry.Climbs met next types) (trail : registry.Trail name met)
    (stands : registry.ancestor? name met.length = next) :
    registry.Trail name types ∧
      ∀ type ∈ registry.ancestor? name types.length, type.name ∈ types.map HostType.name := by
  induction climbs with
  | top => exact ⟨trail, by simp [stands]⟩
  | again seen => exact ⟨trail, by simpa [stands] using seen⟩
  | @further met types type fresh _ ih =>
      refine ih (trail.further fresh stands) ?_
      rw [List.length_append, List.length_singleton, ancestor?, stands, Option.bind_some]

/-! ## Ancestors -/

theorem Filed.trail (filed : registry.Filed) (name : String) :
    registry.Trail name (registry.lineage name) :=
  ((filed.climbs_lineage name).trail ⟨List.nodup_nil, nofun⟩ rfl).1

theorem Filed.name_mem_of_next (filed : registry.Filed)
    (next : registry.ancestor? name (registry.lineage name).length = some type) :
    type.name ∈ (registry.lineage name).map HostType.name :=
  ((filed.climbs_lineage name).trail ⟨List.nodup_nil, nofun⟩ rfl).2 type next

/-- The ancestors up to the one behind the last type are in the lineage. -/
theorem Filed.mem_lineage_of_le (filed : registry.Filed) {distance : Nat}
    (near : distance ≤ (registry.lineage name).length)
    (ancestor : registry.ancestor? name distance = some type) : type ∈ registry.lineage name := by
  have trail := filed.trail name
  rcases Nat.lt_or_eq_of_le near with inside | rfl
  · exact List.mem_of_getElem? ((trail.places distance inside).trans ancestor)
  · rcases List.mem_map.mp (filed.name_mem_of_next ancestor) with ⟨earlier, member, same⟩
    rcases List.mem_iff_getElem?.mp member with ⟨place, stands⟩
    have found := filed.type?_name (trail.ancestor?_eq stands)
    rw [same, filed.type?_name ancestor] at found
    rwa [Option.some.inj found]

/-- The lineage has the ancestors at all distances. -/
theorem Filed.mem_lineage_iff (filed : registry.Filed) :
    type ∈ registry.lineage name ↔ ∃ distance, registry.ancestor? name distance = some type := by
  have trail := filed.trail name
  constructor
  · intro member
    rcases List.mem_iff_getElem?.mp member with ⟨place, stands⟩
    exact ⟨place, trail.ancestor?_eq stands⟩
  · rintro ⟨distance, ancestor⟩
    induction distance generalizing type with
    | zero => exact filed.mem_lineage_of_le (Nat.zero_le _) ancestor
    | succ distance ih =>
        rw [ancestor?, Option.bind_eq_some_iff] at ancestor
        rcases ancestor with ⟨below, reached, leads⟩
        -- The type below may have been met at a smaller distance; its parent is behind it there.
        rcases List.mem_iff_getElem?.mp (ih reached) with ⟨place, stands⟩
        have inside : place < (registry.lineage name).length :=
          (List.getElem?_eq_some_iff.mp stands).1
        refine filed.mem_lineage_of_le inside ?_
        rw [ancestor?, trail.ancestor?_eq stands, Option.bind_some, leads]

theorem Filed.length_lineage_le (filed : registry.Filed) (name : String) :
    (registry.lineage name).length ≤ registry.types.length := by
  have among : (registry.lineage name).map HostType.name ⊆ registry.types.names := by
    intro key member
    rcases List.mem_map.mp member with ⟨type, ancestor, rfl⟩
    rcases filed.mem_lineage_iff.mp ancestor with ⟨distance, reached⟩
    exact List.mem_map.mpr ⟨_, Dictionary.mem_of_find? (filed.type?_name reached), rfl⟩
  have shorter := (List.Nodup.subperm (filed.trail name).apart among).length_le
  rwa [List.length_map, Dictionary.names, List.length_map] at shorter

/-! ## First, further and last types -/

theorem Filed.head?_lineage (filed : registry.Filed) (name : String) :
    (registry.lineage name).head? = registry.type? name := by
  rcases Nat.eq_zero_or_pos (registry.lineage name).length with empty | nonempty
  · rw [List.length_eq_zero_iff] at empty
    cases found : registry.type? name with
    | none => rw [empty, List.head?_nil]
    | some type =>
        have member := filed.mem_lineage_of_le (Nat.zero_le _) found
        rw [empty] at member
        cases member
  · rw [List.head?_eq_getElem?]
    exact (filed.trail name).places 0 nonempty

/-- A type that is not the last has the next one for its parent. -/
theorem Filed.parent?_eq (filed : registry.Filed) {place : Nat}
    (stands : (registry.lineage name)[place]? = some type)
    (inside : place + 1 < (registry.lineage name).length) :
    registry.parent? type = (registry.lineage name)[place + 1]? := by
  have trail := filed.trail name
  rw [trail.places _ inside, ancestor?, trail.ancestor?_eq stands, Option.bind_some]

theorem Filed.endsWith (filed : registry.Filed) {last : HostType}
    (ends : (registry.lineage name).getLast? = some last) :
    registry.EndsWith (registry.lineage name) last := by
  have nonempty : 0 < (registry.lineage name).length :=
    List.length_pos_of_mem (List.mem_of_getLast? ends)
  rw [List.getLast?_eq_getElem?] at ends
  have behind : registry.ancestor? name (registry.lineage name).length =
      registry.parent? last := by
    rw [← Nat.sub_add_cancel nonempty, ancestor?, (filed.trail name).ancestor?_eq ends,
      Option.bind_some]
  cases declared : last.base with
  | none => exact .baseless declared
  | some base =>
      cases named : base.baseName? with
      | none => exact .unnamed declared named
      | some key =>
          cases found : registry.type? key with
          | none => exact .unregistered declared named found
          | some earlier =>
              refine .met declared named found (filed.mem_lineage_of_le (Nat.le_refl _) ?_)
              rw [behind, parent?_eq_some_iff]
              exact ⟨base, key, declared, named, found⟩

/-! ## What is read along a lineage -/

/-- If all items of a list but perhaps the last show something, it stands where they stand. -/
theorem getElem?_filterMap_of_inner {α β : Type} {view : α → Option β} {items : List α}
    (inner : ∀ place item, items[place]? = some item → place + 1 < items.length →
      (view item).isSome) (place : Nat) :
    (items.filterMap view)[place]? = items[place]?.bind view := by
  induction items generalizing place with
  | nil => rfl
  | cons item rest ih =>
      have ih := ih fun place item stands inside =>
        inner (place + 1) item stands (Nat.succ_lt_succ inside)
      cases seen : view item with
      | some shown =>
          rw [List.filterMap_cons_some seen]
          cases place with
          | zero => exact seen.symm
          | succ place => exact ih place
      | none =>
          have alone : rest = [] := by
            by_contra more
            have present := inner 0 item rfl (Nat.succ_lt_succ (List.length_pos_iff.mpr more))
            rw [seen] at present
            cases present
          subst alone
          rw [List.filterMap_cons_none seen]
          cases place with
          | zero => exact seen.symm
          | succ place => rfl

/-- The declared bases stand where the types stand that declare them. -/
theorem Filed.getElem?_baseChain (filed : registry.Filed) (place : Nat) :
    (registry.baseChain name)[place]? = (registry.lineage name)[place]?.bind HostType.base := by
  apply getElem?_filterMap_of_inner
  intro place type stands inside
  have leads := filed.parent?_eq stands inside
  rw [List.getElem?_eq_getElem inside, parent?_eq_some_iff] at leads
  rcases leads with ⟨base, -, declares, -, -⟩
  rw [declares]
  rfl

theorem Filed.isPrivate_iff (filed : registry.Filed) {member : String} :
    registry.isPrivate name member = true ↔ ∃ distance type,
      registry.ancestor? name distance = some type ∧ type.isPrivate member = true := by
  rw [isPrivate, List.any_eq_true]
  constructor
  · rintro ⟨type, ancestor, hides⟩
    rcases filed.mem_lineage_iff.mp ancestor with ⟨distance, reached⟩
    exact ⟨distance, type, reached, hides⟩
  · rintro ⟨distance, type, reached, hides⟩
    exact ⟨type, filed.mem_lineage_iff.mpr ⟨distance, reached⟩, hides⟩

/-- The first type of the lineage that has a part is the nearest ancestor that has it. -/
theorem Filed.nearest_findSome? (filed : registry.Filed) (name : String)
    (part : HostType → Option HostFunction) :
    registry.Nearest name part ((registry.lineage name).findSome? part) := by
  have trail := filed.trail name
  cases found : (registry.lineage name).findSome? part with
  | none =>
      refine .missing fun distance type reached => ?_
      have member := filed.mem_lineage_iff.mpr ⟨distance, reached⟩
      exact List.findSome?_eq_none_iff.mp found type member
  | some function =>
      rcases List.findSome?_eq_some_iff.mp found with ⟨before, type, after, split, has, first⟩
      have stands : (registry.lineage name)[before.length]? = some type := by simp [split]
      refine .found (trail.ancestor?_eq stands) has fun nearer less other reached => ?_
      have inside : nearer < (registry.lineage name).length := by
        rw [split, List.length_append]
        exact Nat.lt_add_right _ less
      rw [← trail.places nearer inside, split, List.getElem?_append_left less] at reached
      exact first other (List.mem_of_getElem? reached)

end Registry

/-- Whatever bases are declared, the walk along them ends, and its types are the lineage. They have
different names, and are no more than are registered. The first is the named type if that is
registered, each further one is what the base of the one before names, and the last has a base that
leads nowhere or back. So the lineage has every ancestor once: the declared bases come in its order,
methods are gathered from each ancestor, a member is private if it is so in any of them, and an
indexer is that of the nearest ancestor that has one. -/
theorem lineage_has_each_ancestor_once {registry : Registry}
    (made : Registry.empty.Grows registry) (name : String) :
    let lineage := registry.lineage name
    (∀ types, registry.Climbs [] (registry.type? name) types ↔ types = lineage) ∧
    lineage.length ≤ registry.types.length ∧
    (lineage.map HostType.name).Nodup ∧
    lineage.head? = registry.type? name ∧
    (∀ (place : Nat) type above, lineage[place]? = some type → lineage[place + 1]? = some above →
      ∃ base key, type.base = some base ∧ base.baseName? = some key ∧
        registry.type? key = some above) ∧
    (∀ last, lineage.getLast? = some last → registry.EndsWith lineage last) ∧
    (∀ type, type ∈ lineage ↔ ∃ distance, registry.ancestor? name distance = some type) ∧
    (∀ place : Nat, (registry.baseChain name)[place]? = lineage[place]?.bind HostType.base) ∧
    (∀ method, registry.methods name method =
      lineage.flatMap fun type => type.ownMethods method) ∧
    (∀ member, registry.isPrivate name member = true ↔ ∃ distance type,
      registry.ancestor? name distance = some type ∧ type.isPrivate member = true) ∧
    registry.Nearest name HostType.indexerGet (registry.indexerGet? name) ∧
    registry.Nearest name HostType.indexerSet (registry.indexerSet? name) := by
  intro lineage
  have filed := made.filed
  have climbs := filed.climbs_lineage name
  refine ⟨fun types => ⟨climbs.unique, ?_⟩, filed.length_lineage_le name, (filed.trail name).apart,
    filed.head?_lineage name, ?_, fun _ => filed.endsWith, fun _ => filed.mem_lineage_iff,
    filed.getElem?_baseChain, fun _ => rfl, fun _ => filed.isPrivate_iff,
    filed.nearest_findSome? name _, filed.nearest_findSome? name _⟩
  · rintro rfl
    exact climbs
  · intro place type above stands behind
    have inside := (List.getElem?_eq_some_iff.mp behind).1
    exact Registry.parent?_eq_some_iff.mp ((filed.parent?_eq stands inside).trans behind)

namespace Sample

/-- Types whose bases lead into a circle: a chick is a hen, a hen may be an egg, an egg is a hen. -/
def chick : HostType := { HostType.ofName "Chick" with base := some (.named "Hen") }

def hen : HostType := { HostType.ofName "Hen" with base := some (.nullable (.named "Egg")) }

def egg : HostType := { HostType.ofName "Egg" with base := some (.applied "Hen" [.generic "T"]) }

def henhouse : Registry :=
  ((Registry.empty.registerType chick).registerType hen).registerType egg

end Sample

open Sample in
/-- The walk from the chick meets the hen for the second time behind the egg. -/
theorem lineage_has_each_ancestor_once_circle :
    Registry.empty.Grows henhouse ∧ henhouse.lineage "Chick" = [chick, hen, egg] ∧
      (henhouse.baseChain "Chick")[2]? = some (.applied "Hen" [.generic "T"]) := by
  have made : Registry.empty.Grows henhouse := ((Registry.Grows.refl.type chick).type hen).type egg
  have atChick : henhouse.type? "Chick" = some chick := by
    simp [henhouse, Registry.type?, Registry.registerType, Dictionary.find?_insert, chick, hen, egg,
      HostType.ofName]
  have atHen : henhouse.type? "Hen" = some hen := by
    simp [henhouse, Registry.type?, Registry.registerType, Dictionary.find?_insert, chick, hen, egg,
      HostType.ofName]
  have atEgg : henhouse.type? "Egg" = some egg := by
    simp [henhouse, Registry.type?, Registry.registerType, Dictionary.find?_insert, egg,
      HostType.ofName]
  have climbs : henhouse.Climbs [] (henhouse.type? "Chick") [chick, hen, egg] := by
    rw [atChick]
    refine .further (by decide) ?_
    rw [show henhouse.parent? chick = some hen from atHen]
    refine .further (by decide) ?_
    rw [show henhouse.parent? hen = some egg from atEgg]
    refine .further (by decide) ?_
    rw [show henhouse.parent? egg = some hen from atHen]
    exact .again (by decide)
  rcases lineage_has_each_ancestor_once made "Chick" with ⟨ends, -, -, -, -, -, -, declared, -⟩
  have lineage := (ends _).mp climbs
  refine ⟨made, lineage.symm, ?_⟩
  rw [declared 2, ← lineage]
  rfl

end ScriptMachine
