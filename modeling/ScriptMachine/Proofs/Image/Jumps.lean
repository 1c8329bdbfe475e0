import ScriptMachine.Proofs.Image.RoundTrip

/-!
# Where jumps lead

The code of a function is laid out in one block, and every jump in it was given its target before
the block was finished: a jump leads to an instruction of the block that it stands in. The check
that a full image passes before it is run asks for less, so no image of a compiled program fails it,
whether the program was bound to a registry before or not.
-/

namespace ScriptMachine

/-- The instructions that a function was laid out as. -/
def Placement.Covers (placement : Placement) (ip : Nat) : Prop :=
  placement.offset ≤ ip ∧ ip < placement.offset + placement.code.length

/-! ## One function -/

/-- A jump of a piece of code that knows no labels leads to a place in it or to its end. -/
theorem Segment.jump_inside {context : CodeContext} {loop : Option Point} {position : Nat}
    {code : List Instruction} {before after : Point}
    (segment : Segment context noLabel loop position (.ofInstructions code) before after)
    {instruction : Instruction} (member : instruction ∈ code) {target : Nat}
    (jumps : instruction.jumpTarget? = some target) :
    position ≤ target ∧ target ≤ position + code.length := by
  rcases segment with ⟨points, _, _, checked⟩
  rcases List.mem_iff_getElem?.mp member with ⟨index, found⟩
  have cell : (Code.ofInstructions code)[index]? = some (.ready instruction) := by
    simp [Code.ofInstructions, found]
  rcases checked index _ cell with ⟨next, cellChecked, _⟩
  have length : (Code.ofInstructions code).length = code.length := List.length_map _
  rw [length] at cellChecked
  generalize points (position + index) = here at cellChecked
  cases cellChecked with
  | ready instructionChecked =>
      rcases instructionChecked.jumps jumps with ⟨point, known | ⟨lower, upper, _⟩⟩
      · exact known.elim
      · exact ⟨lower, upper⟩

theorem lowerFunction_jumps {linkage : Linkage} {position : Nat} {source : FunctionSource}
    {code : List Instruction} {actions : List FunctionSource}
    (lowered : lowerFunction linkage position source = .ok (code, actions))
    {instruction : Instruction} (member : instruction ∈ code) {target : Nat}
    (jumps : instruction.jumpTarget? = some target) :
    position ≤ target ∧ target < position + code.length := by
  have checked := @checked_function _ _ _ _ _ (fun _ => True) lowered
    (fun _ _ => trivial) (fun _ _ => trivial)
  rcases checked with ⟨locals, front, rfl, segment⟩
  rcases List.mem_append.mp member with inFront | isLast
  · have inside := segment.jump_inside inFront jumps
    simp only [List.length_append, List.length_singleton]
    omega
  · rw [List.mem_singleton] at isLast
    subst instruction
    cases jumps

/-! ## A row of functions -/

/-- Every instruction of a row belongs to one of its functions. -/
theorem LaidOut.exists_covers {linkage : Linkage} {offset : Nat} {placed : List Placement}
    (laidOut : LaidOut linkage offset placed) {index : Nat} {instruction : Instruction}
    (found : (placed.flatMap Placement.code)[index]? = some instruction) :
    ∃ placement ∈ placed, placement.Covers (offset + index) ∧ instruction ∈ placement.code := by
  induction laidOut generalizing index with
  | nil => simp at found
  | @cons offset source code actions rest lowered restLaidOut ih =>
      rw [List.flatMap_cons] at found
      rcases Nat.lt_or_ge index code.length with early | late
      · rw [List.getElem?_append_left early] at found
        refine ⟨_, List.mem_cons_self, ⟨Nat.le_add_right _ _, ?_⟩, List.mem_of_getElem? found⟩
        exact Nat.add_lt_add_left early offset
      · rw [List.getElem?_append_right late] at found
        rcases ih found with ⟨placement, member, covers, isPart⟩
        have place : offset + code.length + (index - code.length) = offset + index := by omega
        rw [place] at covers
        exact ⟨placement, List.mem_cons_of_mem _ member, covers, isPart⟩

theorem LaidOut.jumps {linkage : Linkage} {placed : List Placement}
    (laidOut : LaidOut linkage 0 placed) {ip target : Nat} {instruction : Instruction}
    (found : (placed.flatMap Placement.code)[ip]? = some instruction)
    (jumps : instruction.jumpTarget? = some target) :
    ∃ placement ∈ placed, placement.Covers ip ∧ placement.Covers target := by
  rcases laidOut.exists_covers found with ⟨placement, member, covers, isPart⟩
  rw [Nat.zero_add] at covers
  exact ⟨placement, member, covers,
    lowerFunction_jumps (laidOut.split member).1 isPart jumps⟩

/-! ## Images -/

namespace Image

theorem checkBinding_ne_invalidJumpTarget (registry : Registry) (instruction : Instruction)
    (index target : Nat) :
    checkBinding registry instruction ≠ .error (.invalidJumpTarget index target) := by
  unfold checkBinding
  split
  · split <;> simp
  · split <;> simp
  · split <;> simp
  · simp

theorem forM_checkBinding_ne_invalidJumpTarget (registry : Registry)
    (instructions : List Instruction) (index target : Nat) :
    instructions.forM (checkBinding registry) ≠ .error (.invalidJumpTarget index target) := by
  induction instructions with
  | nil => nofun
  | cons first rest ih =>
      change (checkBinding registry first >>= fun _ => rest.forM (checkBinding registry)) ≠ _
      have own := checkBinding_ne_invalidJumpTarget registry first index target
      cases checked : checkBinding registry first with
      | error fault =>
          rw [checked] at own
          exact own
      | ok _ => exact ih

/-- What a registry lacks is never told as a stray jump. -/
theorem decode_ne_invalidJumpTarget {bytes : Bytes} {trusted : Bool} {program : Program}
    (found : read bytes trusted = .ok program) (registry : Registry) (index target : Nat) :
    decode bytes registry trusted ≠ .error (.invalidJumpTarget index target) := by
  have checks := forM_checkBinding_ne_invalidJumpTarget registry program.instructions.toList
    index target
  unfold decode
  simp only [found, bind, Except.bind]
  cases checked : program.instructions.toList.forM (checkBinding registry) with
  | error fault =>
      rw [checked] at checks
      simpa using checks
  | ok _ => nofun

end Image

namespace Program.JumpsInside

variable {program : Program}

/-- A target that is the largest number of its width would lie behind every instruction. -/
theorem ne_placeholder (inside : program.JumpsInside) (fits : program.Fits)
    {instruction : Instruction} (member : instruction ∈ program.instructions.toList) :
    instruction.jumpTarget? ≠ some (twoTo 64 - 1) := by
  intro jumps
  have below := inside instruction member _ jumps
  have size := fits.size
  omega

theorem decode_ne_invalidJumpTarget (inside : program.JumpsInside) (fits : program.Fits)
    (registry : Registry) (trusted : Bool) (index target : Nat) :
    Image.decode (Image.encode program trusted) registry trusted ≠
      .error (.invalidJumpTarget index target) := by
  cases trusted with
  | false => exact Image.decode_ne_invalidJumpTarget (Image.read_full fits inside) registry _ _
  | true => exact Image.decode_ne_invalidJumpTarget (Image.read_compact fits) registry _ _

end Program.JumpsInside

/-- Every jump of a compiled program leads to an instruction of the function that it stands in. So
the check of jumps never fails for the program, whatever registry it is bound to, and reading an
image of it never tells of a stray jump, whatever registry the reader has. Where the program has the
size that an image has a place for, no jump has the largest number that a target could be, the one
that stands for a target not known yet. -/
theorem jumps_stay_in_their_function {units : List ProgramUnit} {globals : List String}
    {program : Program} (accepted : compileUnits units globals = .ok program) :
    ∃ placed, program.Compiled units globals placed ∧
      (∀ ip instruction target, program.instructions[ip]? = some instruction →
        instruction.jumpTarget? = some target →
        ∃ placement ∈ placed, placement.Covers ip ∧ placement.Covers target) ∧
      ∀ version, (version = program ∨ ∃ registry, version = program.bind registry) →
        Image.firstStrayJump? version.size 0 version.instructions.toList = none ∧
        (version.Fits →
          (∀ instruction ∈ version.instructions.toList,
            instruction.jumpTarget? ≠ some (twoTo 64 - 1)) ∧
          ∀ registry trusted index target,
            Image.decode (Image.encode version trusted) registry trusted ≠
              .error (.invalidJumpTarget index target)) := by
  rcases compileUnits_ok accepted with ⟨placed, row⟩
  rcases row.charted with ⟨chart, charted⟩
  refine ⟨placed, row, ?_, ?_⟩
  · intro ip instruction target found jumps
    rw [← Array.getElem?_toList, row.instructions] at found
    exact row.laidOut.jumps found jumps
  · intro version origin
    have inside : version.JumpsInside := by
      rcases origin with rfl | ⟨registry, rfl⟩
      · exact charted.jumpsInside
      · exact Program.bind_jumpsInside registry charted.jumpsInside
    refine ⟨Image.firstStrayJump?_none inside, fun fits => ⟨?_, ?_⟩⟩
    · intro instruction member
      exact inside.ne_placeholder fits member
    · exact inside.decode_ne_invalidJumpTarget fits

theorem jumps_stay_in_their_function_hosted :
    ∃ placed, (Sample.hosted none false).Compiled Sample.hostedUnits [] placed ∧
      (∃ placement ∈ placed, placement.Covers 3 ∧ placement.Covers 8) ∧
      Image.decode (Image.encode (Sample.hosted (some Sample.beep.reference) true) false) .empty
        false ≠ .error (.invalidJumpTarget 3 8) := by
  rcases jumps_stay_in_their_function Sample.hosted_accepted with ⟨placed, row, jumps, images⟩
  refine ⟨placed, row, jumps 3 (.jumpIfFalse 8) 8 rfl rfl, ?_⟩
  have image := images _ (.inr ⟨Sample.hostedRegistry, Sample.hosted_bound⟩)
  exact (image.2 Sample.hosted_fits).2 .empty false 3 8

end ScriptMachine
