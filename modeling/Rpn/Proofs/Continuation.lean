import Rpn.Proofs.Ending

/-!
# Bytes behind an execution

An execution decides what it does from the bytes it has read, so it comes to
the same place in front of any other bytes (`Visited.withRest`).  More bytes at
the end of the buffer change nothing until it comes to them
(`Visited.followedBy`).  The end-marker of a terminated buffer is then found
where it was, with the new bytes behind it.

Main statement: terminated buffers form a prefix-free language
(`prefixFree_of_terminated`).  The byte of the end-marker may stand inside any
operand.  A buffer cut off there is not taken for a terminated one, because a
terminated buffer stays terminated when its missing bytes are put back, and
then they are bytes behind the marker.
-/

namespace Rpn
namespace Decompiler

/-- The same state with other bytes to read. -/
def State.withRest (state : State) (rest : List UInt8) : State :=
  { state with rest }

/-- The same state with more bytes to read. -/
def State.followedBy (state : State) (suffix : List UInt8) : State :=
  { state with rest := state.rest ++ suffix }

variable {arities : ArityTable} {options : DecompileOptions} {bytes : List UInt8}

/-- A turn that goes on is decided by the code it reads. -/
theorem State.turn_withRest {state following : State} {forest : List Expr}
    (stack : state.stack = pile forest) (turned : state.turn arities options = .next following) :
    Exists fun code => state.rest = code ++ following.rest ∧ forall rest,
      (state.withRest (code ++ rest)).turn arities options = .next (following.withRest rest) := by
  rcases (turn_eq_next_iff stack).mp turned with
    ⟨⟨instruction, length, left⟩, lower, expr, read, same, known, split, shallow, room, rfl⟩
  rcases Instruction.encode_of_read read with ⟨code, encoded, shape, rfl⟩
  refine ⟨code, shape, fun rest => ?_⟩
  have sameStack : (state.withRest (code ++ rest)).stack = pile forest := stack
  exact (turn_eq_next_iff sameStack).mpr
    ⟨_, lower, expr, Instruction.read_append_of_encode encoded rest, same, known, split, shallow,
      room, rfl⟩

/-- Wherever an execution comes to, the bytes it has read bring it to the same
place in front of any other bytes. -/
theorem State.reaches_withRest {state : State}
    (steps : State.Reaches arities options (.start bytes) state) :
    Exists fun front => bytes = front ++ state.rest ∧ forall rest,
      State.Reaches arities options (.start (front ++ rest)) (state.withRest rest) := by
  induction steps with
  | refl => exact ⟨[], rfl, fun _ => .refl⟩
  | tail earlier turned inductionHypothesis =>
      rcases Faithful.of_reaches earlier with ⟨forest, faithful⟩
      rcases inductionHypothesis with ⟨front, shape, before⟩
      rcases State.turn_withRest faithful.stack turned with ⟨code, read, after⟩
      refine ⟨front ++ code, by rw [shape, read, List.append_assoc], fun rest => ?_⟩
      rw [List.append_assoc]
      exact (before (code ++ rest)).tail (after rest)

theorem Visited.rest_eq_drop {forest : List Expr} {state : State}
    (visited : Visited arities options bytes forest state) :
    state.rest = bytes.drop state.offset := by
  rcases State.reaches_withRest visited.steps with ⟨front, shape, _⟩
  have position := visited.position
  rw [shape, List.length_append] at position
  rw [shape, List.drop_left' (by omega)]

/-- The same for a state in which a turn begins.  There must be a byte for the
execution to begin at all. -/
theorem Visited.withRest {forest : List Expr} {state : State}
    (visited : Visited arities options bytes forest state) {rest : List UInt8}
    (nonempty : bytes.take state.offset ++ rest ≠ []) :
    Visited arities options (bytes.take state.offset ++ rest) forest (state.withRest rest) := by
  rcases State.reaches_withRest visited.steps with ⟨front, shape, same⟩
  have position := visited.position
  rw [shape, List.length_append] at position
  have taken : bytes.take state.offset = front := by
    rw [shape, List.take_left' (by omega)]
  rw [taken] at nonempty ⊢
  exact .of_reaches nonempty (same rest) visited.faithful.stack

/-- Wherever an execution comes to, it comes to the same place in front of more
bytes. -/
theorem Visited.followedBy {forest : List Expr} {state : State}
    (visited : Visited arities options bytes forest state) (suffix : List UInt8) :
    Visited arities options (bytes ++ suffix) forest (state.followedBy suffix) :=
  have whole : bytes.take state.offset ++ (state.rest ++ suffix) = bytes ++ suffix := by
    rw [visited.rest_eq_drop, ← List.append_assoc, List.take_append_drop]
  have nonempty := List.append_ne_nil_of_left_ne_nil visited.nonempty suffix
  whole ▸ visited.withRest (whole ▸ nonempty)

end Decompiler

open Decompiler

variable {arities : ArityTable} {options : DecompileOptions} {bytes : List UInt8}

/-- Bytes behind a terminated buffer are found at its end and counted. -/
theorem decompile_append_of_terminated {decompiled : Decompiled}
    (done : decompile arities options bytes = .ok decompiled)
    (terminated : decompiled.framing = .terminated) {suffix : List UInt8} (behind : suffix ≠ []) :
    decompile arities options (bytes ++ suffix) =
      .error (.malformed ⟨bytes.length, .trailingBytes suffix.length⟩) := by
  have ending := ends arities options bytes
  rw [done] at ending
  cases ending with
  | @decompiled expr last framing visited marked _ =>
      cases terminated
      have position := visited.position
      rw [marked] at position
      have ahead : (last.followedBy suffix).rest = Framing.mark .terminated ++ suffix :=
        congrArg (· ++ suffix) marked
      rw [decompile_of_visited_trailing (visited.followedBy suffix) ahead behind, ← position]
      rfl

theorem framing_of_required {decompiled : Decompiled}
    (done : decompile arities options bytes = .ok decompiled)
    (required : options.requireTerminator = true) : decompiled.framing = .terminated := by
  have ending := ends arities options bytes
  rw [done] at ending
  cases ending with
  | @decompiled expr last framing _ _ noMissing =>
      cases framing with
      | terminated => rfl
      | unterminated => exact absurd (required.symm.trans (noMissing rfl)) nofun

/-- A terminated buffer is neither the beginning of another one nor another one
continued.  Bytes added to it are reported as such, and a part of it is not
terminated, so it is refused where an end-marker is required. -/
theorem prefixFree_of_terminated {decompiled : Decompiled}
    (done : decompile arities options bytes = .ok decompiled)
    (terminated : decompiled.framing = .terminated) :
    (forall suffix, suffix ≠ [] ->
      decompile arities options (bytes ++ suffix) =
        .error (.malformed ⟨bytes.length, .trailingBytes suffix.length⟩)) ∧
    forall front, front <+: bytes -> front ≠ bytes ->
      (forall other, decompile arities options front = .ok other ->
        other.framing ≠ .terminated) ∧
      (options.requireTerminator = true ->
        Exists fun error => decompile arities options front = .error error) := by
  have unmarked : forall front, front <+: bytes -> front ≠ bytes ->
      forall other, decompile arities options front = .ok other ->
        other.framing ≠ .terminated := by
    rintro front ⟨missing, rfl⟩ proper other doneFront marked
    have behind : missing ≠ [] := by
      rintro rfl
      exact proper (List.append_nil front).symm
    cases done.symm.trans (decompile_append_of_terminated doneFront marked behind)
  refine ⟨fun suffix behind => decompile_append_of_terminated done terminated behind, ?_⟩
  intro front begins proper
  refine ⟨unmarked front begins proper, fun required => ?_⟩
  cases outcome : decompile arities options front with
  | error error => exact ⟨error, rfl⟩
  | ok other =>
      exact absurd (framing_of_required outcome required)
        (unmarked front begins proper other outcome)

/-- A constant whose two operand bytes are both that of the end-marker. -/
theorem prefixFree_of_terminated_markedOperand :
    decompile .empty ⟨1, 1, true⟩ [0x83, 0xA1, 0xA1, 0xA1] =
        .ok ⟨.const (.int 41377 .u16), .terminated, 1⟩ ∧
      decompile .empty ⟨1, 1, true⟩ [0x83, 0xA1, 0xA1, 0xA1, 0xA1] =
        .error (.malformed ⟨4, .trailingBytes 1⟩) ∧
      (Exists fun error =>
        decompile .empty ⟨1, 1, true⟩ [0x83, 0xA1] = .error error) ∧
      Exists fun error => decompile .empty ⟨1, 1, true⟩ [0x83, 0xA1, 0xA1] = .error error := by
  have done : decompile .empty ⟨1, 1, true⟩ [0x83, 0xA1, 0xA1, 0xA1] =
      .ok ⟨.const (.int 41377 .u16), .terminated, 1⟩ := by decide +kernel
  rcases prefixFree_of_terminated done rfl with ⟨continued, cut⟩
  exact ⟨done, continued [0xA1] nofun, (cut [0x83, 0xA1] (by decide) nofun).2 rfl,
    (cut [0x83, 0xA1, 0xA1] (by decide) nofun).2 rfl⟩

end Rpn
