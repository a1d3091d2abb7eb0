import Mathlib.Data.List.Forall2
import Rpn.Proofs.Tiling

/-!
# What an execution keeps count of

An execution carries numbers that it never computes again: the depth of every
tree on the stack, the greatest height that the stack has had, and the position
in the buffer.  The first tells whether a tree nests too deep, the second is what
the outcome reports, and the third is where a fault is said to be.  What each of
them should be can be said without it, by the trees themselves, by the states so
far and by the instructions that were read in them.

Main statement: whenever a turn begins, all three are what they should be and
within their bounds, and the trees on the stack have one node for each
instruction read (`tallied_of_reaches`).  A turn keeps all of this together and
no part of it alone (`Tallied.next`): the depth of a new tree is computed from
the depths beside its children, so it is right because those were.
-/

namespace Rpn
namespace Decompiler

/-- The states in which a turn of the execution of a buffer has begun: the one
at hand, and the earlier ones with the last of them first. -/
inductive History (arities : ArityTable) (options : DecompileOptions) (bytes : List UInt8) :
    State -> List State -> Prop
  | start : History arities options bytes (.start bytes) []
  | next {state following : State} {earlier : List State} :
      History arities options bytes state earlier ->
      state.turn arities options = .next following ->
      History arities options bytes following (state :: earlier)

/-- Whether an entry is that of the instruction which is read in a state. -/
def ReadIn (entry : ListedInstruction) (state : State) : Prop :=
  entry.offset = state.offset ∧
    Exists fun rest => Instruction.read state.rest = .ok ⟨entry.instruction, entry.length, rest⟩

/-- The numbers that a state holds are what they should be, by the trees on its
stack and by the states before it. -/
structure Tallied (options : DecompileOptions) (bytes : List UInt8) (state : State)
    (earlier : List State) : Prop where
  depth : forall operand, operand ∈ state.stack -> operand.depth = operand.expr.depth
  shallow : forall operand, operand ∈ state.stack -> operand.depth ≤ max 1 options.nestingLimit
  room : state.stack.length ≤ options.stackLimit
  peak : ((state :: earlier).map fun visited => visited.stack.length).max? = some state.peak
  /-- One instruction was read in each of the earlier states. -/
  trace : List.Forall₂ ReadIn state.trace earlier
  rest : state.rest = bytes.drop state.offset
  within : state.offset ≤ bytes.length
  offset : state.offset = (state.trace.map ListedInstruction.length).sum
  nodes : (state.stack.map fun operand => operand.expr.nodeCount).sum = state.trace.length

/-! ## Stacks that are piles -/

theorem exists_pile {stack : List Operand}
    (depth : forall operand, operand ∈ stack -> operand.depth = operand.expr.depth) :
    Exists fun forest => stack = pile forest := by
  have fixed : forall operand, operand ∈ stack -> Operand.of operand.expr = operand := by
    intro operand member
    rw [Operand.of, ← depth operand member]
  refine ⟨stack.reverse.map Operand.expr, ?_⟩
  rw [pile, List.map_map, List.map_reverse, List.reverse_reverse]
  exact ((List.map_congr_left fixed).trans (List.map_id' stack)).symm

theorem forall_mem_pile_iff {forest : List Expr} {property : Operand -> Prop} :
    (forall operand, operand ∈ pile forest -> property operand) ↔
      forall expr, expr ∈ forest -> property (.of expr) := by
  simp only [pile, List.mem_reverse, List.forall_mem_map]

theorem sum_nodeCount_pile (forest : List Expr) :
    ((pile forest).map fun operand => operand.expr.nodeCount).sum =
      Expr.nodeCountOfAll forest := by
  rw [pile, List.map_reverse, List.sum_reverse, List.map_map, Expr.nodeCountOfAll_eq_sum]
  rfl

/-! ## One turn and the whole execution -/

variable {arities : ArityTable} {options : DecompileOptions} {bytes : List UInt8}

namespace Tallied

theorem start (options : DecompileOptions) (bytes : List UInt8) :
    Tallied options bytes (.start bytes) [] where
  depth := nofun
  shallow := nofun
  room := Nat.zero_le _
  peak := rfl
  trace := .nil
  rest := rfl
  within := Nat.zero_le _
  offset := rfl
  nodes := rfl

/-- A turn puts one tree in the place of its children, and reads one
instruction for the one node that this adds. -/
theorem next {state following : State} {earlier : List State}
    (tallied : Tallied options bytes state earlier)
    (turned : state.turn arities options = .next following) :
    Tallied options bytes following (state :: earlier) := by
  -- Depths that are right make the stack a pile, and what a turn does on one is known.
  rcases exists_pile tallied.depth with ⟨forest, piled⟩
  rcases (State.turn_eq_next_iff piled).mp turned with
    ⟨reading, left, expr, read, _, _, rfl, shallow, room, rfl⟩
  rcases slice_of_read (tallied.rest ▸ read) with ⟨_, within, _, rest⟩
  have height : (pile (left ++ [expr])).length = left.length + 1 := by
    rw [length_pile, List.length_append, List.length_singleton]
  constructor
  case depth => exact forall_mem_pile_iff.mpr fun _ _ => rfl
  case shallow =>
    have before := tallied.shallow
    rw [piled, forall_mem_pile_iff, List.forall_mem_append] at before
    exact forall_mem_pile_iff.mpr
      (List.forall_mem_append.mpr ⟨before.1, List.forall_mem_singleton.mpr shallow⟩)
  case room => exact Nat.le_trans (Nat.le_of_eq height) room
  case peak =>
    show ((pile (left ++ [expr])).length :: (state :: earlier).map _).max? =
      some (max state.peak (left ++ [expr]).length)
    rw [List.max?_cons, tallied.peak, length_pile, Nat.max_comm]
    rfl
  case trace => exact .cons ⟨rfl, reading.rest, read⟩ tallied.trace
  case rest => exact rest
  case within => exact within
  case offset =>
    show state.offset + reading.length = (reading.length :: state.trace.map _).sum
    rw [List.sum_cons, ← tallied.offset, Nat.add_comm]
  case nodes =>
    have before := tallied.nodes
    rw [piled, sum_nodeCount_pile, Expr.nodeCountOfAll_append] at before
    show ((pile (left ++ [expr])).map _).sum = state.trace.length + 1
    rw [sum_nodeCount_pile, Expr.nodeCountOfAll_append, ← before]
    simp only [Expr.nodeCountOfAll, expr.nodeCount_eq, Nat.add_zero, Nat.add_assoc]

theorem of_history {state : State} {earlier : List State}
    (history : History arities options bytes state earlier) :
    Tallied options bytes state earlier := by
  induction history with
  | start => exact start options bytes
  | next _ turned inductionHypothesis => exact inductionHypothesis.next turned

end Tallied

theorem exists_history {state : State}
    (steps : State.Reaches arities options (.start bytes) state) :
    Exists fun earlier => History arities options bytes state earlier := by
  induction steps with
  | refl => exact ⟨[], .start⟩
  | tail _ turned inductionHypothesis =>
      rcases inductionHypothesis with ⟨earlier, history⟩
      exact ⟨_, history.next turned⟩

/-- Whenever a turn begins, every depth on the stack is that of its tree and
within the nesting limit, and the height of the stack is within the stack limit.
The peak is the greatest height so far.  One instruction was read in each of the
earlier states: their lengths add up to the position, which is in the buffer, and
there are as many of them as nodes on the stack. -/
theorem tallied_of_reaches {state : State}
    (steps : State.Reaches arities options (.start bytes) state) :
    (Exists fun earlier => History arities options bytes state earlier) ∧
      forall earlier, History arities options bytes state earlier ->
        Tallied options bytes state earlier :=
  ⟨exists_history steps, fun _ history => .of_history history⟩

/-- In front of the command, with its two operands on the stack.  The stack was
higher before, when the identifier and the argument of the call were on it. -/
theorem tallied_of_reaches_surrogateCall :
    let state : State :=
      { rest := [0x8B, 0x06, 0x0C, 0x00, 0x00, 0x00, 0xA1]
        offset := 12
        stack := [⟨.function (.const (.int (-1) .inline)) [.param 7], 2⟩,
          ⟨.const (.string "é𝄞"), 1⟩]
        peak := 3
        trace := [⟨11, 1, .call 1⟩, ⟨10, 1, .param 7⟩, ⟨9, 1, .push (.int (-1) .inline)⟩,
          ⟨0, 9, .push (.string "é𝄞")⟩] }
    State.Reaches (.ofRows [(6, 12, 2)]) ⟨3, 3, true⟩ (.start surrogateCallBytes) state ∧
      Exists fun earlier =>
        History (.ofRows [(6, 12, 2)]) ⟨3, 3, true⟩ surrogateCallBytes state earlier ∧
          Tallied ⟨3, 3, true⟩ surrogateCallBytes state earlier := by
  intro state
  have steps : State.Reaches (.ofRows [(6, 12, 2)]) ⟨3, 3, true⟩ (.start surrogateCallBytes)
      state :=
    .head (by rfl) (.head (by rfl) (.head (by rfl) (.single (by rfl))))
  rcases tallied_of_reaches steps with ⟨⟨earlier, history⟩, tallied⟩
  exact ⟨steps, earlier, history, tallied earlier history⟩

end Decompiler
end Rpn
