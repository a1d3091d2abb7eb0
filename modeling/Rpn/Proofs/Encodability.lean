import Rpn.Proofs.RoundTrip

/-!
# Which trees are assembled

Main statement: a tree is assembled exactly if each of its nodes can be held by
the wire format, every command has the argument count of the table where there
is one, and depth and stack need are within their limits (`assembles_iff`).
Nothing else refuses a tree, and nothing but the tree and the framing has a
part in the bytes.

What the wire format can hold is said here node by node and without the
encoder (`Node.Representable`).  The encoder refuses exactly the other nodes
(`Node.encodable_iff`).
-/

namespace Rpn
namespace Node

/-- Whether the wire format can hold the node: an integer is contained in its
declared width, a string does not contain its terminator, there are eight
parameters, and a function call has at most six arguments. -/
def Representable : Node -> Prop
  | const (.int value width) => width.Contains value
  | const (.string text) => '\x00' ∉ text.toList
  | param slot => slot.toNat ≤ 7
  | function args => args ≤ 6
  | const (.float32 _) | const (.float64 _) | unary _ | binary _ | command _ _ _ => True

instance instDecidableRepresentable : DecidablePred Representable
  | const (.int value width) => inferInstanceAs (Decidable (width.Contains value))
  | const (.string text) => inferInstanceAs (Decidable ('\x00' ∉ text.toList))
  | param slot => inferInstanceAs (Decidable (slot.toNat ≤ 7))
  | function args => inferInstanceAs (Decidable (args ≤ 6))
  | const (.float32 _) | const (.float64 _) | unary _ | binary _ | command _ _ _ =>
    inferInstanceAs (Decidable True)

instance instDecidableKnown (arities : ArityTable) : DecidablePred (Known arities)
  | command bank id args => inferInstanceAs (Decidable (arities bank id = some args))
  | const _ | param _ | unary _ | binary _ | function _ => inferInstanceAs (Decidable True)

theorem encodable_iff {node : Node} : node.Encodable ↔ node.Representable := by
  cases node with
  | const constant =>
      cases constant with
      | int value width =>
          constructor
          · rintro ⟨bytes, encoded⟩
            by_contra outside
            cases (if_neg outside).symm.trans encoded
          · intro inside
            cases width <;> exact ⟨_, if_pos inside⟩
      | string text =>
          constructor
          · rintro ⟨bytes, encoded⟩ terminated
            cases (if_pos (List.contains_iff_mem.mpr terminated)).symm.trans encoded
          · intro plain
            exact ⟨_, if_neg fun terminated => plain (List.contains_iff_mem.mp terminated)⟩
      | float32 bits => exact ⟨fun _ => trivial, fun _ => ⟨_, rfl⟩⟩
      | float64 bits => exact ⟨fun _ => trivial, fun _ => ⟨_, rfl⟩⟩
  | param slot =>
      constructor
      · rintro ⟨bytes, encoded⟩
        by_contra beyond
        cases (dif_neg fun known => beyond (Nat.le_of_lt_succ known)).symm.trans encoded
      · intro known
        exact ⟨_, dif_pos (Nat.lt_succ_of_le known)⟩
  | function args =>
      constructor
      · rintro ⟨bytes, encoded⟩
        by_contra many
        cases (dif_neg fun few => many (Nat.le_of_lt_succ few)).symm.trans encoded
      · intro few
        exact ⟨_, dif_pos (Nat.lt_succ_of_le few)⟩
  | unary op => exact ⟨fun _ => trivial, fun _ => ⟨_, rfl⟩⟩
  | binary op => exact ⟨fun _ => trivial, fun _ => ⟨_, rfl⟩⟩
  | command bank id args => exact ⟨fun _ => trivial, fun _ => ⟨_, rfl⟩⟩

end Node

namespace Expr

theorem admitted_iff_representable {arities? : Option ArityTable} {expr : Expr} :
    expr.Admitted arities? ↔
      (forall node, node ∈ expr.postorder -> node.Representable) ∧
        forall arities, arities? = some arities ->
          forall node, node ∈ expr.postorder -> node.Known arities := by
  constructor
  · intro admitted
    exact ⟨fun node member => Node.encodable_iff.mp (admitted node member).1,
      fun arities given node member => (admitted node member).2 arities given⟩
  · rintro ⟨representable, known⟩ node member
    exact ⟨Node.encodable_iff.mpr (representable node member),
      fun arities given => known arities given node member⟩

/-- A tree is assembled exactly if the wire format can hold its nodes, the
table knows its commands if there is one, and it is within both limits.  The
reported peak is then the stack need, and every other assembly of the tree with
the same framing gives the same bytes. -/
theorem assembles_iff (options : AssemblyOptions) (arities? : Option ArityTable) (expr : Expr) :
    ((Exists fun assembled => expr.assemble options arities? = .ok assembled) ↔
      (forall node, node ∈ expr.postorder -> node.Representable) ∧
        (forall arities, arities? = some arities ->
          forall node, node ∈ expr.postorder -> node.Known arities) ∧
        expr.depth ≤ max 1 options.nestingLimit ∧ expr.need ≤ options.stackLimit) ∧
    forall assembled, expr.assemble options arities? = .ok assembled ->
      assembled.peak = expr.need ∧
        forall (others : AssemblyOptions) (others? : Option ArityTable) (again : Assembled),
          others.framing = options.framing -> expr.assemble others others? = .ok again ->
            again.bytes = assembled.bytes := by
  refine ⟨?_, ?_⟩
  · rw [← and_assoc, ← admitted_iff_representable]
    constructor
    · rintro ⟨assembled, done⟩
      rcases assemble_eq_ok_iff.mp done with ⟨admitted, shallow, room, _⟩
      exact ⟨admitted, shallow, room⟩
    · rintro ⟨admitted, shallow, room⟩
      exact ⟨_, assemble_eq_ok_iff.mpr ⟨admitted, shallow, room, rfl⟩⟩
  · intro assembled done
    rcases assemble_eq_ok_iff.mp done with ⟨_, _, _, rfl⟩
    refine ⟨rfl, ?_⟩
    intro others others? again framed doneAgain
    rcases assemble_eq_ok_iff.mp doneAgain with ⟨_, _, _, rfl⟩
    rw [framed]

/-- The call is assembled with three values on the stack and not with two, and
with its table and not with a table of another argument count. -/
theorem assembles_iff_surrogateCall :
    (Exists fun assembled => surrogateCall.assemble ⟨.terminated, 3, 3⟩
        (some (.ofRows [(6, 12, 2)])) = .ok assembled) ∧
      (¬ Exists fun assembled => surrogateCall.assemble ⟨.terminated, 2, 3⟩
        (some (.ofRows [(6, 12, 2)])) = .ok assembled) ∧
      (¬ Exists fun assembled => surrogateCall.assemble ⟨.terminated, 3, 3⟩
        (some (.ofRows [(6, 12, 1)])) = .ok assembled) ∧
      surrogateCall.assemble ⟨.terminated, 256, 512⟩ none = .ok ⟨surrogateCallBytes, 3⟩ ∧
      surrogateCall.need = 3 ∧
      forall again, surrogateCall.assemble ⟨.terminated, 3, 3⟩ (some (.ofRows [(6, 12, 2)])) =
        .ok again -> again.bytes = surrogateCallBytes := by
  have representable : forall node, node ∈ surrogateCall.postorder -> node.Representable := by
    decide
  have done : surrogateCall.assemble ⟨.terminated, 256, 512⟩ none =
      .ok ⟨surrogateCallBytes, 3⟩ :=
    assemble_eq_ok_iff.mpr
      ⟨admitted_iff_representable.mpr ⟨representable, nofun⟩, by decide, by decide, by decide⟩
  rcases (assembles_iff _ _ surrogateCall).2 _ done with ⟨peak, same⟩
  refine ⟨?_, ?_, ?_, done, peak.symm,
    fun again doneAgain => same ⟨.terminated, 3, 3⟩ _ again rfl doneAgain⟩
  · apply (assembles_iff _ _ surrogateCall).1.mpr
    refine ⟨representable, ?_, by decide, by decide⟩
    rintro arities ⟨⟩
    decide
  · intro assembled
    exact absurd ((assembles_iff _ _ surrogateCall).1.mp assembled).2.2.2 (by decide)
  · intro assembled
    exact absurd (((assembles_iff _ _ surrogateCall).1.mp assembled).2.1 _ rfl) (by decide)

end Expr
end Rpn
