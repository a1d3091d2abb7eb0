import Rpn.Assembly
import Rpn.Proofs.StackNeed

/-!
# What is assembled, and to what

Assembling a tree succeeds exactly if every node of it may be written, the
tree is within the nesting limit, and its stack need is within the stack limit
(`assemble_eq_ok_iff`).  Then the bytes are the code of the tree and the mark
of its framing, and the reported peak is the stack need.

The assembler checks the level of each node against the limit on the way down.
A level above the first is too deep from the limit on, and the first level
never is, so the tree passes exactly if its lowest level does: that is the
condition on the depth.
-/

namespace Rpn

/-- A computation in two parts succeeds exactly if both parts do. -/
theorem bind_eq_ok_iff {Error Middle Value : Type} {first : Except Error Middle}
    {second : Middle -> Except Error Value} {value : Value} :
    (first >>= second) = .ok value ↔
      Exists fun middle => first = .ok middle ∧ second middle = .ok value := by
  cases first with
  | error error =>
      constructor
      · intro impossible
        cases impossible
      · rintro ⟨middle, impossible, _⟩
        cases impossible
  | ok middle =>
      constructor
      · intro done
        exact ⟨middle, rfl, done⟩
      · rintro ⟨same, equal, done⟩
        cases equal
        exact done

theorem check_eq_ok_iff {Error Value : Type} {check : Except Error Unit}
    {rest : Except Error Value} {value : Value} :
    (check >>= fun _ => rest) = .ok value ↔ check = .ok () ∧ rest = .ok value := by
  rw [bind_eq_ok_iff]
  constructor
  · rintro ⟨⟨⟩, passed, done⟩
    exact ⟨passed, done⟩
  · rintro ⟨passed, done⟩
    exact ⟨(), passed, done⟩

/-! ## One node -/

namespace Node

/-- Whether a table gives the argument count that the node has.  Only a
command is looked up. -/
def Known (arities : ArityTable) : Node -> Prop
  | command bank id args => arities bank id = some args
  | _ => True

/-- Whether the node may be written: it has an encoding, and the table knows
it if there is one. -/
def Admitted (arities? : Option ArityTable) (node : Node) : Prop :=
  node.Encodable ∧ forall arities, arities? = some arities -> node.Known arities

theorem Admitted.withoutTable {arities? : Option ArityTable} {node : Node}
    (admitted : node.Admitted arities?) : node.Admitted none :=
  ⟨admitted.1, fun _ impossible => nomatch impossible⟩

end Node

namespace AssemblyRules

theorem admitCall_eq_ok_iff (rules : AssemblyRules) (bank : UInt8) (id : Int32) (args : Nat) :
    rules.admitCall bank id args = .ok () ↔
      forall arities, rules.arities? = some arities -> arities bank id = some args := by
  cases table : rules.arities? with
  | none => simp only [admitCall, table, reduceCtorEq, false_implies, implies_true]
  | some arities =>
      cases count : arities bank id with
      | none => simp only [admitCall, table, count, Option.some.injEq, forall_eq', reduceCtorEq]
      | some expected =>
          by_cases same : expected = args
          · simp only [admitCall, table, count, same, if_true, Option.some.injEq, forall_eq']
          · simp only [admitCall, table, count, same, if_false, Option.some.injEq, forall_eq',
              reduceCtorEq]

/-- A node may be entered unless it is below the first level and too deep, or
a command of another argument count than the table says. -/
theorem enter_eq_ok_iff (rules : AssemblyRules) (level : Nat) (node : Node) :
    rules.enter level node = .ok () ↔
      level ≤ max 1 rules.nestingLimit ∧
        forall arities, rules.arities? = some arities -> node.Known arities := by
  by_cases deep : 1 < level ∧ rules.nestingLimit < level
  · have beyond : ¬ level ≤ max 1 rules.nestingLimit := by omega
    simp only [enter, if_pos deep, beyond, false_and, reduceCtorEq]
  · have within : level ≤ max 1 rules.nestingLimit := by omega
    simp only [enter, if_neg deep, within, true_and]
    cases node with
    | command bank id args => exact rules.admitCall_eq_ok_iff bank id args
    | _ => simp only [Node.Known, implies_true]

end AssemblyRules

theorem Assembler.leave_eq_ok_iff {assembler following : Assembler} {node : Node} :
    assembler.leave node = .ok following ↔
      node.Encodable ∧ following = (assembler.write node.code).account node := by
  cases encoded : node.instruction.encode with
  | error error =>
      simp only [leave_eq, Node.Encodable, encoded, reduceCtorEq, exists_false,
        false_and]
  | ok bytes =>
      have encodable : node.Encodable := ⟨bytes, encoded⟩
      simp only [leave_eq, encoded, Node.code_of_encode encoded, Except.ok.injEq,
        encodable, true_and, eq_comm]

/-! ## A tree -/

namespace Expr

theorem write_eq (rules : AssemblyRules) (level : Nat) (expr : Expr) (assembler : Assembler) :
    expr.write rules level assembler = (do
      rules.enter level expr.node
      let assembler ← writeAll rules (level + 1) expr.children assembler
      assembler.leave expr.node) := by
  have last : forall assembler : Assembler,
      writeAll rules (level + 1) [] assembler = pure assembler := fun _ => rfl
  have first : forall expr rest (assembler : Assembler),
      writeAll rules (level + 1) (expr :: rest) assembler =
        (do
          let following ← expr.write rules (level + 1) assembler
          writeAll rules (level + 1) rest following) :=
    fun _ _ _ => rfl
  cases expr with
  | const constant => simp only [write, node, children, last, pure_bind]
  | param slot => simp only [write, node, children, last, pure_bind]
  | unary op operand => simp only [write, node, children, first, last, bind_assoc, pure_bind]
  | binary op left right =>
      simp only [write, node, children, first, last, bind_assoc, pure_bind]
  | function id args => simp only [write, node, children, first, bind_assoc]
  | command bank id args => simp only [write, node, children]

/-- Whether every node of the tree may be written. -/
def Admitted (arities? : Option ArityTable) (expr : Expr) : Prop :=
  forall node, node ∈ expr.postorder -> node.Admitted arities?

theorem admitted_iff {arities? : Option ArityTable} {expr : Expr} :
    expr.Admitted arities? ↔
      (forall child, child ∈ expr.children -> child.Admitted arities?) ∧
        expr.node.Admitted arities? :=
  forall_mem_postorder_iff

theorem Admitted.withoutTable {arities? : Option ArityTable} {expr : Expr}
    (admitted : expr.Admitted arities?) : expr.Admitted none :=
  fun node member => (admitted node member).withoutTable

/-- Whether a tree whose root is at a level reaches no level beyond the limit.
The first level is never beyond it. -/
def Fits (nestingLimit level : Nat) (expr : Expr) : Prop :=
  level + expr.depth ≤ max 1 nestingLimit + 1

theorem fits_iff {nestingLimit level : Nat} {expr : Expr} :
    expr.Fits nestingLimit level ↔
      level ≤ max 1 nestingLimit ∧
        forall child, child ∈ expr.children -> child.Fits nestingLimit (level + 1) := by
  have lowest : depthOfAll expr.children ≤ max 1 nestingLimit - level ↔
      forall child, child ∈ expr.children -> child.depth ≤ max 1 nestingLimit - level :=
    depthOfAll_le_iff
  rw [Fits, depth_eq]
  constructor
  · intro fits
    refine ⟨by omega, fun child member => ?_⟩
    have shallow := lowest.mp (by omega) child member
    have here := child.depth_pos
    simp only [Fits]
    omega
  · rintro ⟨within, below⟩
    have shallow : depthOfAll expr.children ≤ max 1 nestingLimit - level := by
      apply lowest.mpr
      intro child member
      have fits := below child member
      simp only [Fits] at fits
      omega
    omega

/-- The statement about writing a tree, for the trees of a list in turn. -/
private theorem writeAll_eq_ok_iff_of_mem {rules : AssemblyRules} {level : Nat}
    {forest : List Expr}
    (each : forall expr, expr ∈ forest -> forall assembler following : Assembler,
      assembler.height ≤ assembler.peak ->
      (expr.write rules level assembler = .ok following ↔
        expr.Admitted rules.arities? ∧ expr.Fits rules.nestingLimit level ∧
          following = assembler.extend expr.code 1 expr.need))
    {assembler following : Assembler} (bounded : assembler.height ≤ assembler.peak) :
    writeAll rules level forest assembler = .ok following ↔
      (forall expr, expr ∈ forest -> expr.Admitted rules.arities?) ∧
        (forall expr, expr ∈ forest -> expr.Fits rules.nestingLimit level) ∧
          following = assembler.extend (forest.flatMap code) forest.length (needOfAll forest) := by
  induction forest generalizing assembler with
  | nil =>
      simp only [writeAll, Except.ok.injEq, List.not_mem_nil, false_implies, implies_true,
        true_and, List.flatMap_nil, List.length_nil, needOfAll, assembler.extend_nil bounded]
      exact eq_comm
  | cons expr rest inductionHypothesis =>
      have parts := List.forall_mem_cons.mp each
      have kept : (assembler.extend expr.code 1 expr.need).height ≤
          (assembler.extend expr.code 1 expr.need).peak := by
        have positive := expr.need_pos
        simp only [Assembler.extend]
        omega
      have joined := assembler.extend_extend expr.code (rest.flatMap code) 1 rest.length
        expr.need (needOfAll rest)
      rw [Nat.add_comm 1, Nat.add_comm 1] at joined
      simp only [writeAll, bind_eq_ok_iff, List.forall_mem_cons, List.flatMap_cons,
        List.length_cons, needOfAll]
      constructor
      · rintro ⟨middle, first, others⟩
        rcases (parts.1 _ _ bounded).mp first with ⟨admitted, fits, rfl⟩
        rcases (inductionHypothesis parts.2 kept).mp others with ⟨admittedRest, fitsRest, same⟩
        exact ⟨⟨admitted, admittedRest⟩, ⟨fits, fitsRest⟩, same.trans joined⟩
      · rintro ⟨⟨admitted, admittedRest⟩, ⟨fits, fitsRest⟩, same⟩
        refine ⟨_, (parts.1 _ _ bounded).mpr ⟨admitted, fits, rfl⟩, ?_⟩
        exact (inductionHypothesis parts.2 kept).mpr
          ⟨admittedRest, fitsRest, same.trans joined.symm⟩

/-- Writing a tree succeeds exactly if its nodes are admitted and it fits, and
then it adds the code of the tree, one value, and the stack need. -/
theorem write_eq_ok_iff {rules : AssemblyRules} {level : Nat} {expr : Expr}
    {assembler following : Assembler} (bounded : assembler.height ≤ assembler.peak) :
    expr.write rules level assembler = .ok following ↔
      expr.Admitted rules.arities? ∧ expr.Fits rules.nestingLimit level ∧
        following = assembler.extend expr.code 1 expr.need := by
  induction expr using induct_children generalizing level assembler following with
  | step expr inductionHypothesis =>
      have children : forall following,
          writeAll rules (level + 1) expr.children assembler = .ok following ↔ _ :=
        fun _ => writeAll_eq_ok_iff_of_mem
          (fun child member _ _ bounded => inductionHypothesis child member bounded) bounded
      have enough : expr.node.arity ≤ needOfAll expr.children :=
        expr.length_children ▸ length_le_needOfAll expr.children
      -- The operands lie within what the children needed, so the account is exact.
      have account := assembler.account_extend expr.node (expr.children.flatMap code) enough
      rw [← code_eq, ← need_eq, ← expr.length_children] at account
      rw [write_eq, check_eq_ok_iff, bind_eq_ok_iff, AssemblyRules.enter_eq_ok_iff,
        admitted_iff, fits_iff]
      simp only [Assembler.leave_eq_ok_iff, Node.Admitted]
      constructor
      · rintro ⟨⟨within, known⟩, middle, below, encodable, same⟩
        rcases (children middle).mp below with ⟨admitted, fits, rfl⟩
        exact ⟨⟨admitted, encodable, known⟩, ⟨within, fits⟩, same.trans account⟩
      · rintro ⟨⟨admitted, encodable, known⟩, ⟨within, fits⟩, same⟩
        exact ⟨⟨within, known⟩, _, (children _).mpr ⟨admitted, fits, rfl⟩, encodable,
          same.trans account.symm⟩

theorem writeAll_eq_ok_iff {rules : AssemblyRules} {level : Nat} {forest : List Expr}
    {assembler following : Assembler} (bounded : assembler.height ≤ assembler.peak) :
    writeAll rules level forest assembler = .ok following ↔
      (forall expr, expr ∈ forest -> expr.Admitted rules.arities?) ∧
        (forall expr, expr ∈ forest -> expr.Fits rules.nestingLimit level) ∧
          following = assembler.extend (forest.flatMap code) forest.length (needOfAll forest) :=
  writeAll_eq_ok_iff_of_mem (fun _ _ _ _ => write_eq_ok_iff) bounded

end Expr

/-- The bytes that mark the end of an expression. -/
def Framing.mark : Framing -> List UInt8
  | .terminated => [Opcode.stop.toByte]
  | .unterminated => []

namespace Expr

/-- A tree is assembled exactly if its nodes are admitted and it is within
both limits, and the outcome is then determined by the tree and the framing. -/
theorem assemble_eq_ok_iff {options : AssemblyOptions} {arities? : Option ArityTable}
    {expr : Expr} {assembled : Assembled} :
    expr.assemble options arities? = .ok assembled ↔
      expr.Admitted arities? ∧ expr.depth ≤ max 1 options.nestingLimit ∧
        expr.need ≤ options.stackLimit ∧
          assembled = ⟨expr.code ++ options.framing.mark, expr.need⟩ := by
  have written : forall following, expr.write ⟨arities?, options.nestingLimit⟩ 1 .empty =
      .ok following ↔ expr.Admitted arities? ∧ expr.Fits options.nestingLimit 1 ∧
        following = Assembler.empty.extend expr.code 1 expr.need :=
    fun _ => write_eq_ok_iff (Nat.le_refl _)
  have shallow : expr.Fits options.nestingLimit 1 ↔ expr.depth ≤ max 1 options.nestingLimit := by
    simp only [Fits]
    omega
  have framed : forall framing : Framing,
      (match framing with
        | .terminated => (Assembler.empty.extend expr.code 1 expr.need).stop
        | .unterminated => Assembler.empty.extend expr.code 1 expr.need).bytes.toList =
      expr.code ++ framing.mark := by
    intro framing
    cases framing with
    | terminated =>
        simp only [Assembler.stop, Assembler.write, Assembler.extend, Assembler.empty,
          Array.toList_appendList, List.nil_append, Framing.mark]
    | unterminated =>
        simp only [Assembler.extend, Assembler.empty, Array.toList_appendList, List.nil_append,
          Framing.mark, List.append_nil]
  have peak : (Assembler.empty.extend expr.code 1 expr.need).peak = expr.need := by
    simp only [Assembler.extend, Assembler.empty, Nat.zero_add, Nat.zero_max]
  simp only [assemble, bind_eq_ok_iff, written, shallow]
  constructor
  · rintro ⟨following, ⟨admitted, fits, rfl⟩, rest⟩
    rw [peak] at rest
    split at rest
    · cases rest
    · rename_i enough
      refine ⟨admitted, fits, Nat.le_of_not_lt enough, ?_⟩
      exact (Except.ok.inj rest).symm.trans
        (congrArg (fun bytes => Assembled.mk bytes expr.need) (framed options.framing))
  · rintro ⟨admitted, fits, enough, rfl⟩
    refine ⟨_, ⟨admitted, fits, rfl⟩, ?_⟩
    rw [peak, if_neg (Nat.not_lt_of_le enough)]
    exact congrArg (fun bytes => Except.ok (Assembled.mk bytes expr.need))
      (framed options.framing)

end Expr
end Rpn
