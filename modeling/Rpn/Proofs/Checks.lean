import Rpn.Proofs.Encodability

/-!
# The order of the checks

A tree may be wrong in many places and ways.  Some of it is found on the way
down and some on the way up, so the fault that is reported is the first in an
order of its own.  `Expr.checks` writes that order down as a list: what is
looked at on entering a node, then what is looked at in its children, then what
is looked at on leaving it.  Nothing of the assembler is needed to say it.

Main statement: the first check of the list that fails is the error, and the
stack need is compared only where no check fails (`Expr.assemble_first_fault`).
An assembler goes on with whatever the children left behind; that has no part
in what is found later, because every check is about the tree alone
(`Expr.error?_write`).
-/

namespace Rpn

/-- One check, with what is looked at. -/
inductive Check
  | nesting (level : Nat)
  /-- The table must have the command, with this many arguments. -/
  | call (bank : UInt8) (id : Int32) (args : Nat)
  | integer (value : Int) (width : IntWidth)
  | text (content : String)
  | slot (index : UInt8)
  | arguments (count : Nat)
  deriving DecidableEq

namespace Check

/-- What the check finds wrong, if anything.  The first level is never too
deep, and without a table there is nothing to compare a command with. -/
def fault? (rules : AssemblyRules) : Check -> Option AssemblyError
  | nesting level =>
    if 1 < level ∧ rules.nestingLimit < level then some (.nestingTooDeep rules.nestingLimit)
    else none
  | call bank id args =>
    match rules.arities? with
    | none => none
    | some arities =>
      match arities bank id with
      | none => some (.unknownCommand bank id)
      | some expected =>
        if expected = args then none else some (.arityMismatch bank id expected args)
  | integer value width =>
    if width.Contains value then none else some (.notEncodable (.outOfRange value width))
  | text content =>
    if '\x00' ∈ content.toList then some (.notEncodable .interiorNul) else none
  | slot index => if index.toNat ≤ 7 then none else some (.notEncodable (.paramOutOfRange index))
  | arguments count => if count ≤ 6 then none else some (.notEncodable (.tooManyArguments count))

/-- The stack need is not looked at node by node. -/
theorem fault?_ne_stackOverflow (rules : AssemblyRules) (check : Check) (depth limit : Nat) :
    check.fault? rules ≠ some (.stackOverflow depth limit) := by
  intro found
  cases check with
  | call bank id args =>
      simp only [fault?] at found
      split at found
      · cases found
      · split at found
        · cases found
        · split at found
          · cases found
          · cases found
  | _ =>
      simp only [fault?] at found
      split at found
      · cases found
      · cases found

end Check

namespace Node

/-- What is looked at on entering a node at a level. -/
def entering (level : Nat) : Node -> List Check
  | command bank id args => [.nesting level, .call bank id args]
  | const _ | param _ | unary _ | binary _ | function _ => [.nesting level]

/-- What is looked at on leaving a node. -/
def leaving : Node -> List Check
  | const (.int value width) => [.integer value width]
  | const (.string content) => [.text content]
  | param slot => [.slot slot]
  | function args => [.arguments args]
  | const (.float32 _) | const (.float64 _) | unary _ | binary _ | command _ _ _ => []

end Node

namespace Expr

mutual

/-- What is looked at in a tree found at a level, in order. -/
def checks (level : Nat) : Expr -> List Check
  | const constant => (Node.const constant).entering level ++ (Node.const constant).leaving
  | param slot => (Node.param slot).entering level ++ (Node.param slot).leaving
  | unary op operand =>
    (Node.unary op).entering level ++ operand.checks (level + 1) ++ (Node.unary op).leaving
  | binary op left right =>
    (Node.binary op).entering level ++ (left.checks (level + 1) ++ right.checks (level + 1)) ++
      (Node.binary op).leaving
  | function id args =>
    (Node.function args.length).entering level ++
      (id.checks (level + 1) ++ checksOfAll (level + 1) args) ++
        (Node.function args.length).leaving
  | command bank id args =>
    (Node.command bank id args.length).entering level ++ checksOfAll (level + 1) args ++
      (Node.command bank id args.length).leaving

/-- The same for the trees of a list in turn. -/
def checksOfAll (level : Nat) : List Expr -> List Check
  | [] => []
  | expr :: rest => expr.checks level ++ checksOfAll level rest

end

theorem checks_eq (level : Nat) (expr : Expr) :
    expr.checks level =
      expr.node.entering level ++ checksOfAll (level + 1) expr.children ++ expr.node.leaving := by
  cases expr <;> simp only [checks, node, children, checksOfAll, List.append_nil]

end Expr

/-! ## The error of a computation -/

/-- The error that a computation ends with, if it does. -/
def error? {Error Value : Type} : Except Error Value -> Option Error
  | .error error => some error
  | .ok _ => none

/-- Where the second part of a computation fails alike on whatever the first
part leads to, the whole fails as the first part does or else as the second. -/
theorem error?_bind {Error Middle Value : Type} (first : Except Error Middle)
    {second : Middle -> Except Error Value} {later : Option Error}
    (each : forall middle, error? (second middle) = later) :
    error? (first >>= second) = (error? first).or later := by
  cases first with
  | error error => rfl
  | ok middle => exact each middle

theorem eq_error_of_error? {Error Value : Type} {outcome : Except Error Value} {error : Error}
    (found : error? outcome = some error) : outcome = .error error := by
  cases outcome with
  | error other => exact congrArg _ (Option.some.inj found)
  | ok value => cases found

theorem exists_eq_ok_of_error? {Error Value : Type} {outcome : Except Error Value}
    (found : error? outcome = none) : Exists fun value => outcome = .ok value := by
  cases outcome with
  | error other => cases found
  | ok value => exact ⟨value, rfl⟩

/-! ## One node -/

theorem AssemblyRules.error?_enter (rules : AssemblyRules) (level : Nat) (node : Node) :
    error? (rules.enter level node) = (node.entering level).findSome? (Check.fault? rules) := by
  by_cases deep : 1 < level ∧ rules.nestingLimit < level
  · cases node <;>
      simp only [enter, if_pos deep, error?, Node.entering, List.findSome?_cons, Check.fault?]
  · cases node with
    | command bank id args =>
        simp only [enter, if_neg deep, Node.entering, List.findSome?_cons, Check.fault?,
          List.findSome?_nil, admitCall]
        cases rules.arities? with
        | none => rfl
        | some arities =>
            cases count : arities bank id with
            | none => simp only [error?, count]
            | some expected =>
                by_cases same : expected = args
                · simp only [count, if_pos same, error?]
                · simp only [count, if_neg same, error?]
    | _ =>
        simp only [enter, if_neg deep, error?, Node.entering, List.findSome?_cons, Check.fault?,
          List.findSome?_nil]

/-- A node is refused on leaving it for the same reasons whatever was written
before. -/
theorem Assembler.error?_leave (rules : AssemblyRules) (assembler : Assembler) (node : Node) :
    error? (assembler.leave node) = node.leaving.findSome? (Check.fault? rules) := by
  have encoding : error? (assembler.leave node) =
      (error? node.instruction.encode).map AssemblyError.notEncodable := by
    cases encoded : node.instruction.encode with
    | error error => simp only [leave_eq, encoded, error?, Option.map_some]
    | ok bytes => simp only [leave_eq, encoded, error?, Option.map_none]
  rw [encoding]
  cases node with
  | const constant =>
      cases constant with
      | int value width =>
          simp only [Node.leaving, List.findSome?_cons, List.findSome?_nil, Check.fault?,
            Node.instruction, Instruction.encode, Constant.encode]
          by_cases inside : width.Contains value
          · cases width <;> simp only [if_pos inside, error?, Option.map_none]
          · simp only [if_neg inside, error?, Option.map_some]
      | string content =>
          simp only [Node.leaving, List.findSome?_cons, List.findSome?_nil, Check.fault?,
            Node.instruction, Instruction.encode, Constant.encode, List.contains_iff_mem]
          by_cases terminated : '\x00' ∈ content.toList
          · simp only [if_pos terminated, error?, Option.map_some]
          · simp only [if_neg terminated, error?, Option.map_none]
      | float32 bits => rfl
      | float64 bits => rfl
  | param slot =>
      simp only [Node.leaving, List.findSome?_cons, List.findSome?_nil, Check.fault?,
        Node.instruction, Instruction.encode]
      by_cases known : slot.toNat ≤ 7
      · simp only [dif_pos (Nat.lt_succ_of_le known), if_pos known, error?, Option.map_none]
      · have beyond : ¬ slot.toNat < 8 := fun known' => known (Nat.le_of_lt_succ known')
        simp only [dif_neg beyond, if_neg known, error?, Option.map_some]
  | function args =>
      simp only [Node.leaving, List.findSome?_cons, List.findSome?_nil, Check.fault?,
        Node.instruction, Instruction.encode]
      by_cases few : args ≤ 6
      · simp only [dif_pos (Nat.lt_succ_of_le few), if_pos few, error?, Option.map_none]
      · have many : ¬ args < 7 := fun few' => few (Nat.le_of_lt_succ few')
        simp only [dif_neg many, if_neg few, error?, Option.map_some]
  | unary op => rfl
  | binary op => rfl
  | command bank id args => rfl

/-! ## A tree -/

namespace Expr

/-- The statement about writing a tree, for the trees of a list in turn. -/
private theorem error?_writeAll_of_mem {rules : AssemblyRules} {level : Nat} {forest : List Expr}
    (each : forall expr, expr ∈ forest -> forall assembler : Assembler,
      error? (expr.write rules level assembler) =
        (expr.checks level).findSome? (Check.fault? rules))
    (assembler : Assembler) :
    error? (writeAll rules level forest assembler) =
      (checksOfAll level forest).findSome? (Check.fault? rules) := by
  induction forest generalizing assembler with
  | nil => rfl
  | cons expr rest inductionHypothesis =>
      have parts := List.forall_mem_cons.mp each
      have others := error?_bind (expr.write rules level assembler)
        (inductionHypothesis parts.2)
      rw [parts.1] at others
      rw [checksOfAll, List.findSome?_append]
      exact others

/-- Writing a tree fails with the first fault of its checks, whatever was
written before. -/
theorem error?_write (rules : AssemblyRules) (level : Nat) (expr : Expr)
    (assembler : Assembler) :
    error? (expr.write rules level assembler) =
      (expr.checks level).findSome? (Check.fault? rules) := by
  induction expr using induct_children generalizing level assembler with
  | step expr inductionHypothesis =>
      have children := error?_writeAll_of_mem fun child member assembler =>
        inductionHypothesis child member (level + 1) assembler
      have left := error?_bind (writeAll rules (level + 1) expr.children assembler)
        fun middle => middle.error?_leave rules expr.node
      have entered := error?_bind (rules.enter level expr.node) fun _ => left
      rw [write_eq, checks_eq, entered, children, rules.error?_enter, List.findSome?_append,
        List.findSome?_append, Option.or_assoc]

/-- What comes of assembling a tree: the first fault of its checks, or else the
comparison of its stack need. -/
theorem assemble_eq_of_checks (options : AssemblyOptions) (arities? : Option ArityTable)
    (expr : Expr) :
    expr.assemble options arities? =
      match (expr.checks 1).findSome? (Check.fault? ⟨arities?, options.nestingLimit⟩) with
      | some error => .error error
      | none =>
        if options.stackLimit < expr.need then .error (.stackOverflow expr.need options.stackLimit)
        else .ok ⟨expr.code ++ options.framing.mark, expr.need⟩ := by
  have written := expr.error?_write ⟨arities?, options.nestingLimit⟩ 1 .empty
  cases found : (expr.checks 1).findSome? (Check.fault? ⟨arities?, options.nestingLimit⟩) with
  | some error =>
      have failed := eq_error_of_error? (written.trans found)
      rw [assemble, failed]
      rfl
  | none =>
      rcases exists_eq_ok_of_error? (written.trans found) with ⟨following, done⟩
      rcases (write_eq_ok_iff (Nat.le_refl _)).mp done with ⟨admitted, fits, rfl⟩
      have shallow : expr.depth ≤ max 1 options.nestingLimit := by
        simp only [Fits] at fits
        omega
      have peak : (Assembler.empty.extend expr.code 1 expr.need).peak = expr.need := by
        simp only [Assembler.extend, Assembler.empty, Nat.zero_add, Nat.zero_max]
      by_cases full : options.stackLimit < expr.need
      · rw [assemble, done]
        simp only [if_pos full]
        show (if options.stackLimit < (Assembler.empty.extend expr.code 1 expr.need).peak then _
          else _) = _
        rw [peak, if_pos full]
      · simp only [if_neg full]
        exact assemble_eq_ok_iff.mpr ⟨admitted, shallow, Nat.le_of_not_lt full, rfl⟩

/-- The first check of a tree that finds a fault decides what is reported.
Where none does, the stack need is compared with its limit: the depth that is
then reported is the least limit that is enough. -/
theorem assemble_first_fault (options : AssemblyOptions) (arities? : Option ArityTable)
    (expr : Expr) :
    (forall (before after : List Check) (check : Check) (error : AssemblyError),
      expr.checks 1 = before ++ check :: after ->
        (forall earlier, earlier ∈ before ->
          earlier.fault? ⟨arities?, options.nestingLimit⟩ = none) ->
            check.fault? ⟨arities?, options.nestingLimit⟩ = some error ->
              expr.assemble options arities? = .error error) ∧
    ((forall check, check ∈ expr.checks 1 ->
        check.fault? ⟨arities?, options.nestingLimit⟩ = none) ->
      (forall depth limit,
        expr.assemble options arities? = .error (.stackOverflow depth limit) ↔
          options.stackLimit < expr.need ∧ depth = expr.need ∧ limit = options.stackLimit) ∧
      (Exists fun assembled =>
        expr.assemble { options with stackLimit := expr.need } arities? = .ok assembled ∧
          assembled.peak = expr.need) ∧
      forall limit, limit < expr.need ->
        expr.assemble { options with stackLimit := limit } arities? =
          .error (.stackOverflow expr.need limit)) ∧
    forall depth limit, expr.assemble options arities? = .error (.stackOverflow depth limit) ->
      forall check, check ∈ expr.checks 1 ->
        check.fault? ⟨arities?, options.nestingLimit⟩ = none := by
  refine ⟨?_, ?_, ?_⟩
  · intro before after check error shape passed failed
    have first : (expr.checks 1).findSome? (Check.fault? ⟨arities?, options.nestingLimit⟩) =
        some error :=
      List.findSome?_eq_some_iff.mpr ⟨before, check, after, shape, failed, passed⟩
    rw [assemble_eq_of_checks, first]
  · intro passed
    have compared : forall limit, expr.assemble { options with stackLimit := limit } arities? =
        if limit < expr.need then .error (.stackOverflow expr.need limit)
        else .ok ⟨expr.code ++ options.framing.mark, expr.need⟩ := by
      intro limit
      rw [assemble_eq_of_checks]
      simp only [List.findSome?_eq_none_iff.mpr passed]
    refine ⟨?_, ?_, ?_⟩
    · intro depth limit
      have outcome := compared options.stackLimit
      constructor
      · intro overflow
        rw [outcome] at overflow
        split at overflow
        · rename_i full
          cases overflow
          exact ⟨full, rfl, rfl⟩
        · cases overflow
      · rintro ⟨full, rfl, rfl⟩
        exact outcome.trans (if_pos full)
    · exact ⟨⟨expr.code ++ options.framing.mark, expr.need⟩,
        (compared expr.need).trans (if_neg (Nat.lt_irrefl expr.need)), rfl⟩
    · intro limit short
      exact (compared limit).trans (if_pos short)
  · intro depth limit overflow
    rw [assemble_eq_of_checks] at overflow
    cases found : (expr.checks 1).findSome? (Check.fault? ⟨arities?, options.nestingLimit⟩) with
    | none => exact List.findSome?_eq_none_iff.mp found
    | some error =>
        rw [found] at overflow
        cases overflow
        rcases List.exists_of_findSome?_eq_some found with ⟨check, _, failed⟩
        exact absurd failed (check.fault?_ne_stackOverflow _ depth limit)

/-- The sum of a command call and a text with a terminator in it.  The argument
of the call is an integer beyond its width. -/
def faultySum : Expr :=
  .binary .add (.command 6 12 [.const (.int 64 .inline)]) (.const (.string "a\x00"))

/-- A wrong argument count is found before the argument is looked at, and the
text last of all.  A tree without faults overflows below its need only. -/
theorem assemble_first_fault_faultySum :
    faultySum.assemble {} (some (.ofRows [(6, 12, 2)])) = .error (.arityMismatch 6 12 2 1) ∧
      faultySum.assemble {} none = .error (.notEncodable (.outOfRange 64 .inline)) ∧
      (surrogateCall.assemble ⟨.terminated, 2, 3⟩ none = .error (.stackOverflow 3 2) ∧
        Exists fun assembled =>
          surrogateCall.assemble ⟨.terminated, surrogateCall.need, 3⟩ none = .ok assembled ∧
            assembled.peak = surrogateCall.need) ∧
      forall check, check ∈ surrogateCall.checks 1 -> check.fault? ⟨none, 3⟩ = none := by
  have overflow : surrogateCall.assemble ⟨.terminated, 2, 3⟩ none =
      .error (.stackOverflow 3 2) := by decide +kernel
  have passed := (assemble_first_fault ⟨.terminated, 2, 3⟩ none surrogateCall).2.2 3 2 overflow
  refine ⟨?_, ?_, ⟨overflow, ?_⟩, passed⟩
  · exact (assemble_first_fault {} (some (.ofRows [(6, 12, 2)])) faultySum).1
      [.nesting 1, .nesting 2] [.nesting 3, .integer 64 .inline, .nesting 2, .text "a\x00"]
      (.call 6 12 1) _ rfl (by decide) rfl
  · exact (assemble_first_fault {} none faultySum).1
      [.nesting 1, .nesting 2, .call 6 12 1, .nesting 3] [.nesting 2, .text "a\x00"]
      (.integer 64 .inline) _ rfl (by decide) rfl
  · exact ((assemble_first_fault ⟨.terminated, 2, 3⟩ none surrogateCall).2.1 passed).2.1

end Expr
end Rpn
