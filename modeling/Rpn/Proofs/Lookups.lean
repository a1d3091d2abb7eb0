import Mathlib.Data.List.Induction
import Rpn.CommandTable
import Rpn.Proofs.Checks
import Rpn.Proofs.Parentheses
import Rpn.Proofs.Replacing
import Rpn.Proofs.TraceLog

/-!
# What is looked up in a table

A table is asked about a command when an instruction or a node that calls the
command comes up, and at no other time.  Tables that answer alike about the
commands that come up therefore lead to the same, errors included, although one
other answer would regroup every operand behind it.  Main statement: for
execution, for assembling, and for the rows of a command table that no lookup
depends on (`agreeing_tables`).

Of two executions only the first is known to read its trace.  They stay in the
same state turn by turn, so the second one never reads anything else
(`Decompiler.State.run_congr`).
-/

namespace Rpn

/-- Whether two tables answer alike about every command that is called among
some instructions. -/
def ArityTable.AgreeOn (first second : ArityTable) (instructions : List Instruction) : Prop :=
  forall bank id, .command bank id ∈ instructions -> first bank id = second bank id

variable {first second : ArityTable}

/-! ## Execution -/

namespace Decompiler

variable {options : DecompileOptions}

theorem nodeOf_congr {instruction : Instruction} (agree : first.AgreeOn second [instruction])
    (offset : Nat) : nodeOf first offset instruction = nodeOf second offset instruction := by
  cases instruction with
  | command bank id =>
      simp only [nodeOf, agree bank id List.mem_cons_self]
  | _ => rfl

namespace State

theorem turn_congr {state : State}
    (agree : forall reading, Instruction.read state.rest = .ok reading ->
      first.AgreeOn second [reading.instruction]) :
    state.turn first options = state.turn second options := by
  cases shape : state.rest with
  | nil => simp only [turn, shape]
  | cons opcode operand =>
      cases read : Instruction.read state.rest with
      | error fault =>
          rw [shape] at read
          simp only [turn, shape, read]
      | ok reading =>
          rw [turn_of_read shape read, turn_of_read shape read, nodeOf_congr (agree reading read)]

variable {arities : ArityTable}

theorem trace_suffix_turn (state : State) :
    state.trace <:+ (state.turn arities options).state.trace := by
  cases read : Instruction.read state.rest with
  | error fault =>
      have same : (state.turn arities options).state = state := state_turn_of_error read
      exact ⟨[], (congrArg State.trace same).symm⟩
  | ok reading =>
      rw [trace_turn_of_read read]
      exact List.suffix_cons _ state.trace

/-- What a turn has traced is never dropped. -/
theorem trace_turn_suffix_run (state : State) :
    (state.turn arities options).state.trace <:+ (state.run arities options).1.trace := by
  rw [run_eq]
  cases turned : state.turn arities options with
  | next following =>
      exact (trace_suffix_turn following).trans (trace_turn_suffix_run following)
  | finished final framing => exact List.suffix_refl final.trace
  | failed final error => exact List.suffix_refl final.trace
termination_by state.rest.length
decreasing_by exact rest_lt_of_turn turned

/-- Two executions of one state stay together as long as their tables answer
alike about what the first one reads. -/
theorem run_congr (state : State)
    (agree : first.AgreeOn second
      ((state.run first options).1.trace.map ListedInstruction.instruction)) :
    state.run first options = state.run second options := by
  have same : state.turn first options = state.turn second options := by
    apply turn_congr
    intro reading read bank id asked
    apply agree bank id
    have traced : (state.turn first options).state.trace <:+ (state.run first options).1.trace :=
      trace_turn_suffix_run state
    rw [trace_turn_of_read read] at traced
    exact List.mem_map.mpr ⟨_, traced.subset List.mem_cons_self, (List.mem_singleton.mp asked).symm⟩
  rw [run_eq] at agree
  rw [run_eq, run_eq second options state, ← same]
  cases turned : state.turn first options with
  | next following =>
      rw [turned] at agree
      exact run_congr following agree
  | finished final framing => rfl
  | failed final error => rfl
termination_by state.rest.length
decreasing_by exact rest_lt_of_turn turned

end State

theorem trace_run {arities : ArityTable} {bytes : List UInt8} (nonempty : bytes ≠ []) :
    (run arities options bytes).trace =
      ((State.start bytes).run arities options).1.trace.reverse := by
  have whole := run_eq_of_reaches nonempty (.refl : State.Reaches arities options _ _)
  rcases ended : (State.start bytes).run arities options with ⟨final, error | framing⟩
  · rw [ended] at whole
    exact congrArg Run.trace whole
  · rw [ended] at whole
    exact congrArg Run.trace whole

/-- Two executions of one buffer are the same, trace included, if their tables
answer alike about what the first one reads. -/
theorem run_congr {bytes : List UInt8}
    (agree : first.AgreeOn second
      ((run first options bytes).trace.map ListedInstruction.instruction)) :
    run first options bytes = run second options bytes := by
  by_cases nonempty : bytes = []
  · subst nonempty
    rfl
  · have same : (State.start bytes).run first options = (State.start bytes).run second options := by
      apply State.run_congr
      intro bank id asked
      apply agree bank id
      rw [trace_run nonempty, List.map_reverse]
      exact List.mem_reverse.mpr asked
    rw [run_eq_of_reaches nonempty .refl, same]
    exact (run_eq_of_reaches nonempty .refl).symm

/-- The instructions of a decompiled buffer are those of its tree and of its
framing. -/
theorem map_instruction_readable {arities : ArityTable} {bytes : List UInt8}
    {decompiled : Decompiled} (done : decompile arities options bytes = .ok decompiled) :
    (readable bytes).map ListedInstruction.instruction =
      decompiled.expr.postorder.map Node.instruction ++ decompiled.framing.instructions := by
  have ending := ends arities options bytes
  rw [done] at ending
  cases ending with
  | decompiled visited marked =>
      have admitted := visited.faithful.admitted _ List.mem_cons_self
      have shape := visited.faithful.bytes
      rw [marked, List.flatMap_singleton] at shape
      rcases Expr.exists_disassemble_code admitted _ with ⟨entries, listed, instructions⟩
      rw [← shape] at listed
      rw [readable_of_disassemble listed, instructions]

theorem trace_subset_readable (arities : ArityTable) (options : DecompileOptions)
    (bytes : List UInt8) : (run arities options bytes).trace ⊆ readable bytes := by
  rcases exists_divides arities options bytes with ⟨later, divides⟩
  rw [divides.listing]
  exact List.subset_append_left _ later

end Decompiler

/-! ## Trees -/

namespace Node

variable {node : Node} {bank : UInt8} {id : Int32} {args : Nat}

theorem instruction_of_mem_entering {level : Nat} (asked : .call bank id args ∈ node.entering level) :
    node.instruction = .command bank id := by
  cases node with
  | command calledBank calledId count =>
      rcases List.mem_pair.mp asked with same | same
      · cases same
      · cases same
        rfl
  | _ => cases List.mem_singleton.mp asked

theorem call_not_mem_leaving : .call bank id args ∉ node.leaving := by
  intro asked
  unfold leaving at asked
  split at asked
  all_goals first | cases List.mem_singleton.mp asked | cases asked

end Node

namespace Expr

theorem mem_map_instruction_iff {expr : Expr} {instruction : Instruction} :
    instruction ∈ expr.postorder.map Node.instruction ↔
      expr.node.instruction = instruction ∨
        Exists fun child => child ∈ expr.children ∧
          instruction ∈ child.postorder.map Node.instruction := by
  rw [postorder_eq, List.map_append, List.map_flatMap, List.mem_append, List.mem_flatMap,
    List.map_singleton, List.mem_singleton, eq_comm]
  exact or_comm

/-! ### Assembling -/

theorem exists_mem_checks_of_mem_checksOfAll {level : Nat} {forest : List Expr} {check : Check}
    (member : check ∈ checksOfAll level forest) :
    Exists fun expr => expr ∈ forest ∧ check ∈ expr.checks level := by
  induction forest with
  | nil => cases member
  | cons expr rest inductionHypothesis =>
      rcases List.mem_append.mp member with here | later
      · exact ⟨expr, List.mem_cons_self, here⟩
      · rcases inductionHypothesis later with ⟨other, listed, inside⟩
        exact ⟨other, List.mem_cons_of_mem expr listed, inside⟩

/-- A table is asked only about a command that some node calls. -/
theorem mem_map_instruction_of_mem_checks {bank : UInt8} {id : Int32} {args : Nat} {expr : Expr}
    {level : Nat} (asked : .call bank id args ∈ expr.checks level) :
    .command bank id ∈ expr.postorder.map Node.instruction := by
  induction expr using induct_children generalizing level with
  | step expr inductionHypothesis =>
      apply mem_map_instruction_iff.mpr
      rw [checks_eq, List.mem_append, List.mem_append] at asked
      rcases asked with (entering | below) | leaving
      · exact Or.inl (Node.instruction_of_mem_entering entering)
      · rcases exists_mem_checks_of_mem_checksOfAll below with ⟨child, listed, inside⟩
        exact Or.inr ⟨child, listed, inductionHypothesis child listed inside⟩
      · exact absurd leaving Node.call_not_mem_leaving

theorem assemble_congr {options : AssemblyOptions} {expr : Expr}
    (agree : first.AgreeOn second (expr.postorder.map Node.instruction)) :
    expr.assemble options (some first) = expr.assemble options (some second) := by
  have same : (expr.checks 1).map (Check.fault? ⟨some first, options.nestingLimit⟩) =
      (expr.checks 1).map (Check.fault? ⟨some second, options.nestingLimit⟩) := by
    apply List.map_congr_left
    intro check member
    cases check with
    | call bank id args =>
        simp only [Check.fault?, agree bank id (mem_map_instruction_of_mem_checks member)]
    | _ => rfl
  have found (arities : ArityTable) :
      (expr.checks 1).findSome? (Check.fault? ⟨some arities, options.nestingLimit⟩) =
        ((expr.checks 1).map (Check.fault? ⟨some arities, options.nestingLimit⟩)).findSome? id := by
    rw [List.findSome?_map]
    rfl
  rw [assemble_eq_of_checks, assemble_eq_of_checks, found, found, same]

/-! ### Text -/

theorem mem_words_of_mem_wordsWithin {bank : UInt8} {id : Int32} {needed : Bool} {expr : Expr}
    (named : .command bank id ∈ expr.wordsWithin needed) : .command bank id ∈ expr.words := by
  cases needed with
  | false => exact expr.wordsWithin_false ▸ named
  | true =>
      rw [wordsWithin_true, List.mem_append, List.mem_cons] at named
      rcases named with (bracket | inside) | bracket
      · cases bracket
      · exact inside
      · cases List.mem_singleton.mp bracket

theorem exists_mem_words_of_mem_arguments {bank : UInt8} {id : Int32} {args : List Expr}
    (named : .command bank id ∈ Token.arguments (args.map words)) :
    Exists fun arg => arg ∈ args ∧ .command bank id ∈ arg.words := by
  rw [Token.arguments, List.mem_append, List.mem_cons] at named
  rcases named with (bracket | inside) | bracket
  · cases bracket
  · cases args with
    | nil => cases inside
    | cons arg others =>
        rw [List.map_cons, Token.intercalate_comma_cons, List.flatMap_map, List.mem_append,
          List.mem_flatMap] at inside
        rcases inside with here | ⟨other, listed, behind⟩
        · exact ⟨arg, List.mem_cons_self, here⟩
        · rcases List.mem_cons.mp behind with comma | inside
          · cases comma
          · exact ⟨other, List.mem_cons_of_mem arg listed, inside⟩
  · cases List.mem_singleton.mp bracket

/-- The words name a command that the root calls, or else the words of a child
name it. -/
theorem mem_words_cases {bank : UInt8} {id : Int32} {expr : Expr}
    (named : .command bank id ∈ expr.words) :
    expr.node.instruction = .command bank id ∨
      Exists fun child => child ∈ expr.children ∧ .command bank id ∈ child.words := by
  cases expr with
  | const constant => cases List.mem_singleton.mp named
  | param slot => cases List.mem_singleton.mp named
  | unary op operand =>
      rw [words_unary, List.mem_cons] at named
      rcases named with sign | inside
      · cases sign
      · exact Or.inr ⟨operand, List.mem_cons_self, mem_words_of_mem_wordsWithin inside⟩
  | binary op left right =>
      rw [words_binary, List.mem_append, List.mem_cons] at named
      rcases named with inside | sign | inside
      · exact Or.inr ⟨left, List.mem_cons_self, mem_words_of_mem_wordsWithin inside⟩
      · cases sign
      · exact Or.inr ⟨right, List.mem_cons_of_mem left List.mem_cons_self,
          mem_words_of_mem_wordsWithin inside⟩
  | function id args =>
      rw [words_function, List.mem_append] at named
      rcases named with front | below
      · rw [heading] at front
        split at front
        · cases List.mem_singleton.mp front
        · rw [List.mem_append, List.mem_cons, List.mem_cons] at front
          rcases front with (letter | bracket | inside) | bracket
          · cases letter
          · cases bracket
          · exact Or.inr ⟨id, List.mem_cons_self, inside⟩
          · cases List.mem_singleton.mp bracket
      · rcases exists_mem_words_of_mem_arguments below with ⟨arg, listed, inside⟩
        exact Or.inr ⟨arg, List.mem_cons_of_mem id listed, inside⟩
  | command calledBank calledId args =>
      rw [words_command, List.mem_cons] at named
      rcases named with called | below
      · cases called
        exact Or.inl rfl
      · exact Or.inr (exists_mem_words_of_mem_arguments below)

theorem mem_map_instruction_of_mem_words {bank : UInt8} {id : Int32} {expr : Expr}
    (named : .command bank id ∈ expr.words) :
    .command bank id ∈ expr.postorder.map Node.instruction := by
  induction expr using induct_children with
  | step expr inductionHypothesis =>
      apply mem_map_instruction_iff.mpr
      rcases mem_words_cases named with called | ⟨child, listed, inside⟩
      · exact Or.inl called
      · exact Or.inr ⟨child, listed, inductionHypothesis child listed inside⟩

/-- The text shows the names of the commands that are called, and no others. -/
theorem text_congr {first second : Naming} {expr : Expr} (param : first.param = second.param)
    (function : first.function = second.function)
    (agree : forall bank id, .command bank id ∈ expr.postorder.map Node.instruction ->
      first.command bank id = second.command bank id) :
    expr.text first = expr.text second := by
  have same : expr.tokens.map (Token.text first) = expr.tokens.map (Token.text second) := by
    apply List.map_congr_left
    intro token member
    cases token with
    | command bank id =>
        have named : .command bank id ∈ expr.words := List.mem_filter.mpr ⟨member, rfl⟩
        exact agree bank id (mem_map_instruction_of_mem_words named)
    | param slot => exact congrFun param slot
    | function id => exact congrFun function id
    | _ => rfl
  rw [text, text, same]

end Expr

/-! ## Rows -/

namespace CommandRow

theorem isAbout_iff {row : CommandRow} {bank : UInt8} {id : Int32} :
    row.isAbout bank id = true ↔ row.bank = bank ∧ row.id = id := by
  rw [isAbout, Bool.and_eq_true, beq_iff_eq, beq_iff_eq]

theorem isAbout_of_same {row other : CommandRow} {bank : UInt8} {id : Int32}
    (same : other.isAbout row.bank row.id = true) (asked : other.isAbout bank id = true) :
    row.isAbout bank id = true := by
  rcases isAbout_iff.mp same with ⟨sameBank, sameId⟩
  rcases isAbout_iff.mp asked with ⟨rfl, rfl⟩
  exact isAbout_iff.mpr ⟨sameBank.symm, sameId.symm⟩

end CommandRow

namespace CommandTable

/-- The last row about a command. -/
def lastRow? (rows : List CommandRow) (bank : UInt8) (id : Int32) : Option CommandRow :=
  (rows.filter fun row => row.isAbout bank id).getLast?

theorem lastRow?_append (before after : List CommandRow) (bank : UInt8) (id : Int32) :
    lastRow? (before ++ after) bank id =
      (lastRow? after bank id).or (lastRow? before bank id) := by
  rw [lastRow?, List.filter_append, List.getLast?_append]
  rfl

theorem lastRow?_singleton (row : CommandRow) (bank : UInt8) (id : Int32) :
    lastRow? [row] bank id = if row.isAbout bank id then some row else none := by
  rw [lastRow?, List.filter_singleton]
  cases row.isAbout bank id with
  | false => rfl
  | true => rfl

/-- A row takes the place of earlier ones of its command and of no others. -/
theorem find?_insert (table : CommandTable) (row : CommandRow) (bank : UInt8) (id : Int32) :
    (table.insert row).find? bank id =
      if row.isAbout bank id then some row else table.find? bank id := by
  by_cases about : row.isAbout bank id = true
  · rw [if_pos about]
    exact List.find?_cons_of_pos about
  · have kept : (fun other : CommandRow =>
        decide ((!other.isAbout row.bank row.id) = true ∧ other.isAbout bank id = true)) =
          fun other => other.isAbout bank id := by
      funext other
      apply Bool.eq_iff_iff.mpr
      rw [decide_eq_true_iff, and_iff_right_iff_imp, Bool.not_eq_true']
      intro asked
      exact Bool.eq_false_iff.mpr fun same => about (CommandRow.isAbout_of_same same asked)
    rw [if_neg about]
    refine Eq.trans (List.find?_cons_of_neg about) ?_
    rw [List.find?_filter, kept]
    rfl

theorem find?_ofRows (rows : List CommandRow) (bank : UInt8) (id : Int32) :
    (ofRows rows).find? bank id = lastRow? rows bank id := by
  induction rows using List.reverseRecOn with
  | nil => rfl
  | append_singleton rows row inductionHypothesis =>
      rw [ofRows, List.foldl_concat, find?_insert, lastRow?_append, lastRow?_singleton]
      split
      · rfl
      · exact inductionHypothesis

/-- A row decides nothing about a command if it is about another one, or if a
later row is about the command. -/
theorem lastRow?_drop {before after : List CommandRow} {row : CommandRow} {bank : UInt8}
    {id : Int32} (shadowed : row.isAbout bank id = true ->
      Exists fun later => later ∈ after ∧ later.isAbout bank id = true) :
    lastRow? (before ++ row :: after) bank id = lastRow? (before ++ after) bank id := by
  rw [← List.singleton_append, lastRow?_append, lastRow?_append, lastRow?_append,
    lastRow?_singleton]
  split
  · rename_i about
    rcases shadowed about with ⟨later, listed, same⟩
    have decided : (lastRow? after bank id).isSome = true :=
      List.getLast?_isSome.mpr (List.ne_nil_of_mem (List.mem_filter.mpr ⟨listed, same⟩))
    rw [Option.or_of_isSome decided]
  · rw [Option.or_none]

theorem naming_command_ofRows (rows : List CommandRow) (bank : UInt8) (id : Int32) :
    (ofRows rows).naming.command bank id =
      ((lastRow? rows bank id).bind CommandRow.name?).getD s!"c{bank}_{id}" := by
  rw [← find?_ofRows]
  rfl

theorem arities_ofRows (rows : List CommandRow) (bank : UInt8) (id : Int32) :
    (ofRows rows).arities bank id = (lastRow? rows bank id).map CommandRow.args := by
  rw [← find?_ofRows]
  rfl

section

variable {rows others : List CommandRow}

theorem agreeOn_ofRows {instructions : List Instruction}
    (same : forall bank id, .command bank id ∈ instructions ->
      lastRow? rows bank id = lastRow? others bank id) :
    (ofRows rows).arities.AgreeOn (ofRows others).arities instructions := by
  intro bank id asked
  rw [arities_ofRows, arities_ofRows, same bank id asked]

theorem text_naming_ofRows {expr : Expr}
    (same : forall bank id, .command bank id ∈ expr.postorder.map Node.instruction ->
      lastRow? rows bank id = lastRow? others bank id) :
    expr.text (ofRows rows).naming = expr.text (ofRows others).naming := by
  have param : (ofRows rows).naming.param = (ofRows others).naming.param := rfl
  have function : (ofRows rows).naming.function = (ofRows others).naming.function := rfl
  apply Expr.text_congr param function
  intro bank id called
  rw [naming_command_ofRows, naming_command_ofRows, same bank id called]

variable {before after : List CommandRow} {row : CommandRow} {bank : UInt8} {id : Int32}

/-- A row with a later one of its command is never looked up. -/
theorem lastRow?_drop_of_later
    (shadowed : Exists fun later => later ∈ after ∧ later.bank = row.bank ∧ later.id = row.id) :
    lastRow? (before ++ row :: after) bank id = lastRow? (before ++ after) bank id := by
  apply lastRow?_drop
  intro about
  rcases shadowed with ⟨later, listed, sameBank, sameId⟩
  rcases CommandRow.isAbout_iff.mp about with ⟨rfl, rfl⟩
  exact ⟨later, listed, CommandRow.isAbout_iff.mpr ⟨sameBank, sameId⟩⟩

/-- A row is not looked up for instructions that do not call its command. -/
theorem lastRow?_drop_of_absent {instructions : List Instruction}
    (absent : .command row.bank row.id ∉ instructions)
    (asked : .command bank id ∈ instructions) :
    lastRow? (before ++ row :: after) bank id = lastRow? (before ++ after) bank id := by
  apply lastRow?_drop
  intro about
  rcases CommandRow.isAbout_iff.mp about with ⟨rfl, rfl⟩
  exact absurd asked absent

end

end CommandTable

open Decompiler CommandTable

/-- Tables that answer alike about the commands that an execution reads give it
the same outcome, and tables that answer alike about the commands that a tree
calls give it the same bytes or the same error.  In a command table the last
row of a command answers for it, with its argument count and its name or the
lack of one.  So a row can be left out if a later one is about the same
command, and for a buffer that does not call the command it can be left out in
any case. -/
theorem agreeing_tables :
    (forall (first second : ArityTable) (options : DecompileOptions) (bytes : List UInt8),
      first.AgreeOn second ((run first options bytes).trace.map ListedInstruction.instruction) ->
        decompile first options bytes = decompile second options bytes) ∧
    (forall (first second : ArityTable) (options : AssemblyOptions) (expr : Expr),
      first.AgreeOn second (expr.postorder.map Node.instruction) ->
        expr.assemble options (some first) = expr.assemble options (some second)) ∧
    (forall (rows : List CommandRow) (bank : UInt8) (id : Int32),
      (ofRows rows).arities bank id = (lastRow? rows bank id).map CommandRow.args ∧
        (ofRows rows).naming.command bank id =
          ((lastRow? rows bank id).bind CommandRow.name?).getD s!"c{bank}_{id}") ∧
    (forall (before after : List CommandRow) (row : CommandRow),
      (Exists fun later => later ∈ after ∧ later.bank = row.bank ∧ later.id = row.id) ->
        (forall (options : DecompileOptions) (bytes : List UInt8),
          decompile (ofRows (before ++ row :: after)).arities options bytes =
            decompile (ofRows (before ++ after)).arities options bytes) ∧
        forall expr : Expr,
          expr.text (ofRows (before ++ row :: after)).naming =
            expr.text (ofRows (before ++ after)).naming) ∧
    forall (before after : List CommandRow) (row : CommandRow) (options : DecompileOptions)
      (bytes : List UInt8),
      (forall entry, entry ∈ readable bytes -> entry.instruction ≠ .command row.bank row.id) ->
        decompile (ofRows (before ++ row :: after)).arities options bytes =
          decompile (ofRows (before ++ after)).arities options bytes ∧
        forall decompiled,
          decompile (ofRows (before ++ row :: after)).arities options bytes = .ok decompiled ->
            decompiled.expr.text (ofRows (before ++ row :: after)).naming =
              decompiled.expr.text (ofRows (before ++ after)).naming := by
  refine ⟨?_, ?_, ?_, ?_, ?_⟩
  · intro first second options bytes agree
    exact congrArg Run.outcome (run_congr agree)
  · intro first second options expr agree
    exact Expr.assemble_congr agree
  · intro rows bank id
    exact ⟨arities_ofRows rows bank id, naming_command_ofRows rows bank id⟩
  · intro before after row shadowed
    refine ⟨?_, ?_⟩
    · intro options bytes
      apply congrArg Run.outcome
      apply run_congr
      exact agreeOn_ofRows fun bank id _ => lastRow?_drop_of_later shadowed
    · intro expr
      exact text_naming_ofRows fun bank id _ => lastRow?_drop_of_later shadowed
  · intro before after row options bytes unread
    have absent : .command row.bank row.id ∉
        (readable bytes).map ListedInstruction.instruction := by
      intro member
      rcases List.mem_map.mp member with ⟨entry, listed, same⟩
      exact unread entry listed same
    refine ⟨?_, ?_⟩
    · apply congrArg Run.outcome
      apply run_congr
      apply agreeOn_ofRows
      intro bank id asked
      apply lastRow?_drop_of_absent absent
      exact List.map_subset _ (trace_subset_readable _ options bytes) asked
    · intro decompiled done
      apply text_naming_ofRows
      intro bank id called
      apply lastRow?_drop_of_absent absent
      rw [map_instruction_readable done]
      exact List.mem_append_left _ called

/-- A command with three rows: the first has a name and another argument count,
the second decides and has no name, and the third is about a command that the
buffer does not call. -/
theorem agreeing_tables_namelessRow :
    let bytes := [0x42, 0x8B, 0x06, 0x0C, 0x00, 0x00, 0x00, 0xA1]
    let call := Expr.command 6 12 [.ofInt 2]
    let shadowed : CommandRow := ⟨6, 12, some "SetEventFlag", 2⟩
    let deciding : CommandRow := ⟨6, 12, none, 1⟩
    let unread : CommandRow := ⟨1, 100, some "Wait", 0⟩
    let table := ofRows [shadowed, deciding, unread]
    decompile table.arities {} bytes = .ok ⟨call, .terminated, 1⟩ ∧
      call.text table.naming = "c6_12(2)" ∧
      decompile (.ofRows [(6, 12, 1)]) {} bytes = .ok ⟨call, .terminated, 1⟩ ∧
      call.assemble {} (some table.arities) = call.assemble {} (some (.ofRows [(6, 12, 1)])) ∧
      decompile (ofRows [deciding, unread]).arities {} bytes = .ok ⟨call, .terminated, 1⟩ ∧
      decompile (ofRows [shadowed, deciding]).arities {} bytes = .ok ⟨call, .terminated, 1⟩ ∧
      call.text (ofRows [shadowed, deciding]).naming = "c6_12(2)" := by
  intro bytes call shadowed deciding unread table
  have done : decompile table.arities {} bytes = .ok ⟨call, .terminated, 1⟩ := by decide +kernel
  have text : call.text table.naming = "c6_12(2)" := by decide +kernel
  have listed : disassemble bytes = .ok [⟨0, 1, .push (.int 2 .inline)⟩, ⟨1, 6, .command 6 12⟩,
      ⟨7, 1, .stop⟩] := by decide +kernel
  have traced : (run table.arities {} bytes).trace.map ListedInstruction.instruction =
      [.push (.int 2 .inline), .command 6 12, .stop] := by decide +kernel
  have agree : table.arities.AgreeOn (.ofRows [(6, 12, 1)])
      [.push (.int 2 .inline), .command 6 12, .stop] := by
    intro bank id asked
    rcases List.mem_cons.mp asked with push | behind
    · cases push
    · rcases List.mem_cons.mp behind with called | stop
      · cases called
        decide
      · cases List.mem_singleton.mp stop
  rcases agreeing_tables with ⟨reading, calling, _, later, absent⟩
  have read := reading table.arities (.ofRows [(6, 12, 1)]) {} bytes (traced ▸ agree)
  have instructions : call.postorder.map Node.instruction =
      [.push (.int 2 .inline), .command 6 12] := by decide +kernel
  have called := calling table.arities (.ofRows [(6, 12, 1)]) {} call fun bank id asked =>
    agree bank id (List.mem_append_left [.stop] (instructions ▸ asked))
  have dropped := (later [] [deciding, unread] shadowed
    ⟨deciding, List.mem_cons_self, rfl, rfl⟩).1 {} bytes
  have left := absent [shadowed, deciding] [] unread {} bytes
    (readable_of_disassemble listed ▸ by decide)
  exact ⟨done, text, read ▸ done, called, dropped ▸ done, left.1 ▸ done,
    (left.2 _ done).symm.trans text⟩

end Rpn
