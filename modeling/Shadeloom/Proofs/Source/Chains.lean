import Mathlib
import Shadeloom.Proofs.Expr.Parts
import Shadeloom.Proofs.Source.Lines
import Shadeloom.Proofs.Source.Parsing
import Shadeloom.Proofs.Source.Words
/-!
# Chains of statements

The statements of a text are put together into one chain of commas, in which brackets, quotes and
calls of different statements stand side by side. None of them go together across the comma between
two statements, so the chain falls apart into the statements again, and each is read by itself.
-/
namespace Shadeloom

namespace Source

variable {first more : List Char}

/-- A balanced text with brackets is not enclosed together with a balanced text after it. -/
theorem enclosed?_of_opened (balanced : Brackets.isBalanced first = true)
    (balanced' : Brackets.isBalanced more = true) (nonempty : more ≠ []) (opened : '(' ∈ first) :
    Form.enclosed? (first ++ more) = none := by
  obtain ⟨name, inside, rfl, absent⟩ := List.eq_append_cons_of_mem opened
  rw [Brackets.isBalanced_iff] at balanced balanced'
  have unclosed : more.getLast? = some ')' →
      Brackets.isBalanced (inside ++ more).dropLast = false := by
    intro last
    by_contra interior
    rw [Bool.not_eq_false, Brackets.isBalanced_iff, List.dropLast_append_of_ne_nil nonempty,
      Brackets.scan_append, Option.bind_eq_some_iff] at interior
    obtain ⟨middle, interior, rest⟩ := interior
    rw [Brackets.scan_append, Option.bind_eq_some_iff] at balanced
    obtain ⟨before, -, scan⟩ := balanced
    obtain ⟨after, step, scan⟩ := Brackets.scan_cons_eq_some_iff.1 scan
    have alike := Brackets.scan_alike interior scan
    cases quoted : before.quoted with
    | false =>
      -- the bracket is open inside, and nothing there closes it
      have unquoted := Brackets.step_unquoted (by decide) quoted step
      have rounds := alike.2 unquoted.1.symm
      have deeper := unquoted.2.1 rfl
      simp only [Brackets.closed] at rounds
      omega
    | true =>
      -- the bracket stands in quotes, which are closed inside once too often
      rw [Brackets.step_quoted (by decide) quoted step, quoted] at alike
      obtain ⟨start, shape⟩ := List.getLast?_eq_some_iff.1 last
      rw [shape, List.dropLast_concat] at rest
      rw [shape, Brackets.scan_append, Option.bind_eq_some_iff] at balanced'
      obtain ⟨next, scan', closing⟩ := balanced'
      obtain ⟨final, step', done⟩ := Brackets.scan_cons_eq_some_iff.1 closing
      have alike' := Brackets.scan_alike rest scan'
      have quoted' : middle.quoted = true := by simpa [Brackets.closed] using alike.1
      have inQuotes : next.quoted = true := by simpa [Brackets.closed, quoted'] using alike'.1
      rw [Brackets.step_quoted (by decide) inQuotes step', Brackets.scan, Option.some.injEq] at done
      rw [done] at inQuotes
      cases inQuotes
  have shape : (name ++ '(' :: inside) ++ more = name ++ '(' :: (inside ++ more) := by simp
  unfold Form.enclosed?
  split
  · rename_i last
    rw [List.getLast?_append_of_ne_nil _ nonempty] at last
    rw [shape, splitAtFirst?_append absent]
    dsimp only
    rw [unclosed last, Bool.and_false]
    rfl
  · rfl

/-- A text that shows no comma, with a comma after it, is not enclosed together with what follows. -/
theorem enclosed?_of_apart (balanced : Brackets.isBalanced first = true)
    (balanced' : Brackets.isBalanced more = true)
    (called : ['f', 'n', ':'] <+: first → '(' ∈ first) :
    Form.enclosed? (first ++ ',' :: more) = none := by
  by_cases opened : '(' ∈ first
  · refine enclosed?_of_opened balanced ?_ (List.cons_ne_nil ',' more) opened
    rw [← List.singleton_append, Brackets.isBalanced_append (by decide)]
    exact balanced'
  · have shape : first ++ ',' :: more = (first ++ [',']) ++ more := by simp
    rw [shape]
    apply enclosed?_eq_none (first ++ [',']) (by simp)
    · rw [List.mem_append, List.mem_singleton]
      exact fun mem => mem.elim opened (by decide)
    · intro rest
      rw [List.append_assoc]
      exact not_isCallable_of_unnamed (fun marked => opened (called marked)) (by decide) rest

/-- Whether a line is one statement: trimmed, with no comma outside of all brackets and quotes. -/
structure IsSingle (line : List Char) : Prop where
  single : '\n' ∉ line
  trimmed : Text.trim line = line
  nonempty : line ≠ []
  balanced : Brackets.isBalanced line = true
  uncommented : line.head? ≠ some '#'
  /-- No comma stands where everything is closed. -/
  uncut : ∀ before after, line = before ++ ',' :: after → Brackets.isBalanced before = false
  /-- The mark of group calls stands before a call. -/
  called : ['f', 'n', ':'] <+: line → '(' ∈ line

namespace IsSingle

variable {line : List Char}

/-- A line that is one statement is a statement, also with a comma after it. -/
theorem isStatement (one : IsSingle line) (after : List Char) :
    Source.isStatement (line ++ after) = true := by
  simp [Source.isStatement, one.nonempty, List.head?_append_of_ne_nil _ one.nonempty,
    one.uncommented]

/-- A line that is one statement ends in no comma. -/
theorem getLast?_ne (one : IsSingle line) : line.getLast? ≠ some ',' := by
  intro last
  obtain ⟨start, shape⟩ := List.getLast?_eq_some_iff.1 last
  have balanced := one.balanced
  rw [shape] at balanced
  have closed : Brackets.isBalanced start = true := by
    rw [Brackets.isBalanced_iff, Brackets.scan_append, Option.bind_eq_some_iff] at balanced
    obtain ⟨state, scan, done⟩ := balanced
    rw [Brackets.scan_plain (by simp)] at done
    rw [Brackets.isBalanced_iff, scan, done]
  rw [one.uncut start [] shape] at closed
  cases closed

/-- No comma of a text stands where everything is closed if the text is not cut at a comma. -/
theorem closedCuts_eq_nil_iff : Cut.closedCuts isComma .closed [] line = [] ↔
    ∀ before after, line = before ++ ',' :: after → Brackets.isBalanced before = false := by
  constructor
  · rintro uncut before after rfl
    by_contra balanced
    rw [Bool.not_eq_false, Brackets.isBalanced_iff] at balanced
    rw [Cut.closedCuts_append balanced, Cut.closedCuts_cons_of_mark (by decide) (by decide)] at uncut
    simp at uncut
  · intro uncut
    rw [List.eq_nil_iff_forall_not_mem]
    intro cut mem
    obtain ⟨shape, mark, balanced, -⟩ := Cut.of_mem_closedCuts rfl mem
    rw [decide_eq_true_eq] at mark
    rw [mark] at shape
    rw [uncut cut.left cut.right shape] at balanced
    cases balanced

/-- What is checked of a line that is one statement. -/
theorem iff_checked : IsSingle line ↔
    ('\n' ∉ line ∧ Text.trim line = line ∧ line ≠ [] ∧ Brackets.isBalanced line = true ∧
      line.head? ≠ some '#') ∧
      Cut.closedCuts isComma .closed [] line = [] ∧ (['f', 'n', ':'] <+: line → '(' ∈ line) := by
  rw [closedCuts_eq_nil_iff]
  constructor
  · exact fun one => ⟨⟨one.single, one.trimmed, one.nonempty, one.balanced, one.uncommented⟩,
      one.uncut, one.called⟩
  · rintro ⟨⟨single, trimmed, nonempty, balanced, uncommented⟩, uncut, called⟩
    exact ⟨single, trimmed, nonempty, balanced, uncommented, uncut, called⟩

instance : DecidablePred IsSingle := fun _ => decidable_of_iff' _ iff_checked

/-- A line that is one statement is read apart from what comes after a comma. -/
theorem parseChars_append (one : IsSingle line) {more : List Char}
    (balanced : Brackets.isBalanced more = true) (nonempty : more ≠ [])
    (solid : ∀ c ∈ more.getLast?, Text.isBlank c = false) :
    parseChars (line ++ ',' :: more) = .binary .comma (parseChars line) (parseChars more) := by
  have whole : Brackets.isBalanced (line ++ ',' :: more) = true := by
    rw [Brackets.isBalanced_append one.balanced, ← List.singleton_append,
      Brackets.isBalanced_append (by decide)]
    exact balanced
  have trimmed : Text.trim (line ++ ',' :: more) = line ++ ',' :: more := by
    apply Text.trim_eq_self
    · intro c first
      rw [List.head?_append_of_ne_nil _ one.nonempty] at first
      exact Text.not_blank_of_head? one.trimmed first
    · intro c last
      rw [List.getLast?_append_of_ne_nil _ (by simp), List.getLast?_cons_of_ne_nil nonempty] at last
      exact solid c last
  have comma : Form.atComma? (line ++ ',' :: more) = some (.operation .comma line more) := by
    unfold Form.atComma? Cut.splits
    rw [if_pos whole, Cut.closedCuts_append (Brackets.isBalanced_iff.1 one.balanced),
      closedCuts_eq_nil_iff.2 one.uncut, Cut.closedCuts_cons_of_mark (by decide) (by decide)]
    simp [Cut.left, nonempty]
  apply parseChars_of_operation
  rw [trimmed]
  unfold Form.ofChars
  rw [if_neg (by simp), enclosed?_of_apart one.balanced balanced one.called, comma]
  rfl

end IsSingle

/-- Texts put together with a separator. -/
theorem join_cons (separator first : List Char) (rest : List (List Char)) :
    Text.join separator (first :: rest) = first ++ rest.flatMap (separator ++ ·) := by
  induction rest generalizing first with
  | nil => simp [Text.join]
  | cons second rest ih => simp [Text.join, ih]

section Statements

variable {statements : List (List Char)}

/-- Statements with commas between them are balanced, and end as the last of them. -/
theorem ends_join (single : ∀ line ∈ statements, IsSingle line) (nonempty : statements ≠ []) :
    Brackets.isBalanced (Text.join [','] statements) = true ∧
      Text.join [','] statements ≠ [] ∧
        ∀ c ∈ (Text.join [','] statements).getLast?, Text.isBlank c = false := by
  fun_induction Text.join [','] statements with
  | case1 => exact absurd rfl nonempty
  | case2 line =>
    have one := single line (by simp)
    exact ⟨one.balanced, one.nonempty, fun c last => Text.not_blank_of_getLast? one.trimmed last⟩
  | case3 line rest more ih =>
    have one := single line (by simp)
    have some : rest ≠ [] := fun none => more none
    obtain ⟨balanced, text, solid⟩ := ih (fun other mem => single other (by simp [mem])) some
    refine ⟨?_, by simp [one.nonempty], ?_⟩
    · rwa [List.append_assoc, Brackets.isBalanced_append one.balanced,
        Brackets.isBalanced_append (by decide)]
    · rwa [List.getLast?_append_of_ne_nil _ text]

/-- Statements with commas between them are read as the chain of what each is read as. -/
theorem parseChars_join (single : ∀ line ∈ statements, IsSingle line) (nonempty : statements ≠ []) :
    parseChars (Text.join [','] statements) = Expr.chain (statements.map parseChars) := by
  fun_induction Text.join [','] statements with
  | case1 => exact absurd rfl nonempty
  | case2 line => rfl
  | case3 line rest more ih =>
    have rest_ : ∀ other ∈ rest, IsSingle other := fun other mem => single other (by simp [mem])
    have some : rest ≠ [] := fun none => more none
    obtain ⟨balanced, text, solid⟩ := ends_join rest_ some
    rw [List.append_assoc, List.singleton_append,
      (single line (by simp)).parseChars_append balanced text solid, ih rest_ some, List.map_cons,
      Expr.chain]
    exact fun none => some (List.map_eq_nil_iff.1 none)

end Statements

/-- Whether the lines of a text are those of statements. A statement may have blanks around it and, if
it is not the last one, a comma after it. Blank lines and comments may stand between statements. -/
inductive IsLaidOut : List (List Char) → List (List Char) → Prop
  | nil : IsLaidOut [] []
  | skipped {line : List Char} {lines statements : List (List Char)} (single : '\n' ∉ line)
    (skipped : Text.trim line = [] ∨ (Text.trim line).head? = some '#')
    (later : IsLaidOut lines statements) : IsLaidOut (line :: lines) statements
  | statement {line statement : List Char} {lines statements : List (List Char)}
    (single : '\n' ∉ line) (ends : Text.trim line = statement)
    (later : IsLaidOut lines statements) : IsLaidOut (line :: lines) (statement :: statements)
  | comma {line statement : List Char} {lines statements : List (List Char)}
    (single : '\n' ∉ line) (ends : Text.trim line = statement ++ [',']) (more : statements ≠ [])
    (later : IsLaidOut lines statements) : IsLaidOut (line :: lines) (statement :: statements)

/-- A statement is added to a chain after a comma, which may be there already. -/
theorem pushStatement_eq {chain start : List Char} (nonempty : chain ≠ [])
    (last : chain.getLast? ≠ some ',') (starts : start = chain ∨ start = chain ++ [','])
    (statement : List Char) : pushStatement start statement = chain ++ [','] ++ statement := by
  rcases starts with rfl | rfl
  · simp [pushStatement, nonempty, last]
  · simp [pushStatement]

namespace IsLaidOut

variable {lines statements : List (List Char)}

/-- No line holds a line feed. -/
theorem single (laid : IsLaidOut lines statements) : ∀ line ∈ lines, '\n' ∉ line := by
  induction laid with
  | nil => nofun
  | skipped here _ _ ih => exact List.forall_mem_cons.2 ⟨here, ih⟩
  | statement here _ _ ih => exact List.forall_mem_cons.2 ⟨here, ih⟩
  | comma here _ _ _ ih => exact List.forall_mem_cons.2 ⟨here, ih⟩

/-- What is skipped is no statement. -/
theorem not_isStatement {line : List Char} (skipped : line = [] ∨ line.head? = some '#') :
    isStatement line = false := by
  rcases skipped with rfl | comment
  · rfl
  · simp [isStatement, comment]

/-- Statements on lines are added to a chain with a comma before each. -/
theorem foldl_pushStatement (laid : IsLaidOut lines statements)
    (each : ∀ statement ∈ statements, IsSingle statement) {chain start : List Char}
    (nonempty : chain ≠ []) (last : chain.getLast? ≠ some ',')
    (starts : start = chain ∨ start = chain ++ [','] ∧ statements ≠ []) :
    ((lines.map Text.trim).filter isStatement).foldl pushStatement start =
      chain ++ statements.flatMap ([','] ++ ·) := by
  induction laid generalizing chain start with
  | nil =>
    rcases starts with rfl | ⟨-, more⟩
    · simp
    · exact absurd rfl more
  | skipped _ skipped _ ih =>
    rw [List.map_cons, List.filter_cons_of_neg (by simp [not_isStatement skipped])]
    exact ih each nonempty last starts
  | @statement line statement _ statements _ ends later ih =>
    obtain ⟨one, rest⟩ := List.forall_mem_cons.1 each
    have here : isStatement statement = true := by simpa using one.isStatement []
    have last' : (chain ++ [','] ++ statement).getLast? ≠ some ',' := by
      rw [List.getLast?_append_of_ne_nil _ one.nonempty]
      exact one.getLast?_ne
    rw [List.map_cons, ends, List.filter_cons_of_pos here, List.foldl_cons,
      pushStatement_eq nonempty last (starts.imp_right And.left),
      ih rest (by simp) last' (.inl rfl), List.flatMap_cons]
    simp
  | @comma line statement _ statements _ ends more later ih =>
    obtain ⟨one, rest⟩ := List.forall_mem_cons.1 each
    have last' : (chain ++ [','] ++ statement).getLast? ≠ some ',' := by
      rw [List.getLast?_append_of_ne_nil _ one.nonempty]
      exact one.getLast?_ne
    rw [List.map_cons, ends, List.filter_cons_of_pos (one.isStatement [',']), List.foldl_cons,
      pushStatement_eq nonempty last (starts.imp_right And.left), ← List.append_assoc,
      ih rest (by simp) last' (.inr ⟨rfl, more⟩), List.flatMap_cons]
    simp

/-- Statements on lines are put together with commas between them. -/
theorem joinStatements_eq (laid : IsLaidOut lines statements)
    (each : ∀ statement ∈ statements, IsSingle statement) :
    joinStatements (Text.join ['\n'] lines) = Text.join [','] statements := by
  unfold joinStatements
  rw [statementLines_join laid.single]
  induction laid with
  | nil => rfl
  | skipped _ skipped _ ih =>
    rw [List.map_cons, List.filter_cons_of_neg (by simp [not_isStatement skipped])]
    exact ih each
  | @statement line statement _ statements _ ends later _ =>
    obtain ⟨one, rest⟩ := List.forall_mem_cons.1 each
    have here : isStatement statement = true := by simpa using one.isStatement []
    rw [List.map_cons, ends, List.filter_cons_of_pos here, List.foldl_cons, join_cons]
    exact later.foldl_pushStatement rest one.nonempty one.getLast?_ne (.inl rfl)
  | @comma line statement _ statements _ ends more later _ =>
    obtain ⟨one, rest⟩ := List.forall_mem_cons.1 each
    rw [List.map_cons, ends, List.filter_cons_of_pos (one.isStatement [',']), List.foldl_cons,
      join_cons]
    exact later.foldl_pushStatement rest one.nonempty one.getLast?_ne (.inr ⟨rfl, more⟩)

end IsLaidOut

/-- Statements on lines are read as the chain of what each of them is read as. The elements of this
chain are what they are read as, in their order, except that a last statement that is itself read as
a chain gives its elements. -/
theorem parse_joinStatements {lines statements : List (List Char)}
    (laid : IsLaidOut lines statements) (each : ∀ statement ∈ statements, IsSingle statement)
    (nonempty : statements ≠ []) :
    let tree := parseChars (joinStatements (Text.join ['\n'] lines))
    tree = Expr.chain (statements.map parseChars) ∧
      (∀ earlier last, statements = earlier ++ [last] →
        tree.arguments = earlier.map parseChars ++ (parseChars last).arguments) ∧
      ((∀ last ∈ statements.getLast?, ∀ lhs rhs, parseChars last ≠ .binary .comma lhs rhs) →
        tree.arguments = statements.map parseChars) := by
  have whole : parseChars (joinStatements (Text.join ['\n'] lines)) =
      Expr.chain (statements.map parseChars) := by
    rw [laid.joinStatements_eq each, parseChars_join each nonempty]
  refine ⟨whole, ?_, fun unchained => ?_⟩
  · rintro earlier last rfl
    rw [whole, List.map_append, List.map_singleton, Expr.arguments_chain_concat]
  · rw [whole, Expr.arguments_chain (by simpa using nonempty)]
    intro tree ends
    rw [List.getLast?_map, Option.map_eq_some_iff] at ends
    obtain ⟨last, ends, rfl⟩ := ends
    exact unchained last ends

/-- Commas and brackets in brackets and quotes, comments, blank lines and commas at the ends of lines
make no difference. -/
theorem parse_joinStatements_of_lines :
    let lines := ["# sums".toList, "  a = min(x, y),".toList, [], "b = \"(,\" + 1".toList]
    let statements := ["a = min(x, y)".toList, "b = \"(,\" + 1".toList]
    let tree := parseChars (joinStatements (Text.join ['\n'] lines))
    IsLaidOut lines statements ∧ (∀ statement ∈ statements, IsSingle statement) ∧ statements ≠ [] ∧
      tree = Expr.chain (statements.map parseChars) ∧
        (∀ earlier last, statements = earlier ++ [last] →
          tree.arguments = earlier.map parseChars ++ (parseChars last).arguments) ∧
        ((∀ last ∈ statements.getLast?, ∀ lhs rhs, parseChars last ≠ .binary .comma lhs rhs) →
          tree.arguments = statements.map parseChars) := by
  intro lines statements tree
  have laid : IsLaidOut lines statements :=
    .skipped (by decide) (.inr (by decide +kernel)) <|
      .comma (by decide) (by decide +kernel) (by decide) <|
        .skipped (by decide) (.inl rfl) <| .statement (by decide) (by decide +kernel) .nil
  have each : ∀ statement ∈ statements, IsSingle statement := by decide +kernel
  exact ⟨laid, each, by decide, parse_joinStatements laid each (by decide)⟩

/-- The elements of a chain of statements need not be what the statements are read as, one for each:
the last statement may be a chain in brackets, which leave no trace. -/
theorem arguments_of_bracketed_last : ¬ ∀ lines statements : List (List Char),
    IsLaidOut lines statements → (∀ statement ∈ statements, IsSingle statement) → statements ≠ [] →
      (parseChars (joinStatements (Text.join ['\n'] lines))).arguments =
        statements.map parseChars := by
  intro matching
  have laid : IsLaidOut ["x".toList, "(a,b)".toList] ["x".toList, "(a,b)".toList] :=
    .statement (by decide) (by decide +kernel) <| .statement (by decide) (by decide +kernel) .nil
  have each : ∀ statement ∈ ["x".toList, "(a,b)".toList], IsSingle statement := by decide +kernel
  have last : parseChars "(a,b)".toList =
      .binary .comma (parseChars "a".toList) (parseChars "b".toList) := by
    have bracketed : Form.ofChars (Text.trim "(a,b)".toList) = .bracketed "a,b".toList := by
      decide +kernel
    have comma : Form.ofChars (Text.trim "a,b".toList) =
        .operation .comma "a".toList "b".toList := by decide +kernel
    rw [parseChars_of_bracketed bracketed, parseChars_of_operation comma]
  have elements := matching _ _ laid each (by decide)
  rw [laid.joinStatements_eq each, parseChars_join each (by decide)] at elements
  have count := congrArg List.length elements
  have more := List.length_pos_of_ne_nil (parseChars "b".toList).arguments_ne_nil
  simp only [List.map_cons, List.map_nil, Expr.chain, last, Expr.arguments, List.length_cons,
    List.length_nil] at count
  omega

end Source

end Shadeloom
