import Mathlib
import Shadeloom.Proofs.Results
import Shadeloom.Proofs.Source.Lines
/-!
# Including files

A text that includes files is put together as if the statements of the files stood in the places of
the lines that include them. Lines are replaced one at a time, in any order; each line knows the files
that it comes from, and a line that would bring in one of them again is an offence. Replacing ends,
since a line that is brought in may only include files that fewer and fewer are left of.
-/
namespace Shadeloom.Source

/-- The comma after a chain that goes on, where there is none. -/
def gapAfter (chain : List Char) : List Char :=
  if chain = [] || chain.getLast? = some ',' then [] else [',']

/-- A statement is added after a chain and a comma where there is none. -/
theorem pushStatement_eq_append (chain statement : List Char) :
    pushStatement chain statement = chain ++ (gapAfter chain ++ statement) := by
  unfold pushStatement gapAfter
  split <;> simp_all

/-- A chain goes on as it ends. -/
theorem gapAfter_append (start : List Char) {chain : List Char} (nonempty : chain ≠ []) :
    gapAfter (start ++ chain) = gapAfter chain := by
  simp [gapAfter, nonempty, List.getLast?_append_of_ne_nil start nonempty]

/-- A chain with the statements of another chain after it. -/
def appendChain (chain joined : List Char) : List Char :=
  if joined = [] then chain else pushStatement chain joined

@[simp]
theorem appendChain_nil (chain : List Char) : appendChain chain [] = chain := rfl

@[simp]
theorem nil_appendChain (joined : List Char) : appendChain [] joined = joined := by
  unfold appendChain pushStatement
  split <;> simp_all

/-- Some statements are added after a chain and a comma where there is none. -/
theorem appendChain_of_ne {joined : List Char} (nonempty : joined ≠ []) (chain : List Char) :
    appendChain chain joined = chain ++ (gapAfter chain ++ joined) := by
  rw [appendChain, if_neg nonempty, pushStatement_eq_append]

/-- It makes no difference which of three chains are put together first. -/
theorem appendChain_assoc (first second third : List Char) :
    appendChain (appendChain first second) third = appendChain first (appendChain second third) := by
  by_cases none : second = []
  · rw [none, appendChain_nil, nil_appendChain]
  · by_cases none' : third = []
    · rw [none', appendChain_nil, appendChain_nil]
    · have both : second ++ (gapAfter second ++ third) ≠ [] := by simp [none]
      rw [appendChain_of_ne none', appendChain_of_ne none, appendChain_of_ne none',
        appendChain_of_ne both, ← List.append_assoc first, gapAfter_append _ none]
      simp only [List.append_assoc]

/-- Whether a line includes the file of a name. -/
def Includes (line : List Char) (name : String) : Prop :=
  ∃ argument, includeArgument? line = some argument ∧
    (unquote? argument).map String.ofList = some name

/-- A line of a text and the files that it comes from, the innermost first. -/
structure PlacedLine where
  line : List Char
  within : List String

namespace PlacedLine

/-- Whether a line includes nothing. -/
def IsPlain (placed : PlacedLine) : Prop :=
  includeArgument? placed.line = none

/-- Why a line that includes a file cannot be replaced: the name has no quotes, the line comes from
that file itself, or there is no text of that name. -/
inductive Offends (files : Files) : PlacedLine → SourceError → Prop
  | unquoted {line argument : List Char} {within : List String}
    (included : includeArgument? line = some argument) (bare : unquote? argument = none) :
    Offends files ⟨line, within⟩ (.unquotedInclude (String.ofList argument))
  | recursive {line : List Char} {within : List String} {name : String}
    (included : Includes line name) (repeated : name ∈ within) :
    Offends files ⟨line, within⟩ (.recursiveInclude name)
  | missing {line : List Char} {within : List String} {name : String}
    (included : Includes line name) (new : name ∉ within) (unknown : files.get? name = none) :
    Offends files ⟨line, within⟩ (.missingFile name)
  | unresolved {line : List Char} {within : List String} {name reason : String}
    (included : Includes line name) (new : name ∉ within)
    (unreadable : files.get? name = some (.error reason)) :
    Offends files ⟨line, within⟩ (.unresolvedInclude name reason)

/-- The statements of a text as lines that come from files. -/
def ofText (within : List String) (text : List Char) : List PlacedLine :=
  (statementLines text).map (⟨·, within⟩)

/-- One line that includes a file is replaced by the statements of the file. -/
inductive Replaces (files : Files) : List PlacedLine → List PlacedLine → Prop
  | mk {before after : List PlacedLine} {line : List Char} {within : List String}
    {name content : String} (included : Includes line name) (new : name ∉ within)
    (known : files.get? name = some (.ok content)) :
    Replaces files (before ++ ⟨line, within⟩ :: after)
      (before ++ (ofText (name :: within) content.toList ++ after))

variable {files : Files}

/-- A line includes nothing, or it cannot be replaced, or it can. -/
theorem cases_of (files : Files) (placed : PlacedLine) :
    placed.IsPlain ∨ (∃ error, Offends files placed error) ∨
      ∃ name content, Includes placed.line name ∧ name ∉ placed.within ∧
        files.get? name = some (.ok content) := by
  obtain ⟨line, within⟩ := placed
  cases included : includeArgument? line with
  | none => exact .inl included
  | some argument =>
    cases quoted : unquote? argument with
    | none => exact .inr (.inl ⟨_, .unquoted included quoted⟩)
    | some text =>
      have here : Includes line (String.ofList text) := ⟨argument, included, by rw [quoted]; rfl⟩
      by_cases repeated : String.ofList text ∈ within
      · exact .inr (.inl ⟨_, .recursive here repeated⟩)
      · match known : files.get? (String.ofList text) with
        | none => exact .inr (.inl ⟨_, .missing here repeated known⟩)
        | some (.error reason) => exact .inr (.inl ⟨_, .unresolved here repeated known⟩)
        | some (.ok content) => exact .inr (.inr ⟨_, content, here, repeated, known⟩)

end PlacedLine

section Expanding

variable {files : Files} {active : List String} {line : List Char}

/-- A line that includes nothing is added as it stands. -/
theorem expandLines_plain (plain : includeArgument? line = none) (chain : List Char) :
    expandLines files active chain [line] = .ok (pushStatement chain line) := by
  rw [expandLines, plain]
  exact expandLines.eq_1 ..

/-- A line that includes a file anew is refused if there is none or if it cannot be read, and else
adds the chain of its statements. -/
theorem expandLines_anew {name : String} (included : Includes line name) (new : name ∉ active)
    (chain : List Char) :
    (files.get? name = none →
      expandLines files active chain [line] = .error (.missingFile name)) ∧
    (∀ reason, files.get? name = some (.error reason) →
      expandLines files active chain [line] = .error (.unresolvedInclude name reason)) ∧
    ∀ content, files.get? name = some (.ok content) →
      expandLines files active chain [line] =
        (expandLines files (name :: active) [] (statementLines content.toList)).map
          (appendChain chain) := by
  obtain ⟨argument, included, named⟩ := included
  rw [expandLines, included]
  dsimp only
  rw [named]
  dsimp only
  rw [dif_neg new]
  refine ⟨fun unknown => ?_, fun reason unreadable => ?_, fun content known => ?_⟩
  · split <;> simp_all
  · split <;> simp_all
  · split
    · simp_all
    · simp_all
    · rename_i content' known'
      rw [known] at known'
      cases known'
      split
      · rename_i refused
        rw [refused]
        rfl
      · rename_i joined
        rw [joined]
        exact expandLines.eq_1 ..
      · rename_i some joined
        rw [joined, expandLines.eq_1, Except.map, appendChain, if_neg fun none => some none]

/-- A line that includes a file that can be read adds the chain of its statements. -/
theorem expandLines_included {name content : String} (included : Includes line name)
    (new : name ∉ active) (known : files.get? name = some (.ok content)) (chain : List Char) :
    expandLines files active chain [line] =
      (expandLines files (name :: active) [] (statementLines content.toList)).map
        (appendChain chain) :=
  (expandLines_anew included new chain).2.2 content known

/-- A line that cannot be replaced is the reason why there is no chain. -/
theorem expandLines_offending {error : SourceError}
    (offends : PlacedLine.Offends files ⟨line, active⟩ error) (chain : List Char) :
    expandLines files active chain [line] = .error error := by
  cases offends with
  | unquoted included bare => simp [expandLines, included, bare]
  | recursive included repeated =>
    obtain ⟨argument, included, named⟩ := included
    simp [expandLines, included, named, repeated]
  | missing included new unknown => exact (expandLines_anew included new chain).1 unknown
  | unresolved included new unreadable =>
    exact (expandLines_anew included new chain).2.1 _ unreadable

/-- Lines are added one after the other. -/
theorem expandLines_cons (chain : List Char) (rest : List (List Char)) :
    expandLines files active chain (line :: rest) =
      expandLines files active chain [line] >>= fun chain => expandLines files active chain rest := by
  have single (joined : List Char) : expandLines files active joined [] = .ok joined :=
    expandLines.eq_1 ..
  rw [expandLines, expandLines]
  split
  · rw [single, ok_bind]
  · split
    · rfl
    · split
      · rfl
      · split
        · rfl
        · rfl
        · split
          · rfl
          · rw [single, ok_bind]
          · rw [single, ok_bind]

/-- What a line adds to a chain does not depend on the chain. -/
theorem expandLines_single (nonempty : line ≠ []) (chain : List Char) :
    expandLines files active chain [line] =
      (expandLines files active [] [line]).map (appendChain chain) := by
  rcases PlacedLine.cases_of files ⟨line, active⟩ with plain | ⟨error, offends⟩ |
    ⟨name, content, included, new, known⟩
  · rw [expandLines_plain plain, expandLines_plain plain, Except.map, appendChain,
      if_neg (by simp [pushStatement, nonempty]), pushStatement_eq_append [], gapAfter]
    rfl
  · rw [expandLines_offending offends, expandLines_offending offends]
    rfl
  · rw [expandLines_included included new known, expandLines_included included new known,
      map_map_eq]
    simp only [nil_appendChain]

/-- What lines add to a chain does not depend on the chain. -/
theorem expandLines_eq_map {lines : List (List Char)} (nonempty : ∀ line ∈ lines, line ≠ [])
    (chain : List Char) : expandLines files active chain lines =
      (expandLines files active [] lines).map (appendChain chain) := by
  induction lines generalizing chain with
  | nil =>
    rw [expandLines.eq_1, expandLines.eq_1]
    rfl
  | cons line rest ih =>
    obtain ⟨here, later⟩ := List.forall_mem_cons.1 nonempty
    rw [expandLines_cons, expandLines_single here, map_bind_eq, expandLines_cons [] rest, bind_map_eq]
    congr 1
    funext joined
    rw [ih later, ih later joined, map_map_eq]
    congr 1
    funext more
    exact appendChain_assoc chain joined more

/-- A line that includes a file that can be read adds the statements of the file. -/
theorem expandLines_eq_content {name content : String} (included : Includes line name)
    (new : name ∉ active) (known : files.get? name = some (.ok content)) (chain : List Char) :
    expandLines files active chain [line] =
      expandLines files (name :: active) chain (statementLines content.toList) := by
  have nonempty : ∀ line ∈ statementLines content.toList, line ≠ [] := fun line mem =>
    (isStatementLine_of_mem mem).ne_nil
  rw [expandLines_included included new known, ← expandLines_eq_map nonempty]

end Expanding

namespace PlacedLine

variable {files : Files} {earlier later placed before after : List PlacedLine}

/-- Adds lines that come from files to a chain. -/
def expand (files : Files) (chain : List Char) (placed : List PlacedLine) :
    Except SourceError (List Char) :=
  placed.foldlM (fun chain placed => expandLines files placed.within chain [placed.line]) chain

/-- Lines that come from files are added one after the other. -/
theorem expand_append (chain : List Char) (before after : List PlacedLine) :
    expand files chain (before ++ after) =
      expand files chain before >>= fun chain => expand files chain after :=
  List.foldlM_append

/-- A line that comes from files is added, and then the others. -/
theorem expand_cons (chain : List Char) (first : PlacedLine) (rest : List PlacedLine) :
    expand files chain (first :: rest) =
      expandLines files first.within chain [first.line] >>= fun chain => expand files chain rest :=
  List.foldlM_cons

/-- Lines that come from the same files are added together. -/
theorem expand_map (within : List String) (chain : List Char) (lines : List (List Char)) :
    expand files chain (lines.map (⟨·, within⟩)) = expandLines files within chain lines := by
  induction lines generalizing chain with
  | nil => exact (expandLines.eq_1 ..).symm
  | cons line rest ih =>
    rw [List.map_cons, expand_cons, expandLines_cons chain rest]
    congr 1
    funext chain
    exact ih chain

/-- Replacing a line makes no difference to the chain. -/
theorem Replaces.expand_eq (replaces : Replaces files earlier later) (chain : List Char) :
    expand files chain earlier = expand files chain later := by
  obtain ⟨included, new, known⟩ := replaces
  simp only [expand_append, expand_cons, ofText, expand_map,
    expandLines_eq_content included new known]

/-- Replacing lines makes no difference to the chain. -/
theorem expand_eq_of_replaces (replaces : Relation.ReflTransGen (Replaces files) earlier later)
    (chain : List Char) : expand files chain earlier = expand files chain later := by
  induction replaces with
  | refl => rfl
  | tail _ step ih => exact ih.trans (step.expand_eq chain)

/-- Lines that include nothing are added as they stand. -/
theorem expand_plain (plain : ∀ line ∈ placed, line.IsPlain) (chain : List Char) :
    expand files chain placed = .ok ((placed.map line).foldl pushStatement chain) := by
  induction placed generalizing chain with
  | nil => rfl
  | cons first rest ih =>
    obtain ⟨here, later⟩ := List.forall_mem_cons.1 plain
    rw [expand_cons, expandLines_plain here, ok_bind, ih later]
    rfl

/-- The first line that cannot be replaced is the reason why there is no chain. -/
theorem expand_offending (plain : ∀ line ∈ before, line.IsPlain) {placed : PlacedLine}
    {error : SourceError} (offends : Offends files placed error) (chain : List Char) :
    expand files chain (before ++ placed :: after) = .error error := by
  rw [expand_append, expand_plain plain, ok_bind, expand_cons, expandLines_offending offends]
  rfl

/-- There is no chain of lines one of which cannot be replaced. -/
theorem expand_ne_ok {placed : PlacedLine} {error : SourceError} (offends : Offends files placed error)
    (chain joined : List Char) : expand files chain (before ++ placed :: after) ≠ .ok joined := by
  intro ok
  rw [expand_append] at ok
  obtain ⟨middle, -, ok⟩ := bind_eq_ok_iff.1 ok
  rw [expand_cons, expandLines_offending offends] at ok
  cases ok

/-- Replacing lines comes to an end. -/
theorem replaces_wellFounded (files : Files) :
    WellFounded fun later earlier => Replaces files earlier later := by
  let rank (placed : List PlacedLine) : Multiset Nat :=
    placed.map fun line => expandable files line.within
  have less : WellFounded (Relation.CutExpand (· < · : Nat → Nat → Prop)) :=
    wellFounded_lt.cutExpand
  refine Subrelation.wf ?_ (InvImage.wf rank less)
  rintro _ _ ⟨included, new, known⟩
  rename_i before after line within name content
  -- the line makes place for lines that may expand one file less
  refine ⟨(ofText (name :: within) content.toList).map fun line => expandable files line.within,
    expandable files within, ?_, ?_⟩
  · intro count mem
    simp only [ofText, List.map_map, Multiset.mem_coe, List.mem_map, Function.comp_apply] at mem
    obtain ⟨_, -, rfl⟩ := mem
    exact expandable_cons_lt (by rw [known]; rfl) new
  · simp only [rank, List.map_append, List.map_cons, ← Multiset.coe_add, ← Multiset.cons_coe,
      ← Multiset.singleton_add]
    abel

/-- The first line of a list that includes a file, if there is one. -/
theorem plain_or_first (placed : List PlacedLine) : (∀ line ∈ placed, line.IsPlain) ∨
    ∃ before line after, placed = before ++ line :: after ∧ (∀ line ∈ before, line.IsPlain) ∧
      ¬ line.IsPlain := by
  induction placed with
  | nil => exact .inl nofun
  | cons first rest ih =>
    by_cases plain : first.IsPlain
    · rcases ih with all | ⟨before, line, after, rfl, plain', here⟩
      · exact .inl (List.forall_mem_cons.2 ⟨plain, all⟩)
      · exact .inr ⟨first :: before, line, after, rfl, List.forall_mem_cons.2 ⟨plain, plain'⟩, here⟩
    · exact .inr ⟨[], first, rest, rfl, nofun, plain⟩

/-- Replacing lines leads to lines that include nothing, or to a line after such lines that cannot be
replaced. -/
theorem exists_end (files : Files) (placed : List PlacedLine) :
    ∃ last, Relation.ReflTransGen (Replaces files) placed last ∧
      ((∀ line ∈ last, line.IsPlain) ∨
        ∃ before line after error, last = before ++ line :: after ∧
          (∀ line ∈ before, line.IsPlain) ∧ Offends files line error) := by
  induction placed using (replaces_wellFounded files).induction with
  | _ placed ih =>
    rcases plain_or_first placed with plain | ⟨before, line, after, rfl, plain, here⟩
    · exact ⟨placed, .refl, .inl plain⟩
    · rcases cases_of files line with plain' | ⟨error, offends⟩ | ⟨name, content, included, new, known⟩
      · exact absurd plain' here
      · exact ⟨_, .refl, .inr ⟨before, line, after, error, rfl, plain, offends⟩⟩
      · have step := @Replaces.mk files before after _ _ _ _ included new known
        obtain ⟨last, steps, done⟩ := ih _ step
        exact ⟨last, .head step steps, done⟩

/-- Replacing lines brings in lines that are statements. -/
theorem isStatementLine_of_replaces (replaces : Relation.ReflTransGen (Replaces files) earlier later)
    (each : ∀ placed ∈ earlier, IsStatementLine placed.line) :
    ∀ placed ∈ later, IsStatementLine placed.line := by
  induction replaces with
  | refl => exact each
  | tail _ step ih =>
    obtain ⟨included, new, known⟩ := step
    intro placed mem
    simp only [List.mem_append, List.mem_cons] at mem ih
    rcases mem with mem | mem | mem
    · exact ih placed (.inl mem)
    · obtain ⟨line, line_, rfl⟩ := List.mem_map.1 mem
      exact isStatementLine_of_mem line_
    · exact ih placed (.inr (.inr mem))

end PlacedLine

open PlacedLine (Offends Replaces ofText)

section Texts

variable {files : Files} {text : List Char}

/-- Whether replacing lines of a text that include files leads to some lines. -/
def Expands (files : Files) (text : List Char) (placed : List PlacedLine) : Prop :=
  Relation.ReflTransGen (Replaces files) (ofText [] text) placed

/-- The chain of a text is that of its lines and of the lines that they are replaced by. -/
theorem Expands.joinStatementsWith_eq {placed : List PlacedLine} (expands : Expands files text placed) :
    joinStatementsWith files text = PlacedLine.expand files [] placed := by
  rw [← PlacedLine.expand_eq_of_replaces expands, ofText, PlacedLine.expand_map]
  rfl

/-- The chain of a text that is replaced by lines that include nothing is that of a text of these
lines. -/
theorem Expands.joinStatementsWith_plain {placed : List PlacedLine} (expands : Expands files text placed)
    (plain : ∀ line ∈ placed, line.IsPlain) : joinStatementsWith files text =
      .ok (joinStatements (Text.join ['\n'] (placed.map PlacedLine.line))) := by
  have each : ∀ line ∈ placed.map PlacedLine.line, IsStatementLine line := by
    refine List.forall_mem_map.2 (PlacedLine.isStatementLine_of_replaces expands ?_)
    exact List.forall_mem_map.2 fun line mem => isStatementLine_of_mem mem
  rw [expands.joinStatementsWith_eq, PlacedLine.expand_plain plain, joinStatements,
    statementLines_join_of_statements each]

/-- Two texts that can be joined can be joined one after the other, whatever files both include. -/
theorem joinStatementsWith_append {rest joined joined' : List Char}
    (ok : joinStatementsWith files text = .ok joined)
    (ok' : joinStatementsWith files rest = .ok joined') :
    joinStatementsWith files (text ++ '\n' :: rest) = .ok (appendChain joined joined') := by
  have nonempty : ∀ line ∈ statementLines rest, line ≠ [] := fun line mem =>
    (isStatementLine_of_mem mem).ne_nil
  unfold joinStatementsWith at *
  rw [statementLines_append, ← PlacedLine.expand_map, List.map_append, PlacedLine.expand_append,
    PlacedLine.expand_map, ok, ok_bind, PlacedLine.expand_map, expandLines_eq_map nonempty, ok']
  rfl

end Texts

/-- Replacing lines that include files comes to an end. There is a chain of a text if no line is met
that cannot be replaced, and then it is the chain of a text of the lines that are left at the end, which
include nothing. Otherwise the reason is that of the first line that cannot be replaced, after lines
that include nothing. A file may be included again outside of itself: texts that can be joined can be
joined one after the other. -/
theorem joinStatementsWith_expands (files : Files) (text : List Char) :
    (WellFounded fun later earlier => Replaces files earlier later) ∧
      ((∃ joined, joinStatementsWith files text = .ok joined) ↔
        ∀ placed, Expands files text placed → ∀ line ∈ placed, ∀ error, ¬ Offends files line error) ∧
      (∀ joined, joinStatementsWith files text = .ok joined ↔
        ∃ placed, Expands files text placed ∧ (∀ line ∈ placed, line.IsPlain) ∧
          joined = joinStatements (Text.join ['\n'] (placed.map PlacedLine.line))) ∧
      (∀ error, joinStatementsWith files text = .error error ↔
        ∃ before line after, Expands files text (before ++ line :: after) ∧
          (∀ other ∈ before, other.IsPlain) ∧ Offends files line error) ∧
      ∀ rest, (∃ joined, joinStatementsWith files text = .ok joined) →
        (∃ joined, joinStatementsWith files rest = .ok joined) →
          ∃ joined, joinStatementsWith files (text ++ '\n' :: rest) = .ok joined := by
  obtain ⟨last, expands, done⟩ := PlacedLine.exists_end files (ofText [] text)
  have offended {before after : List PlacedLine} {line : PlacedLine} {error : SourceError}
      (expands : Expands files text (before ++ line :: after)) (plain : ∀ other ∈ before, other.IsPlain)
      (offends : Offends files line error) : joinStatementsWith files text = .error error := by
    rw [expands.joinStatementsWith_eq, PlacedLine.expand_offending plain offends]
  refine ⟨PlacedLine.replaces_wellFounded files, ⟨?_, fun none => ?_⟩, fun joined => ⟨fun ok => ?_, ?_⟩,
    fun error => ⟨fun refused => ?_, ?_⟩, ?_⟩
  · rintro ⟨joined, ok⟩ placed expands line mem error offends
    obtain ⟨before, after, rfl⟩ := List.append_of_mem mem
    rw [Expands.joinStatementsWith_eq expands] at ok
    exact PlacedLine.expand_ne_ok offends [] joined ok
  · rcases done with plain | ⟨before, line, after, error, rfl, plain, offends⟩
    · exact ⟨_, Expands.joinStatementsWith_plain expands plain⟩
    · exact absurd offends (none _ expands line (by simp) error)
  · rcases done with plain | ⟨before, line, after, error, rfl, plain, offends⟩
    · have same := (Expands.joinStatementsWith_plain expands plain).symm.trans ok
      exact ⟨last, expands, plain, (Except.ok.inj same).symm⟩
    · cases (offended expands plain offends).symm.trans ok
  · rintro ⟨placed, expands, plain, rfl⟩
    exact expands.joinStatementsWith_plain plain
  · rcases done with plain | ⟨before, line, after, error', rfl, plain, offends⟩
    · cases (Expands.joinStatementsWith_plain expands plain).symm.trans refused
    · cases (offended expands plain offends).symm.trans refused
      exact ⟨before, line, after, expands, plain, offends⟩
  · rintro ⟨before, line, after, expands, plain, offends⟩
    exact offended expands plain offends
  · rintro rest ⟨joined, ok⟩ ⟨joined', ok'⟩
    exact ⟨_, joinStatementsWith_append ok ok'⟩

end Shadeloom.Source
