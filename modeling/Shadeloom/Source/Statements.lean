import Shadeloom.Table
import Shadeloom.Text.Blank
import Shadeloom.Text.Lines
/-!
# Sources of many lines

A source may have one statement a line, blank lines and comment lines. Joining puts its statements
into one chain of commas; an include line stands for the statements of the file that it names, and
a file that includes itself, directly or not, is refused. Since a file that is being expanded is
not expanded again, expansion ends. Before joining, lines that belong to options are kept or
dropped.
-/
namespace Shadeloom

/-- Why a source cannot be joined. -/
inductive SourceError where
  | unquotedInclude (argument : String)
  /-- The file is not among those that are known. -/
  | missingFile (name : String)
  /-- The file cannot be read. -/
  | unresolvedInclude (name reason : String)
  | recursiveInclude (name : String)
  deriving Repr, DecidableEq, Inhabited

namespace SourceError

/-- The text of a source error. -/
def message : SourceError → String
  | unquotedInclude argument => "include argument is not quoted: " ++ argument
  | missingFile name =>
    "include '" ++ name ++ "' could not be resolved: no file " ++ name
  | unresolvedInclude name reason =>
    "include '" ++ name ++ "' could not be resolved: " ++ reason
  | recursiveInclude name => "include '" ++ name ++ "' includes itself"

end SourceError

namespace Source

/-- The lines that are neither blank nor comments, without blanks at their ends. -/
def statementLines (text : List Char) : List (List Char) :=
  ((Text.lines text).map Text.trim).filter fun line => line ≠ [] && line.head? ≠ some '#'

/-- Adds a statement to a chain, with a comma if the chain does not end with one. -/
def pushStatement (chain statement : List Char) : List Char :=
  if chain = [] || chain.getLast? = some ',' then chain ++ statement
  else chain ++ ',' :: statement

/-- The chain of the statements of a text. -/
def joinStatements (text : List Char) : List Char :=
  (statementLines text).foldl pushStatement []

/-- The argument of an include line: what follows the keyword and a space or tab. -/
def includeArgument? (line : List Char) : Option (List Char) :=
  ["include", "import"].findSome? fun keyword =>
    match Text.dropStart? keyword.toList line with
    | some (' ' :: rest) => some (Text.trim (' ' :: rest))
    | some ('\t' :: rest) => some (Text.trim ('\t' :: rest))
    | _ => none

/-- The text between two quotes of the same kind. -/
def betweenQuotes? (quote : Char) : List Char → Option (List Char)
  | c :: rest => if c = quote && rest.getLast? = some quote then some rest.dropLast else none
  | [] => none

/-- The text in double or single quotes. -/
def unquote? (text : List Char) : Option (List Char) :=
  betweenQuotes? '"' text <|> betweenQuotes? '\'' text

/-- Texts of files by name, or the reason why one cannot be read. -/
abbrev Files := Table String (Except String String)

/-- How many files may still be expanded inside of those that are being expanded. -/
def expandable (files : Files) (active : List String) : Nat :=
  (files.keys.filter fun name => name ∉ active).length

/-- Expanding a file takes it away from those that may be expanded inside of it. -/
theorem expandable_cons_lt {files : Files} {active : List String} {name : String}
    (known : (files.get? name).isSome = true) (inactive : name ∉ active) :
    expandable files (name :: active) < expandable files active := by
  have mem := Table.contains_iff_mem.1 (Table.isSome_get? files name ▸ known)
  unfold expandable
  have split : (files.keys.filter fun other => other ∉ name :: active) =
      (files.keys.filter fun other => other ∉ active).filter fun other => other ≠ name := by
    rw [List.filter_filter]
    refine List.filter_congr fun other _ => ?_
    by_cases same : other = name <;> simp [same]
  rw [split]
  refine Nat.lt_of_le_of_ne (List.length_filter_le _ _) fun same => ?_
  have all := List.length_filter_eq_length_iff.1 same
  have here := all name (List.mem_filter.2 ⟨mem, by simpa using inactive⟩)
  simp at here

/-- Adds the statements of lines to a chain, those of included files in their places. The files
that are being expanded are `active`. -/
def expandLines (files : Files) (active : List String) :
    List Char → List (List Char) → Except SourceError (List Char)
  | chain, [] => .ok chain
  | chain, line :: rest =>
    match includeArgument? line with
    | none => expandLines files active (pushStatement chain line) rest
    | some argument =>
      match (unquote? argument).map String.ofList with
      | none => .error (.unquotedInclude (String.ofList argument))
      | some name =>
        if _repeated : name ∈ active then .error (.recursiveInclude name)
        else
          match _known : files.get? name with
          | none => .error (.missingFile name)
          | some (.error reason) => .error (.unresolvedInclude name reason)
          | some (.ok content) =>
            match expandLines files (name :: active) [] (statementLines content.toList) with
            | .error error => .error error
            | .ok [] => expandLines files active chain rest
            | .ok joined => expandLines files active (pushStatement chain joined) rest
termination_by _ lines => (expandable files active, lines.length)
decreasing_by
  · exact Prod.Lex.right _ (by simp)
  · exact Prod.Lex.left _ _ (expandable_cons_lt (by simp [*]) (by assumption))
  · exact Prod.Lex.right _ (by simp)
  · exact Prod.Lex.right _ (by simp)

/-- The chain of the statements of a text and of the files that it includes. -/
def joinStatementsWith (files : Files) (text : List Char) : Except SourceError (List Char) :=
  expandLines files [] [] (statementLines text)

/-- What is kept of a line: nothing of a note, the statement of an enabled option, and all of a
line that belongs to no option. -/
def selectLine? (enabled : List String) (line : List Char) : Option (List Char) :=
  match line with
  | '?' :: _ => none
  | ':' :: rest =>
    match Text.splitAtFirst? ':' rest with
    | some (option, statement) =>
      if String.ofList option ∈ enabled then some (Text.trim statement) else none
    | none => some line
  | _ => some line

/-- The text with the lines of the enabled options, and without those of the others. -/
def selectOptions (enabled : List String) (text : List Char) : List Char :=
  Text.join ['\n'] ((Text.lines text).filterMap (selectLine? enabled))

end Source

end Shadeloom
