import Shadeloom.Build.Statements
/-!
# Compiling

From a source to a graph with its definitions: the source is checked, if that is asked for, and
its tree is built.
-/
namespace Shadeloom

/-- Why a source is not compiled. -/
inductive CompileError where
  | invalid (problem : Problem)
  | build (error : BuildError)
  deriving Repr, DecidableEq, Inhabited

/-- The text of a compile error. -/
def CompileError.message : CompileError → String
  | invalid problem => problem.message
  | build error => error.message

/-- The assembly of a graph and the definitions of its groups. -/
def Site.toAssembly (site : Site) : Assembly :=
  .ofLibrary site.graph site.library

namespace Source

/-- Builds a source without checking more than its brackets. -/
def build (source : String) (options : BuildOptions) : Except BuildError Site :=
  if isBalanced source then (parse source).build options
  else .error (.unbalancedBrackets source)

/-- Checks and builds a source. -/
def compile (source : String) (options : BuildOptions) : Except CompileError Site :=
  if options.validate then do
    let e ← (validate source).mapError .invalid
    (e.build options).mapError .build
  else (build source options).mapError .build

end Source

end Shadeloom
