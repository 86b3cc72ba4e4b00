import Shadeloom.Json.Codec
/-!
# Build options

What a build does besides making nodes. In stored options every member may be left out and takes
its standard value then.
-/
namespace Shadeloom

/-- The choices of a build. -/
structure BuildOptions where
  /-- Whether equal subexpressions of a statement share a node. -/
  optimize : Bool
  /-- Whether sharing is confined to one statement. -/
  isolateStatements : Bool
  /-- Whether inputs that nothing reads and outputs that nothing feeds are removed. -/
  pruneUnused : Bool
  /-- Whether constants become defaults of the sockets that they feed. -/
  foldConstants : Bool
  /-- Whether inputs are put in order, short names first. -/
  resequenceInputs : Bool
  /-- Whether a source is checked before it is built. -/
  validate : Bool
  deriving Repr, DecidableEq, Inhabited

namespace BuildOptions

/-- Everything is done but putting inputs in order. -/
def standard : BuildOptions where
  optimize := true
  isolateStatements := true
  pruneUnused := true
  foldConstants := true
  resequenceInputs := false
  validate := true

/-- Every node that the expression names is kept. -/
def literal : BuildOptions :=
  { standard with optimize := false, pruneUnused := false, foldConstants := false }

/-- The options of a stored record, of which members may be missing. -/
def ofJson? (value : Json) : Option BuildOptions :=
  match value.membersOrFewer? ["optimize", "isolate_statements", "prune_unused",
    "fold_constants", "resequence_inputs", "validate"] with
  | some [optimize, isolate, prune, fold, resequence, validate] => do
    let choose (member : Option Json) (standard : Bool) : Option Bool :=
      match member with
      | none => some standard
      | some value => Codec.bool.decode value
    some {
      optimize := ← choose optimize standard.optimize
      isolateStatements := ← choose isolate standard.isolateStatements
      pruneUnused := ← choose prune standard.pruneUnused
      foldConstants := ← choose fold standard.foldConstants
      resequenceInputs := ← choose resequence standard.resequenceInputs
      validate := ← choose validate standard.validate }
  | _ => none

end BuildOptions

end Shadeloom
