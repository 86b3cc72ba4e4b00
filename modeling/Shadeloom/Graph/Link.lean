/-!
# Links

A link leads from an output socket of a node to an input socket of a node. It has a number, and it
may be looked at from either side.
-/
namespace Shadeloom

/-- The two sides of a node. -/
inductive Side where
  | input
  | output
  deriving Repr, DecidableEq, Inhabited

namespace Side

/-- The written name of a side. -/
def name : Side → String
  | input => "input"
  | output => "output"

/-- The other side. -/
def opposite : Side → Side
  | input => output
  | output => input

end Side

/-- A socket of a node, by its place among the inputs or the outputs. Places have no bound here; where
they are kept in sixteen bits they wrap behind 65536, and nodes with more sockets than that at a side
are left out of the model. -/
structure Socket where
  node : Nat
  place : Nat
  deriving Repr, DecidableEq, Inhabited

/-- A numbered link from an output socket to an input socket. -/
structure Link where
  number : Nat
  source : Socket
  target : Socket
  deriving Repr, DecidableEq, Inhabited

/-- The number of the node whose side a link is at. -/
def Link.nodeAt (link : Link) : Side → Nat
  | .input => link.target.node
  | .output => link.source.node

end Shadeloom
