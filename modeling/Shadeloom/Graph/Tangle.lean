import Shadeloom.Graph.Link
/-!
# Tangled lists

A node has a list of the links that enter it and a list of those that leave it, newest first. As
long as links join nodes only, the lists follow from the links. A stored graph may also have links
at vacant numbers. A vacant number has no lists; where a node has the first links of its lists it
has the vacant numbers beside it, the one that is used again after it and the one before it. Links
at vacant numbers are put in front of these all the same, so that vacant numbers lead to links and
links to vacant numbers, each taken for the other. A tangle holds what leads to what.
-/
namespace Shadeloom

/-- A number on each side, or none. -/
structure Leads where
  output : Option Nat
  input : Option Nat
  deriving Repr, DecidableEq, Inhabited

namespace Leads

/-- No number on either side. -/
def empty : Leads := ⟨none, none⟩

/-- The number on a side. -/
def get (leads : Leads) : Side → Option Nat
  | .input => leads.input
  | .output => leads.output

/-- The same with another number on a side. -/
def set (leads : Leads) (side : Side) (number : Option Nat) : Leads :=
  match side with
  | .input => { leads with input := number }
  | .output => { leads with output := number }

end Leads

/-- Lists of links, and the row of vacant numbers that runs through them. -/
structure Tangle where
  /-- Where the lists of each node begin. For a vacant number, the one that is used after it is on
  the side of outputs and the one before it on the side of inputs. -/
  firsts : List Leads
  /-- Where the lists go on after each link. -/
  nexts : List Leads
  /-- Whether the tangle led to a node that there is not, or to a vacant number that is in use. -/
  broken : Bool
  deriving Repr, DecidableEq, Inhabited

namespace Tangle

/-- Where a list of a node begins. -/
def first (tangle : Tangle) (side : Side) (node : Nat) : Option Nat :=
  tangle.firsts[node]?.bind fun leads => leads.get side

/-- Where a list goes on after a link. -/
def next (tangle : Tangle) (side : Side) (link : Nat) : Option Nat :=
  tangle.nexts[link]?.bind fun leads => leads.get side

/-- A tangle that cannot be changed as it should be. -/
def damage (tangle : Tangle) : Tangle :=
  { tangle with broken := true }

/-- Lets a list of a node begin elsewhere. -/
def setFirst (tangle : Tangle) (side : Side) (node : Nat) (link : Option Nat) : Tangle :=
  if node < tangle.firsts.length then
    { tangle with firsts := tangle.firsts.modify node fun leads => leads.set side link }
  else tangle.damage

/-- Lets a list go on elsewhere after a link. -/
def setNext (tangle : Tangle) (side : Side) (link : Nat) (after : Option Nat) : Tangle :=
  { tangle with nexts := tangle.nexts.modify link fun leads => leads.set side after }

/-- The links of a list from a link on, so many at most. -/
def follow (tangle : Tangle) (side : Side) : Nat → Option Nat → List Nat
  | steps + 1, some link =>
    if link < tangle.nexts.length then link :: tangle.follow side steps (tangle.next side link)
    else []
  | _, _ => []

/-- The numbers of the links in a list of a node. -/
def listed (tangle : Tangle) (side : Side) (node : Nat) : List Nat :=
  tangle.follow side tangle.nexts.length (tangle.first side node)

/-- Takes a link out of a list, which goes on elsewhere. -/
def skip (tangle : Tangle) (side : Side) (node link : Nat) (after : Option Nat) : Tangle :=
  if tangle.first side node = some link then tangle.setFirst side node after
  else
    match (tangle.listed side node).find? fun other => tangle.next side other = some link with
    | some other => tangle.setNext side other after
    | none => tangle

/-- Takes links out of the lists of their ends. A vacant number of a link leads to the one that
fell vacant before it. -/
def removeLinks (tangle : Tangle) (vacant : Option Nat) : List Link → Tangle
  | [] => tangle
  | link :: rest =>
    let after side := tangle.next side link.number
    let skipped := (tangle.skip .output link.source.node link.number (after .output)).skip
      .input link.target.node link.number (after .input)
    removeLinks { skipped with nexts := skipped.nexts.set link.number ⟨vacant, none⟩ }
      (some link.number) rest

/-- Puts a link in front of the lists of its ends. -/
def addLink (tangle : Tangle) (link : Link) : Tangle :=
  let leads : Leads :=
    ⟨tangle.first .output link.source.node, tangle.first .input link.target.node⟩
  let nexts :=
    if link.number < tangle.nexts.length then tangle.nexts.set link.number leads
    else tangle.nexts ++ [leads]
  let placed : Tangle := { tangle with nexts }
  (placed.setFirst .output link.source.node (some link.number)).setFirst
    .input link.target.node (some link.number)

/-- Adds a node without links after all numbers. -/
def addNode (tangle : Tangle) : Tangle :=
  { tangle with firsts := tangle.firsts ++ [.empty] }

/-- Takes a vacant number out of the row: what it leads to on one side is led to from the other. -/
def occupy (tangle : Tangle) (node : Nat) : Tangle :=
  let after := tangle.first .output node
  let before := tangle.first .input node
  let lone := (tangle.setFirst .output node none).setFirst .input node none
  let joined := before.elim lone fun before => lone.setFirst .output before after
  after.elim joined fun after => joined.setFirst .input after before

/-- Puts a vacant number in front of the row. -/
def vacate (tangle : Tangle) (node : Nat) (after : Option Nat) : Tangle :=
  let placed := (tangle.setFirst .output node after).setFirst .input node none
  after.elim placed fun after => placed.setFirst .input after (some node)

/-- Puts vacant numbers in front of the row, one after the other. -/
def vacateAll (tangle : Tangle) (after : Option Nat) : List Nat → Tangle
  | [] => tangle
  | node :: rest => (tangle.vacate node after).vacateAll (some node) rest

/-- Adds links by number, of which some are vacant. -/
def addNumbered (tangle : Tangle) (vacant : Option Nat) :
    List (Option (Socket × Socket)) → Tangle
  | [] => tangle
  | none :: rest =>
    let number := tangle.nexts.length
    addNumbered { tangle with nexts := tangle.nexts ++ [⟨vacant, none⟩] } (some number) rest
  | some (source, target) :: rest =>
    (tangle.addLink ⟨tangle.nexts.length, source, target⟩).addNumbered vacant rest

/-- The tangle of so many numbers of nodes, of which some are vacant, and of links by number. -/
def ofNumbered (count : Nat) (vacant : List Nat) (links : List (Option (Socket × Socket))) :
    Tangle :=
  let bare : Tangle := ⟨List.replicate count .empty, [], false⟩
  (bare.vacateAll none vacant).addNumbered none links

end Tangle

end Shadeloom
