import Shadeloom.Graph.Order
/-!
# Assemblies

A library holds graphs as definitions of groups, by name. An assembly is a graph with the
definitions that its instances refer to; what is stored or put together step by step may have
definitions that are assemblies themselves, of which evaluation uses the graphs alone.
-/
namespace Shadeloom

/-- Definitions of groups by name. -/
abbrev Library := Table String Graph

/-- A graph with definitions of groups in the order in which they came, under distinct names. -/
structure Assembly where
  graph : Graph
  groups : List (String × Assembly)
  deriving Inhabited

namespace Assembly

/-- A graph without definitions. -/
def ofGraph (graph : Graph) : Assembly := ⟨graph, []⟩

/-- A graph with the definitions of a library. -/
def ofLibrary (graph : Graph) (library : Library) : Assembly :=
  ⟨graph, library.entries.map fun entry => (entry.1, ofGraph entry.2)⟩

/-- The graphs of the definitions. -/
def library (assembly : Assembly) : Library :=
  .ofList (assembly.groups.map fun entry => (entry.1, entry.2.graph))

/-- The definition of a name. -/
def group? (assembly : Assembly) (name : String) : Option Assembly :=
  (assembly.groups.find? fun entry => entry.1 = name).map Prod.snd

/-- Sets the definition of a name: in place if there is one, at the end otherwise. -/
def setGroup (assembly : Assembly) (name : String) (definition : Assembly) : Assembly :=
  if (assembly.group? name).isSome then
    { assembly with groups := Table.replaceIn name definition assembly.groups }
  else { assembly with groups := assembly.groups ++ [(name, definition)] }

/-- Sets the definition of the name of a graph. -/
def addGroup (assembly definition : Assembly) : Assembly :=
  assembly.setGroup definition.graph.name definition

/-- Sets the graphs of a library, each under the name that it has; what definitions the definition
of its key has stays with it. -/
def withLibrary (assembly : Assembly) (library : Library) : Assembly :=
  library.entries.foldl (fun result entry =>
    result.addGroup { (assembly.group? entry.1).getD (ofGraph entry.2) with graph := entry.2 })
    assembly

end Assembly

end Shadeloom
