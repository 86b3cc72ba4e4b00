import Mathlib
import Shadeloom.Compile
import Shadeloom.Proofs.Build.Operations
import Shadeloom.Proofs.Evaluation.Rereading
import Shadeloom.Proofs.Json.Rereading
/-!
# Built graphs read back

The text of a built graph with its definitions is read as a graph with definitions that restore
them, if they can be stored: what cannot be are NaN and the infinities, which literals come to when
they are too large, and numbers beyond their widths. A graph that is read back evaluates like the
built one, unless two shown outputs have one name, so that the one that is evaluated last hides the
other: the order of evaluation follows that of the links, and links are read back in the order of
their numbers.
-/
namespace Shadeloom

/-- The graphs of an assembly of a graph with a library are those of the library. -/
theorem Assembly.library_ofLibrary (graph : Graph) (library : Library) :
    (ofLibrary graph library).library = library := by
  simp [Assembly.library, ofLibrary, ofGraph, Function.comp_def, Table.ofList_entries]

/-- What is read from the stored form of the graph and the definitions of a site. -/
structure Assembly.Restores (loaded : Assembly) (site : Site) : Prop where
  graph : loaded.graph.Restores site.graph
  /-- The definitions come in the same order under the same names, without any of their own. -/
  definitions : List.Forall₂ (fun read stored => read.1 = stored.1 ∧ read.2.groups = [] ∧
    read.2.graph.Restores stored.2) loaded.groups site.library.entries
  /-- It evaluates as the site does in the orders that are found in what is read. -/
  evaluates : ∀ config supplied, evaluate loaded.graph loaded.library config supplied =
    evaluateBy .reread site.graph site.library config supplied
  /-- Where no two shown outputs have one name, no order matters. -/
  concurs : (∀ graph, site.Holds graph → graph.OutputsApart) → ∀ config supplied,
    Concur Assignment.Equal (evaluate site.graph site.library config supplied)
      (evaluate loaded.graph loaded.library config supplied)

/-- The definitions of a site that can be evaluated are sound. -/
theorem Site.Runs.sound_definition {site : Site} (runs : site.Runs) (entry : String × Graph)
    (mem : entry ∈ site.library.entries) : entry.2.Sound :=
  (runs.runnable (.definition (Table.get?_eq_some_iff.2 mem))).sound

/-- What is read from the stored form of a site that can be evaluated restores it. -/
theorem Site.Runs.restores {site : Site} (runs : site.Runs) :
    (Assembly.ofLibrary site.graph.reread (site.library.mapValues Graph.reread)).Restores site where
  graph := runs.graph.sound.restores
  definitions := by
    simp only [Assembly.ofLibrary, Table.mapValues, List.map_map, List.forall₂_map_left_iff,
      List.forall₂_same]
    exact fun entry mem => ⟨rfl, rfl, (runs.sound_definition entry mem).restores⟩
  evaluates config supplied := by
    rw [Assembly.library_ofLibrary]
    exact evaluate_reread runs.graph.sound runs.graph.acyclic (fun group definition found =>
      ⟨(runs.runnable (.definition found)).sound, (runs.runnable (.definition found)).acyclic⟩)
      config supplied
  concurs apart config supplied := by
    have orderable (graph : Graph) (holds : site.Holds graph) : graph.Orderable :=
      ⟨(runs.runnable holds).sound, (runs.runnable holds).acyclic, apart graph holds⟩
    rw [Assembly.library_ofLibrary]
    exact evaluate_reread_concurs (orderable _ .root)
      (fun group definition found => orderable _ (.definition found)) config supplied

/-- The text of whatever is built is read as what restores it if it can be stored, and is refused
otherwise, provided that every number in it is read back as it is written. -/
theorem Expr.build_restores {e : Expr} {options : BuildOptions} {site : Site}
    (built : e.build options = .ok site)
    (rereads : ∀ number ∈ site.toAssembly.toJson.numbers, number.Rereads) :
    (site.graph.IsStorableWith site.library → ∃ loaded,
        Assembly.ofJson (Json.read site.toAssembly.toJson.compact) = .ok loaded ∧
          loaded.Restores site) ∧
      (¬ site.graph.IsStorableWith site.library →
        Assembly.ofJson (Json.read site.toAssembly.toJson.compact) = .error .malformed) := by
  have runs := runs_build built
  have nests : site.toAssembly.toJson.Nests Json.Reader.depthLimit :=
    Assembly.nests_toJson_ofLibrary.mono (by decide)
  rw [Json.read_compact nests rereads]
  exact ⟨fun storable => ⟨_, Assembly.ofJson_ofLibrary_of_storable runs.graph.sound
      runs.sound_definition storable,
      runs.restores⟩,
    Assembly.ofJson_ofLibrary_of_not_storable runs.graph.sound runs.sound_definition⟩

namespace Graph

/-- A graph that shows a constant. -/
def ofConstant (x : Float) : Graph :=
  ⟨"root", ⟨[some (.newOutput "Value" .scalar), some (.ofOp (.constant x))], []⟩,
    [⟨0, ⟨1, 0⟩, ⟨0, 0⟩⟩], ⟨1, []⟩, none, .empty, [0]⟩

/-- The numbers that are stored of a graph that shows a constant. -/
theorem numbers_ofConstant (x : Float) :
    (Site.toAssembly ⟨ofConstant x, .empty⟩).toJson.numbers =
      .float 0.0 :: ((Json.ofFloat x).numbers ++ [.int 1, .int 0, .int 0, .int 0, .int 0]) := by
  have output : (Node.codec.encode (.newOutput "Value" .scalar)).numbers = [.float 0.0] := by
    with_unfolding_all rfl
  have constant : (Node.codec.encode (.ofOp (.constant x))).numbers = (Json.ofFloat x).numbers := by
    show (((Json.ofFloat x).numbers ++ []) ++ []) ++ [] = _
    simp
  have content : (ofConstant x).structureJson.numbers =
      .float 0.0 :: ((Json.ofFloat x).numbers ++ [.int 1, .int 0, .int 0, .int 0]) := by
    show ((Node.codec.encode (.newOutput "Value" .scalar)).numbers ++
      ((Node.codec.encode (.ofOp (.constant x))).numbers ++ [])) ++
        [.int 1, .int 0, .int 0, .int 0] = _
    rw [output, constant]
    simp
  rw [Assembly.toJson_eq]
  show (ofConstant x).structureJson.numbers ++ [.int 0] = _
  rw [content]
  simp

/-- A graph that shows a constant can be stored if the constant is finite. -/
theorem isStorableWith_ofConstant (x : Float) :
    (ofConstant x).IsStorableWith .empty ↔ x.isFinite = true := by
  have nodes : (ofConstant x).nodes.entries.map Prod.snd =
      [.newOutput "Value" .scalar, .ofOp (.constant x)] := rfl
  have links : endsByNumber (ofConstant x).links = [some (⟨1, 0⟩, ⟨0, 0⟩)] := rfl
  have zero : (0.0 : Float).isFinite = true := by decide +kernel
  constructor
  · intro storable
    exact (storable.graph.nodes (.ofOp (.constant x)) (by simp [nodes])).op
  · intro finite
    have structured : (ofConstant x).HasStorableStructure := {
      nodes := by
        rw [nodes, List.forall_mem_cons, List.forall_mem_singleton]
        exact ⟨⟨trivial, List.forall_mem_singleton.2 zero⟩, finite, List.forall_mem_nil _⟩
      holes := List.forall_mem_nil _
      links := by
        rw [links, List.forall_mem_singleton]
        rintro _ ⟨⟩
        exact ⟨⟨by decide, by decide⟩, by decide, by decide⟩ }
    exact ⟨⟨structured, List.forall_mem_nil _, List.forall_mem_singleton.2 (by decide)⟩,
      List.forall_mem_nil _⟩

end Graph

/-- A numeral is built into a graph that shows a constant. -/
theorem Expr.build_numeral {text : String} {x : Float}
    (number : Literal.number? ⟨text⟩ = some x) :
    (numeral text).build .literal = .ok ⟨.ofConstant x, .empty⟩ := by
  have planned : Plan.of .empty (.value ⟨text⟩) = .ok (.make (.inOrder (.constant x) 0 [] 0)) := by
    simp only [Plan.of, Recipe.ofLiteral, number]
    rfl
  unfold numeral
  rw [build_of_bare (isBare_value _) rfl, lowerInto, lower_of_make rfl planned,
    show (Recipe.inOrder (.constant x) 0 [] 0).operands = [] from rfl, feed]
  rfl

/-- The text of a numeral that is built is read back if the number is finite, and is refused
otherwise: there is only `null` in it for the number then. -/
theorem Expr.build_numeral_restores {text : String} {x : Float}
    (number : Literal.number? ⟨text⟩ = some x)
    (rereads : x.isFinite = true → (Json.float x).Rereads) :
    ∃ site, (numeral text).build .literal = .ok site ∧
      (x.isFinite = true → ∃ loaded,
        Assembly.ofJson (Json.read site.toAssembly.toJson.compact) = .ok loaded ∧
          loaded.Restores site) ∧
      (x.isFinite = false →
        Assembly.ofJson (Json.read site.toAssembly.toJson.compact) = .error .malformed) := by
  have built := build_numeral number
  -- The default of the output is stored with the constant, and so are numbers of nodes and sockets.
  have zero : (Json.float 0.0).Rereads := by
    have printed : (Json.float 0.0).scalarText = "0.0" := by decide +kernel
    rw [Json.Rereads, printed]
    with_unfolding_all rfl
  have all : ∀ stored ∈ (Site.toAssembly ⟨.ofConstant x, .empty⟩).toJson.numbers,
      stored.Rereads := by
    rw [Graph.numbers_ofConstant, List.forall_mem_cons, List.forall_mem_append]
    refine ⟨zero, ?_, ?_⟩
    · unfold Json.ofFloat
      split
      · rename_i finite
        exact List.forall_mem_singleton.2 (rereads finite)
      · exact List.forall_mem_nil _
    · have whole (n : Nat) (fits : n < 2 ^ 64) : (Json.int n).Rereads := Json.rereads_ofNat fits
      simp only [List.forall_mem_cons]
      exact ⟨whole 1 (by decide), whole 0 (by decide), whole 0 (by decide), whole 0 (by decide),
        whole 0 (by decide), List.forall_mem_nil _⟩
  obtain ⟨kept, lost⟩ := build_restores built all
  refine ⟨_, built, fun finite => kept ((Graph.isStorableWith_ofConstant x).2 finite),
    fun infinite => lost fun storable => ?_⟩
  rw [(Graph.isStorableWith_ofConstant x).1 storable] at infinite
  cases infinite

/-- The graph of a small number is read back, and that of a number too large for a double is
not. -/
theorem Expr.build_numeral_restores_unless_infinite :
    (∃ site loaded, (numeral "2").build .literal = .ok site ∧
      Assembly.ofJson (Json.read site.toAssembly.toJson.compact) = .ok loaded ∧
        loaded.Restores site) ∧
    ∃ site, (numeral "1e999").build .literal = .ok site ∧
      Assembly.ofJson (Json.read site.toAssembly.toJson.compact) = .error .malformed := by
  constructor
  · have number : Literal.number? ⟨"2"⟩ = some 2.0 := by with_unfolding_all rfl
    have two : (Json.float 2.0).Rereads := by
      have printed : (Json.float 2.0).scalarText = "2.0" := by decide +kernel
      rw [Json.Rereads, printed]
      with_unfolding_all rfl
    obtain ⟨site, built, kept, -⟩ := build_numeral_restores number fun _ => two
    obtain ⟨loaded, read, restores⟩ := kept (by decide +kernel)
    exact ⟨site, loaded, built, read, restores⟩
  · obtain ⟨x, number, infinite⟩ :
        ∃ x, Literal.number? ⟨"1e999"⟩ = some x ∧ x.isFinite = false :=
      ⟨_, rfl, by decide +kernel⟩
    obtain ⟨site, built, -, lost⟩ := build_numeral_restores number fun finite => by
      rw [infinite] at finite
      cases finite
    exact ⟨site, built, lost infinite⟩

end Shadeloom
