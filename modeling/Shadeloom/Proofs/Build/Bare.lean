import Mathlib
import Shadeloom.Proofs.Build.Refusals
import Shadeloom.Proofs.Build.Resolving
/-!
# Expressions without names

Expressions without names make outputs of one name, and the relinking of outputs takes the first of
them for a definition of the name. A variable that happens to be called so comes to read what the
first expression gives, and is no input any more once this is all that it was; and a source is
refused as soon as the first expression reads it. Variables of all other names stay inputs.
-/
namespace Shadeloom

open Relation Shadeloom.Expr

namespace Expr

/-- An expression without a name is not about groups. -/
theorem IsBare.isUngrouped {e : Expr} (bare : e.IsBare) : e.IsUngrouped := by
  intro name directive named called
  have plain : Builder.directive? name = none := by
    cases e with
    | call other args =>
      cases named
      exact bare.call _ _ rfl
    | binary op lhs rhs =>
      cases named
      cases op <;> decide +kernel
    | combine x y z =>
      cases named
      decide +kernel
    | _ => cases named
  rw [plain] at called
  cases called

/-- The trees of a list that are there. -/
def present (es : List Expr) : List Expr :=
  es.filter fun e => !e.isEmpty

/-- A tree that is there is kept. -/
theorem present_cons_of_isEmpty {e : Expr} (there : e.isEmpty = false) (es : List Expr) :
    present (e :: es) = e :: present es := by
  simp [present, there]

/-- Whether a tree has no statements but expressions without names. -/
def HasBare (e : Expr) : Prop :=
  ∀ statement ∈ present e.arguments, statement.IsBare

/-- No expression without a name is about groups. -/
theorem HasBare.isUngrouped {e : Expr} (bare : e.HasBare) :
    ∀ statement ∈ e.arguments, statement.IsUngrouped := by
  intro statement mem
  by_cases absent : statement.isEmpty = true
  · rw [isEmpty_iff.1 absent]
    nofun
  · exact (bare statement (List.mem_filter.2 ⟨mem, by simpa using absent⟩)).isUngrouped

/-- Whether the first of some expressions needs a variable with the name of outputs without one. -/
def OpenOnThemselves (es : List Expr) : Prop :=
  ∃ first rest, es = first :: rest ∧ ∃ v, first.Needs (.var v) ∧ v.name = Builder.bareOutput

end Expr

namespace Requests

/-- What expressions without names ask for. -/
def ofBare (es : List Expr) : Requests :=
  ⟨es.map fun e => ⟨Builder.bareOutput, .scalar, e⟩, [], []⟩

/-- An expression without a name asks for an output if it can be built anywhere. -/
theorem step_bare_iff {before after : Requests} {e : Expr} (bare : e.IsBare) :
    before.Step e after ↔ e.Lowerable ∧ after = before.add Builder.bareOutput .scalar e := by
  constructor
  · intro step
    cases step with
    | empty => exact absurd rfl bare.present
    | inputs called _ | outputs called _ =>
      rw [bare.call _ _ rfl] at called
      cases called
    | named _ _ => exact absurd rfl (bare.unnamed _ _)
    | bare _ lowerable => exact ⟨lowerable, rfl⟩
  · rintro ⟨lowerable, rfl⟩
    exact .bare bare lowerable

/-- Expressions without names ask for an output each, if all of them can be built anywhere. -/
theorem run_bare_iff {before after : Requests} {es : List Expr}
    (bare : ∀ e ∈ present es, e.IsBare) :
    before.Run es after ↔
      (∀ e ∈ present es, e.Lowerable) ∧ after = before.append (.ofBare (present es)) := by
  induction es generalizing before with
  | nil =>
    refine ⟨fun run => ?_, ?_⟩
    · cases run
      exact ⟨nofun, by simp [append, ofBare, present]⟩
    · rintro ⟨-, rfl⟩
      simpa [append, ofBare, present] using Run.nil before
  | cons e rest ih =>
    cases there : e.isEmpty with
    | true =>
      obtain rfl := isEmpty_iff.1 there
      have dropped : present (.empty :: rest) = present rest := rfl
      rw [dropped] at bare ⊢
      rw [← ih bare]
      refine ⟨fun run => ?_, fun run => .cons .empty run⟩
      obtain _ | ⟨step, run⟩ := run
      cases step with
      | empty => exact run
      | bare bare _ => exact absurd rfl bare.present
    | false =>
      rw [present_cons_of_isEmpty there] at bare ⊢
      rw [List.forall_mem_cons] at bare
      have added : (before.add Builder.bareOutput .scalar e).append (ofBare (present rest)) =
          before.append (ofBare (e :: present rest)) := by
        simp [append, add, ofBare]
      rw [List.forall_mem_cons, ← added]
      constructor
      · intro run
        obtain _ | ⟨step, run⟩ := run
        obtain ⟨lowerable, rfl⟩ := (step_bare_iff bare.1).1 step
        obtain ⟨others, same⟩ := (ih bare.2).1 run
        exact ⟨⟨lowerable, others⟩, same⟩
      · rintro ⟨⟨lowerable, others⟩, same⟩
        exact .cons ((step_bare_iff bare.1).2 ⟨lowerable, rfl⟩) ((ih bare.2).2 ⟨others, same⟩)

end Requests

namespace Graph

variable {graph : Graph} {root e : Expr} {socket source : Socket} {definition : Definition}
  {input output : Nat}

/-- What computes a tree that a tree needs leads to what computes the tree. -/
theorem Computes.exists_path (computes : graph.Computes root socket) (needed : root.Needs e) :
    ∃ early, graph.Computes e early ∧ ReflTransGen graph.Leads early.node socket.node := by
  induction needed with
  | root => exact ⟨socket, computes, .refl⟩
  | operand _ planned mem ih =>
    obtain ⟨late, computes', path⟩ := ih
    cases computes' with
    | input => cases planned
    | component => cases planned
    | @made _ recipe' id sources planned' found linked computed _ =>
      rw [planned, Except.ok.injEq, Plan.make.injEq] at planned'
      subst planned'
      exact ⟨_, computed _ mem, path.head (leads_of_source? (linked _ mem))⟩

/-- The readers of an input of the name of an output lead to the output, if its tree needs the name,
and it is relinked in vain. -/
theorem Defines.entangled (defines : graph.Defines definition input output source)
    (sound : graph.Sound)
    (needed : ∃ v, definition.value.Needs (.var v) ∧ v.name = definition.name) :
    graph.Relinkable output ⟨input, 0⟩ source ∧ graph.Entangled ⟨input, 0⟩ source := by
  obtain ⟨v, needs, same⟩ := needed
  obtain ⟨early, computes, path⟩ := defines.computes.exists_path needs
  have entangled : graph.Entangled ⟨input, 0⟩ source := by
    cases computes with
    | @input _ id _ _ listed _ _ =>
      obtain rfl : id = input := Option.some.inj ((same ▸ listed).symm.trans defines.listed)
      rcases path.cases_head with here | ⟨next, ⟨sender, reader, linked, sends, rfl⟩, path⟩
      · exact .inl here.symm
      · exact .inr ⟨reader, sound.eq_of_reads_input defines.listed linked sends ▸ linked, path⟩
    | @component _ _ _ id split _ _ _ listed _ splits linked =>
      obtain rfl : id = input := Option.some.inj ((same ▸ listed).symm.trans defines.listed)
      exact .inr ⟨⟨split, 0⟩, linked, path⟩
    | made _ planned => cases planned
  refine ⟨⟨definition.name, input, defines.portName?_eq, defines.listed, rfl, defines.fed, ?_⟩,
    entangled⟩
  rcases entangled with same | ⟨reader, read, -⟩
  · exact ⟨⟨output, 0⟩, sound.eq_of_reads_input defines.listed defines.fed same ▸ defines.fed⟩
  · exact ⟨reader, read⟩

/-- All outputs of expressions without names have one name. -/
theorem Realizes.portName?_bare {es : List Expr} (realizes : graph.Realizes (.ofBare es)) {id : Nat}
    (mem : id ∈ graph.outputs) : Cleanup.portName? graph id = some Builder.bareOutput := by
  obtain ⟨request, asked, named⟩ := exists_named realizes.outputs id mem
  obtain ⟨_, -, rfl⟩ := List.mem_map.1 asked
  exact named

/-- The outputs of expressions without names are not relinked when the first one needs their
name. -/
theorem Realizes.relinkOutputs_of_open {es : List Expr} (realizes : graph.Realizes (.ofBare es))
    (opens : OpenOnThemselves es) : Cleanup.relinkOutputs ⟨graph, .empty⟩ =
      .error (.cyclicDefinition Builder.bareOutput) ⟨graph, .empty⟩ := by
  obtain ⟨first, rest, rfl, v, needs, same⟩ := opens
  have defined : Requests.ofBare (first :: rest) =
      ⟨Definition.request ⟨Builder.bareOutput, first⟩ .scalar :: (Requests.ofBare rest).outputs, [],
        []⟩ := rfl
  rw [defined] at realizes
  obtain ⟨input, output, source, defines⟩ :=
    realizes.exists_defines ⟨_, List.mem_cons_self, needs⟩ same
  obtain ⟨relinkable, entangled⟩ := defines.entangled realizes.runnable.sound ⟨v, needs, same⟩
  obtain ⟨name, named, refused⟩ := @Cleanup.relinkOutputs_of_entangled ⟨graph, .empty⟩
    realizes.runnable.sound _ _ _ defines.first relinkable entangled
  rw [defines.portName?_eq, Option.some.injEq] at named
  obtain rfl : name = Builder.bareOutput := named.symm
  exact refused

/-- The outputs of expressions without names are relinked when the first one does not need their
name, and inputs of all other names are still read. -/
theorem Realizes.exists_relinksAll {es : List Expr} (realizes : graph.Realizes (.ofBare es))
    (apart : ¬ OpenOnThemselves es) :
    ∃ middle, graph.RelinksAll graph.outputs middle ∧
      ∀ v, (Requests.ofBare es).Needs (.var v) → v.name ≠ Builder.bareOutput →
        middle.Reads v.name := by
  by_cases used : ∃ v, (Requests.ofBare es).Needs (.var v) ∧ v.name = Builder.bareOutput
  · obtain ⟨v, needs, same⟩ := used
    cases es with
    | nil =>
      obtain ⟨_, none, -⟩ := needs
      cases none
    | cons first rest =>
      have unneeded (v : Variable) (needs : first.Needs (.var v)) : v.name ≠ Builder.bareOutput :=
        fun same => apart ⟨first, rest, rfl, v, needs, same⟩
      have defined : Requests.ofBare (first :: rest) =
          ⟨Definition.request ⟨Builder.bareOutput, first⟩ .scalar ::
            (Requests.ofBare rest).outputs, [], []⟩ := rfl
      obtain ⟨input, output, source, defines⟩ :=
        (defined ▸ realizes).exists_defines (defined ▸ needs) same
      have sound := realizes.runnable.sound
      obtain ⟨middle, relinked, runs, linked⟩ :=
        defines.exists_relinksOutput realizes.runnable unneeded
      obtain ⟨-, rewires⟩ := relinked.keeps sound
      have idle := defines.idle sound (fun v equal => unneeded v (equal ▸ .root)) linked
      have kept (name : String) : middle.input? name = graph.input? name := by
        unfold Graph.input?
        rw [rewires.inputs]
      refine ⟨middle, ?_, fun w needs other => ?_⟩
      · have tail := List.cons_head?_tail defines.first
        rw [← tail]
        refine .cons relinked (Cleanup.relinksAll_self fun id mem input' source' relinkable => ?_)
        -- Nothing reads the input of the one name any more.
        obtain ⟨name, id', named, listed, rfl, -, reader, read⟩ := relinkable
        have mem : id ∈ graph.outputs := tail ▸ List.mem_cons_of_mem _ mem
        have named' := realizes.portName?_bare mem
        unfold Cleanup.portName? at named named'
        rw [rewires.node?, named', Option.some.injEq] at named
        rw [kept, ← named, defines.listed, Option.some.injEq] at listed
        exact idle reader _ read listed.symm
      · obtain ⟨id, reader, node, listed, read, found, plain, varying⟩ :=
          realizes.reads_of_needs needs
        refine ⟨id, reader, node, (kept _).trans listed, ?_, (rewires.node? _).trans found, plain,
          varying⟩
        rw [linked, read, Option.map_some, redirect_of_node_ne]
        rintro (rfl : id = input)
        exact other (sound.name_of_input? listed defines.listed)
  · refine ⟨graph, Cleanup.relinksAll_self fun id mem input source relinkable => ?_,
      fun v needs _ => realizes.reads_of_needs needs⟩
    obtain ⟨name, id', named, listed, -⟩ := relinkable
    rw [realizes.portName?_bare mem, Option.some.injEq] at named
    obtain ⟨-, v, needs, same⟩ := realizes.inputs name id' listed
    exact used ⟨v, needs, same.trans named.symm⟩

end Graph

namespace Expr

variable {e : Expr}

/-- The statements of a tree of expressions without names are refused for no cyclic definition. -/
theorem HasBare.statements_ne_cyclic (bare : e.HasBare) (builder : Builder) (name : String) :
    e.arguments.foldlM Builder.statement builder ≠ .error (.cyclicDefinition name) := by
  intro stopped
  obtain ⟨done, here, rest, between, listed, -, refused⟩ := foldlM_eq_error_iff.1 stopped
  by_cases absent : here.isEmpty = true
  · rw [isEmpty_iff.1 absent] at refused
    cases refused
  · have bare := bare here (List.mem_filter.2 ⟨by simp [listed], by simpa using absent⟩)
    rw [Builder.statement_of_bare bare] at refused
    have stops := @Builder.output_stops (fun _ => True) _ _ (fun _ _ _ _ _ _ _ => trivial) _ _ _
      bare.isEmpty trivial refused
    cases stops.isLocal

section

variable {zero : Float} (bare : e.HasBare) (regular : e.Every (IsRegular zero))
  (options : BuildOptions)

include bare regular

/-- Expressions without names all of which can be built anywhere are built into a graph of their
outputs, and this is cleaned up. -/
theorem HasBare.build_eq (lowerable : ∀ part ∈ present e.arguments, part.Lowerable) :
    ∃ graph defaults, graph.Realizes (.ofBare (present e.arguments)) ∧ e.build options =
      (cleanUp ⟨defaults, [], []⟩ options ⟨graph, .empty⟩).1.map fun _ =>
        (cleanUp ⟨defaults, [], []⟩ options ⟨graph, .empty⟩).2 :=
  Expr.build_eq regular bare.isUngrouped ((Requests.run_bare_iff bare).2 ⟨lowerable, by
    simp [Requests.append, Requests.none, Requests.ofBare]⟩) options

/-- Expressions without names are refused when the first one needs their name, as if it were defined
in terms of itself. -/
theorem HasBare.build_of_open (lowerable : ∀ part ∈ present e.arguments, part.Lowerable)
    (opens : OpenOnThemselves (present e.arguments)) :
    e.build options = .error (.cyclicDefinition Builder.bareOutput) := by
  obtain ⟨graph, defaults, realizes, built⟩ := bare.build_eq regular options lowerable
  rw [built, Cleanup.cleanUp_eq, Cleanup.bind_of_error (realizes.relinkOutputs_of_open opens)]

/-- Expressions without names are built when the first one does not need their name, and every other
variable that is needed is an input. -/
theorem HasBare.build_of_apart (lowerable : ∀ part ∈ present e.arguments, part.Lowerable)
    (apart : ¬ OpenOnThemselves (present e.arguments)) :
    ∃ site, e.build options = .ok site ∧ ∀ part ∈ present e.arguments, ∀ v, part.Needs (.var v) →
      v.name ≠ Builder.bareOutput → (site.graph.input? v.name).isSome = true := by
  obtain ⟨graph, defaults, realizes, built⟩ := bare.build_eq regular options lowerable
  obtain ⟨middle, relinks, reads⟩ := realizes.exists_relinksAll apart
  obtain ⟨last, done, leaves⟩ := Cleanup.cleanUp_of_relinksAll realizes.runnable realizes.isWired
    relinks ⟨defaults, [], []⟩ options
  refine ⟨⟨last, .empty⟩, built.trans done, fun part mem v needs other => ?_⟩
  have read := reads v ⟨⟨Builder.bareOutput, .scalar, part⟩, List.mem_map_of_mem mem, needs⟩ other
  exact (leaves.reads v.name read).isSome_input?

/-- Expressions without names can be built anywhere when they are built, or refused for a cyclic
definition. -/
theorem HasBare.lowerable (reached : (∃ site, e.build options = .ok site) ∨
      ∃ name, e.build options = .error (.cyclicDefinition name)) :
    ∀ part ∈ present e.arguments, part.Lowerable := by
  have stated : ∃ builder, e.arguments.foldlM Builder.statement (.start options) = .ok builder := by
    rcases reached with ⟨site, built⟩ | ⟨name, refused⟩
    · obtain ⟨builder, built, -⟩ := bind_eq_ok_iff.1 built
      exact ⟨builder, built⟩
    · rcases bind_eq_error_iff.1 refused with stopped | ⟨builder, built, -⟩
      · exact absurd stopped (bare.statements_ne_cyclic _ name)
      · exact ⟨builder, built⟩
  obtain ⟨builder, built⟩ := stated
  obtain ⟨requests, run⟩ := exists_run_of_statements regular bare.isUngrouped built
  exact ((Requests.run_bare_iff bare).1 run).1

end

end Expr

/-- A valid source of expressions without names, which calls nothing that takes names, is refused
for a cyclic definition exactly when all of its expressions can be built and the first one needs a
variable with the name that outputs without a name have. It is built exactly when all can be built
and the first one does not need such a variable, and then every variable that is needed is an input
of the graph, unless it has this name. -/
theorem Source.build_bare {source : String} {e : Expr} (valid : validate source = .ok e)
    (nameless : e.Every IsNameless) (bare : e.HasBare) (options : BuildOptions) :
    (∀ name, e.build options = .error (.cyclicDefinition name) ↔ name = Builder.bareOutput ∧
        (∀ part ∈ present e.arguments, part.Lowerable) ∧
          OpenOnThemselves (present e.arguments)) ∧
      ((∃ site, e.build options = .ok site) ↔ (∀ part ∈ present e.arguments, part.Lowerable) ∧
        ¬ OpenOnThemselves (present e.arguments)) ∧
      ∀ site, e.build options = .ok site → ∀ part ∈ present e.arguments, ∀ v, part.Needs (.var v) →
        v.name ≠ Builder.bareOutput → (site.graph.input? v.name).isSome = true := by
  have regular : e.Every (IsRegular 0.0) := by
    obtain ⟨-, rfl, -⟩ := of_validate valid
    exact fun part mem => ⟨every_zeroIs_parseChars source.toList part mem, nameless part mem⟩
  refine ⟨fun name => ⟨fun refused => ?_, ?_⟩, ⟨?_, ?_⟩, ?_⟩
  · have lowerable := bare.lowerable regular options (.inr ⟨name, refused⟩)
    by_cases opens : OpenOnThemselves (present e.arguments)
    · rw [bare.build_of_open regular options lowerable opens] at refused
      cases refused
      exact ⟨rfl, lowerable, opens⟩
    · obtain ⟨site, built, -⟩ := bare.build_of_apart regular options lowerable opens
      cases built.symm.trans refused
  · rintro ⟨rfl, lowerable, opens⟩
    exact bare.build_of_open regular options lowerable opens
  · rintro ⟨site, built⟩
    have lowerable := bare.lowerable regular options (.inl ⟨site, built⟩)
    refine ⟨lowerable, fun opens => ?_⟩
    cases built.symm.trans (bare.build_of_open regular options lowerable opens)
  · rintro ⟨lowerable, apart⟩
    obtain ⟨site, built, -⟩ := bare.build_of_apart regular options lowerable apart
    exact ⟨site, built⟩
  · intro site built
    have lowerable := bare.lowerable regular options (.inl ⟨site, built⟩)
    have apart : ¬ OpenOnThemselves (present e.arguments) := fun opens => by
      cases built.symm.trans (bare.build_of_open regular options lowerable opens)
    obtain ⟨site', built', listed⟩ := bare.build_of_apart regular options lowerable apart
    cases built.symm.trans built'
    exact listed

/-- A source that doubles a variable is refused if the variable has the name of the output. -/
theorem Source.build_bare_of_same_name :
    ∃ e, validate "Value * 2" = .ok e ∧ e.HasBare ∧
      e.build .standard = .error (.cyclicDefinition "Value") := by
  let v : Variable := .plain "Value"
  let e : Expr := .binary .mul (.var v) (.value ⟨"2"⟩)
  have parsed : parse "Value * 2" = e := by
    unfold parse
    have product : Form.ofChars (Text.trim "Value * 2".toList) =
        .operation .mul "Value ".toList " 2".toList := by decide +kernel
    have first : Form.ofChars (Text.trim "Value ".toList) = .atom "Value".toList := by
      decide +kernel
    have second : Form.ofChars (Text.trim " 2".toList) = .atom "2".toList := by decide +kernel
    rw [parseChars_of_operation product, parseChars_of_atom first, parseChars_of_atom second]
    rfl
  have checked : e.check = .ok () := by decide +kernel
  have valid := validate_of_check (by decide +kernel) parsed checked
  have arithmetic : e.IsArithmetic :=
    .binary rfl (.var (by decide +kernel) nofun) (.value (by decide +kernel))
  have bare : e.HasBare := by
    rintro statement (_ | ⟨_, ⟨⟩⟩)
    exact ⟨nofun, nofun, nofun⟩
  have computable : e.IsComputable := by
    obtain ⟨variables_, -, operations⟩ := of_check checked
    exact arithmetic.isComputable variables_ operations
  have needs : e.Needs (.var v) := computable.needs_var (by decide +kernel)
  have lowerable : ∀ part ∈ present e.arguments, part.Lowerable := by
    rintro part (_ | ⟨_, ⟨⟩⟩)
    exact computable.lowerable
  exact ⟨e, valid, bare, ((build_bare valid arithmetic.every_isNameless bare .standard).1 "Value").2
    ⟨rfl, lowerable, e, [], rfl, v, needs, rfl⟩⟩

end Shadeloom
