import Mathlib
import NameResolution.Proofs.Lexical.Replay

/-!
# NameResolution.Proofs.Scoping

**Names are resolved lexically** (`Crate.names_resolve_lexically`). The second pass pushes,
fills, searches and pops ribs that are shared by the whole crate. What it finds is what an
environment says that is handed down the tree: the frames of the constructs around a name,
innermost first, then the modules around it, then the primitive types. A frame only has
names that its own construct introduces, and only the nodes of that construct see them.
-/

namespace NameResolution

open Resolution

/-! ### Paths of one plain name -/

section Single

variable {base s : Session} {env : Env} {prefer : Namespace} {node snode : Node} {name : String}
  {generics : Option GenericArgs}

/-- What there is to be found out about a path of one plain name. -/
theorem Path.read_single (base : Session) (env : Env) (prefer : Namespace) (node snode : Node)
    (name : String) (generics : Option GenericArgs) :
    (Path.read base env prefer ⟨node, [⟨snode, .ident name, generics⟩]⟩).value =
        (env.resolve base prefer name).map Prod.snd ∧
      (Path.read base env prefer ⟨node, [⟨snode, .ident name, generics⟩]⟩).findings =
        (readGenericArgs base env generics).findings ++
          match env.resolve base prefer name with
          | none => [.error (.failedToResolvePath name snode.span),
              .visit ⟨node, [⟨snode, .ident name, generics⟩]⟩ prefer env none]
          | some (space, m) => [.segment space snode name m.decl (env.here base),
              .resolved m.space node.id m.decl,
              .visit ⟨node, [⟨snode, .ident name, generics⟩]⟩ prefer env (some m)] := by
  have hreceiver : env.receiver? base prefer [⟨snode, .ident name, generics⟩] = none := by
    cases prefer <;> simp [Env.receiver?]
  cases generics <;> cases hresolve : env.resolve base prefer name <;>
    simp [Path.read, readWhole, hreceiver, readSegments, PathSegment.read, Spot.isDeferred,
      readName, hresolve, readGenericArgs, Reading.stopWith, Spot.advance, PathSegment.readTo,
      PathIdent.text]

/-- The arguments of a segment are about nodes of their own. -/
theorem Ready.not_use_readGenericArgs (hbase : base.Settled)
    (h : Ready base env (Path.nodeIds ⟨node, [⟨snode, .ident name, generics⟩]⟩) s) :
    snode.id ∉ usesOf (readGenericArgs base env generics).findings := by
  cases generics with
  | none => exact List.not_mem_nil
  | some args =>
      have hseg : Ready base env (snode.id :: args.nodeIds) s := h.tail.left
      obtain ⟨_, _, -, -, -, -, hstep⟩ := args.agrees hbase hseg.tail
      exact fun hin => (List.nodup_cons.mp hseg.nodup).1 (hstep.uses.subset hin)

end Single

/-! ### The end of the search -/

/-- Only the primitive types are found beyond the crate root. -/
theorem Crate.FirstPass.findMember?_prelude {c : Crate} {settings : Settings} {base : Session}
    (h : c.FirstPass settings base) (space : Namespace) (name : String) :
    (Env.findMember? base space base.builtins.prelude name).map Meaning.decl =
      match space with
      | .name => none
      | .type => base.builtins.primitive? name := by
  unfold Env.findMember?
  rw [h.prelude, Option.map_map]
  cases space with
  | name => rfl
  | type =>
      refine (Option.map_map _ _ _).trans ?_
      exact findPrimitive?_single base.builtins.prelude name base.builtins.primitives

/-! ### Every path of one plain name -/

/-- What the second pass makes of a path of one plain name in an environment. -/
structure Crate.ResolvesIn (c : Crate) (settings : Settings) (s : Session) (node snode : Node)
    (name : String) (prefer : Namespace) (env : Env) (outcome : Option Meaning) : Prop where
  /-- It stands for what the environment has under the name. -/
  outcome_eq : outcome = (env.resolve (c.registered settings) prefer name).map Prod.snd
  /-- Both the path and its segment are resolved to that, if to anything. -/
  path : s.tables.resolved? node.id = outcome.map Meaning.decl
  segment : s.tables.resolved? snode.id = outcome.map Meaning.decl
  reported : outcome = none → .failedToResolvePath name snode.span ∈ s.errors.reported
  /-- The path is inside every construct whose names it sees. -/
  inside : ∀ f ∈ env.frames, node.id ∈ f.extent
  introduced : ∀ f ∈ env.frames, ∀ space, ∀ l ∈ f.locals space, l.node ∈ f.extent
  outermost : env.modules.getLast? = some c.node.id
  /-- A module has everything that was attempted in it, the first attempt for a name winning. -/
  members : ∀ module ∈ env.modules, ∀ space name,
    (Env.findMember? (c.registered settings) space module name).map Meaning.decl =
      (firstFor (c.attempts settings) module space (.single module name)).map Attempt.id

section Visit

variable {c : Crate} {settings : Settings} {s : Session} {node snode : Node} {name : String}
  {generics : Option GenericArgs} {prefer : Namespace} {env : Env} {outcome : Option Meaning}

/-- The modules around a path have what was attempted in them. -/
theorem Stands.findMember?_eq {base : Session} (h : Stands base env s)
    (hbase : c.FirstPass settings base) {module : NodeId} (hmodule : module ∈ env.modules)
    (space : Namespace) (name : String) :
    (Env.findMember? base space module name).map Meaning.decl =
      (firstFor (c.attempts settings) module space (.single module name)).map Attempt.id := by
  have hnodup := (List.nodup_append.mp h.nodup).2.2
  have hne : module ≠ base.builtins.prelude :=
    hnodup module (List.mem_append_right _ hmodule) _ List.mem_cons_self
  unfold Env.findMember?
  rw [hbase.ribs space module _ hne, Option.map_map, Option.map_map]
  rfl

namespace Crate.SecondPass

variable (hwf : c.WellFormed) (hs : c.SecondPass (c.registered settings) s)
  (hvisit : .visit ⟨node, [⟨snode, .ident name, generics⟩]⟩ prefer env outcome ∈
    (c.read (c.registered settings)).findings)

include hs hvisit

/-- What a path of one plain name stands for is what its environment has under the name. -/
theorem outcome_eq_resolve :
    outcome = (env.resolve (c.registered settings) prefer name).map Prod.snd :=
  (hs.traced _ _ _ _ hvisit).value.symm.trans
    (Path.read_single (c.registered settings) env prefer node snode name generics).1

/-- A name that nothing is found for is reported. -/
theorem reported_of_single (hnone : outcome = none) :
    .failedToResolvePath name snode.span ∈ s.errors.reported := by
  have hresolve : env.resolve (c.registered settings) prefer name = none :=
    Option.map_eq_none_iff.mp ((hs.outcome_eq_resolve hvisit).symm.trans hnone)
  have hmem : .error (.failedToResolvePath name snode.span) ∈
      (c.read (c.registered settings)).findings := by
    refine (hs.traced _ _ _ _ hvisit).findings_subset ?_
    rw [(Path.read_single _ env prefer node snode name generics).2, hresolve]
    simp
  change _ ∈ s.ledger.reported
  rw [hs.ledger, Ledger.reported_noteAll]
  exact List.mem_append_right _ (List.mem_filterMap.mpr ⟨_, hmem, rfl⟩)

include hwf

/-- The only segment of a path is resolved to what the path stands for. -/
theorem resolved?_segment : s.tables.resolved? snode.id = outcome.map Meaning.decl := by
  have hbase := c.firstPass hwf settings
  rw [hs.outcome_eq_resolve hvisit]
  cases hresolve : env.resolve (c.registered settings) prefer name with
  | some found =>
      have hmem : .segment found.1 snode name found.2.decl (env.here (c.registered settings)) ∈
          (c.read (c.registered settings)).findings := by
        refine (hs.traced _ _ _ _ hvisit).findings_subset ?_
        rw [(Path.read_single _ env prefer node snode name generics).2, hresolve]
        simp
      exact hs.resolved?_of_found hwf hbase hmem rfl
  | none =>
      -- Only the arguments are found out about, and the segment is none of their nodes.
      obtain ⟨s', hready⟩ := (hs.traced _ _ _ _ hvisit).ready
      have hnot : snode.id ∉ usesOf (Path.read (c.registered settings) env prefer
          ⟨node, [⟨snode, .ident name, generics⟩]⟩).findings := by
        rw [(Path.read_single _ env prefer node snode name generics).2, hresolve, usesOf_append,
          List.mem_append, not_or]
        exact ⟨hready.not_use_readGenericArgs (hbase.settled hwf), List.not_mem_nil⟩
      have hnode : snode.id ∈ Path.nodeIds ⟨node, [⟨snode, .ident name, generics⟩]⟩ :=
        List.mem_cons_of_mem _ (mem_segmentsNodeIds_head ⟨snode, .ident name, generics⟩ [])
      exact hs.resolved?_of_not_found hwf hbase hvisit hnode hnot

/-- Whatever is visited is resolved in its environment. -/
theorem resolvesIn : c.ResolvesIn settings s node snode name prefer env outcome := by
  have hbase := c.firstPass hwf settings
  obtain ⟨s', hready⟩ := (hs.traced _ _ _ _ hvisit).ready
  exact
    { outcome_eq := hs.outcome_eq_resolve hvisit
      path := hs.resolved?_of_visit hwf hbase hvisit
      segment := hs.resolved?_segment hwf hvisit
      reported := hs.reported_of_single hvisit
      inside := fun f hf => hready.enclosed.mem_extent hf List.mem_cons_self
      introduced := hready.stands.introduced
      outermost := hbase.root ▸ hready.stands.outermost
      members := fun module hmodule space name =>
        hready.stands.findMember?_eq hbase hmodule space name }

end Crate.SecondPass

end Visit

/-- **Names are resolved lexically.** In a well-formed crate the second pass succeeds, and enters
and reports exactly what reading the crate in environments finds out. Every path of one plain name
that is visited stands for what its environment has under the name, in the preferred namespace or
else in the other one, and if that is nothing, an error says so. -/
theorem Crate.names_resolve_lexically {c : Crate} (hwf : c.WellFormed) (settings : Settings) :
    ∃ s, Runs c.resolveItems (c.registered settings) () s ∧
      s.ledger = (c.registered settings).ledger.noteAll (c.registered settings)
        (c.read (c.registered settings)).findings ∧
      (∀ node snode name generics prefer env outcome,
        .visit ⟨node, [⟨snode, .ident name, generics⟩]⟩ prefer env outcome ∈
          (c.read (c.registered settings)).findings →
        c.ResolvesIn settings s node snode name prefer env outcome) ∧
      ∀ space name, (Env.findMember? (c.registered settings) space
          (c.registered settings).builtins.prelude name).map Meaning.decl =
        match space with
        | .name => none
        | .type => (c.registered settings).builtins.primitive? name := by
  have hbase := c.firstPass hwf settings
  obtain ⟨s, hrun, hs⟩ := hbase.exists_secondPass hwf
  exact ⟨s, hrun, hs.ledger, fun _ _ _ _ _ _ _ hvisit => hs.resolvesIn hwf hvisit,
    hbase.findMember?_prelude⟩

/-- A function that uses its parameter `x`, and a function named `x` that uses itself. -/
def Crate.withLocalName : Crate where
  node := ⟨⟨0⟩, ⟨0, 60⟩⟩
  items :=
    let node (id offset : Nat) : Node := ⟨⟨id⟩, ⟨offset, 1⟩⟩
    let function (id offset : Nat) (name : String) (params : List Param) (body : Block) : Item :=
      ⟨node id offset, .ownModule,
        .function ⟨⟨name, ⟨offset + 3, 1⟩⟩, .none, none, params, none, some body⟩⟩
    let useOfX (id offset : Nat) : Expr :=
      .path (node id offset)
        ⟨node (id + 1) offset, [⟨node (id + 2) offset, .ident "x", none⟩]⟩
    [function 1 0 "f"
        [⟨node 2 5, .binding (node 3 5) ⟨"x", ⟨5, 1⟩⟩ false, .inferred (node 4 8)⟩]
        ⟨node 5 11, [], some (useOfX 6 13)⟩,
      function 9 20 "x" [] ⟨node 10 27, [], some (useOfX 11 29)⟩]
  idBound := ⟨14⟩

/-- The parameter is what `x` stands for in the first function, and nowhere else. -/
theorem Crate.resolvesIn_withLocalName :
    withLocalName.WellFormed ∧
      ∃ s, Runs withLocalName.resolveItems (withLocalName.registered {}) () s ∧
        s.tables.resolved? ⟨7⟩ = some ⟨3⟩ ∧ s.tables.resolved? ⟨12⟩ = some ⟨9⟩ := by
  have hwf : withLocalName.WellFormed := by decide
  obtain ⟨s, hrun, -, hpaths, -⟩ := names_resolve_lexically hwf {}
  have hfirst : (withLocalName.read (withLocalName.registered {})).findings[3]? = some (.visit
      ⟨⟨⟨7⟩, ⟨13, 1⟩⟩, [⟨⟨⟨8⟩, ⟨13, 1⟩⟩, .ident "x", none⟩]⟩ .name
      ⟨[⟨⟨5⟩, [⟨5⟩, ⟨6⟩, ⟨7⟩, ⟨8⟩], [], []⟩,
        ⟨⟨1⟩, [⟨1⟩, ⟨2⟩, ⟨3⟩, ⟨4⟩, ⟨5⟩, ⟨6⟩, ⟨7⟩, ⟨8⟩], [.own .name ⟨3⟩ "x" ⟨5, 1⟩], []⟩], [⟨0⟩]⟩
      (some ⟨⟨3⟩, .name, .single ⟨3⟩ "x"⟩)) := rfl
  have hsecond : (withLocalName.read (withLocalName.registered {})).findings[6]? = some (.visit
      ⟨⟨⟨12⟩, ⟨29, 1⟩⟩, [⟨⟨⟨13⟩, ⟨29, 1⟩⟩, .ident "x", none⟩]⟩ .name
      ⟨[⟨⟨10⟩, [⟨10⟩, ⟨11⟩, ⟨12⟩, ⟨13⟩], [], []⟩,
        ⟨⟨9⟩, [⟨9⟩, ⟨10⟩, ⟨11⟩, ⟨12⟩, ⟨13⟩], [], []⟩], [⟨0⟩]⟩
      (some ⟨⟨9⟩, .name, .single ⟨9⟩ "x"⟩)) := by cbv
  have hf := hpaths _ _ _ _ _ _ _ (List.mem_of_getElem? hfirst)
  have hx := hpaths _ _ _ _ _ _ _ (List.mem_of_getElem? hsecond)
  exact ⟨hwf, s, hrun, hf.path, hx.path⟩

end NameResolution
