import Mathlib.Data.List.Perm.Subperm
import NameResolution.Proofs.Growth
import NameResolution.Proofs.Lexical.PathReading

/-!
# NameResolution.Proofs.Lexical.Standing

**What a session stands for in the second pass.** `Stands base env s` relates the ribs
that are open in a session to an environment, frame by frame. It holds at every point of
the pass, with the environment of that point.

A part of the tree finds its own nodes unused (`Ready`), and every frame around it belongs
to a construct that it is a part of. What it does to the session is described by its
reading: `Step` says that the session has grown, that its tables and
errors are what the findings make of them, and that what is known about a declaration
stays known.
-/

namespace NameResolution

namespace Session

/-- What a meaning says about its declaration is what the session has on record. -/
structure Knows (s : Session) (m : Meaning) : Prop where
  classified : s.classify m.decl = some m.space
  named : s.tables.paths.get? m.decl = some m.path

/-- A container or a built-in type, which `Self` may stand for even if no other name does. -/
def Nameable (s : Session) (id : NodeId) : Prop :=
  s.tables.isContainer id = true ∨ id ∈ s.builtins.types

/-- A meaning that a name can be bound to. The declaration may be a built-in type or a trait that
was refused, which no name stands for yet; it is going to be one of the types. -/
structure Offers (s : Session) (m : Meaning) : Prop where
  classified : s.classify m.decl = some m.space ∨
    s.classify m.decl = none ∧ m.space = .type ∧ s.Nameable m.decl
  named : s.tables.paths.get? m.decl = some m.path

variable {s s' : Session} {m : Meaning}

theorem Knows.congr (h : s.Knows m) (hclass : s'.classify m.decl = s.classify m.decl)
    (hpath : s'.tables.paths.get? m.decl = s.tables.paths.get? m.decl) : s'.Knows m :=
  ⟨hclass.trans h.classified, hpath.trans h.named⟩

theorem Nameable.congr {id : NodeId} (h : s.Nameable id)
    (hcontainers : s'.tables.containers = s.tables.containers)
    (hbuiltins : s'.builtins = s.builtins) : s'.Nameable id := by
  unfold Nameable Tables.isContainer
  rw [hcontainers, hbuiltins]
  exact h

theorem Offers.congr (h : s.Offers m) (hclass : s'.classify m.decl = s.classify m.decl)
    (hpath : s'.tables.paths.get? m.decl = s.tables.paths.get? m.decl)
    (hcontainers : s'.tables.containers = s.tables.containers)
    (hbuiltins : s'.builtins = s.builtins) : s'.Offers m where
  classified := by
    rw [hclass]
    exact h.classified.imp_right fun ⟨hnone, hspace, hnameable⟩ =>
      ⟨hnone, hspace, hnameable.congr hcontainers hbuiltins⟩
  named := hpath.trans h.named

theorem Knows.offers (h : s.Knows m) : s.Offers m := ⟨Or.inl h.classified, h.named⟩

/-- Whatever has a path is in use. -/
theorem Offers.not_unused (h : s.Offers m) : ¬ s.Unused m.decl := by
  intro hunused
  have hnone := hunused.pathless
  rw [h.named] at hnone
  cases hnone

/-- What the second pass relies on in the session that the first pass leaves behind. -/
structure Settled (base : Session) : Prop where
  containersNamed : ∀ id kind, base.tables.containers.get? id = some kind →
    (base.tables.paths.get? id).isSome
  childrenKnown : ∀ scope name, ∀ child ∈ base.tables.childrenNamed scope name,
    base.Knows (base.meaning child)
  parentsModules : ∀ id module, base.tables.parents.get? id = some module →
    base.tables.isModule module = true
  builtinsNamed : ∀ id ∈ base.builtins.types, (base.tables.paths.get? id).isSome
  bindingsKnown : ∀ space owner key b, (base.scope space).bindingIn? owner key = some b →
    base.Knows (base.meaning b.id)
  rootModule : base.tables.isModule base.root = true

theorem offers_meaning {base : Session} {id : NodeId} (h : (base.tables.paths.get? id).isSome)
    (hnameable : base.Nameable id) : base.Offers (base.meaning id) := by
  obtain ⟨path, hpath⟩ := Option.isSome_iff_exists.mp h
  refine ⟨?_, by simp [meaning, hpath]⟩
  cases hclass : base.classify id <;> simp [meaning, hclass, hnameable]

theorem Settled.offers_container {base : Session} (h : base.Settled) {id : NodeId}
    {kind : ContainerKind} (hkind : base.tables.containers.get? id = some kind) :
    base.Offers (base.meaning id) :=
  offers_meaning (h.containersNamed id kind hkind)
    (Or.inl (by simp [Tables.isContainer, hkind]))

theorem Settled.offers_builtin {base : Session} (h : base.Settled) {id : NodeId}
    (hid : id ∈ base.builtins.types) : base.Offers (base.meaning id) :=
  offers_meaning (h.builtinsNamed id hid) (Or.inr hid)

/-- A module is known wherever it was declared. -/
theorem Settled.knows_module {base : Session} (h : base.Settled) {module : NodeId}
    (hmodule : base.tables.isModule module = true) : base.Knows (base.meaning module) := by
  have hget : base.tables.containers.get? module = some .module := by
    simpa [Tables.isModule] using hmodule
  have hclass : base.classify module = some .name := by simp [classify, hmodule]
  refine ⟨?_, (h.offers_container hget).named⟩
  simp [meaning, hclass]

/-- The tables that the second pass only reads. -/
structure SameDeclarations (t t' : Tables) : Prop where
  parents : t'.parents = t.parents
  nested : t'.nested = t.nested
  childEntries : t'.childEntries = t.childEntries
  containers : t'.containers = t.containers
  visibilities : t'.visibilities = t.visibilities

namespace SameDeclarations

theorem refl (t : Tables) : SameDeclarations t t := ⟨rfl, rfl, rfl, rfl, rfl⟩

theorem trans {t₁ t₂ t₃ : Tables} (h₁ : SameDeclarations t₁ t₂) (h₂ : SameDeclarations t₂ t₃) :
    SameDeclarations t₁ t₃ where
  parents := h₂.parents.trans h₁.parents
  nested := h₂.nested.trans h₁.nested
  childEntries := h₂.childEntries.trans h₁.childEntries
  containers := h₂.containers.trans h₁.containers
  visibilities := h₂.visibilities.trans h₁.visibilities

variable {t t' : Tables} (h : SameDeclarations t t')

include h

theorem isContainer (id : NodeId) : t'.isContainer id = t.isContainer id := by
  unfold Tables.isContainer
  rw [h.containers]

theorem isModule (id : NodeId) : t'.isModule id = t.isModule id := by
  unfold Tables.isModule
  rw [h.containers]

theorem childrenOf (parent : NodeId) : t'.childrenOf parent = t.childrenOf parent := by
  unfold Tables.childrenOf
  rw [h.childEntries]

theorem childrenNamed (parent : NodeId) (name : String) :
    t'.childrenNamed parent name = t.childrenNamed parent name := by
  unfold Tables.childrenNamed
  rw [h.childrenOf]

end SameDeclarations

end Session

open Session (SameDeclarations)

/-! ### Sessions and environments -/

/-- The extents of the frames, innermost first. They stay the same while names are introduced. -/
def Env.extents (env : Env) : List (List NodeId) := env.frames.map Frame.extent

/-- The nodes are inside every construct that has opened a frame. -/
def Env.Encloses (env : Env) (ids : List NodeId) : Prop := ∀ extent ∈ env.extents, ids ⊆ extent

namespace Env.Encloses

variable {env env' : Env} {ids ids₁ ids₂ : List NodeId}

theorem mono (h : env.Encloses ids₂) (hids : ids₁ ⊆ ids₂) : env.Encloses ids₁ :=
  fun extent hextent _ hid => h extent hextent (hids hid)

theorem congr (h : env.Encloses ids) (hextents : env'.extents = env.extents) :
    env'.Encloses ids := by
  unfold Env.Encloses
  rwa [hextents]

/-- Inside the construct that opens the innermost frame. -/
theorem enter (h : env.Encloses ids) (owner : NodeId) {extent : List NodeId}
    (hextent : ids ⊆ extent) : (env.enter owner extent).Encloses ids := fun outer houter => by
  rcases List.mem_cons.mp houter with rfl | houter
  · exact hextent
  · exact h outer houter

theorem mem_extent {f : Frame} (h : env.Encloses ids) (hf : f ∈ env.frames) {id : NodeId}
    (hid : id ∈ ids) : id ∈ f.extent :=
  h f.extent (List.mem_map_of_mem hf) hid

end Env.Encloses

/-- The ribs that are open in a session hold what the frames and modules of the environment do. -/
structure Stands (base : Session) (env : Env) (s : Session) : Prop where
  builtins : s.builtins = base.builtins
  root : s.root = base.root
  tables : SameDeclarations base.tables s.tables
  modules : s.modules.opened = env.modules
  outermost : env.modules.getLast? = some base.root
  areModules : ∀ m ∈ env.modules, base.tables.isModule m = true
  opened : ∀ space, (s.scope space).opened = env.owners base
  nodup : (env.owners base).Nodup
  ribs : ∀ space, ∀ owner ∈ env.owners base, ((s.scope space).rib? owner).isSome
  frames : ∀ f ∈ env.frames, ∀ space i name,
    (s.scope space).bindingIn? f.owner (.single i name) =
      (f.find? space name).map LocalName.binding
  members : ∀ owner ∈ env.modules ++ [base.builtins.prelude], ∀ space key,
    (s.scope space).bindingIn? owner key = (base.scope space).bindingIn? owner key
  locals : ∀ f ∈ env.frames, ∀ space, ∀ l ∈ f.locals space, s.Knows l.meaning
  /-- A frame only has names that its own construct introduces. -/
  introduced : ∀ f ∈ env.frames, ∀ space, ∀ l ∈ f.locals space, l.node ∈ f.extent
  /-- Only `Self` stands for something that the first pass knew of. -/
  fresh : ∀ f ∈ env.frames, ∀ space, ∀ l ∈ f.locals space, l.name ≠ "Self" →
    ∀ m, base.Offers m → m.decl ≠ l.meaning.decl
  /-- Any other name is introduced by a node for itself. -/
  own : ∀ f ∈ env.frames, ∀ space, ∀ l ∈ f.locals space, l.name ≠ "Self" →
    l.meaning.path = .single l.node l.name
  knows : ∀ m, base.Knows m → s.Knows m
  offers : ∀ m, base.Offers m → s.Offers m

/-- No container and no built-in type is new. -/
theorem Stands.nameable {base s : Session} {env : Env} (h : Stands base env s) {id : NodeId}
    (hid : s.Nameable id) : base.Nameable id :=
  hid.congr h.tables.containers.symm h.builtins.symm

/-- The nodes are still to be worked on, in an environment. -/
structure Ready (base : Session) (env : Env) (ids : List NodeId) (s : Session) : Prop where
  stands : Stands base env s
  nodup : ids.Nodup
  apart : ∀ id ∈ ids, id ∉ env.owners base
  enclosed : env.Encloses ids
  unused : ∀ id ∈ ids, s.Unused id
  vacant : ∀ id ∈ ids, s.Vacant id

/-- Once one of the nodes has opened its rib, the others are still apart from all that are open. -/
theorem apart_cons {owner : NodeId} {ids owners : List NodeId} (hnodup : (owner :: ids).Nodup)
    (hapart : ∀ id ∈ owner :: ids, id ∉ owners) : ∀ id ∈ ids, id ∉ owner :: owners :=
  fun id hid hin => by
    rcases List.mem_cons.mp hin with rfl | hin
    · exact (List.nodup_cons.mp hnodup).1 hid
    · exact hapart id (List.mem_cons_of_mem _ hid) hin

/-! ### Steps -/

/-- The node that a finding enters something for. -/
def Finding.use? : Finding → Option NodeId
  | .segment _ node _ _ _ => some node.id
  | .resolved _ use _ => some use
  | .qualified use _ => some use
  | .error _ | .visit _ _ _ _ => none

/-- What is said about a visit that is among the findings: the nodes of its path were still to be
worked on, what was found out about it is there in one piece, and nothing else enters anything for
its nodes. -/
structure Trace (base : Session) (ids : List NodeId) (findings : List Finding) (path : Path)
    (prefer : Namespace) (env : Env) (outcome : Option Meaning) : Prop where
  value : (path.read base env prefer).value = outcome
  ready : ∃ s, Ready base env path.nodeIds s
  apart : ∃ before after rest, findings = before ++ (path.read base env prefer).findings ++ after ∧
    List.Subperm (path.nodeIds ++ rest) ids ∧
    List.Subperm ((before ++ after).filterMap Finding.use?) rest

/-- Every visit is traced. -/
def Traced (base : Session) (ids : List NodeId) (findings : List Finding) : Prop :=
  ∀ path prefer env outcome, .visit path prefer env outcome ∈ findings →
    Trace base ids findings path prefer env outcome

/-- What reading a part of the tree with the nodes `ids` does to a session. -/
structure Step (base : Session) (ids : List NodeId) (findings : List Finding)
    (s s' : Session) : Prop where
  grows : s.Grows ids s'
  tables : SameDeclarations s.tables s'.tables
  ledger : s'.ledger = s.ledger.noteAll base findings
  knows : ∀ m, s.Knows m → s'.Knows m
  offers : ∀ m, s.Offers m → s'.Offers m
  uses : List.Subperm (findings.filterMap Finding.use?) ids
  traced : Traced base ids findings

theorem Traced.nil (base : Session) (ids : List NodeId) : Traced base ids [] :=
  fun _ _ _ _ h => nomatch h

namespace Trace

variable {base : Session} {ids ids₁ ids₂ : List NodeId} {l l₁ l₂ : List Finding} {path : Path}
  {prefer : Namespace} {env : Env} {outcome : Option Meaning}

theorem mono (h : Trace base ids₁ l path prefer env outcome) (hids : List.Subperm ids₁ ids₂) :
    Trace base ids₂ l path prefer env outcome := by
  obtain ⟨before, after, rest, hl, hpath, huses⟩ := h.apart
  exact ⟨h.value, h.ready, before, after, rest, hl, hpath.trans hids, huses⟩

theorem append_right (h : Trace base ids₁ l₁ path prefer env outcome)
    (huses : List.Subperm (l₂.filterMap Finding.use?) ids₂) :
    Trace base (ids₁ ++ ids₂) (l₁ ++ l₂) path prefer env outcome := by
  obtain ⟨before, after, rest, hl, hpath, hrest⟩ := h.apart
  refine ⟨h.value, h.ready, before, after ++ l₂, rest ++ ids₂, ?_, ?_, ?_⟩
  · rw [hl, List.append_assoc _ after l₂]
  · rw [← List.append_assoc]
    exact hpath.append (List.Subperm.refl ids₂)
  · rw [← List.append_assoc, List.filterMap_append]
    exact hrest.append huses

theorem append_left (h : Trace base ids₂ l₂ path prefer env outcome)
    (huses : List.Subperm (l₁.filterMap Finding.use?) ids₁) :
    Trace base (ids₁ ++ ids₂) (l₁ ++ l₂) path prefer env outcome := by
  obtain ⟨before, after, rest, hl, hpath, hrest⟩ := h.apart
  refine ⟨h.value, h.ready, l₁ ++ before, after, ids₁ ++ rest, ?_, ?_, ?_⟩
  · rw [hl, List.append_assoc, List.append_assoc, List.append_assoc]
  · have hperm : List.Perm (path.nodeIds ++ (ids₁ ++ rest)) (ids₁ ++ (path.nodeIds ++ rest)) := by
      rw [← List.append_assoc, ← List.append_assoc]
      exact List.perm_append_comm.append_right rest
    exact hperm.subperm.trans ((List.Subperm.refl ids₁).append hpath)
  · rw [List.append_assoc, List.filterMap_append]
    exact huses.append hrest

end Trace

theorem Ledger.noteAll_append (base : Session) (l : Ledger) (l₁ l₂ : List Finding) :
    l.noteAll base (l₁ ++ l₂) = (l.noteAll base l₁).noteAll base l₂ :=
  List.foldl_append

namespace Step

variable {base s s₁ s₂ : Session} {ids ids₁ ids₂ : List NodeId} {l l₁ l₂ : List Finding}

theorem refl (base : Session) (ids : List NodeId) (s : Session) : Step base ids [] s s where
  grows := .refl ids s
  tables := .refl _
  ledger := rfl
  knows _ h := h
  offers _ h := h
  uses := List.nil_subperm
  traced := .nil base ids

theorem append (h₁ : Step base ids₁ l₁ s s₁) (h₂ : Step base ids₂ l₂ s₁ s₂) :
    Step base (ids₁ ++ ids₂) (l₁ ++ l₂) s s₂ where
  grows := h₁.grows.append h₂.grows
  tables := h₁.tables.trans h₂.tables
  ledger := by rw [Ledger.noteAll_append, ← h₁.ledger, h₂.ledger]
  knows m h := h₂.knows m (h₁.knows m h)
  offers m h := h₂.offers m (h₁.offers m h)
  uses := by
    rw [List.filterMap_append]
    exact h₁.uses.append h₂.uses
  traced path prefer env outcome h := by
    rcases List.mem_append.mp h with h | h
    · exact (h₁.traced path prefer env outcome h).append_right h₂.uses
    · exact (h₂.traced path prefer env outcome h).append_left h₁.uses

/-- A part works on all the nodes that another list holds as well. -/
theorem mono (h : Step base ids₁ l s s₁) (hids : List.Subperm ids₁ ids₂) :
    Step base ids₂ l s s₁ :=
  { h with
    grows := h.grows.mono hids.subset
    uses := h.uses.trans hids
    traced := fun path prefer env outcome hv => (h.traced path prefer env outcome hv).mono hids }

end Step

end NameResolution
