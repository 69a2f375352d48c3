import NameResolution.Proofs.Lockstep
import NameResolution.Proofs.RelabelledSessions

/-!
# NameResolution.Proofs.RelabelledActions

**Actions under a relabelling.** `Resolution.Carried ρ f` compares an action with the same
action on relabelled data: from a relabelled session it leaves the relabelled session behind
and answers with the image under `f` of what the first one answers. Where the answer holds no
identities, both answer alike (`Resolution.SameAnswer`).

This module has the few actions of `NameResolution.Session` and everything that a step along a
path does apart from resolving generic arguments.
-/

namespace NameResolution

open Resolution

/-- The second session is the first one under a relabelling. -/
def Session.IsRelabelled (ρ : Relabelling) (s s' : Session) : Prop := s' = s.relabel ρ

namespace Resolution

/-- On a relabelled session, the second action does what the first one does, and answers with the
image of its answer. -/
abbrev Carried {α α' : Type} (ρ : Relabelling) (f : α → α') (act : Resolution α)
    (act' : Resolution α') : Prop :=
  InStep (Session.IsRelabelled ρ) (fun a a' => f a = a') act act'

/-- On a relabelled session, the second action does what the first one does, and answers alike. -/
abbrev SameAnswer {α : Type} (ρ : Relabelling) (act act' : Resolution α) : Prop :=
  InStep (Session.IsRelabelled ρ) Eq act act'

section Composition

variable {ρ : Relabelling} {α α' β β' : Type} {A : β → β' → Prop} {f : α → α'}
  {act : Resolution α} {act' : Resolution α'}

theorem Carried.andThen {next : α → Resolution β} {next' : α' → Resolution β'}
    (h : Carried ρ f act act')
    (hnext : ∀ a, InStep (Session.IsRelabelled ρ) A (next a) (next' (f a))) :
    InStep (Session.IsRelabelled ρ) A (act >>= next) (act' >>= next') := by
  refine h.bind fun a a' ha => ?_
  subst ha
  exact hnext a

theorem InStep.relabelled {next : Session → Resolution β} {next' : Session → Resolution β'}
    (h : ∀ s, InStep (Session.IsRelabelled ρ) A (next s) (next' (s.relabel ρ))) :
    InStep (Session.IsRelabelled ρ) A (get >>= next) (get >>= next') := by
  refine .withSession fun s s' hs => ?_
  subst hs
  exact h s

/-- Actions that look at the session they have reached and answer from it. -/
theorem Carried.ofSession {r : Session → Except Violation α} {r' : Session → Except Violation α'}
    (h : ∀ s a, r s = .ok a → r' (s.relabel ρ) = .ok (f a)) :
    Carried ρ f (get >>= fun s => ofExcept (r s)) (get >>= fun s => ofExcept (r' s)) := by
  refine .relabelled fun s => .ofExcept fun a a' ha ha' => ?_
  rw [h s a ha] at ha'
  exact Except.ok.inj ha'

end Composition

end Resolution

/-! ### Bookkeeping -/

namespace Relabelling

variable {ρ : Relabelling} {α α' : Type} {A : α → α' → Prop} {act : Resolution α}
  {act' : Resolution α'}

theorem report (e : ResolveError) : SameAnswer ρ (report e) (report e) := by
  intro s s' s₁ s₁' a a' hs hrun hrun'
  obtain ⟨-, rfl⟩ := hrun.eq (runs_report e s)
  obtain ⟨-, rfl⟩ := hrun'.eq (runs_report e s')
  subst hs
  exact ⟨rfl, rfl⟩

theorem stopWith (e : ResolveError) (f : α → α') :
    Carried ρ (Option.map f) (stopWith e) (NameResolution.stopWith e) :=
  (report e).bind_eq fun _ => .pure rfl

theorem updateTables {f f' : Tables → Tables}
    (h : ∀ t : Tables, f' (t.relabel ρ) = (f t).relabel ρ) :
    SameAnswer ρ (updateTables f) (Resolution.updateTables f') := by
  refine .updateTables fun s s' hs => ?_
  subst hs
  exact congrArg (s.relabel ρ).withTables (h s.tables)

theorem record (space : Namespace) (use decl : NodeId) :
    SameAnswer ρ (Resolution.updateTables (·.setResolved space use decl))
      (Resolution.updateTables (·.setResolved space (ρ.node use) (ρ.node decl))) :=
  updateTables fun _ => by cases space <;> rfl

theorem currentModule : Carried ρ ρ.node currentModule Resolution.currentModule := by
  refine .ofSession fun s here h => ?_
  have hhead : (s.relabel ρ).modules.opened.head? = s.modules.opened.head?.map ρ.node :=
    List.head?_map
  unfold ModuleStack.current at h ⊢
  rw [hhead]
  cases hopened : s.modules.opened.head? <;> rw [hopened] at h <;> cases h
  rfl

theorem rootModule : Carried ρ ρ.node rootModule Resolution.rootModule := by
  refine .ofSession fun s here h => ?_
  have hlast : (s.relabel ρ).modules.opened.getLast? = s.modules.opened.getLast?.map ρ.node :=
    List.getLast?_map
  unfold ModuleStack.root at h ⊢
  rw [hlast]
  cases hopened : s.modules.opened.getLast? <;> rw [hopened] at h <;> cases h
  rfl

theorem withScope_relabel (s : Session) (space : Namespace) (sc : Scope) :
    (s.relabel ρ).withScope space (sc.relabel ρ) = (s.withScope space sc).relabel ρ := by
  cases space <;> rfl

variable (hρ : Function.Injective ρ.node)

include hρ

theorem setPath (id : NodeId) (path : CanonicalPath) :
    SameAnswer ρ (setPath id path) (Resolution.setPath (ρ.node id) (path.relabel ρ)) := by
  intro s s' s₁ s₁' u u' hs hrun hrun'
  subst hs
  have hpath : (s.relabel ρ).tables.paths.get? (ρ.node id) =
      (s.tables.paths.get? id).map (CanonicalPath.relabel ρ) := s.tables.get?_paths_relabel hρ id
  rcases hrun.setPath_inv with ⟨hnone, rfl⟩ | ⟨hsome, rfl⟩ <;>
    rcases hrun'.setPath_inv with ⟨hnone', rfl⟩ | ⟨hsome', rfl⟩
  · exact ⟨rfl, rfl⟩
  · rw [hpath, hnone] at hsome'
    cases hsome'
  · rw [hpath, Option.map_eq_none_iff] at hnone'
    rw [hnone'] at hsome
    cases hsome
  · exact ⟨rfl, rfl⟩

/-- A binding is made in both runs or refused in both, and refused with the same complaint. -/
theorem makeBinding (space : Namespace) (b : Binding) (shadow : Bool)
    {complaint : Binding → Binding → ResolveError}
    (hcomplaint : ∀ b earlier : Binding,
      complaint (b.relabel ρ) (earlier.relabel ρ) = complaint b earlier) :
    SameAnswer ρ (makeBinding space b shadow complaint)
      (Resolution.makeBinding space (b.relabel ρ) shadow complaint) := by
  intro s s' s₁ s₁' made made' hs hrun hrun'
  subst hs
  have hinsert := (s.scope space).insert_relabel hρ b shadow
  rw [← Session.scope_relabel] at hinsert
  rcases hrun.makeBinding_inv with ⟨owner, hadded, rfl, rfl⟩ | ⟨earlier, hduplicate, rfl, rfl⟩
  · rw [hadded] at hinsert
    rcases hrun'.makeBinding_inv with ⟨owner', hadded', rfl, rfl⟩ | ⟨earlier', hduplicate', -⟩
    · have hscope : ((s.relabel ρ).scope space).bindIn owner' (b.relabel ρ) =
          ((s.scope space).bindIn owner b).relabel ρ :=
        Insertion.added.inj (Except.ok.inj (hadded'.symm.trans hinsert))
      refine ⟨?_, rfl⟩
      unfold Session.IsRelabelled Session.withBinding
      rw [hscope, withScope_relabel]
    · exact nomatch hduplicate'.symm.trans hinsert
  · rw [hduplicate] at hinsert
    rcases hrun'.makeBinding_inv with ⟨owner', hadded', -⟩ | ⟨earlier', hduplicate', rfl, rfl⟩
    · exact nomatch hadded'.symm.trans hinsert
    · have hearlier : earlier' = earlier.relabel ρ :=
        Insertion.duplicate.inj (Except.ok.inj (hduplicate'.symm.trans hinsert))
      rw [hearlier, hcomplaint]
      exact ⟨rfl, rfl⟩

theorem bindNew (space : Namespace) (b : Binding) :
    SameAnswer ρ (bindNew space b) (Resolution.bindNew space (b.relabel ρ)) :=
  makeBinding hρ space b false fun b earlier => by
    simp only [redefinition, Binding.relabel, CanonicalPath.text_relabel]

/-! ### Frames and modules -/

theorem inFrame (owner : NodeId) (h : InStep (Session.IsRelabelled ρ) A act act') :
    InStep (Session.IsRelabelled ρ) A (inFrame owner act)
      (Resolution.inFrame (ρ.node owner) act') := by
  refine h.between (fun s s' hs => ?_) fun s s' hs => ?_
  · subst hs
    simp only [Session.IsRelabelled, Session.openFrame, Session.relabel, Scope.push_relabel hρ]
  · subst hs
    rw [Session.snd_closeFrame, Session.snd_closeFrame]
    simp only [Session.IsRelabelled, Session.withoutFrame, Session.relabel, Scope.relabel,
      List.map_tail]

theorem inModule (module : NodeId) (h : InStep (Session.IsRelabelled ρ) A act act') :
    InStep (Session.IsRelabelled ρ) A (inModule module act)
      (Resolution.inModule (ρ.node module) act') := by
  refine h.between (fun s s' hs => ?_) fun s s' hs => ?_
  · subst hs
    simp only [Session.IsRelabelled, Session.openModule, Session.openFrame, Session.relabel,
      Scope.push_relabel hρ, ModuleStack.push, ModuleStack.relabel, List.map_cons]
  · subst hs
    rw [Session.snd_closeModule, Session.snd_closeModule]
    simp only [Session.IsRelabelled, Session.withoutModule, Session.withoutFrame, Session.relabel,
      Scope.relabel, ModuleStack.relabel, List.map_tail]

theorem inCrate (h : InStep (Session.IsRelabelled ρ) A act act') :
    InStep (Session.IsRelabelled ρ) A (inCrate act) (Resolution.inCrate act') :=
  .relabelled fun s => inFrame hρ s.builtins.prelude (inModule hρ s.root h)

/-! ### One step along a path -/

/-- Whether a use is kept for the privacy check depends on whether the declaration has a visibility,
and not on which. -/
theorem bindSegment (node : Node) (name : String) (space : Namespace) (decl here : NodeId) :
    SameAnswer ρ (bindSegment node name space decl here)
      (Resolution.bindSegment (node.relabel ρ) name space (ρ.node decl) (ρ.node here)) := by
  refine updateTables fun t => ?_
  have hresolved : (t.relabel ρ).setResolved space (ρ.node node.id) (ρ.node decl) =
      (t.setResolved space node.id decl).relabel ρ := by cases space <;> rfl
  simp only [Node.id_relabel, Node.span_relabel, hresolved, Tables.get?_visibilities_relabel hρ]
  cases (t.setResolved space node.id decl).visibilities.get? decl with
  | none => rfl
  | some d =>
      simp only [Option.map_some, Tables.addUseSite, Tables.relabel, List.map_append,
        List.map_cons, List.map_nil]
      rfl

theorem recordPath (path decl : NodeId) :
    SameAnswer ρ (recordPath path decl)
      (NameResolution.recordPath (ρ.node path) (ρ.node decl)) := by
  refine .relabelled fun s => ?_
  rw [s.classify_relabel hρ]
  cases s.classify decl with
  | none => exact .throw _ _
  | some space => exact record space path decl

theorem pathOf (decl : NodeId) :
    Carried ρ (CanonicalPath.relabel ρ) (pathOf decl) (NameResolution.pathOf (ρ.node decl)) := by
  refine .relabelled fun s => ?_
  have hpath : (s.relabel ρ).tables.paths.get? (ρ.node decl) =
      (s.tables.paths.get? decl).map (CanonicalPath.relabel ρ) :=
    s.tables.get?_paths_relabel hρ decl
  rw [hpath]
  cases s.tables.paths.get? decl with
  | none => exact .throw _ _
  | some path => exact .pure rfl

variable (w : Walk) (pos : Position) (seg : PathSegment)

theorem bindTo (space : Namespace) (decl here : NodeId) :
    SameAnswer ρ (seg.bindTo space decl here)
      ((seg.relabel ρ).bindTo space (ρ.node decl) (ρ.node here)) := by
  unfold PathSegment.bindTo
  rw [PathSegment.node_relabel, PathSegment.ident_relabel]
  exact bindSegment hρ _ _ _ _ _

theorem enterModule (module : NodeId) :
    Carried ρ (Option.map (Position.relabel ρ)) (enterModule w seg module)
      (NameResolution.enterModule (w.relabel ρ) (seg.relabel ρ) (ρ.node module)) :=
  (bindTo hρ seg .name module w.here).bind_eq fun _ => .pure rfl

theorem enterDeclaration (space : Namespace) (decl : NodeId) :
    Carried ρ (Option.map (Position.relabel ρ)) (enterDeclaration w pos seg space decl)
      (NameResolution.enterDeclaration (w.relabel ρ) (pos.relabel ρ) (seg.relabel ρ) space
        (ρ.node decl)) := by
  refine (bindTo hρ seg space decl w.here).bind_eq fun _ => .relabelled fun s => ?_
  rw [s.advance_relabel hρ]
  exact .pure rfl

theorem unlessDeferred {step step' : Resolution (Option Position)}
    (h : Carried ρ (Option.map (Position.relabel ρ)) step step') :
    Carried ρ (Option.map (Position.relabel ρ)) (unlessDeferred pos step)
      (NameResolution.unlessDeferred (pos.relabel ρ) step') := by
  refine .relabelled fun s => ?_
  rw [s.isDeferred_relabel hρ]
  by_cases hdeferred : s.isDeferred pos
  · rw [if_pos hdeferred, if_pos hdeferred]
    exact .pure rfl
  · rw [if_neg hdeferred, if_neg hdeferred]
    exact h

omit hρ in
theorem notFound_relabel : (seg.relabel ρ).notFound = seg.notFound := by
  unfold PathSegment.notFound
  rw [PathSegment.text_relabel, PathSegment.node_relabel, Node.span_relabel]

omit hρ in
theorem unreadable_relabel : (seg.relabel ρ).unreadable = seg.unreadable := by
  unfold PathSegment.unreadable
  rw [PathSegment.text_relabel, PathSegment.node_relabel, Node.span_relabel]

omit hρ in
theorem isSome_reached : (pos.relabel ρ).reached.isSome = pos.reached.isSome := Option.isSome_map

theorem followFirst (module : NodeId) :
    Carried ρ (Option.map (Position.relabel ρ)) (followFirst w pos seg module)
      (NameResolution.followFirst (w.relabel ρ) (pos.relabel ρ) (seg.relabel ρ)
        (ρ.node module)) := by
  unfold NameResolution.followFirst
  rw [isSome_reached, notFound_relabel]
  by_cases hreached : pos.reached.isSome
  · rw [if_pos hreached, if_pos hreached]
    exact stopWith _ _
  · rw [if_neg hreached, if_neg hreached]
    exact enterModule hρ w seg module

theorem followSuper :
    Carried ρ (Option.map (Position.relabel ρ)) (followSuper w pos seg)
      (NameResolution.followSuper (w.relabel ρ) (pos.relabel ρ) (seg.relabel ρ)) := by
  refine .relabelled fun s => ?_
  have hroot : (pos.relabel ρ).scope = (w.relabel ρ).root ↔ pos.scope = w.root := hρ.eq_iff
  have hmodule : (s.relabel ρ).tables.isModule (pos.relabel ρ).scope =
      s.tables.isModule pos.scope := s.tables.isModule_relabel hρ pos.scope
  have hparent : (s.relabel ρ).parentModule? (w.relabel ρ).here (pos.relabel ρ).scope =
      (s.parentModule? w.here pos.scope).map ρ.node := s.parentModule?_relabel hρ w.here pos.scope
  simp only [hroot, hmodule, hparent, notFound_relabel, PathSegment.node_relabel,
    Node.span_relabel]
  split
  · exact stopWith _ _
  split
  · cases s.parentModule? w.here pos.scope with
    | none => exact stopWith _ _
    | some parent => exact enterModule hρ w seg parent
  · exact stopWith _ _

theorem followName (name : String) (isLast : Bool) :
    Carried ρ (Option.map (Position.relabel ρ)) (followName w pos seg name isLast)
      (NameResolution.followName (w.relabel ρ) (pos.relabel ρ) (seg.relabel ρ) name isLast) := by
  refine .relabelled fun s => ?_
  have hchild : (if (w.relabel ρ).single then none
      else (s.relabel ρ).pickChild? (w.relabel ρ).prefer isLast
        ((s.relabel ρ).tables.childrenNamed (pos.relabel ρ).scope name)) =
      (if w.single then none
        else s.pickChild? w.prefer isLast (s.tables.childrenNamed pos.scope name)).map ρ.node := by
    have hnamed : (s.relabel ρ).tables.childrenNamed (pos.relabel ρ).scope name =
        (s.tables.childrenNamed pos.scope name).map ρ.node :=
      s.tables.childrenNamed_relabel hρ pos.scope name
    rw [apply_ite (Option.map ρ.node), hnamed, s.pickChild?_relabel hρ]
    rfl
  have hlexical : (s.relabel ρ).findLexical? (w.relabel ρ).prefer
      (.single (seg.relabel ρ).node.id name) =
      (s.findLexical? w.prefer (.single seg.node.id name)).map (Prod.map id ρ.node) := by
    rw [PathSegment.node_relabel]
    exact s.findLexical?_relabel hρ w.prefer (.single seg.node.id name)
  simp only [hchild, hlexical, isSome_reached, notFound_relabel]
  generalize (if w.single = true then none
    else s.pickChild? w.prefer isLast (s.tables.childrenNamed pos.scope name)) = child
  cases child with
  | some child =>
      simp only [Option.map_some, s.classify_relabel hρ]
      cases s.classify child with
      | none => exact .throw _ _
      | some space => exact enterDeclaration hρ w pos seg space child
  | none =>
      simp only [Option.map_none]
      split
      · exact stopWith _ _
      · cases s.findLexical? w.prefer (.single seg.node.id name) with
        | none =>
            rw [PathSegment.node_relabel, Node.span_relabel]
            exact stopWith _ _
        | some found => exact enterDeclaration hρ w pos seg found.1 found.2

theorem receiver? (segments : List PathSegment) :
    Carried ρ (Option.map ρ.node) (receiver? w segments)
      (NameResolution.receiver? (w.relabel ρ) (relabelSegments ρ segments)) := by
  obtain ⟨here, root, prefer, single⟩ := w
  match segments, prefer with
  | [seg], .name =>
      unfold NameResolution.receiver?
      simp only [relabelSegments, Walk.relabel, PathSegment.ident_relabel]
      split
      · refine .relabelled fun s => ?_
        have hself : (s.relabel ρ).names.lookup? (.single (seg.relabel ρ).node.id "self") =
            (s.names.lookup? (.single seg.node.id "self")).map ρ.node := by
          rw [PathSegment.node_relabel]
          exact s.names.lookup?_relabel hρ (.single seg.node.id "self")
        rw [hself]
        cases s.names.lookup? (.single seg.node.id "self") with
        | none => exact .pure rfl
        | some receiver => exact (bindTo hρ seg .name receiver here).bind_eq fun _ => .pure rfl
      · exact .pure rfl
  | [seg], .type => exact .pure rfl
  | [], _ => exact .pure rfl
  | _ :: _ :: _, _ => exact .pure rfl

end Relabelling

end NameResolution
