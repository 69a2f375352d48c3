import Mathlib
import NameResolution.Proofs.DeclarationOrder
import NameResolution.Proofs.ParentPaths

/-!
# NameResolution.Proofs.PathEndings

**Every path ends in exactly one of three ways** (`Crate.paths_end`). It is resolved, and
so are all of its segments. Or it fails at a segment, and an error says why
(`PathSegment.Fails`). Or it is left to type checking, since the next segment would have to
be a member of something whose members the resolver does not know. In each case it is
settled what is on record for the path and its segments, and what is reported.

A step is first described by what it does with the segment at hand (`PathSegment.Turns`). The
steps are then put together along the path, in the direction in which it is followed
(`readSegments_courses`).
-/

namespace NameResolution

open Resolution

/-! ### Endings -/

/-- What a path comes to. -/
inductive Ending
  | resolved (decl : NodeId)
  /-- It fails at a segment, for a reason that is reported. -/
  | failed (seg : PathSegment) (e : ResolveError)
  /-- It is left to type checking. -/
  | left

/-- All of the segments are resolved. -/
def AllResolved (t : Tables) (segments : List PathSegment) : Prop :=
  ∀ seg ∈ segments, (t.resolved? seg.node.id).isSome

/-- None of the segments is resolved. -/
def NoneResolved (t : Tables) (segments : List PathSegment) : Prop :=
  ∀ seg ∈ segments, t.resolved? seg.node.id = none

/-- What segments lead to: the declaration that the last of them is resolved to. -/
def reachedBy (t : Tables) (segments : List PathSegment) : Option NodeId :=
  segments.getLast?.bind fun seg => t.resolved? seg.node.id

section Segments

variable (base : Session) (env : Env)

/-- Read the arguments that are looked at, which are those of plain names. -/
def PathSegment.readArgs (seg : PathSegment) : Reading Unit :=
  match seg.ident with
  | .ident _ => readGenericArgs base env seg.generics
  | .crate | .super | .selfModule | .malformed => pure ()

/-- What is reported about the arguments of a segment. -/
def PathSegment.argErrors (seg : PathSegment) : List ResolveError :=
  (seg.readArgs base env).findings.filterMap Finding.error?

/-- Why a path fails at a segment, and how that is reported. The segments before it have led to
`reached`; before the first one, nothing has been reached. -/
inductive PathSegment.Fails (prefer : Namespace) (reached : Option NodeId) (isLast : Bool)
    (seg : PathSegment) : ResolveError → Prop
  | malformed (hident : seg.ident = .malformed) :
      Fails prefer reached isLast seg (.segmentHasError seg.text seg.node.span)
  /-- The keywords `crate` and `self` only come first. -/
  | misplaced (hident : seg.ident = .crate ∨ seg.ident = .selfModule) {decl : NodeId}
      (hreached : reached = some decl) :
      Fails prefer reached isLast seg (.cannotFindPath seg.text seg.node.span)
  /-- There is no parent of an enum or a trait to go to. -/
  | notModule (hident : seg.ident = .super) {decl : NodeId} (hreached : reached = some decl)
      (hkind : base.tables.containers.get? decl = some .enum ∨
        base.tables.containers.get? decl = some .trait) :
      Fails prefer reached isLast seg (.cannotFindPath seg.text seg.node.span)
  /-- No module is around the crate root. -/
  | outermost (hident : seg.ident = .super) (hroot : reached.getD (env.here base) = base.root) :
      Fails prefer reached isLast seg (.superAtCrateScope seg.node.span)
  /-- Nothing around the path has the name of the first segment, and unless it is the only one, no
  child of the module has it either. -/
  | unknown {name : String} (hident : seg.ident = .ident name) (hfirst : reached = none)
      (hchild : isLast = false → base.tables.childrenNamed (env.here base) name = [])
      (hnone : env.resolve base prefer name = none) :
      Fails prefer reached isLast seg (.failedToResolvePath name seg.node.span)
  /-- What has been reached has no child of the name. -/
  | noMember {name : String} (hident : seg.ident = .ident name) {decl : NodeId}
      (hreached : reached = some decl) (hchild : base.tables.childrenNamed decl name = []) :
      Fails prefer reached isLast seg (.cannotFindPath seg.text seg.node.span)

/-- What has been reached is no module, enum or trait, so that type checking has to go on. -/
def LeavesOff (reached : Option NodeId) : Prop :=
  ∃ decl, reached = some decl ∧ base.tables.isContainer decl = false

/-- The ending of a path that is looked up in an environment, with what is on record in the end and
what is reported about the path, the arguments of its segments included. -/
inductive Path.Ends (t : Tables) (prefer : Namespace) (p : Path) : Ending → Prop
  | resolved {decl : NodeId} (hall : AllResolved t p.segments)
      (hlast : reachedBy t p.segments = some decl) (hpath : t.resolved? p.node.id = some decl)
      (herrors : p.errors base env prefer = p.segments.flatMap (·.argErrors base env)) :
      Ends t prefer p (.resolved decl)
  | failed {before after : List PathSegment} {seg : PathSegment} {e : ResolveError}
      (hsegments : p.segments = before ++ seg :: after) (hbefore : AllResolved t before)
      (hrest : NoneResolved t (seg :: after)) (hpath : t.resolved? p.node.id = none)
      (hgoes : seg.ident = .malformed ∨ ¬ LeavesOff base (reachedBy t before))
      (hfails : seg.Fails base env prefer (reachedBy t before) after.isEmpty e)
      (herrors : p.errors base env prefer =
        (before ++ [seg]).flatMap (·.argErrors base env) ++ [e]) :
      Ends t prefer p (.failed seg e)
  | empty (hsegments : p.segments = []) (hpath : t.resolved? p.node.id = none)
      (herrors : p.errors base env prefer = []) : Ends t prefer p .left
  | left {before after : List PathSegment} {seg : PathSegment}
      (hsegments : p.segments = before ++ seg :: after) (hbefore : AllResolved t before)
      (hrest : NoneResolved t (seg :: after)) (hpath : t.resolved? p.node.id = none)
      (hident : seg.ident ≠ .malformed) (hleaves : LeavesOff base (reachedBy t before))
      (herrors : p.errors base env prefer = before.flatMap (·.argErrors base env)) :
      Ends t prefer p .left

end Segments

/-! ### No path ends in two ways -/

section Unique

variable {base : Session} {env : Env} {t : Tables} {prefer : Namespace} {p : Path}

/-- Where the segments that are resolved come to an end is settled by what is on record. -/
theorem AllResolved.cut_eq {before before' after after' : List PathSegment} {seg seg' : PathSegment}
    (hbefore : AllResolved t before) (hseg : t.resolved? seg.node.id = none)
    (hbefore' : AllResolved t before') (hseg' : t.resolved? seg'.node.id = none)
    (h : before ++ seg :: after = before' ++ seg' :: after') :
    before = before' ∧ seg = seg' ∧ after = after' := by
  have htake {before after : List PathSegment} {seg : PathSegment} (hbefore : AllResolved t before)
      (hseg : t.resolved? seg.node.id = none) :
      (before ++ seg :: after).takeWhile (fun s => (t.resolved? s.node.id).isSome) = before := by
    rw [List.takeWhile_append_of_pos hbefore, List.takeWhile_cons_of_neg, List.append_nil]
    rw [hseg]
    exact Bool.false_ne_true
  obtain rfl : before = before' := by rw [← htake hbefore hseg, h, htake hbefore' hseg']
  exact ⟨rfl, List.cons.inj (List.append_cancel_left h)⟩

namespace Path.Ends

variable {a b : Ending}

/-- A path that is resolved ends so. -/
theorem eq_resolved {decl : NodeId} (h : p.Ends base env t prefer a)
    (hpath : t.resolved? p.node.id = some decl) : a = .resolved decl := by
  cases h with
  | resolved _ _ hpath' _ => rw [hpath] at hpath'; cases hpath'; rfl
  | failed _ _ _ hpath' _ _ _ | empty _ hpath' _ | left _ _ _ hpath' _ _ _ =>
      rw [hpath] at hpath'
      cases hpath'

/-- A path without segments is left. -/
theorem eq_left_of_empty (h : p.Ends base env t prefer a) (hsegments : p.segments = []) :
    a = .left := by
  cases h with
  | resolved _ hlast _ _ => rw [hsegments] at hlast; cases hlast
  | failed hsegments' _ _ _ _ _ _ => rw [hsegments] at hsegments'; simp at hsegments'
  | empty _ _ _ | left _ _ _ _ _ _ _ => rfl

/-- At the first segment that is not resolved, a path either fails, or is left because of what has
been reached. -/
theorem at_unresolved {before after : List PathSegment} {seg : PathSegment}
    (h : p.Ends base env t prefer a) (hsegments : p.segments = before ++ seg :: after)
    (hbefore : AllResolved t before) (hseg : t.resolved? seg.node.id = none) :
    (a = .left ∧ seg.ident ≠ .malformed ∧ LeavesOff base (reachedBy t before)) ∨
      ∃ e, a = .failed seg e ∧ (seg.ident = .malformed ∨ ¬ LeavesOff base (reachedBy t before)) ∧
        seg.Fails base env prefer (reachedBy t before) after.isEmpty e ∧
        p.errors base env prefer = (before ++ [seg]).flatMap (·.argErrors base env) ++ [e] := by
  cases h with
  | resolved hall _ _ _ =>
      have hsome := hall seg (hsegments ▸ List.mem_append_right _ List.mem_cons_self)
      rw [hseg] at hsome
      cases hsome
  | failed hsegments' hbefore' hrest' _ hgoes hfails herrors =>
      obtain ⟨rfl, rfl, rfl⟩ := hbefore.cut_eq hseg hbefore' (hrest' _ List.mem_cons_self)
        (hsegments.symm.trans hsegments')
      exact .inr ⟨_, rfl, hgoes, hfails, herrors⟩
  | empty hsegments' _ _ => rw [hsegments] at hsegments'; simp at hsegments'
  | left hsegments' hbefore' hrest' _ hident hleaves _ =>
      obtain ⟨rfl, rfl, rfl⟩ := hbefore.cut_eq hseg hbefore' (hrest' _ List.mem_cons_self)
        (hsegments.symm.trans hsegments')
      exact .inl ⟨rfl, hident, hleaves⟩

theorem unique (ha : p.Ends base env t prefer a) (hb : p.Ends base env t prefer b) : a = b := by
  cases ha with
  | resolved _ _ hpath _ => exact (hb.eq_resolved hpath).symm
  | empty hsegments _ _ => exact (hb.eq_left_of_empty hsegments).symm
  | failed hsegments hbefore hrest _ hgoes _ herrors =>
      rcases hb.at_unresolved hsegments hbefore (hrest _ List.mem_cons_self) with
        ⟨-, hident, hleaves⟩ | ⟨e, rfl, -, -, herrors'⟩
      · rcases hgoes with hgoes | hgoes
        · exact absurd hgoes hident
        · exact absurd hleaves hgoes
      · rw [herrors] at herrors'
        cases List.append_cancel_left herrors'
        rfl
  | left hsegments hbefore hrest _ hident hleaves _ =>
      rcases hb.at_unresolved hsegments hbefore (hrest _ List.mem_cons_self) with
        ⟨rfl, -⟩ | ⟨e, -, hgoes, -⟩
      · rfl
      · rcases hgoes with hgoes | hgoes
        · exact absurd hgoes hident
        · exact absurd hleaves hgoes

end Path.Ends

end Unique

/-! ### One step -/

/-- The modules that are known all have a parent, except for the crate root. -/
def Env.KnowsParents (base : Session) (env : Env) : Prop :=
  ∀ m, base.tables.isModule m = true → m ≠ base.root → env.parentModule? base m ≠ none

/-- What a path does at a segment, once it has come to some spot. -/
inductive PathSegment.Turns (base : Session) (env : Env) (prefer : Namespace) (spot : Spot)
    (isLast : Bool) (seg : PathSegment) : Reading (Option Spot) → Prop
  | leaves (hident : seg.ident ≠ .malformed) (hdeferred : spot.isDeferred base = true) :
      Turns base env prefer spot isLast seg (pure none)
  | goesOn (space : Namespace) (m : Meaning) (scope : NodeId)
      (hscope : base.tables.isContainer m.decl = true → scope = m.decl) :
      Turns base env prefer spot isLast seg (seg.readArgs base env >>= fun _ =>
        ⟨some ⟨scope, some m⟩, [.segment space seg.node seg.ident.text m.decl (env.here base)]⟩)
  | fails {e : ResolveError} (hgoes : seg.ident = .malformed ∨ spot.isDeferred base = false)
      (hfails : seg.Fails base env prefer (spot.reached.map Meaning.decl) isLast e) :
      Turns base env prefer spot isLast seg (seg.readArgs base env >>= fun _ => .stopWith e)

/-- The spot is where a path goes on from, if it does: the module around it to begin with, and then
what it has reached. -/
def Spot.Grounded (base : Session) (env : Env) (spot : Spot) : Prop :=
  spot.isDeferred base = false →
    spot.scope = (spot.reached.map Meaning.decl).getD (env.here base)

section Steps

variable {base : Session} {env : Env} {prefer : Namespace} {spot : Spot} {isLast : Bool}
  {seg : PathSegment}

theorem Session.pickChild?_eq_none {isLast : Bool} {candidates : List NodeId}
    (h : base.pickChild? prefer isLast candidates = none) : candidates = [] := by
  obtain ⟨-, hhead⟩ := Option.or_eq_none_iff.mp h
  exact List.head?_eq_none_iff.mp hhead

/-- The arguments of a keyword are not looked at. -/
theorem PathSegment.Turns.keyword {r : Reading (Option Spot)}
    (hident : ∀ name, seg.ident ≠ .ident name)
    (h : seg.Turns base env prefer spot isLast (seg.readArgs base env >>= fun _ => r)) :
    seg.Turns base env prefer spot isLast r := by
  have hargs : seg.readArgs base env = pure () := by
    unfold PathSegment.readArgs
    split
    · next name hname => exact absurd hname (hident name)
    all_goals rfl
  rwa [hargs] at h

theorem turns_readModule (hident : ∀ name, seg.ident ≠ .ident name) (module : NodeId) :
    seg.Turns base env prefer spot isLast (readModule base env seg module) :=
  .keyword hident (.goesOn .name (base.meaning module) module fun _ => rfl)

theorem turns_readFirst (hident : seg.ident = .crate ∨ seg.ident = .selfModule)
    (hopen : spot.isDeferred base = false) (module : NodeId) :
    seg.Turns base env prefer spot isLast (readFirst base env spot seg module) := by
  have hkeyword (name : String) : seg.ident ≠ .ident name := by
    rcases hident with h | h <;> simp [h]
  obtain ⟨scope, reached⟩ := spot
  cases reached with
  | none => exact turns_readModule hkeyword module
  | some m => exact .keyword hkeyword (.fails (.inr hopen) (.misplaced hident rfl))

theorem turns_readSuper (hident : seg.ident = .super) (hopen : spot.isDeferred base = false)
    (hspot : spot.Grounded base env) (hhere : base.tables.isModule (env.here base) = true)
    (hparents : env.KnowsParents base) :
    seg.Turns base env prefer spot isLast (readSuper base env spot seg) := by
  have hkeyword (name : String) : seg.ident ≠ .ident name := by simp [hident]
  have hscope := hspot hopen
  unfold readSuper
  split
  · next hroot =>
    exact .keyword hkeyword (.fails (.inr hopen) (.outermost hident (hscope.symm.trans hroot)))
  next hroot =>
  split
  · next hmodule =>
    split
    · next hparent => exact absurd hparent (hparents _ hmodule hroot)
    · exact turns_readModule hkeyword _
  next hmodule =>
  -- What is reached has children but is no module.
  obtain ⟨scope, reached⟩ := spot
  cases reached with
  | none =>
      obtain rfl : scope = env.here base := hscope
      exact absurd hhere hmodule
  | some m =>
      obtain rfl : scope = m.decl := hscope
      have hcontainer : base.tables.isContainer m.decl = true := by
        simpa [Spot.isDeferred] using hopen
      refine .keyword hkeyword (.fails (.inr hopen) (.notModule hident rfl ?_))
      obtain ⟨kind, hkind⟩ := Option.isSome_iff_exists.mp hcontainer
      cases kind with
      | module => simp [Tables.isModule, hkind] at hmodule
      | enum => exact .inl hkind
      | trait => exact .inr hkind

theorem turns_readName (prefer : Namespace) (isLast : Bool) {name : String}
    (hident : seg.ident = .ident name) (hopen : spot.isDeferred base = false)
    (hspot : spot.Grounded base env) :
    seg.Turns base env prefer spot isLast (seg.readArgs base env >>= fun _ =>
      readName base env prefer (spot.reached.isNone && isLast) spot seg name isLast) := by
  obtain ⟨scope, reached⟩ := spot
  have hscope := hspot hopen
  unfold readName
  dsimp only
  split
  · exact .goesOn _ _ _ fun hcontainer => if_pos hcontainer
  next hchild =>
  cases reached with
  | some m =>
      obtain rfl : scope = m.decl := hscope
      exact .fails (.inr hopen) (.noMember hident rfl (Session.pickChild?_eq_none hchild))
  | none =>
      obtain rfl : scope = env.here base := hscope
      cases hresolve : env.resolve base prefer name with
      | some found => exact .goesOn _ _ _ fun hcontainer => if_pos hcontainer
      | none =>
          refine .fails (.inr hopen) (.unknown hident rfl (fun hlast => ?_) hresolve)
          subst hlast
          exact Session.pickChild?_eq_none hchild

/-- A path goes on at a segment, or fails for one of the reasons that there are, or is left. -/
theorem PathSegment.turns (seg : PathSegment) (hspot : spot.Grounded base env)
    (hhere : base.tables.isModule (env.here base) = true) (hparents : env.KnowsParents base) :
    seg.Turns base env prefer spot isLast
      (seg.read base env prefer (spot.reached.isNone && isLast) spot isLast) := by
  obtain ⟨node, ident, generics⟩ := seg
  unfold PathSegment.read
  cases ident with
  | malformed => exact .keyword (by simp) (.fails (.inl rfl) (.malformed rfl))
  | crate =>
      dsimp only
      split
      · exact .leaves (by simp) ‹_›
      · exact turns_readFirst (.inl rfl) (eq_false_of_ne_true ‹_›) _
  | selfModule =>
      dsimp only
      split
      · exact .leaves (by simp) ‹_›
      · exact turns_readFirst (.inr rfl) (eq_false_of_ne_true ‹_›) _
  | super =>
      dsimp only
      split
      · exact .leaves (by simp) ‹_›
      · exact turns_readSuper rfl (eq_false_of_ne_true ‹_›) hspot hhere hparents
  | ident name =>
      dsimp only
      split
      · exact .leaves (by simp) ‹_›
      · have hname {seg : PathSegment} (hident : seg.ident = .ident name) :=
          turns_readName prefer isLast hident (eq_false_of_ne_true ‹_›) hspot
        cases generics <;> exact hname rfl

end Steps

/-! ### Whole paths -/

/-- What is entered is on record in the end. -/
def OnRecord (t : Tables) (findings : List Finding) : Prop :=
  ∀ f ∈ findings, ∀ id decl, f.entry? = some (id, decl) → t.resolved? id = some decl

/-- Why a path does not get past a segment, and what is reported there. -/
inductive PathSegment.Stops (base : Session) (env : Env) (prefer : Namespace)
    (reached : Option NodeId) (isLast : Bool) (seg : PathSegment) : List ResolveError → Prop
  | fails {e : ResolveError} (hgoes : seg.ident = .malformed ∨ ¬ LeavesOff base reached)
      (hfails : seg.Fails base env prefer reached isLast e) :
      Stops base env prefer reached isLast seg (seg.argErrors base env ++ [e])
  | leaves (hident : seg.ident ≠ .malformed) (hleaves : LeavesOff base reached) :
      Stops base env prefer reached isLast seg []

/-- What following the rest of a path comes to, once the segments `before` have been followed. -/
inductive Courses (base : Session) (env : Env) (t : Tables) (prefer : Namespace)
    (before segments : List PathSegment) (r : Reading (Option Meaning)) : Prop
  | arrives {m : Meaning} (hvalue : r.value = some m) (hall : AllResolved t segments)
      (hlast : reachedBy t (before ++ segments) = some m.decl)
      (herrors : r.findings.filterMap Finding.error? = segments.flatMap (·.argErrors base env))
  | stops {passed after : List PathSegment} {seg : PathSegment} {own : List ResolveError}
      (hvalue : r.value = none) (hsegments : segments = passed ++ seg :: after)
      (hpassed : AllResolved t passed)
      (huses : usesOf r.findings ⊆ segmentsNodeIds passed ++ seg.nodeIds.tail)
      (hstops : seg.Stops base env prefer (reachedBy t (before ++ passed)) after.isEmpty own)
      (herrors : r.findings.filterMap Finding.error? =
        passed.flatMap (·.argErrors base env) ++ own)
  | nothing (hvalue : r.value = none) (hbefore : before = []) (hsegments : segments = [])
      (hfindings : r.findings = [])

/-- The spot that a path has come to along segments is where they lead. -/
structure Spot.Comes (base : Session) (env : Env) (t : Tables) (spot : Spot)
    (before : List PathSegment) : Prop where
  grounded : spot.Grounded base env
  reached : spot.reached.map Meaning.decl = reachedBy t before
  first : spot.reached = none ↔ before = []

/-- Only nodes of its arguments are entered while the arguments of a segment are read. -/
def ArgsApart (base : Session) (env : Env) (seg : PathSegment) : Prop :=
  usesOf (seg.readArgs base env).findings ⊆ seg.nodeIds.tail

@[simp] theorem reachedBy_append_singleton (t : Tables) (before : List PathSegment)
    (seg : PathSegment) : reachedBy t (before ++ [seg]) = t.resolved? seg.node.id := by
  simp [reachedBy]

section Courses

variable {base : Session} {env : Env} {t : Tables} {prefer : Namespace} {spot : Spot}
  {seg : PathSegment} {before rest : List PathSegment}

namespace Spot.Comes

theorem start (base : Session) (env : Env) (t : Tables) :
    Spot.Comes base env t ⟨env.here base, none⟩ [] :=
  ⟨fun _ => rfl, rfl, by simp⟩

theorem goOn {m : Meaning} {scope : NodeId} (before : List PathSegment)
    (hscope : base.tables.isContainer m.decl = true → scope = m.decl)
    (hseg : t.resolved? seg.node.id = some m.decl) :
    Spot.Comes base env t ⟨scope, some m⟩ (before ++ [seg]) where
  grounded hopen := hscope (by simpa [Spot.isDeferred] using hopen)
  reached := by rw [reachedBy_append_singleton, hseg]; rfl
  first := by simp

/-- A path is left where what has been reached has no children. -/
theorem leavesOff_iff (h : spot.Comes base env t before) :
    LeavesOff base (reachedBy t before) ↔ spot.isDeferred base = true := by
  unfold LeavesOff
  rw [← h.reached]
  cases hreached : spot.reached <;> simp [Spot.isDeferred, hreached]

/-- A segment is the only one if it is the first one and the last one. -/
theorem single_eq (h : spot.Comes base env t before) (seg : PathSegment) :
    ((before ++ seg :: rest).length == 1) = (spot.reached.isNone && rest.isEmpty) := by
  have hfirst := h.first
  cases before with
  | nil =>
      rw [hfirst.mpr rfl]
      cases rest <;> simp
  | cons first before =>
      obtain ⟨m, hm⟩ := Option.ne_none_iff_exists'.mp (hfirst.not.mpr (List.cons_ne_nil _ _))
      rw [hm]
      simp

end Spot.Comes

/-- What the rest of a path comes to, it comes to after one more segment has been followed. -/
theorem Courses.cons {r r' : Reading (Option Meaning)} {space : Namespace} {name : String}
    {decl here : NodeId} (hargs : ArgsApart base env seg)
    (hseg : t.resolved? seg.node.id = some decl)
    (h : Courses base env t prefer (before ++ [seg]) rest r) (hvalue : r'.value = r.value)
    (hfindings : r'.findings = (seg.readArgs base env).findings ++
      .segment space seg.node name decl here :: r.findings) :
    Courses base env t prefer before (seg :: rest) r' := by
  have herrors' : r'.findings.filterMap Finding.error? =
      seg.argErrors base env ++ r.findings.filterMap Finding.error? := by
    rw [hfindings, List.filterMap_append]
    rfl
  have hseg' : (t.resolved? seg.node.id).isSome := hseg ▸ rfl
  have hmid (l : List PathSegment) : before ++ [seg] ++ l = before ++ (seg :: l) :=
    (List.append_cons _ _ _).symm
  cases h with
  | arrives hsome hall hlast herrors =>
      refine .arrives (hvalue.trans hsome) (List.forall_mem_cons.mpr ⟨hseg', hall⟩)
        (hmid rest ▸ hlast) ?_
      rw [herrors', herrors]
      rfl
  | @stops passed after stop own hnone hsegments hpassed huses hstops herrors =>
      have hsegments' : seg :: rest = (seg :: passed) ++ stop :: after :=
        congrArg (seg :: ·) hsegments
      refine .stops (hvalue.trans hnone) hsegments' (List.forall_mem_cons.mpr ⟨hseg', hpassed⟩) ?_
        (hmid passed ▸ hstops) ?_
      · have hfirst : usesOf r'.findings =
            usesOf (seg.readArgs base env).findings ++ seg.node.id :: usesOf r.findings := by
          rw [hfindings, usesOf_append]
          rfl
        have hids : segmentsNodeIds (seg :: passed) ++ stop.nodeIds.tail =
            seg.node.id :: (seg.nodeIds.tail ++ (segmentsNodeIds passed ++ stop.nodeIds.tail)) := by
          rw [segmentsNodeIds, nodeIds_eq_cons seg, List.append_assoc]
          rfl
        rw [hfirst, hids]
        refine List.append_subset.mpr ⟨?_, List.cons_subset_cons _ ?_⟩
        · exact List.Subset.trans hargs
            (List.subset_cons_of_subset _ (List.subset_append_left _ _))
        · exact List.Subset.trans huses (List.subset_append_right _ _)
      · rw [herrors', herrors, List.flatMap_cons, List.append_assoc]
  | nothing _ hbefore _ _ => simp at hbefore

/-- Following the rest of a path comes to one of these. -/
theorem readSegments_courses (hhere : base.tables.isModule (env.here base) = true)
    (hparents : env.KnowsParents base) {single : Bool} (segments : List PathSegment) {spot : Spot}
    {before : List PathSegment} (hspot : spot.Comes base env t before)
    (hargs : ∀ seg ∈ segments, ArgsApart base env seg)
    (hsingle : segments ≠ [] → single = ((before ++ segments).length == 1))
    (hrecord : OnRecord t (readSegments base env prefer single spot segments).findings) :
    Courses base env t prefer before segments
      (readSegments base env prefer single spot segments) := by
  induction segments generalizing spot before with
  | nil =>
      rw [readSegments]
      cases hreached : spot.reached with
      | none => exact .nothing rfl (hspot.first.mp hreached) rfl rfl
      | some m =>
          have hlast : reachedBy t (before ++ []) = some m.decl := by
            rw [List.append_nil, ← hspot.reached, hreached]
            rfl
          exact .arrives rfl (List.forall_mem_nil _) hlast rfl
  | cons seg rest ih =>
      obtain ⟨hseg, hrest⟩ := List.forall_mem_cons.mp hargs
      have hsingle' : single = (spot.reached.isNone && rest.isEmpty) :=
        (hsingle (List.cons_ne_nil _ _)).trans (hspot.single_eq seg)
      have hturns : seg.Turns base env prefer spot rest.isEmpty
          (seg.read base env prefer single spot rest.isEmpty) :=
        hsingle' ▸ seg.turns hspot.grounded hhere hparents
      rw [readSegments_cons] at hrecord ⊢
      generalize seg.read base env prefer single spot rest.isEmpty = turn at hturns hrecord ⊢
      cases hturns with
      | leaves hident hdeferred =>
          have hleaves := hspot.leavesOff_iff.mpr hdeferred
          rw [← List.append_nil before] at hleaves
          exact .stops rfl (List.nil_append _).symm (List.forall_mem_nil _) (List.nil_subset _)
            (.leaves hident hleaves) rfl
      | @fails e hgoes hfails =>
          have hstops : seg.Stops base env prefer (reachedBy t (before ++ [])) rest.isEmpty
              (seg.argErrors base env ++ [e]) := by
            rw [List.append_nil]
            refine .fails (hgoes.imp_right fun hopen hleaves => ?_) (hspot.reached ▸ hfails)
            rw [hspot.leavesOff_iff.mp hleaves] at hopen
            cases hopen
          refine .stops rfl (List.nil_append _).symm (List.forall_mem_nil _) ?_ hstops ?_
          · change usesOf ((seg.readArgs base env).findings ++ [.error e] ++ []) ⊆ seg.nodeIds.tail
            rw [List.append_nil, usesOf_append]
            exact List.append_subset.mpr ⟨hseg, List.nil_subset _⟩
          · simp [Reading.stopWith, readOnward, Finding.error?, PathSegment.argErrors]
      | goesOn space m scope hscope =>
          have hfindings : ((seg.readArgs base env >>= fun _ => (⟨some ⟨scope, some m⟩,
              [.segment space seg.node seg.ident.text m.decl (env.here base)]⟩ :
                Reading (Option Spot))) >>= readOnward base env prefer single rest).findings =
              (seg.readArgs base env).findings ++
                .segment space seg.node seg.ident.text m.decl (env.here base) ::
                  (readSegments base env prefer single ⟨scope, some m⟩ rest).findings :=
            List.append_assoc _ _ _
          rw [hfindings] at hrecord
          obtain ⟨-, hrecord⟩ := List.forall_mem_append.mp hrecord
          obtain ⟨hnoted, hrecord⟩ := List.forall_mem_cons.mp hrecord
          have hresolved : t.resolved? seg.node.id = some m.decl := hnoted _ _ rfl
          have hnext := ih (.goOn before hscope hresolved) hrest (fun _ => ?_) hrecord
          · exact .cons hseg hresolved hnext rfl hfindings
          · rw [hsingle (List.cons_ne_nil _ _), List.append_assoc]
            rfl

/-- A receiver is what the path and its only segment are resolved to. -/
theorem Path.read_of_receiver (node : Node) {segments : List PathSegment} {m : Meaning}
    (hreceiver : env.receiver? base prefer segments = some (seg, m)) :
    Path.read base env prefer ⟨node, segments⟩ =
      ⟨some m, [.segment .name seg.node seg.ident.text m.decl (env.here base),
        .resolved .name node.id m.decl, .visit ⟨node, segments⟩ prefer env (some m)]⟩ := by
  rw [Path.read, readWhole, hreceiver]
  rfl

/-- A path that is not a receiver is resolved last, if it stands for anything. -/
theorem Path.read_of_no_receiver (node : Node) {segments : List PathSegment}
    (hreceiver : env.receiver? base prefer segments = none) {r : Reading (Option Meaning)}
    (hr : readSegments base env prefer (segments.length == 1) ⟨env.here base, none⟩ segments = r) :
    (Path.read base env prefer ⟨node, segments⟩).value = r.value ∧
      (Path.read base env prefer ⟨node, segments⟩).findings = r.findings ++
        ((r.value.map fun m => Finding.resolved m.space node.id m.decl).toList ++
          [.visit ⟨node, segments⟩ prefer env r.value]) := by
  rw [Path.read, hr, readWhole, hreceiver]
  cases hvalue : r.value <;> simp [hvalue]

end Courses

/-- Whatever module a path has come to, its parent is known if it has one. -/
theorem Crate.knowsParents {c : Crate} (hwf : c.WellFormed) (settings : Settings) {env : Env}
    (hnests : env.Nests (c.registered settings)) : env.KnowsParents (c.registered settings) := by
  have hbase := c.firstPass hwf settings
  intro m hmodule hroot
  obtain ⟨up, hmodules⟩ := hnests.exists_here
  by_cases hhere : m = env.here (c.registered settings)
  · have hsuffix : m :: up <:+ env.modules := hmodules ▸ hhere ▸ List.suffix_refl _
    have hup : up ≠ [] := (hnests.eq_root_iff hsuffix).not.mp hroot
    obtain ⟨outer, up, rfl⟩ := List.exists_cons_of_ne_nil hup
    rw [hnests.parentModule?_eq hsuffix]
    exact Option.some_ne_none _
  · unfold Env.parentModule?
    rw [if_neg hhere]
    have hm : m ∈ itemsModuleIds c.items := by
      rcases List.mem_cons.mp (hbase.isModule_iff.mp hmodule) with rfl | hm
      · exact absurd hbase.root.symm hroot
      · exact hm
    obtain ⟨p, hp, rfl⟩ := List.mem_map.mp ((itemsNesting_keys c.node.id c.items).symm.subset hm)
    rw [c.parents_nesting hwf settings hp]
    exact Option.some_ne_none _

/-- The arguments of a segment are about nodes of their own. -/
theorem Ready.argsApart {base s : Session} {env : Env} {seg : PathSegment} (hbase : base.Settled)
    (h : Ready base env seg.nodeIds s) : ArgsApart base env seg := by
  obtain ⟨node, ident, generics⟩ := seg
  unfold ArgsApart PathSegment.readArgs
  split
  · cases generics with
    | none => exact List.nil_subset _
    | some args =>
        obtain ⟨_, _, -, -, -, -, hstep⟩ := args.agrees hbase h.tail
        exact hstep.uses.subset
  all_goals exact List.nil_subset _

namespace Crate

variable {c : Crate} {settings : Settings} {s : Session} {x : PlacedSite} {p : Path}
  {prefer : Namespace} {env : Env}

namespace SecondPass

variable (hwf : c.WellFormed) (hs : c.SecondPass (c.registered settings) s)
  (hlook : c.LooksUp settings x p prefer env)

include hwf hs hlook

/-- What is found out about a path that is looked up is on record in the end. -/
theorem onRecord : OnRecord s.tables (p.read (c.registered settings) env prefer).findings := by
  intro f hf id decl hentry
  exact hs.resolved?_of_found hwf (c.firstPass hwf settings) (hlook.findings_subset hwf hf) hentry

/-- Nothing is on record for the segments of a path from where it does not go on. -/
theorem noneResolved {before after : List PathSegment} {seg : PathSegment}
    (hsegments : p.segments = before ++ seg :: after)
    (huses : usesOf (p.read (c.registered settings) env prefer).findings ⊆
      segmentsNodeIds before ++ seg.nodeIds.tail) : NoneResolved s.tables (seg :: after) := by
  obtain ⟨outcome, hvisit⟩ := hlook.visit
  obtain ⟨s', hready⟩ := (hs.traced _ _ _ _ hvisit).ready
  obtain ⟨node, segments⟩ := p
  obtain rfl : segments = before ++ seg :: after := hsegments
  have hids : segmentsNodeIds (before ++ seg :: after) = segmentsNodeIds before ++
      (seg.node.id :: (seg.nodeIds.tail ++ segmentsNodeIds after)) := by
    rw [segmentsNodeIds_append, segmentsNodeIds, nodeIds_eq_cons seg]
    rfl
  have hnodup : (segmentsNodeIds (before ++ seg :: after)).Nodup :=
    (List.nodup_cons.mp hready.nodup).2
  intro later hlater
  have hown : later.node.id ∈ segmentsNodeIds (seg :: after) :=
    (map_id_sublist_segmentsNodeIds _).subset (List.mem_map_of_mem hlater)
  have hmem : later.node.id ∈ Path.nodeIds ⟨node, before ++ seg :: after⟩ := by
    refine List.mem_cons_of_mem _ ?_
    rw [segmentsNodeIds_append]
    exact List.mem_append_right _ hown
  refine hs.resolved?_of_not_found hwf (c.firstPass hwf settings) hvisit hmem fun huse => ?_
  rw [hids] at hnodup
  obtain ⟨-, hfrom, hdisjoint⟩ := List.nodup_append.mp hnodup
  rw [segmentsNodeIds, nodeIds_eq_cons seg] at hown
  rcases List.mem_append.mp (huses huse) with hin | hin
  · exact hdisjoint _ hin _ hown rfl
  · obtain ⟨hhead, hrest⟩ := List.nodup_cons.mp hfrom
    rcases List.mem_cons.mp hlater with rfl | hlater
    · exact hhead (List.mem_append_left _ hin)
    · have hafter := (map_id_sublist_segmentsNodeIds after).subset
        (List.mem_map_of_mem (f := (·.node.id)) hlater)
      exact (List.nodup_append.mp hrest).2.2 _ hin _ hafter rfl

/-- A receiver is resolved together with its only segment. -/
theorem ends_of_receiver {seg : PathSegment} {m : Meaning}
    (hreceiver : env.receiver? (c.registered settings) prefer p.segments = some (seg, m)) :
    p.Ends (c.registered settings) env s.tables prefer (.resolved m.decl) := by
  have hrecord := hs.onRecord hwf hlook
  have hpath := hs.resolved?_of_looksUp hwf hlook
  obtain ⟨node, segments⟩ := p
  have hread := Path.read_of_receiver node hreceiver
  obtain ⟨rfl, hself⟩ := env.receiver?_eq_some _ hreceiver
  rw [hread] at hrecord hpath
  have hseg : s.tables.resolved? seg.node.id = some m.decl := hrecord _ List.mem_cons_self _ _ rfl
  have hargs : seg.argErrors (c.registered settings) env = [] := by
    simp [PathSegment.argErrors, PathSegment.readArgs, hself]
  refine .resolved (List.forall_mem_singleton.mpr (hseg ▸ rfl)) hseg hpath ?_
  rw [Path.errors, hread, List.flatMap_singleton, hargs]
  rfl

/-- A path that is no receiver ends as following its segments does. -/
theorem exists_ends_of_no_receiver
    (hreceiver : env.receiver? (c.registered settings) prefer p.segments = none) :
    ∃ ending, p.Ends (c.registered settings) env s.tables prefer ending := by
  have hbase := c.firstPass hwf settings
  have hnests := hlook.nests hwf
  have hrecord := hs.onRecord hwf hlook
  have hpath := hs.resolved?_of_looksUp hwf hlook
  obtain ⟨_, _, s', -, hready, -⟩ := hlook.exists_ready hwf
  obtain ⟨node, segments⟩ := p
  generalize hr : readSegments (c.registered settings) env prefer (segments.length == 1)
    ⟨env.here (c.registered settings), none⟩ segments = r
  obtain ⟨hvalue, hfindings⟩ := Path.read_of_no_receiver node hreceiver hr
  have herrors : Path.errors (c.registered settings) env prefer ⟨node, segments⟩ =
      r.findings.filterMap Finding.error? := by
    rw [Path.errors, hfindings, List.filterMap_append]
    cases r.value <;> simp [Finding.error?]
  have hcourses : Courses (c.registered settings) env s.tables prefer [] segments r := by
    subst hr
    refine readSegments_courses (hready.stands.isModule_here) (c.knowsParents hwf settings hnests)
      segments (.start _ env s.tables) (fun seg hseg => ?_) (fun _ => rfl) ?_
    · exact (hready.tail.mono (nodeIds_sublist hseg).subperm).argsApart (hbase.settled hwf)
    · rw [hfindings] at hrecord
      exact (List.forall_mem_append.mp hrecord).1
  cases hcourses with
  | arrives hsome hall hlast herrors' =>
      rw [hvalue, hsome] at hpath
      exact ⟨_, .resolved hall hlast hpath (herrors.trans herrors')⟩
  | @stops before after seg own hnone hsegments hbefore huses hstops herrors' =>
      rw [hvalue, hnone] at hpath
      have huses' :
          usesOf (Path.read (c.registered settings) env prefer ⟨node, segments⟩).findings ⊆
            segmentsNodeIds before ++ seg.nodeIds.tail := by
        rw [hfindings, hnone, usesOf_append]
        exact List.append_subset.mpr ⟨huses, List.nil_subset _⟩
      have hrest := hs.noneResolved hwf hlook hsegments huses'
      cases hstops with
      | fails hgoes hfails =>
          refine ⟨_, .failed hsegments hbefore hrest hpath hgoes hfails ?_⟩
          rw [herrors, herrors', List.flatMap_append, List.flatMap_singleton, List.append_assoc]
      | leaves hident hleaves =>
          refine ⟨_, .left hsegments hbefore hrest hpath hident hleaves ?_⟩
          rw [herrors, herrors', List.append_nil]
  | nothing hnone _ hsegments hnil =>
      rw [hvalue, hnone] at hpath
      refine ⟨_, .empty hsegments hpath ?_⟩
      rw [herrors, hnil]
      rfl

/-- A path that is looked up ends in some way. -/
theorem exists_ends :
    ∃ ending, p.Ends (c.registered settings) env s.tables prefer ending := by
  cases hreceiver : env.receiver? (c.registered settings) prefer p.segments with
  | some found => exact ⟨_, hs.ends_of_receiver hwf hlook hreceiver⟩
  | none => exact hs.exists_ends_of_no_receiver hwf hlook hreceiver

end SecondPass

/-- **Every path ends in exactly one of three ways.** In a well-formed crate each path that is
looked up is resolved, or fails at a segment, or is left to type checking, and what is on record and
what is reported tells which. Resolving the path adds just that to the reports, from every session
in which its nodes are still to be worked on, and it is there in one piece in the end. Every path
that does not belong to another one is looked up. Only what is declared as a module, an enum or a
trait is a container, so that a path is not left where it has reached one. -/
theorem paths_end (hwf : c.WellFormed) (settings : Settings) :
    ∃ s, Runs (c.run settings) (.start c settings) () s ∧ c.resolve settings = .ok s.finish ∧
      (∀ x p prefer env, c.LooksUp settings x p prefer env →
        (∃! ending, p.Ends (c.registered settings) env s.tables prefer ending) ∧
          c.Reports settings s p prefer env ∧
          p.errors (c.registered settings) env prefer <:+: s.errors.reported) ∧
      (∀ x ∈ c.sites, ∀ p, x.site = .path p [] →
        ∃ prefer env, c.LooksUp settings x p prefer env) ∧
      ∀ id kind, (c.registered settings).tables.containers.get? id = some kind ↔
        id = c.node.id ∧ kind = .module ∨
          ∃ a ∈ c.attempts settings, a.id = id ∧ a.kind = some kind := by
  obtain ⟨s, s', hs, hrun, htables, -, -, hreported⟩ := c.exists_run hwf settings
  refine ⟨s', hrun, resolve_of_runs hrun, fun x p prefer env hlook => ⟨?_, ?_⟩,
    fun x hx p hsite => c.exists_looksUp_of_open settings hx hsite,
    fun id kind => (c.firstPass hwf settings).containers_iff⟩
  · obtain ⟨ending, h⟩ := hs.exists_ends hwf hlook
    exact ⟨ending, htables ▸ h, fun other hother => hother.unique (htables ▸ h)⟩
  · have h : c.Reports settings s' p prefer env :=
      hlook.reports hwf hs (hreported ▸ List.prefix_append _ _)
    exact ⟨h, h.reported⟩

/-- The path `crate::S`. -/
def pathToStruct : Path :=
  ⟨⟨⟨4⟩, ⟨19, 8⟩⟩, [⟨⟨⟨5⟩, ⟨19, 5⟩⟩, .crate, none⟩, ⟨⟨⟨6⟩, ⟨26, 1⟩⟩, .ident "S", none⟩]⟩

/-- The segment `Inner`. -/
def innerSegment : PathSegment := ⟨⟨⟨11⟩, ⟨41, 5⟩⟩, .ident "Inner", none⟩

/-- The path `S::Inner`. -/
def pathToInner : Path := ⟨⟨⟨9⟩, ⟨38, 8⟩⟩, [⟨⟨⟨10⟩, ⟨38, 1⟩⟩, .ident "S", none⟩, innerSegment]⟩

/-- The segment `Missing<U>`. -/
def missingSegment : PathSegment :=
  ⟨⟨⟨16⟩, ⟨64, 10⟩⟩, .ident "Missing", some ⟨[.path ⟨⟨18⟩, ⟨72, 1⟩⟩
    ⟨⟨⟨19⟩, ⟨72, 1⟩⟩, [⟨⟨⟨20⟩, ⟨72, 1⟩⟩, .ident "U", none⟩]⟩], ⟨71, 3⟩⟩⟩

/-- The path `crate::Missing<U>`. -/
def pathToMissing : Path := ⟨⟨⟨14⟩, ⟨57, 17⟩⟩, [⟨⟨⟨15⟩, ⟨57, 5⟩⟩, .crate, none⟩, missingSegment]⟩

/-- A struct `S`, and an alias for each of the three paths. -/
def withEndings : Crate where
  node := ⟨⟨0⟩, ⟨0, 75⟩⟩
  items :=
    let typeAlias (id offset : Nat) (name : String) (p : Path) : Item :=
      ⟨⟨⟨id⟩, ⟨offset, 8⟩⟩, .ownModule, .typeAlias ⟨⟨name, ⟨offset + 5, 1⟩⟩, .none,
        .path ⟨⟨id + 1⟩, p.node.span⟩ p⟩⟩
    [⟨⟨⟨1⟩, ⟨0, 9⟩⟩, .ownModule, .struct ⟨⟨"S", ⟨7, 1⟩⟩, .none, []⟩⟩,
      typeAlias 2 10 "A" pathToStruct, typeAlias 7 29 "B" pathToInner,
      typeAlias 12 48 "C" pathToMissing]
  idBound := ⟨21⟩

/-- The first path is resolved to the struct. The second one is left, as the struct may have an
associated item of the name. The third one fails after its argument has. -/
theorem paths_end_withEndings :
    withEndings.WellFormed ∧ ∃ s, Runs (withEndings.run {}) (.start withEndings {}) () s ∧
      (∃ prefer env, pathToStruct.Ends (withEndings.registered {}) env s.tables prefer
        (.resolved ⟨1⟩)) ∧
      (∃ prefer env, pathToInner.Ends (withEndings.registered {}) env s.tables prefer .left) ∧
      ∃ prefer env, pathToMissing.Ends (withEndings.registered {}) env s.tables prefer
        (.failed missingSegment (.cannotFindPath "Missing<U>" ⟨64, 10⟩)) := by
  have hwf : withEndings.WellFormed := by decide
  obtain ⟨s, hrun, hr, hpaths, hopen, -⟩ := paths_end hwf {}
  have hending {p : Path} (hsite : ⟨[⟨0⟩], .path p []⟩ ∈ withEndings.sites) :
      ∃ prefer env ending, p.Ends (withEndings.registered {}) env s.tables prefer ending := by
    obtain ⟨prefer, env, hlook⟩ := hopen _ hsite p rfl
    obtain ⟨ending, h, -⟩ := (hpaths _ _ _ _ hlook).1
    exact ⟨prefer, env, ending, h⟩
  obtain ⟨hpath, hfirst, hinner, hroot, hmissing⟩ :
      s.finish.tables.resolved? ⟨4⟩ = some ⟨1⟩ ∧ s.finish.tables.resolved? ⟨10⟩ = some ⟨1⟩ ∧
        s.finish.tables.resolved? ⟨11⟩ = none ∧ s.finish.tables.resolved? ⟨15⟩ = some ⟨0⟩ ∧
        s.finish.tables.resolved? ⟨16⟩ = none :=
    of_resolve hr (by decide +kernel)
  refine ⟨hwf, s, hrun, ?_, ?_, ?_⟩
  · obtain ⟨prefer, env, ending, h⟩ := hending (List.mem_of_getElem? (i := 2) rfl)
    exact ⟨prefer, env, h.eq_resolved hpath ▸ h⟩
  · obtain ⟨prefer, env, ending, h⟩ := hending (List.mem_of_getElem? (i := 5) rfl)
    let before : List PathSegment := [⟨⟨⟨10⟩, ⟨38, 1⟩⟩, .ident "S", none⟩]
    have hbefore : AllResolved s.tables before := List.forall_mem_singleton.mpr (hfirst ▸ rfl)
    have hleaves : LeavesOff (withEndings.registered {}) (reachedBy s.tables before) :=
      ⟨⟨1⟩, hfirst, by decide +kernel⟩
    have hsegments : pathToInner.segments = before ++ innerSegment :: [] := rfl
    rcases h.at_unresolved hsegments hbefore hinner with ⟨rfl, -⟩ | ⟨e, -, hident | hgoes, -⟩
    · exact ⟨prefer, env, h⟩
    · cases hident
    · exact absurd hleaves hgoes
  · obtain ⟨prefer, env, ending, h⟩ := hending (List.mem_of_getElem? (i := 10) rfl)
    let before : List PathSegment := [⟨⟨⟨15⟩, ⟨57, 5⟩⟩, .crate, none⟩]
    have hbefore : AllResolved s.tables before := List.forall_mem_singleton.mpr (hroot ▸ rfl)
    have hreached : reachedBy s.tables before = some ⟨0⟩ := hroot
    have hsegments : pathToMissing.segments = before ++ missingSegment :: [] := rfl
    rcases h.at_unresolved hsegments hbefore hmissing with ⟨-, -, hleaves⟩ | ⟨e, rfl, -, hfails, -⟩
    · have hroot' : (withEndings.registered {}).tables.isContainer ⟨0⟩ = true := by decide +kernel
      obtain ⟨decl, hdecl, hno⟩ := hleaves
      cases hreached.symm.trans hdecl
      rw [hroot'] at hno
      cases hno
    · cases hfails with
      | malformed hident | notModule hident | outermost hident => cases hident
      | misplaced hident => rcases hident with h | h <;> cases h
      | unknown _ hfirst => rw [hreached] at hfirst; cases hfirst
      | noMember _ _ _ => exact ⟨prefer, env, h⟩

end Crate

end NameResolution
