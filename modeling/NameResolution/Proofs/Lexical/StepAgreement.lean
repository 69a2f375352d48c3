import NameResolution.Proofs.Lexical.FrameRules

/-!
# NameResolution.Proofs.Lexical.StepAgreement

**Each step along a path agrees with its reading.** A position of the resolver is the
position of a spot (`Spot.position`), and what has been reached is known. Every keyword
and every plain name goes on to the same place in both, or stops with the same error.
-/

namespace NameResolution

open Resolution

variable {base s s' : Session} {env : Env} {ids : List NodeId}

/-- The position at a spot. -/
def Spot.position (spot : Spot) : Position := ⟨spot.scope, spot.reached.map Meaning.decl⟩

/-- The walk along a path that is read in an environment. -/
def Env.walk (base : Session) (env : Env) (prefer : Namespace) (single : Bool) : Walk :=
  ⟨env.here base, base.root, prefer, single⟩

/-- A step leads to the position of the spot that is read, and what it reaches is known. -/
def Reaches (a : Option Position) (v : Option Spot) (s : Session) : Prop :=
  a = v.map Spot.position ∧ ∀ spot ∈ v, ∀ m ∈ spot.reached, s.Knows m

/-- An answer names the declaration that is read, and that is known. -/
def Names (a : Option NodeId) (v : Option Meaning) (s : Session) : Prop :=
  a = v.map Meaning.decl ∧ ∀ m ∈ v, s.Knows m

namespace Stands

/-- The innermost module is one. -/
theorem isModule_here (h : Stands base env s) : base.tables.isModule (env.here base) = true := by
  cases hmodules : env.modules with
  | nil =>
      have hlast := h.outermost
      rw [hmodules] at hlast
      cases hlast
  | cons m outer =>
      unfold Env.here
      rw [hmodules]
      exact h.areModules m (by simp [hmodules])

theorem currentModule (h : Stands base env s) :
    Runs Resolution.currentModule s (env.here base) s := by
  refine runs_currentModule ?_
  rw [h.modules]
  cases hmodules : env.modules with
  | nil =>
      have hlast := h.outermost
      rw [hmodules] at hlast
      cases hlast
  | cons m outer =>
      unfold Env.here
      rw [hmodules]
      rfl

theorem rootModule (h : Stands base env s) : Runs Resolution.rootModule s base.root s := by
  refine runs_rootModule ?_
  rw [h.modules]
  exact h.outermost

theorem isDeferred (h : Stands base env s) (spot : Spot) :
    s.isDeferred spot.position = spot.isDeferred base := by
  unfold Session.isDeferred Spot.isDeferred Spot.position
  cases spot.reached with
  | none => rfl
  | some m => exact congrArg not (h.tables.isContainer m.decl)

theorem advance (h : Stands base env s) (spot : Spot) (m : Meaning) :
    s.advance spot.position m.decl = (spot.advance base m).position := by
  unfold Session.advance Spot.advance Spot.position
  rw [h.tables.isContainer]
  rfl

theorem parentModule? (h : Stands base env s) (module : NodeId) :
    s.parentModule? (env.here base) module = env.parentModule? base module := by
  unfold Session.parentModule? Env.parentModule? ModuleStack.parent?
  rw [h.modules, h.tables.parents]

/-- Whatever a keyword leads up to is a module. -/
theorem isModule_parentModule? (h : Stands base env s) (hbase : base.Settled)
    {module parent : NodeId} (hparent : env.parentModule? base module = some parent) :
    base.tables.isModule parent = true := by
  unfold Env.parentModule? at hparent
  split at hparent
  · exact h.areModules parent (List.mem_of_getElem? hparent)
  · exact hbase.parentsModules module parent hparent

/-- Among the children of a container, the same one is picked as after the first pass. -/
theorem pickChild? (h : Stands base env s) (hbase : base.Settled) (prefer : Namespace)
    (isLast : Bool) (scope : NodeId) (name : String) :
    s.pickChild? prefer isLast (s.tables.childrenNamed scope name) =
      base.pickChild? prefer isLast (base.tables.childrenNamed scope name) := by
  have hclass : ∀ child ∈ base.tables.childrenNamed scope name,
      s.classify child = base.classify child := fun child hchild => by
    have hknown := hbase.childrenKnown scope name child hchild
    exact (h.knows _ hknown).classified.trans hknown.classified.symm
  -- What was declared since belongs to no container, so the candidates are classified as before.
  have hfind : ∀ l : List NodeId, (∀ child ∈ l, s.classify child = base.classify child) →
      (l.find? fun id =>
        if isLast = true then s.classify id == some prefer else s.tables.isContainer id) =
      l.find? fun id =>
        if isLast = true then base.classify id == some prefer
        else base.tables.isContainer id := by
    intro l hl
    induction l with
    | nil => rfl
    | cons child rest ih =>
        rw [List.find?_cons, List.find?_cons, hl child List.mem_cons_self,
          h.tables.isContainer, ih fun c hc => hl c (List.mem_cons_of_mem _ hc)]
  unfold Session.pickChild?
  rw [h.tables.childrenNamed]
  simp only [hfind _ hclass]

end Stands

/-- The child that is picked is one of the candidates. -/
theorem mem_of_pickChild? {prefer : Namespace} {isLast : Bool} {candidates : List NodeId}
    {child : NodeId} (h : base.pickChild? prefer isLast candidates = some child) :
    child ∈ candidates := by
  unfold Session.pickChild? at h
  rcases Option.or_eq_some_iff.mp h with h | ⟨-, h⟩
  · exact List.mem_of_find?_eq_some h
  · exact List.mem_of_head? h

/-! ### Keywords -/

variable {prefer : Namespace} {single : Bool}

/-- Where the rest of the path is left to type checking, nothing more is done. -/
theorem agrees_unlessDeferred {spot : Spot} {act : Resolution (Option Position)}
    {r : Reading (Option Spot)} (hstands : Stands base env s)
    (h : Agrees base env ids s act r (fun _ => env) Reaches) :
    Agrees base env ids s (unlessDeferred spot.position act)
      (if spot.isDeferred base then pure none else r) (fun _ => env) Reaches := by
  refine Agrees.get_bind ?_
  rw [hstands.isDeferred]
  split
  · exact Agrees.pure hstands rfl ⟨rfl, fun _ h => nomatch h⟩
  · exact h

theorem agrees_stop (hstands : Stands base env s) (e : ResolveError) :
    Agrees base env ids s (stopWith e) (Reading.stopWith e) (fun _ => env) Reaches :=
  (agrees_stopWith hstands e fun _ => ⟨rfl, fun _ h => nomatch h⟩).mono List.nil_subperm

theorem agrees_enterModule (hbase : base.Settled) (hstands : Stands base env s) (seg : PathSegment)
    {module : NodeId} (hmodule : base.tables.isModule module = true) :
    Agrees base env [seg.node.id] s (enterModule (env.walk base prefer single) seg module)
      (readModule base env seg module) (fun _ => env) Reaches := by
  obtain ⟨_, s', hrun, -, hstands', hextents, hstep⟩ := agrees_bindTo hstands seg .name module
  refine ⟨some ⟨module, some module⟩, s', hrun.bind (Runs.pure _ _),
    ⟨rfl, fun spot hspot m hm => ?_⟩, hstands', rfl, ?_⟩
  · cases hspot
    cases hm
    exact hstands'.knows _ (hbase.knows_module hmodule)
  · exact hstep

theorem agrees_followFirst (hbase : base.Settled) (hstands : Stands base env s) (spot : Spot)
    (seg : PathSegment) {module : NodeId} (hmodule : base.tables.isModule module = true) :
    Agrees base env [seg.node.id] s
      (followFirst (env.walk base prefer single) spot.position seg module)
      (readFirst base env spot seg module) (fun _ => env) Reaches := by
  unfold followFirst readFirst
  have hreached : spot.position.reached.isSome = spot.reached.isSome := Option.isSome_map
  rw [hreached]
  split
  · exact agrees_stop hstands _
  · exact agrees_enterModule hbase hstands seg hmodule

theorem agrees_followSuper (hbase : base.Settled) (hstands : Stands base env s) (spot : Spot)
    (seg : PathSegment) :
    Agrees base env [seg.node.id] s (followSuper (env.walk base prefer single) spot.position seg)
      (readSuper base env spot seg) (fun _ => env) Reaches := by
  refine Agrees.get_bind ?_
  have hscope : spot.position.scope = spot.scope := rfl
  have hroot : (env.walk base prefer single).root = base.root := rfl
  have hhere : (env.walk base prefer single).here = env.here base := rfl
  unfold readSuper
  rw [hscope, hroot, hhere, hstands.tables.isModule, hstands.parentModule?]
  split
  · exact agrees_stop hstands _
  · split
    · cases hparent : env.parentModule? base spot.scope with
      | none => exact agrees_stop hstands _
      | some parent =>
          exact agrees_enterModule hbase hstands seg
            (hstands.isModule_parentModule? hbase hparent)
    · exact agrees_stop hstands _

/-! ### Plain names -/

theorem agrees_enterDeclaration (hstands : Stands base env s) (spot : Spot) (seg : PathSegment)
    (space : Namespace) {m : Meaning} (hm : s.Knows m) :
    Agrees base env [seg.node.id] s
      (enterDeclaration (env.walk base prefer single) spot.position seg space m.decl)
      (do seg.readTo base env space m.decl; return some (spot.advance base m))
      (fun _ => env) Reaches := by
  obtain ⟨_, s', hrun, -, hstands', hextents, hstep⟩ := agrees_bindTo hstands seg space m.decl
  refine ⟨some (s'.advance spot.position m.decl), s',
    hrun.bind (Runs.get_bind (Runs.pure _ _)), ⟨?_, fun spot' hspot m' hm' => ?_⟩, hstands', rfl,
    ?_⟩
  · rw [hstands'.advance]
    rfl
  · cases hspot
    cases hm'
    exact hstep.knows m hm
  · exact hstep

/-- Once the children have been searched, in the session and after the first pass. -/
private theorem agrees_followChild (hbase : base.Settled) (hstands : Stands base env s)
    (spot : Spot) (seg : PathSegment) (name : String) {child child' : Option NodeId}
    (hsame : child = child') (hknown : ∀ c ∈ child', s.Knows (base.meaning c)) :
    Agrees base env [seg.node.id] s
      (match child with
      | some child =>
        match s.classify child with
        | none => throw (.unclassifiedDeclaration child)
        | some space => enterDeclaration (env.walk base prefer single) spot.position seg space child
      | none =>
        if spot.position.reached.isSome then stopWith seg.notFound
        else
          match s.findLexical? prefer (.single seg.node.id name) with
          | none => stopWith (.failedToResolvePath name seg.node.span)
          | some (space, decl) =>
            enterDeclaration (env.walk base prefer single) spot.position seg space decl)
      (match child' with
      | some child => do
        let m := base.meaning child
        seg.readTo base env m.space m.decl
        return some (spot.advance base m)
      | none =>
        if spot.reached.isSome then .stopWith seg.notFound
        else
          match env.resolve base prefer name with
          | none => .stopWith (.failedToResolvePath name seg.node.span)
          | some (space, m) => do
            seg.readTo base env space m.decl
            return some (spot.advance base m))
      (fun _ => env) Reaches := by
  subst hsame
  cases child with
  | some child =>
      have hchild := hknown child rfl
      have hclass : s.classify child = some (base.meaning child).space := hchild.classified
      simp only [hclass]
      exact agrees_enterDeclaration (m := base.meaning child) hstands spot seg _ hchild
  | none =>
      have hreached : spot.position.reached.isSome = spot.reached.isSome := Option.isSome_map
      simp only [hreached]
      split
      · exact agrees_stop hstands _
      · rw [hstands.findLexical?]
        cases hresolve : env.resolve base prefer name with
        | none =>
            simp only [Option.map_none]
            exact agrees_stop hstands _
        | some found =>
            obtain ⟨space, m⟩ := found
            simp only [Option.map_some]
            exact agrees_enterDeclaration hstands spot seg space
              (hstands.knows_resolve hbase hresolve)

theorem agrees_followName (hbase : base.Settled) (hstands : Stands base env s) (spot : Spot)
    (seg : PathSegment) (name : String) (isLast : Bool) :
    Agrees base env [seg.node.id] s
      (followName (env.walk base prefer single) spot.position seg name isLast)
      (readName base env prefer single spot seg name isLast) (fun _ => env) Reaches := by
  refine Agrees.get_bind ?_
  cases single with
  | true =>
      have hnone : ∀ c ∈ (none : Option NodeId), s.Knows (base.meaning c) := fun _ h => nomatch h
      exact agrees_followChild hbase hstands spot seg name rfl hnone
  | false =>
      refine agrees_followChild hbase hstands spot seg name (hstands.pickChild? hbase _ _ _ _)
        fun child hchild => ?_
      exact hstands.knows _
        (hbase.childrenKnown spot.scope name child (mem_of_pickChild? hchild))

/-! ### Whole paths -/

theorem agrees_recordPath (hstands : Stands base env s) (path : NodeId) {m : Meaning}
    (hm : s.Knows m) :
    Agrees base env [path] s (recordPath path m.decl)
      (Reading.note (.resolved m.space path m.decl)) (fun _ => env) (fun _ _ _ => True) := by
  refine Agrees.get_bind ?_
  simp only [hm.classified]
  exact agrees_setResolved hstands m.space path m.decl

/-- When a path stands for a receiver. -/
theorem receiver?_eq_some {segments : List PathSegment} {seg : PathSegment} {m : Meaning}
    (h : env.receiver? base prefer segments = some (seg, m)) :
    segments = [seg] ∧ prefer = .name ∧ seg.ident = .selfModule ∧
      env.find? base .name "self" = some m := by
  unfold Env.receiver? at h
  split at h
  · split at h
    · split at h
      · next hself =>
        obtain ⟨m', hm', heq⟩ := Option.map_eq_some_iff.mp h
        cases heq
        exact ⟨rfl, rfl, hself, hm'⟩
      · cases h
    · cases h
  · cases h

/-- A path that does not stand for a receiver is walked along as it is. -/
theorem Stands.receiver?_none (hstands : Stands base env s) {segments : List PathSegment}
    (h : env.receiver? base prefer segments = none) :
    Runs (receiver? (env.walk base prefer single) segments) s none s := by
  unfold receiver?
  split
  · next seg hprefer =>
    change prefer = .name at hprefer
    subst hprefer
    split
    · next hself =>
      have hfind : env.find? base .name "self" = none := by
        simp only [Env.receiver?, hself, if_true] at h
        exact Option.map_eq_none_iff.mp h
      refine Runs.get_bind ?_
      have hlookup := hstands.lookup? .name seg.node.id "self"
      rw [hfind] at hlookup
      rw [Session.scope_name] at hlookup
      rw [hlookup]
      exact Runs.pure none s
    · exact Runs.pure none s
  · exact Runs.pure none s

/-- A lone `self` is looked up where a name is preferred. -/
private theorem receiver?_self {w : Walk} {seg : PathSegment} (hprefer : w.prefer = .name)
    (hself : seg.ident = .selfModule) : receiver? w [seg] = (do
      match (← get).names.lookup? (.single seg.node.id "self") with
      | none => return none
      | some receiver =>
        seg.bindTo .name receiver w.here
        return some receiver) := by
  obtain ⟨here, root, prefer, single⟩ := w
  cases hprefer
  exact if_pos hself

/-- The segment of a path that stands for a receiver is resolved to it. -/
theorem Stands.receiver?_some (hstands : Stands base env s) (hbase : base.Settled) (single : Bool)
    {segments : List PathSegment} {seg : PathSegment} {m : Meaning}
    (h : env.receiver? base prefer segments = some (seg, m)) :
    Agrees base env [seg.node.id] s (receiver? (env.walk base prefer single) segments)
      (do seg.readTo base env .name m.decl; return some m) (fun _ => env) Names := by
  obtain ⟨rfl, rfl, hself, hfind⟩ := receiver?_eq_some h
  have hlookup := hstands.lookup? .name seg.node.id "self"
  rw [hfind, Session.scope_name] at hlookup
  obtain ⟨_, s', hrun, -, hstands', hextents, hstep⟩ := agrees_bindTo hstands seg .name m.decl
  refine ⟨some m.decl, s', ?_, ⟨rfl, fun m' hm' => ?_⟩, hstands', hextents, hstep⟩
  · rw [receiver?_self rfl hself]
    refine Runs.get_bind ?_
    rw [hlookup]
    exact hrun.bind (Runs.pure _ _)
  · cases hm'
    exact hstep.knows m (hstands.knows_find? hbase hfind)

end NameResolution
