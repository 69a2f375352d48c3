import NameResolution.Proofs.Lexical.Introductions
import NameResolution.Proofs.Lexical.Quiet

/-!
# NameResolution.Proofs.Lexical.PathIntroductions

**What paths, types, expressions and blocks introduce, and what they enter.** Following a
path only enters findings (`Quiet`), and every one of them names something that is on
record. Names are introduced in the blocks inside, by their patterns. The induction goes
along with that of agreement, which says in which environment each part is worked on.
-/

namespace NameResolution

open Resolution

variable {base : Session} {env : Env} {ids : List NodeId}

/-! ### Segments -/

/-- An action that only enters findings introduces nothing. -/
theorem Introduces.of_quiet {pre : Session → Prop} {named : List Binder} {act : Resolution α}
    {r : Reading β} (hquiet : Quiet act)
    (hclosed : ∀ bs a s s', pre s → base.Introduced bs s → Runs act s a s' →
      ∀ f ∈ r.findings, f.Closed base s') : Introduces base pre named act r :=
  .quiet (fun a s s' _ hrun => (hquiet a s s' hrun).imp fun _ h => h.1) hclosed

/-- Whatever is entered for a segment is what the segment has led to. -/
def LeadsOn (r : Reading (Option Spot)) : Prop :=
  ∀ f ∈ r.findings, (∃ e, f = .error e) ∨ ∃ space node name here spot m,
    f = .segment space node name m.decl here ∧ r.value = some spot ∧ spot.reached = some m

namespace LeadsOn

theorem stopWith (e : ResolveError) : LeadsOn (.stopWith e) :=
  fun _ hf => Or.inl ⟨e, List.mem_singleton.mp hf⟩

/-- A segment is resolved, and the path goes on from there. -/
theorem readTo (seg : PathSegment) (space : Namespace) {spot : Spot} {m : Meaning}
    (hreached : spot.reached = some m) :
    LeadsOn (do seg.readTo base env space m.decl; return some spot) :=
  fun _ hf => Or.inr ⟨space, seg.node, seg.ident.text, env.here base, spot, m,
    List.mem_singleton.mp hf, rfl, hreached⟩

theorem readModule (seg : PathSegment) (module : NodeId) :
    LeadsOn (readModule base env seg module) :=
  readTo (m := base.meaning module) seg .name rfl

theorem readFirst (spot : Spot) (seg : PathSegment) (module : NodeId) :
    LeadsOn (readFirst base env spot seg module) := by
  unfold NameResolution.readFirst
  split
  · exact stopWith _
  · exact readModule seg module

theorem readSuper (spot : Spot) (seg : PathSegment) : LeadsOn (readSuper base env spot seg) := by
  unfold NameResolution.readSuper
  split
  · exact stopWith _
  · split
    · split
      · exact stopWith _
      · exact readModule seg _
    · exact stopWith _

theorem readName (prefer : Namespace) (single : Bool) (spot : Spot) (seg : PathSegment)
    (name : String) (isLast : Bool) :
    LeadsOn (readName base env prefer single spot seg name isLast) := by
  unfold NameResolution.readName
  dsimp only
  split
  · exact readTo seg _ rfl
  · split
    · exact stopWith _
    · split
      · exact stopWith _
      · exact readTo seg _ rfl

end LeadsOn

/-- A step along a path. What it leads to is known, so what it enters is on record. -/
theorem introduces_step {pre : Session → Prop} {named : List Binder}
    {act : Resolution (Option Position)} {r : Reading (Option Spot)} (hquiet : Quiet act)
    (hagrees : ∀ s, pre s → Agrees base env ids s act r (fun _ => env) Reaches)
    (hleads : LeadsOn r) : Introduces base pre named act r := by
  refine .of_quiet hquiet fun bs a s s' hs _ hrun f hf => ?_
  obtain ⟨⟨-, hknown⟩, -⟩ := (hagrees s hs).of_runs hrun
  rcases hleads f hf with ⟨e, rfl⟩ | ⟨space, node, name, here, spot, m, rfl, hvalue, hreached⟩
  · trivial
  · exact ⟨m, hknown spot hvalue m hreached, rfl⟩

/-- Where the rest of the path is left to type checking, nothing is done. -/
theorem introduces_unlessDeferred {pre : Session → Prop} {named : List Binder} {spot : Spot}
    {act : Resolution (Option Position)} {r : Reading (Option Spot)}
    (hstands : ∀ s, pre s → Stands base env s) (h : Introduces base pre named act r) :
    Introduces base pre named (unlessDeferred spot.position act)
      (if spot.isDeferred base then pure none else r) := by
  have hact : ∀ s s₁ a, pre s → Runs (unlessDeferred spot.position act) s a s₁ →
      Runs (if spot.isDeferred base then pure none else act) s a s₁ := fun s s₁ a hs hrun => by
    rw [← (hstands s hs).isDeferred]
    exact hrun
  split
  · next hdeferred =>
    refine .quiet (fun a s s' hs hrun => ?_) fun _ _ _ _ _ _ _ _ hf => nomatch hf
    have hnone := hact s s' a hs hrun
    rw [if_pos hdeferred] at hnone
    exact ⟨s.ledger, (hnone.eq (Runs.pure none s)).2.symm⟩
  · next hdeferred =>
    obtain ⟨added, hadded, h⟩ := h
    refine ⟨added, hadded, fun bs a s s' hs hin hrun => h bs a s s' hs hin ?_⟩
    have hstep := hact s s' a hs hrun
    rwa [if_neg hdeferred] at hstep

/-! ### Composition -/

namespace Introduces

variable {pre pre' : Session → Prop} {named named₁ named₂ : List Binder} {α β γ δ : Type}
  {act : Resolution α} {r : Reading β}

/-- What comes last only enters findings that are closed in any case. -/
theorem andThen {next : α → Resolution γ} {next' : β → Reading δ}
    (h : Introduces base pre named act r) (hquiet : ∀ a, Quiet (next a))
    (hclosed : ∀ f ∈ (next' r.value).findings, ∀ s', f.Closed base s') :
    Introduces base pre named (act >>= next) (r >>= next') := by
  obtain ⟨added, hadded, h⟩ := h
  refine ⟨added, hadded, fun bs c s s₂ hpre hs hrun => ?_⟩
  obtain ⟨a, s₁, hrun₁, hrun₂⟩ := hrun.bind_inv
  have hfirst := h bs a s s₁ hpre hs hrun₁
  obtain ⟨l, rfl, -⟩ := hquiet a c s₁ s₂ hrun₂
  exact hfirst.trans ⟨hfirst.introduced.withLedger l, fun f hf => hclosed f hf _,
    fun _ hm => hm.congr rfl rfl⟩

/-- A path as a whole is entered for what is known, or a type for one that is built in. -/
theorem resolved {space : Namespace} {use decl : NodeId} {act : Resolution Unit}
    (hquiet : Quiet act)
    (hclosed : ∀ s, pre s → (Finding.resolved space use decl).Closed base s) :
    Introduces base pre named act (Reading.note (.resolved space use decl)) := by
  refine .of_quiet hquiet fun bs a s s' hs _ hrun f hf => ?_
  rw [List.mem_singleton.mp hf]
  obtain ⟨l, rfl, -⟩ := hquiet a s s' hrun
  exact (hclosed s hs).mono fun _ hm => hm.congr rfl rfl

/-- A visit enters nothing. -/
theorem visited {prefer : Namespace} {path : Path} {act : Resolution α}
    {r : Reading (Option Meaning)} (hread : path.read base env prefer = do
      let outcome ← r
      Reading.note (.visit path prefer env outcome)
      return outcome)
    (h : Introduces base pre named act r) :
    Introduces base pre named act (path.read base env prefer) := by
  obtain ⟨added, hadded, h⟩ := h
  refine ⟨added, hadded, fun bs a s s' hpre hs hrun => ?_⟩
  have hproceeds := h bs a s s' hpre hs hrun
  have hfindings : (path.read base env prefer).findings =
      r.findings ++ [.visit path prefer env r.value] := by rw [hread]; rfl
  refine ⟨hproceeds.introduced, fun f hf => ?_, hproceeds.knows⟩
  rw [hfindings, List.mem_append, List.mem_singleton] at hf
  rcases hf with hf | rfl
  · exact hproceeds.closed f hf
  · trivial

theorem stopWith {e : ResolveError} (he : e.isRedefinition = false) :
    Introduces base pre named (NameResolution.stopWith e : Resolution (Option α))
      (Reading.stopWith e : Reading (Option β)) :=
  .of_quiet (Quiet.steps.stopWith he) fun _ _ _ _ _ _ _ f hf => by
    rw [List.mem_singleton.mp hf]
    trivial

end Introduces

/-! ### Whole paths -/

/-- What a name stands for belongs to the namespace that the name is looked up in, if that is the
one of values. -/
theorem Session.Introduced.classify_lookup? {s : Session} {bs : List Binder}
    (h : base.Introduced bs s) {key : CanonicalPath} {id : NodeId}
    (hid : s.names.lookup? key = some id) : s.classify id = some .name := by
  obtain ⟨b, hb, rfl⟩ := Option.map_eq_some_iff.mp hid
  obtain ⟨owner, -, hbinding⟩ := List.exists_of_findSome?_eq_some hb
  have hdeclared := h.bound .name owner key b hbinding
  rw [Session.scope_name] at hdeclared
  simp [Session.classify, Scope.wasDeclared, hdeclared]

/-- The receiver that a lone `self` stands for is a value. -/
theorem Stands.space_receiver? (hbase : base.Settled) {s : Session} {bs : List Binder}
    {prefer : Namespace} {segments : List PathSegment} {seg : PathSegment} {m : Meaning}
    (hstands : Stands base env s) (hs : base.Introduced bs s)
    (h : env.receiver? base prefer segments = some (seg, m)) : m.space = .name := by
  obtain ⟨-, -, -, hfind⟩ := receiver?_eq_some h
  have hlookup := hstands.lookup? .name seg.node.id "self"
  rw [hfind, Session.scope_name] at hlookup
  have hclass := hs.classify_lookup? hlookup
  rw [(hstands.knows_find? hbase hfind).classified] at hclass
  exact Option.some.inj hclass

/-- A lone `self` that stands for a receiver is entered among the names, and so is the path that it
is. -/
theorem introduces_loneSelf (hbase : base.Settled) {prefer : Namespace} {node : Node}
    {segments : List PathSegment} {seg : PathSegment} {m : Meaning} {named : List Binder}
    {walked : Resolution (Option NodeId)}
    (hreceiver : env.receiver? base prefer segments = some (seg, m)) :
    Introduces base (Ready base env (node.id :: segmentsNodeIds segments)) named
      (do
        match ← receiver? (env.walk base prefer (segments.length == 1)) segments with
        | some receiver =>
          updateTables (·.setResolved .name node.id receiver)
          return some receiver
        | none => walked)
      (do
        seg.readTo base env .name m.decl
        Reading.note (.resolved .name node.id m.decl)
        return some m) := by
  have hreceives : ∀ s, Ready base env (node.id :: segmentsNodeIds segments) s →
      Agrees base env [seg.node.id] s
        (receiver? (env.walk base prefer (segments.length == 1)) segments)
        (do seg.readTo base env .name m.decl; return some m) (fun _ => env) Names :=
    fun s hs => hs.stands.receiver?_some hbase _ hreceiver
  have hsegment : Introduces base (Ready base env (node.id :: segmentsNodeIds segments)) []
      (receiver? (env.walk base prefer (segments.length == 1)) segments)
      (do seg.readTo base env .name m.decl; return some m) := by
    refine .of_quiet (Quiet.steps.receiver? _ _) fun bs a s s' hs _ hrun f hf => ?_
    obtain ⟨⟨-, hknown⟩, -⟩ := (hreceives s hs).of_runs hrun
    rw [List.mem_singleton.mp hf]
    exact ⟨m, hknown m rfl, rfl⟩
  have hpath : Introduces base (fun s => s.Knows ⟨m.decl, .name, m.path⟩) named
      (do updateTables (·.setResolved .name node.id m.decl); return some m.decl)
      (do Reading.note (.resolved .name node.id m.decl); return some m) :=
    .map (.resolved (Quiet.setResolved .name node.id m.decl) fun s hs => Or.inl ⟨m.path, hs⟩)
  have hanswer : ∀ bs a s s', Ready base env (node.id :: segmentsNodeIds segments) s →
      base.Introduced bs s →
      Runs (receiver? (env.walk base prefer (segments.length == 1)) segments) s a s' →
      a = some m.decl ∧ s'.Knows ⟨m.decl, .name, m.path⟩ := fun bs a s s' hs hin hrun => by
    obtain ⟨⟨rfl, hknown⟩, -⟩ := (hreceives s hs).of_runs hrun
    have hm := hknown m rfl
    exact ⟨rfl, Stands.space_receiver? hbase hs.stands hin hreceiver ▸ hm.classified, hm.named⟩
  change Introduces base _ ([] ++ named) _ _
  refine Introduces.congr (r := (do seg.readTo base env .name m.decl; return some m) >>=
    fun _ => do Reading.note (.resolved .name node.id m.decl); return some m) ?_ rfl
  exact .bind hsegment hanswer hpath

/-- The path as a whole is entered in the namespace of what it leads to. -/
theorem introduces_readWhole (hbase : base.Settled) {prefer : Namespace} {node : Node}
    {segments : List PathSegment} {walked : Resolution (Option NodeId)}
    {r : Reading (Option Meaning)} {named : List Binder}
    (hagrees : ∀ s, Ready base env (segmentsNodeIds segments) s →
      Agrees base env (segmentsNodeIds segments) s walked r (fun _ => env) Names)
    (h : Introduces base (Ready base env (segmentsNodeIds segments)) named walked r) :
    Introduces base (Ready base env (node.id :: segmentsNodeIds segments)) named
      (do
        match ← receiver? (env.walk base prefer (segments.length == 1)) segments with
        | some receiver =>
          updateTables (·.setResolved .name node.id receiver)
          return some receiver
        | none =>
          match ← walked with
          | none => return none
          | some decl =>
            recordPath node.id decl
            return some decl)
      (readWhole base env prefer node segments r) := by
  unfold readWhole
  cases hreceiver : env.receiver? base prefer segments with
  | some found => exact introduces_loneSelf hbase hreceiver
  | none =>
      -- The segments are worked on before the node of the path, which comes first in the tree.
      refine .runs_bind (fun s hs => hs.stands.receiver?_none hreceiver) ?_
      refine .unnamed (.perm (.bind_ready hagrees (fun _ _ hnames => hnames.1) h ?_)
        (List.perm_append_singleton node.id _))
      cases hvalue : r.value with
      | none => exact .pure _ _
      | some m =>
          refine .map (.resolved (Quiet.recordPath node.id m.decl) fun s hs => Or.inl ⟨m.path, ?_⟩)
          exact hs.2.2 m rfl

/-! ### Types with a form of their own -/

/-- A built-in type is one of those that the crate comes with. -/
theorem introduces_resolveBuiltin {pre : Session → Prop} {named : List Binder} (use : NodeId)
    {pick : Builtins → NodeId} (hpick : pick base.builtins ∈ base.builtins.types) :
    Introduces base pre named (resolveBuiltin use pick)
      (readBuiltin base use (pick base.builtins)) := by
  refine .of_quiet (Quiet.resolveBuiltin use pick) fun bs a s s' _ _ _ f hf => ?_
  rw [List.mem_singleton.mp hf]
  exact Or.inr ⟨rfl, hpick⟩

/-- The answer that names a type is what is read of it. -/
theorem NamesType.eq {a : ResolvedTy} {v : TypeMeaning} {s : Session} (h : NamesType a v s) :
    a = ⟨v.decl.map Meaning.decl, v.path⟩ := by
  obtain ⟨hdecl, hpath, -⟩ := h
  rw [← hdecl, ← hpath]

/-! ### Patterns -/

mutual

theorem Pattern.introduces (shadow : Bool) : ∀ (p : Pattern) {env : Env},
    Introduces base (Framed base env p.nodeIds) p.binders (p.bindNames shadow) (p.read env shadow)
  | .binding node name _, env => by
      have hbind : bindPatternName shadow node name =
          Binder.bind ⟨.pattern, node.id, name.name⟩ name.span shadow redefinition := rfl
      cases shadow with
      | true => exact introduces_bindLatest (b := ⟨.pattern, node.id, name.name⟩)
      | false => exact introduces_bindNew (b := ⟨.pattern, node.id, name.name⟩)
  | .tuple _ elems, _ =>
      (introduces_bindPatterns shadow elems).under fun _ hs =>
        hs.mono (List.sublist_cons_self _ _).subperm
  | .wildcard _, _ => .pure _ _

theorem introduces_bindPatterns (shadow : Bool) : ∀ (ps : List Pattern) {env : Env},
    Introduces base (Framed base env (patternsNodeIds ps)) (patternsBinders ps)
      (bindPatterns shadow ps) (readPatterns env shadow ps)
  | [], _ => .pure _ _
  | p :: ps, _ =>
      .seq_framed (fun _ hs => p.agrees shadow hs.ready hs.frames) (p.introduces shadow)
        (introduces_bindPatterns shadow ps)

end

/-! ### The mutual recursion -/

mutual

theorem Path.introduces (hbase : base.Settled) (prefer : Namespace) :
    ∀ (p : Path) {env : Env}, Introduces base (Ready base env p.nodeIds) p.binders
      (p.resolve prefer) (p.read base env prefer)
  | ⟨node, segments⟩, env => by
      refine .visited (r := readWhole base env prefer node segments
        (readSegments base env prefer (segments.length == 1) ⟨env.here base, none⟩ segments))
        rfl ?_
      refine .runs_bind (fun _ hs => hs.stands.currentModule) ?_
      refine .runs_bind (fun _ hs => hs.stands.rootModule) ?_
      exact introduces_readWhole hbase
        (fun _ hs => agrees_walk hbase prefer _ segments ⟨env.here base, none⟩
          (fun _ h => nomatch h) hs)
        ((introduces_walk hbase prefer _ segments ⟨env.here base, none⟩).under fun _ hs =>
          ⟨hs, fun _ h => nomatch h⟩)

theorem introduces_walk (hbase : base.Settled) (prefer : Namespace) (single : Bool) :
    ∀ (segments : List PathSegment) (spot : Spot) {env : Env},
      Introduces base
        (fun s => Ready base env (segmentsNodeIds segments) s ∧ ∀ m ∈ spot.reached, s.Knows m)
        (segmentsBinders segments) (walk (env.walk base prefer single) spot.position segments)
        (readSegments base env prefer single spot segments)
  | [], _, _ => .pure _ _
  | seg :: rest, spot, env => by
      refine (Introduces.bind_ready
        (fun _ hs => seg.agrees hbase prefer single spot rest.isEmpty hs)
        (fun _ _ hreaches => hreaches.1)
        (seg.introduces hbase prefer single spot rest.isEmpty) ?_).under fun _ hs => hs.1
      cases hvalue : (seg.read base env prefer single spot rest.isEmpty).value with
      | none => exact .pure _ _
      | some spot' =>
          exact (introduces_walk hbase prefer single rest spot').under fun _ hs =>
            ⟨hs.1, hs.2.2 spot' rfl⟩

theorem PathSegment.introduces (hbase : base.Settled) (prefer : Namespace) (single : Bool)
    (spot : Spot) (isLast : Bool) :
    ∀ (seg : PathSegment) {env : Env}, Introduces base (Ready base env seg.nodeIds) seg.binders
      (seg.follow (env.walk base prefer single) spot.position isLast)
      (seg.read base env prefer single spot isLast)
  | ⟨_, .malformed, _⟩, _ => .stopWith rfl
  | ⟨_, .crate, _⟩, _ =>
      introduces_unlessDeferred (fun _ hs => hs.stands) (introduces_step
        (Quiet.steps.followFirst _ _ _ _)
        (fun _ hs => agrees_followFirst hbase hs.stands spot _ hbase.rootModule)
        (LeadsOn.readFirst spot _ _))
  | ⟨_, .selfModule, _⟩, _ =>
      introduces_unlessDeferred (fun _ hs => hs.stands) (introduces_step
        (Quiet.steps.followFirst _ _ _ _)
        (fun _ hs => agrees_followFirst hbase hs.stands spot _ hs.stands.isModule_here)
        (LeadsOn.readFirst spot _ _))
  | ⟨_, .super, _⟩, _ =>
      introduces_unlessDeferred (fun _ hs => hs.stands) (introduces_step
        (Quiet.steps.followSuper _ _ _)
        (fun _ hs => agrees_followSuper hbase hs.stands spot _)
        (LeadsOn.readSuper spot _))
  | ⟨_, .ident name, none⟩, _ =>
      introduces_unlessDeferred (fun _ hs => hs.stands) (introduces_step
        (Quiet.steps.followName _ _ _ name isLast)
        (fun _ hs => agrees_followName hbase hs.stands spot _ name isLast)
        (LeadsOn.readName prefer single spot _ name isLast))
  | ⟨node, .ident name, some args⟩, _ => by
      -- The arguments come first, although the segment is their parent.
      refine introduces_unlessDeferred (fun _ hs => hs.stands) ?_
      refine Introduces.perm ?_ (List.perm_append_singleton node.id args.nodeIds)
      refine .unnamed (.seq_ready (fun _ hs => args.agrees hbase hs) (args.introduces hbase) ?_)
      exact introduces_step (Quiet.steps.followName _ _ _ name isLast)
        (fun _ hs => agrees_followName hbase hs.stands spot _ name isLast)
        (LeadsOn.readName prefer single spot _ name isLast)

theorem GenericArgs.introduces (hbase : base.Settled) :
    ∀ (args : GenericArgs) {env : Env}, Introduces base (Ready base env args.nodeIds) args.binders
      args.resolve (args.read base env)
  | ⟨types, _⟩, _ => introduces_tys hbase types

theorem introduces_tys (hbase : base.Settled) :
    ∀ (ts : List Ty) {env : Env}, Introduces base (Ready base env (tysNodeIds ts)) (tysBinders ts)
      (resolveTys ts) (readTys base env ts)
  | [], _ => .pure _ _
  | t :: ts, _ =>
      .seq_ready (fun _ hs => (t.agrees hbase hs).discard) (t.introduces hbase).discard
        (introduces_tys hbase ts)

theorem Ty.introduces (hbase : base.Settled) :
    ∀ (t : Ty) {env : Env}, Introduces base (Ready base env t.nodeIds) t.binders t.resolve
      (t.read base env)
  | .path _ p, env => by
      refine .skip (.andThen (p.introduces hbase .type) (fun a => ?_) ?_)
      · cases a with
        | none => exact Quiet.steps.pure _
        | some decl => exact Quiet.steps.bind Quiet.steps.get fun _ => Quiet.steps.pure _
      · cases (p.read base env .type).value with
        | none => exact fun _ hf => nomatch hf
        | some m => exact fun _ hf => nomatch hf
  | .qualified _ p, _ => (p.introduces hbase).map.skip
  | .tuple n [], _ => introduces_resolveBuiltin n.id (by simp [Builtins.types])
  | .tuple _ (t :: ts), _ => (introduces_tys hbase (t :: ts)).map.skip
  | .array _ elem size, _ =>
      (Introduces.bind_ready (fun _ hs => elem.agrees hbase hs) (fun _ _ hnames => hnames.eq)
        (elem.introduces hbase) ((size.introduces hbase).map.under fun _ hs => hs.1)).skip
  | .slice _ elem, _ => (elem.introduces hbase).map.skip
  | .reference _ _ inner, _ => (inner.introduces hbase).map.skip
  | .pointer _ _ inner, _ => (inner.introduces hbase).map.skip
  | .dynOne _ bound, _ => (bound.introduces hbase).map.skip
  | .dyn _ bounds, _ => (introduces_bounds hbase bounds).map.skip
  | .fnPointer _ params none, _ => (introduces_paramTys hbase params).map.skip
  | .fnPointer _ params (some ret), _ =>
      (Introduces.seq_ready (fun _ hs => agrees_paramTys hbase params hs)
        (introduces_paramTys hbase params) (ret.introduces hbase).discard.map).skip
  | .inferred n, _ => introduces_resolveBuiltin n.id (by simp [Builtins.types])
  | .never n, _ => introduces_resolveBuiltin n.id (by simp [Builtins.types])

theorem QualifiedPath.introduces (hbase : base.Settled) :
    ∀ (p : QualifiedPath) {env : Env}, Introduces base (Ready base env p.nodeIds) p.binders
      p.resolve (p.read base env)
  | ⟨node, qualifier, associated, rest⟩, env => by
      have hids : List.Perm
          (qualifier.nodeIds ++ (associated.nodeIds ++ segmentsNodeIds rest))
          (qualifier.nodeIds ++ associated.nodeIds ++ segmentsNodeIds rest) :=
        (List.append_assoc _ _ _).symm ▸ .refl _
      refine .skip (.perm ?_ hids)
      refine .bind_ready (fun _ hs => qualifier.agrees hbase hs) (fun _ _ hsame => hsame)
        (qualifier.introduces hbase) (.under ?_ fun _ hs => hs.1)
      cases (qualifier.read base env).value with
      | none => exact .pure _ _
      | some head =>
          refine .bind_ready (fun _ hs => associated.appends hbase head hs)
            (fun _ _ hsame => hsame) (associated.introduces_append hbase head)
            (.under ?_ fun _ hs => hs.1)
          cases (associated.readAppended base env head).value with
          | none => exact .pure _ _
          | some path =>
              refine .andThen (introduces_appendSegments hbase path rest) (fun a => ?_) ?_
              · cases a with
                | none => exact Quiet.steps.pure _
                | some path =>
                    exact Quiet.steps.bind (Quiet.setQualified node.id path) fun _ =>
                      Quiet.steps.pure _
              · cases (readAppendedSegments base env path rest).value with
                | none => exact fun _ hf => nomatch hf
                | some path =>
                    intro f hf s'
                    rw [List.mem_singleton.mp hf]
                    trivial

theorem Qualifier.introduces (hbase : base.Settled) :
    ∀ (q : Qualifier) {env : Env}, Introduces base (Ready base env q.nodeIds) q.binders q.resolve
      (q.read base env)
  | ⟨_, selfTy, none⟩, env => by
      refine .skip (.andThen (selfTy.introduces hbase) (fun t => ?_) ?_)
      · refine Quiet.steps.bind (Quiet.headPath t) fun path => ?_
        cases path <;> exact Quiet.steps.pure _
      · cases (selfTy.read base env).value.headPath with
        | none => exact fun _ hf => nomatch hf
        | some path => exact fun _ hf => nomatch hf
  | ⟨_, selfTy, some traitPath⟩, env => by
      refine .skip (.bind_ready (fun _ hs => selfTy.agrees hbase hs) (fun _ _ hnames => hnames.eq)
        (selfTy.introduces hbase) (.runs_bind (fun _ hs => hs.2.runs_headPath)
          (.under ?_ fun _ hs => hs.1)))
      cases (selfTy.read base env).value.headPath with
      | none => exact .pure _ _
      | some selfPath =>
          refine .andThen (traitPath.introduces hbase .type) (fun a => ?_) ?_
          · cases a with
            | none => exact Quiet.steps.pure _
            | some decl => exact Quiet.steps.bind (Quiet.pathOf decl) fun _ => Quiet.steps.pure _
          · cases (traitPath.read base env .type).value with
            | none => exact fun _ hf => nomatch hf
            | some m => exact fun _ hf => nomatch hf

theorem introduces_appendSegments (hbase : base.Settled) (path : CanonicalPath) :
    ∀ (segments : List PathSegment) {env : Env},
      Introduces base (Ready base env (segmentsNodeIds segments)) (segmentsBinders segments)
        (appendSegments path segments) (readAppendedSegments base env path segments)
  | [], _ => .pure _ _
  | seg :: rest, env => by
      refine .bind_ready (fun _ hs => seg.appends hbase path hs) (fun _ _ hsame => hsame)
        (seg.introduces_append hbase path) (.under ?_ fun _ hs => hs.1)
      cases (seg.readAppended base env path).value with
      | none => exact .pure _ _
      | some path => exact introduces_appendSegments hbase path rest

theorem PathSegment.introduces_append (hbase : base.Settled) (path : CanonicalPath) :
    ∀ (seg : PathSegment) {env : Env}, Introduces base (Ready base env seg.nodeIds) seg.binders
      (seg.append path) (seg.readAppended base env path)
  | ⟨_, ident, none⟩, _ => by
      rw [PathSegment.append, PathSegment.readAppended]
      split
      · exact .stopWith rfl
      · exact .pure _ _
  | ⟨_, ident, some args⟩, _ => by
      rw [PathSegment.append, PathSegment.readAppended]
      split
      · exact .stopWith rfl
      · exact (args.introduces hbase).map.skip

theorem introduces_paramTys (hbase : base.Settled) :
    ∀ (ps : List FnPointerParam) {env : Env}, Introduces base (Ready base env (paramTysNodeIds ps))
      (paramTysBinders ps) (resolveParamTys ps) (readParamTys base env ps)
  | [], _ => .pure _ _
  | ⟨_, _, ty⟩ :: ps, _ =>
      (Introduces.seq_ready (fun _ hs => (ty.agrees hbase hs).discard)
        (ty.introduces hbase).discard (introduces_paramTys hbase ps)).skip

theorem TraitBound.introduces (hbase : base.Settled) :
    ∀ (b : TraitBound) {env : Env}, Introduces base (Ready base env b.nodeIds) b.binders b.resolve
      (b.read base env)
  | ⟨_, path⟩, _ => (path.introduces hbase .type).skip

theorem Bound.introduces (hbase : base.Settled) :
    ∀ (b : Bound) {env : Env}, Introduces base (Ready base env b.nodeIds) b.binders b.resolve
      (b.read base env)
  | .trait bound, _ => bound.introduces hbase
  | .lifetime _, _ => .pure _ _

theorem introduces_bounds (hbase : base.Settled) :
    ∀ (bs : List Bound) {env : Env}, Introduces base (Ready base env (boundsNodeIds bs))
      (boundsBinders bs) (resolveBounds bs) (readBounds base env bs)
  | [], _ => .pure _ _
  | b :: bs, _ =>
      .seq_ready (fun _ hs => (b.agrees hbase hs).discard) (b.introduces hbase).discard
        (introduces_bounds hbase bs)

theorem Expr.introduces (hbase : base.Settled) :
    ∀ (e : Expr) {env : Env}, Introduces base (Ready base env e.nodeIds) e.binders e.resolve
      (e.read base env)
  | .literal _ _, _ => .pure _ _
  | .path _ p, _ => (p.introduces hbase .name).discard.skip
  | .unary _ _ operand, _ => (operand.introduces hbase).skip
  | .binary _ _ lhs rhs, _ =>
      (Introduces.seq_ready (fun _ hs => lhs.agrees hbase hs) (lhs.introduces hbase)
        (rhs.introduces hbase)).skip
  | .call _ callee args, _ =>
      (Introduces.seq_ready (fun _ hs => callee.agrees hbase hs) (callee.introduces hbase)
        (introduces_exprs hbase args)).skip
  | .cast _ operand ty, _ =>
      (Introduces.seq_ready (fun _ hs => operand.agrees hbase hs) (operand.introduces hbase)
        (ty.introduces hbase).discard).skip
  | .tuple _ elems, _ => (introduces_exprs hbase elems).skip
  | .group _ inner, _ => (inner.introduces hbase).skip
  | .block _ body, _ => (body.introduces hbase).skip

theorem introduces_exprs (hbase : base.Settled) :
    ∀ (es : List Expr) {env : Env}, Introduces base (Ready base env (exprsNodeIds es))
      (exprsBinders es) (resolveExprs es) (readExprs base env es)
  | [], _ => .pure _ _
  | e :: es, _ =>
      .seq_ready (fun _ hs => e.agrees hbase hs) (e.introduces hbase) (introduces_exprs hbase es)

theorem Block.introduces (hbase : base.Settled) :
    ∀ (b : Block) {env : Env}, Introduces base (Ready base env b.nodeIds) b.binders b.resolve
      (b.read base env)
  | ⟨_, stmts, none⟩, _ =>
      .inFrame (fun _ hs => Framed.enter hs (List.Subset.refl _))
        (introduces_stmts hbase stmts).map
  | ⟨_, stmts, some tail⟩, _ =>
      .inFrame (fun _ hs => Framed.enter hs (List.Subset.refl _))
        (.seq_framed (fun _ hs => agrees_stmts hbase stmts hs.ready hs.frames)
          (introduces_stmts hbase stmts) ((tail.introduces hbase).under fun _ hs => hs.ready))

theorem introduces_stmts (hbase : base.Settled) :
    ∀ (stmts : List Stmt) {env : Env}, Introduces base (Framed base env (stmtsNodeIds stmts))
      (stmtsBinders stmts) (resolveStmts stmts) (readStmts base env stmts)
  | [], _ => .pure _ _
  | st :: rest, _ =>
      .seq_framed (fun _ hs => st.agrees hbase hs.ready hs.frames) (st.introduces hbase)
        (introduces_stmts hbase rest)

theorem Stmt.introduces (hbase : base.Settled) :
    ∀ (st : Stmt) {env : Env}, Introduces base (Framed base env st.nodeIds) st.binders st.resolve
      (st.read base env)
  | .bind _ pattern none none, _ => (pattern.introduces true).under fun _ hs => hs.tail
  -- The pattern comes last, so neither the type nor the value sees the names it introduces.
  | .bind _ pattern (some ty) none, _ =>
      (Introduces.seq_framed (fun _ hs => (ty.agrees hbase hs.ready).discard)
        ((ty.introduces hbase).discard.under fun _ hs => hs.ready)
        (pattern.introduces true)).under fun _ hs => hs.tail.mono List.perm_append_comm.subperm
  | .bind _ pattern none (some init), _ =>
      (Introduces.seq_framed (fun _ hs => init.agrees hbase hs.ready)
        ((init.introduces hbase).under fun _ hs => hs.ready)
        (pattern.introduces true)).under fun _ hs => hs.tail.mono List.perm_append_comm.subperm
  | .bind _ pattern (some ty) (some init), _ => by
      have hids : (ty.nodeIds ++ (init.nodeIds ++ pattern.nodeIds)).Perm
          (pattern.nodeIds ++ ty.nodeIds ++ init.nodeIds) := by
        rw [← List.append_assoc, List.append_assoc pattern.nodeIds]
        exact List.perm_append_comm
      exact (Introduces.seq_framed (fun _ hs => (ty.agrees hbase hs.ready).discard)
        ((ty.introduces hbase).discard.under fun _ hs => hs.ready)
        (.seq_framed (fun _ hs => init.agrees hbase hs.ready)
          ((init.introduces hbase).under fun _ hs => hs.ready)
          (pattern.introduces true))).under fun _ hs => hs.tail.mono hids.subperm
  | .expr _ value, _ => (value.introduces hbase).mapRead.under fun _ hs => hs.tail.ready
  | .empty _, _ => .pure _ _

end

end NameResolution
