import NameResolution.Tree.NodeIds
import NameResolution.Proofs.Lexical.Binding
import NameResolution.Proofs.Lexical.StepAgreement

/-!
# NameResolution.Proofs.Lexical.PathAgreement

**Paths, types and expressions are resolved as they are read.** The induction follows the
mutual recursion that both share. Every part is ready to be worked on when it is reached,
because the identities of its nodes are its own.
-/

namespace NameResolution

open Resolution

variable {base s : Session} {env : Env} {ids : List NodeId}

/-- A type names what is read: the same declaration, which can be bound to a name, and the same
canonical path. -/
def NamesType (a : ResolvedTy) (v : TypeMeaning) (s : Session) : Prop :=
  a.decl = v.decl.map Meaning.decl ∧ a.path = v.path ∧ ∀ m ∈ v.decl, s.Offers m

/-- The answer is what is read. -/
def Same {α : Type} (a v : α) (_ : Session) : Prop := a = v

/-- The environment that is read has a frame for further names. -/
def HasFrame {α : Type} (_ : α) (env : Env) (_ : Session) : Prop := env.frames ≠ []

theorem Agrees.hasFrame {act : Resolution α} {r : Reading Env} {R : α → Env → Session → Prop}
    (h : Agrees base env ids s act r id R) (hframes : env.frames ≠ []) :
    Agrees base env ids s act r id HasFrame := by
  obtain ⟨a, s', hrun, -, hstands, hextents, hstep⟩ := h
  refine ⟨a, s', hrun, fun hnil => hframes ?_, hstands, hextents, hstep⟩
  simpa [Env.extents, show r.value.frames = [] from hnil] using hextents.symm

theorem mem_nodeIds_self (seg : PathSegment) : seg.node.id ∈ seg.nodeIds := by
  obtain ⟨node, ident, generics⟩ := seg
  cases generics <;> simp [PathSegment.nodeIds]

theorem PathSegment.own_subperm (seg : PathSegment) : List.Subperm [seg.node.id] seg.nodeIds :=
  List.singleton_subperm_iff.mpr (mem_nodeIds_self seg)

/-- The nodes of the segments themselves are among the nodes of a path, in order. -/
theorem map_id_sublist_segmentsNodeIds (segments : List PathSegment) :
    List.Sublist (segments.map (·.node.id)) (segmentsNodeIds segments) := by
  induction segments with
  | nil => exact .refl []
  | cons seg rest ih => exact (List.singleton_sublist.mpr (mem_nodeIds_self seg)).append ih

theorem mem_segmentsNodeIds_head (seg : PathSegment) (rest : List PathSegment) :
    seg.node.id ∈ segmentsNodeIds (seg :: rest) :=
  List.mem_append_left _ (mem_nodeIds_self seg)

theorem segmentsNodeIds_append (l₁ l₂ : List PathSegment) :
    segmentsNodeIds (l₁ ++ l₂) = segmentsNodeIds l₁ ++ segmentsNodeIds l₂ := by
  induction l₁ with
  | nil => rfl
  | cons seg rest ih =>
      rw [List.cons_append, segmentsNodeIds, segmentsNodeIds, ih, List.append_assoc]

theorem nodeIds_sublist {seg : PathSegment} {segments : List PathSegment} (h : seg ∈ segments) :
    List.Sublist seg.nodeIds (segmentsNodeIds segments) := by
  obtain ⟨before, after, rfl⟩ := List.append_of_mem h
  rw [segmentsNodeIds_append, segmentsNodeIds]
  exact (List.sublist_append_left _ _).trans (List.sublist_append_right _ _)

theorem nodeIds_eq_cons (seg : PathSegment) : seg.nodeIds = seg.node.id :: seg.nodeIds.tail := by
  obtain ⟨node, ident, generics⟩ := seg
  cases generics <;> rfl

/-! ### The end of a path -/

section Whole

variable {prefer : Namespace} {node : Node} {segments : List PathSegment}

/-- What a path names is recorded under the path as a whole. -/
theorem agrees_readWhole (hbase : base.Settled)
    (hready : Ready base env (node.id :: segmentsNodeIds segments) s)
    {walked : Resolution (Option NodeId)} {r : Reading (Option Meaning)}
    (hwalked : Ready base env (segmentsNodeIds segments) s →
      Agrees base env (segmentsNodeIds segments) s walked r (fun _ => env) Names) :
    Agrees base env (node.id :: segmentsNodeIds segments) s
      (do
        match ← receiver? (env.walk base prefer (segments.length == 1)) segments with
        | some receiver =>
          updateTables (·.setResolved .name node.id receiver)
          return some receiver
        | none =>
          match ← walked with
          | none => return none
          | some decl =>
            recordPath node.id decl
            return some decl)
      (readWhole base env prefer node segments r) (fun _ => env) Names := by
  unfold readWhole
  cases hreceiver : env.receiver? base prefer segments with
  | some found =>
      obtain ⟨seg, m⟩ := found
      have hids : List.Subperm ([seg.node.id] ++ [node.id])
          (node.id :: segmentsNodeIds segments) := by
        obtain ⟨rfl, -⟩ := receiver?_eq_some hreceiver
        refine (List.perm_append_singleton _ _).subperm.trans ((List.subperm_cons _).mpr ?_)
        exact List.singleton_subperm_iff.mpr (mem_segmentsNodeIds_head seg [])
      obtain ⟨_, s₁, hrun₁, ⟨rfl, hknown⟩, hstands₁, -, hstep₁⟩ :=
        hready.stands.receiver?_some hbase (segments.length == 1) hreceiver
      obtain ⟨_, s₂, hrun₂, -, hstands₂, -, hstep₂⟩ :=
        agrees_setResolved hstands₁ .name node.id m.decl
      exact ⟨some m.decl, s₂, hrun₁.bind (hrun₂.bind (Runs.pure _ _)),
        ⟨rfl, fun m' hm' => hstep₂.knows m' (hknown m' hm')⟩, hstands₂, rfl,
        (hstep₁.append hstep₂).mono hids⟩
  | none =>
      -- The segments are worked on before the node of the path, which comes first in the tree.
      refine Agrees.runs_bind (hready.stands.receiver?_none hreceiver) ?_
      have hready' : Ready base env (segmentsNodeIds segments ++ [node.id]) s :=
        hready.mono (List.perm_append_singleton _ _).subperm
      refine Agrees.mono (Agrees.bind hready' (hwalked hready'.left) fun a s' hnames hready => ?_)
        (List.perm_append_singleton _ _).subperm
      obtain ⟨rfl, hknown⟩ := hnames
      cases hvalue : r.value with
      | none => exact Agrees.pure hready.stands rfl ⟨rfl, fun _ h => nomatch h⟩
      | some m =>
          have hm := hknown m hvalue
          obtain ⟨_, s'', hrun, -, hstands, -, hstep⟩ := agrees_recordPath hready.stands node.id hm
          exact ⟨some m.decl, s'', hrun.bind (Runs.pure _ _),
            ⟨rfl, fun m' hm' => hstep.knows m' (Option.some.inj hm' ▸ hm)⟩, hstands, rfl, hstep⟩

/-- A visit is entered once its path has been read, together with all that was found out. -/
theorem Agrees.visited {path : Path} {act : Resolution α} {r : Reading (Option Meaning)}
    {R : α → Option Meaning → Session → Prop} (hready : Ready base env path.nodeIds s)
    (hread : path.read base env prefer = do
      let outcome ← r
      Reading.note (.visit path prefer env outcome)
      return outcome)
    (h : Agrees base env path.nodeIds s act r (fun _ => env) R) :
    Agrees base env path.nodeIds s act (path.read base env prefer) (fun _ => env) R := by
  obtain ⟨a, s', hrun, hR, hstands, hextents, hstep⟩ := h
  have hvalue : (path.read base env prefer).value = r.value := by rw [hread]; rfl
  have hfindings : (path.read base env prefer).findings =
      r.findings ++ [.visit path prefer env r.value] := by rw [hread]; rfl
  have huses : List.Subperm ([Finding.visit path prefer env r.value].filterMap Finding.use?) [] :=
    List.nil_subperm
  refine ⟨a, s', hrun, hvalue ▸ hR, hstands, hextents, hstep.grows, hstep.tables, ?_, hstep.knows,
    hstep.offers, ?_, ?_⟩
  · rw [hfindings, Ledger.noteAll_append, ← hstep.ledger]
    rfl
  · rw [hfindings, List.filterMap_append, ← List.append_nil path.nodeIds]
    exact hstep.uses.append huses
  · intro path' prefer' env' outcome hv
    rw [hfindings, List.mem_append, List.mem_singleton] at hv
    -- The visit itself comes last and is about all of the path.
    rcases hv with hv | hv
    · have htrace := (hstep.traced path' prefer' env' outcome hv).append_right huses
      rwa [List.append_nil, ← hfindings] at htrace
    · cases hv
      refine ⟨hvalue, ⟨s, hready⟩, [], [], [], ?_, ?_, List.nil_subperm⟩
      · rw [List.nil_append, List.append_nil]
      · rw [List.append_nil]

end Whole

/-! ### Types with a form of their own -/

theorem agrees_resolveBuiltin (hbase : base.Settled) (hstands : Stands base env s) (use : NodeId)
    (pick : Builtins → NodeId) (hpick : pick base.builtins ∈ base.builtins.types) :
    Agrees base env [use] s (resolveBuiltin use pick)
      (readBuiltin base use (pick base.builtins)) (fun _ => env) NamesType := by
  have hoffers := hstands.offers _ (hbase.offers_builtin hpick)
  refine Agrees.get_bind ?_
  rw [hstands.builtins]
  obtain ⟨_, s', hrun, -, hstands', -, hstep⟩ :=
    agrees_setResolved hstands .type use (pick base.builtins)
  refine ⟨_, s', hrun.bind (Runs.pure _ _), ⟨rfl, hoffers.named, fun m hm => ?_⟩, hstands', rfl,
    hstep⟩
  cases hm
  exact hstep.offers _ hoffers

/-! ### The heads of qualified paths -/

theorem Session.Offers.runs_pathOf {m : Meaning} (h : s.Offers m) :
    Runs (pathOf m.decl) s m.path s := by
  refine Runs.get_bind ?_
  rw [h.named]
  exact Runs.pure _ _

theorem NamesType.runs_headPath {t : ResolvedTy} {v : TypeMeaning} (h : NamesType t v s) :
    Runs t.headPath s v.headPath s := by
  obtain ⟨decl, path⟩ := t
  obtain ⟨meaning, path'⟩ := v
  obtain ⟨hdecl, hpath, hoffers⟩ := h
  change decl = meaning.map Meaning.decl at hdecl
  change path = path' at hpath
  subst hdecl hpath
  cases path with
  | some path => exact Runs.pure _ _
  | none =>
      cases meaning with
      | some m => exact (hoffers m rfl).runs_pathOf.map
      | none => exact Runs.pure _ _

theorem NamesType.wrapped {t : ResolvedTy} {v : TypeMeaning} (h : NamesType t v s) (id : NodeId)
    (wrap : String → String) : NamesType (t.wrapped id wrap) (v.wrapped id wrap) s :=
  ⟨h.1, congrArg (Option.map _) h.2.1, h.2.2⟩

/-! ### Patterns -/

mutual

theorem Pattern.agrees (shadow : Bool) : ∀ (p : Pattern) {env : Env} {s : Session},
    Ready base env p.nodeIds s → env.frames ≠ [] →
      Agrees base env p.nodeIds s (p.bindNames shadow) (p.read env shadow) id HasFrame
  | .binding node name _, _, _, hready, hframes => by
      cases shadow with
      | true => exact (agrees_bindLatest hready hframes redefinition).hasFrame hframes
      | false => exact (agrees_bindNew hready hframes redefinition).hasFrame hframes
  | .tuple _ elems, _, _, hready, hframes =>
      (agrees_bindPatterns shadow elems
        (hready.mono (List.sublist_cons_self _ _).subperm) hframes).mono
        (List.sublist_cons_self _ _).subperm
  | .wildcard _, _, _, hready, hframes => Agrees.pure hready.stands rfl hframes

theorem agrees_bindPatterns (shadow : Bool) : ∀ (ps : List Pattern) {env : Env} {s : Session},
    Ready base env (patternsNodeIds ps) s → env.frames ≠ [] →
      Agrees base env (patternsNodeIds ps) s (bindPatterns shadow ps) (readPatterns env shadow ps)
        id HasFrame
  | [], _, _, hready, hframes => Agrees.pure hready.stands rfl hframes
  | p :: ps, _, _, hready, hframes =>
      Agrees.bind hready (p.agrees shadow hready.left hframes) fun _ _ hframes hready =>
        agrees_bindPatterns shadow ps hready hframes

end

/-! ### The mutual recursion -/

theorem Ready.tail {id : NodeId} (h : Ready base env (id :: ids) s) : Ready base env ids s :=
  h.mono (List.sublist_cons_self _ _).subperm

/-- The node of a part itself need not be worked on. -/
theorem Agrees.skip {id : NodeId} {act : Resolution α} {r : Reading β} {after : β → Env}
    {R : α → β → Session → Prop} (h : Agrees base env ids s act r after R) :
    Agrees base env (id :: ids) s act r after R :=
  h.mono (List.sublist_cons_self _ _).subperm

mutual

theorem Path.agrees (hbase : base.Settled) (prefer : Namespace) :
    ∀ (p : Path) {env : Env} {s : Session}, Ready base env p.nodeIds s →
      Agrees base env p.nodeIds s (p.resolve prefer) (p.read base env prefer) (fun _ => env) Names
  | ⟨node, segments⟩, env, s, hready => by
      refine Agrees.visited (r := readWhole base env prefer node segments
        (readSegments base env prefer (segments.length == 1) ⟨env.here base, none⟩ segments))
        hready rfl ?_
      refine Agrees.runs_bind hready.stands.currentModule ?_
      refine Agrees.runs_bind hready.stands.rootModule ?_
      exact agrees_readWhole hbase hready fun hready =>
        agrees_walk hbase prefer _ segments ⟨env.here base, none⟩ (fun _ h => nomatch h) hready

theorem agrees_walk (hbase : base.Settled) (prefer : Namespace) (single : Bool) :
    ∀ (segments : List PathSegment) (spot : Spot) {env : Env} {s : Session},
      (∀ m ∈ spot.reached, s.Knows m) → Ready base env (segmentsNodeIds segments) s →
      Agrees base env (segmentsNodeIds segments) s
        (walk (env.walk base prefer single) spot.position segments)
        (readSegments base env prefer single spot segments) (fun _ => env) Names
  | [], spot, env, s, hspot, hready => Agrees.pure hready.stands rfl ⟨rfl, hspot⟩
  | seg :: rest, spot, env, s, hspot, hready => by
      refine Agrees.bind hready (seg.agrees hbase prefer single spot rest.isEmpty hready.left)
        fun a s' hreaches hready => ?_
      obtain ⟨rfl, hknown⟩ := hreaches
      cases hvalue : (seg.read base env prefer single spot rest.isEmpty).value with
      | none => exact Agrees.pure hready.stands rfl ⟨rfl, fun _ h => nomatch h⟩
      | some spot' => exact agrees_walk hbase prefer single rest spot' (hknown spot' hvalue) hready

theorem PathSegment.agrees (hbase : base.Settled) (prefer : Namespace) (single : Bool)
    (spot : Spot) (isLast : Bool) :
    ∀ (seg : PathSegment) {env : Env} {s : Session}, Ready base env seg.nodeIds s →
      Agrees base env seg.nodeIds s (seg.follow (env.walk base prefer single) spot.position isLast)
        (seg.read base env prefer single spot isLast) (fun _ => env) Reaches
  | ⟨node, .malformed, generics⟩, _, _, hready => agrees_stop hready.stands _
  | ⟨node, .crate, generics⟩, _, _, hready =>
      (agrees_unlessDeferred hready.stands
        (agrees_followFirst hbase hready.stands spot _ hbase.rootModule)).mono
        (PathSegment.own_subperm ⟨node, .crate, generics⟩)
  | ⟨node, .selfModule, generics⟩, _, _, hready =>
      (agrees_unlessDeferred hready.stands
        (agrees_followFirst hbase hready.stands spot _ hready.stands.isModule_here)).mono
        (PathSegment.own_subperm ⟨node, .selfModule, generics⟩)
  | ⟨node, .super, generics⟩, _, _, hready =>
      (agrees_unlessDeferred hready.stands (agrees_followSuper hbase hready.stands spot _)).mono
        (PathSegment.own_subperm ⟨node, .super, generics⟩)
  | ⟨node, .ident name, none⟩, _, _, hready =>
      agrees_unlessDeferred hready.stands
        (agrees_followName hbase hready.stands spot ⟨node, .ident name, none⟩ name isLast)
  | ⟨node, .ident name, some args⟩, env, s, hready => by
      -- The arguments come first, although the segment is their parent.
      have hargs : Ready base env (args.nodeIds ++ [node.id]) s :=
        hready.mono (List.perm_append_singleton _ _).subperm
      refine Agrees.mono ?_ (List.perm_append_singleton _ _).subperm
      refine agrees_unlessDeferred hready.stands ?_
      exact Agrees.bind hargs (args.agrees hbase hargs.left) fun _ _ _ hready =>
        agrees_followName hbase hready.stands spot _ name isLast

theorem GenericArgs.agrees (hbase : base.Settled) :
    ∀ (args : GenericArgs) {env : Env} {s : Session}, Ready base env args.nodeIds s →
      Agrees base env args.nodeIds s args.resolve (args.read base env) (fun _ => env)
        fun _ _ _ => True
  | ⟨types, _⟩, _, _, hready => agrees_tys hbase types hready

theorem agrees_tys (hbase : base.Settled) :
    ∀ (ts : List Ty) {env : Env} {s : Session}, Ready base env (tysNodeIds ts) s →
      Agrees base env (tysNodeIds ts) s (resolveTys ts) (readTys base env ts) (fun _ => env)
        fun _ _ _ => True
  | [], _, _, hready => Agrees.pure hready.stands rfl trivial
  | t :: ts, _, _, hready =>
      Agrees.bind hready (t.agrees hbase hready.left).discard fun _ _ _ hready =>
        agrees_tys hbase ts hready

theorem Ty.agrees (hbase : base.Settled) :
    ∀ (t : Ty) {env : Env} {s : Session}, Ready base env t.nodeIds s →
      Agrees base env t.nodeIds s t.resolve (t.read base env) (fun _ => env) NamesType
  | .path _ p, env, s, hready => by
      refine Agrees.skip (Agrees.bind_all hready.tail (p.agrees hbase .type hready.tail)
        fun a s' hnames hready => ?_)
      obtain ⟨rfl, hknown⟩ := hnames
      cases hvalue : (p.read base env .type).value with
      | none => exact Agrees.pure hready.stands rfl ⟨rfl, rfl, fun _ h => nomatch h⟩
      | some m =>
          have hm := hknown m hvalue
          refine Agrees.get_bind (Agrees.pure hready.stands rfl ⟨rfl, ?_, fun m' hm' => ?_⟩)
          · rw [hm.named]
            rfl
          · cases hm'
            exact hm.offers
  | .qualified _ p, _, _, hready =>
      ((p.agrees hbase hready.tail).map rfl fun _ _ h => ⟨rfl, h, fun _ h => nomatch h⟩).skip
  | .tuple n [], _, _, hready =>
      agrees_resolveBuiltin hbase hready.stands n.id Builtins.unit (by simp [Builtins.types])
  | .tuple _ (t :: ts), _, _, hready =>
      ((agrees_tys hbase (t :: ts) hready.tail).map rfl
        fun _ _ _ => ⟨rfl, rfl, fun _ h => nomatch h⟩).skip
  | .array _ elem size, env, s, hready => by
      refine Agrees.skip (Agrees.bind hready.tail (elem.agrees hbase hready.tail.left)
        fun a s' hnames hready => ?_)
      -- The type that the elements name can still be bound once the size has been resolved.
      have hsize : Agrees base env size.nodeIds s' size.resolve (size.read base env)
          (fun _ => env) fun _ _ s'' => ∀ m ∈ (elem.read base env).value.decl, s''.Offers m :=
        (size.agrees hbase hready).imp fun _ _ hstep _ m hm => hstep.offers m (hnames.2.2 m hm)
      exact hsize.map rfl fun _ _ hoffers => ⟨hnames.1, rfl, hoffers⟩
  | .slice n elem, _, _, hready =>
      ((elem.agrees hbase hready.tail).map rfl fun _ _ h => h.wrapped n.id _).skip
  | .reference n _ inner, _, _, hready =>
      ((inner.agrees hbase hready.tail).map rfl fun _ _ h => h.wrapped n.id _).skip
  | .pointer n _ inner, _, _, hready =>
      ((inner.agrees hbase hready.tail).map rfl fun _ _ h => h.wrapped n.id _).skip
  | .dynOne _ bound, _, _, hready =>
      ((bound.agrees hbase hready.tail).map rfl fun _ _ h =>
        ⟨h.1, rfl, fun m hm => (h.2 m hm).offers⟩).skip
  | .dyn _ bounds, _, _, hready =>
      ((agrees_bounds hbase bounds hready.tail).map rfl
        fun _ _ _ => ⟨rfl, rfl, fun _ h => nomatch h⟩).skip
  | .fnPointer _ params none, _, _, hready =>
      ((agrees_paramTys hbase params hready.tail).map rfl
        fun _ _ _ => ⟨rfl, rfl, fun _ h => nomatch h⟩).skip
  | .fnPointer _ params (some ret), _, _, hready =>
      (Agrees.bind hready.tail (agrees_paramTys hbase params hready.tail.left)
        fun _ _ _ hready => (ret.agrees hbase hready).discard.map rfl
          fun _ _ _ => ⟨rfl, rfl, fun _ h => nomatch h⟩).skip
  | .inferred n, _, _, hready =>
      agrees_resolveBuiltin hbase hready.stands n.id Builtins.inferred (by simp [Builtins.types])
  | .never n, _, _, hready =>
      agrees_resolveBuiltin hbase hready.stands n.id Builtins.never (by simp [Builtins.types])

theorem QualifiedPath.agrees (hbase : base.Settled) :
    ∀ (p : QualifiedPath) {env : Env} {s : Session}, Ready base env p.nodeIds s →
      Agrees base env p.nodeIds s p.resolve (p.read base env) (fun _ => env) Same
  | ⟨node, qualifier, associated, rest⟩, env, s, hready => by
      -- The node itself is worked on last, when all of the canonical form is known.
      have hids : List.Perm
          (qualifier.nodeIds ++ (associated.nodeIds ++ (segmentsNodeIds rest ++ [node.id])))
          (QualifiedPath.nodeIds ⟨node, qualifier, associated, rest⟩) := by
        rw [← List.append_assoc, ← List.append_assoc]
        exact List.perm_append_singleton _ _
      have hready' := hready.mono hids.subperm
      refine Agrees.mono ?_ hids.subperm
      refine Agrees.bind hready' (qualifier.agrees hbase hready'.left) fun _ _ hsame hready => ?_
      rw [hsame]
      cases (qualifier.read base env).value with
      | none => exact Agrees.pure hready.stands rfl rfl
      | some head =>
          refine Agrees.bind hready (associated.appends hbase head hready.left)
            fun _ _ hsame hready => ?_
          rw [hsame]
          cases (associated.readAppended base env head).value with
          | none => exact Agrees.pure hready.stands rfl rfl
          | some path =>
              refine Agrees.bind hready (agrees_appendSegments hbase path rest hready.left)
                fun _ _ hsame hready => ?_
              rw [hsame]
              cases (readAppendedSegments base env path rest).value with
              | none => exact Agrees.pure hready.stands rfl rfl
              | some path =>
                  exact (agrees_setQualified hready.stands node.id path).map rfl fun _ _ _ => rfl

theorem Qualifier.agrees (hbase : base.Settled) :
    ∀ (q : Qualifier) {env : Env} {s : Session}, Ready base env q.nodeIds s →
      Agrees base env q.nodeIds s q.resolve (q.read base env) (fun _ => env) Same
  | ⟨node, selfTy, none⟩, env, s, hready => by
      refine Agrees.skip (Agrees.bind_all hready.tail (selfTy.agrees hbase hready.tail)
        fun t s' hnames hready => ?_)
      refine Agrees.runs_bind hnames.runs_headPath ?_
      cases (selfTy.read base env).value.headPath with
      | none => exact Agrees.pure hready.stands rfl rfl
      | some selfPath => exact Agrees.pure hready.stands rfl rfl
  | ⟨node, selfTy, some traitPath⟩, env, s, hready => by
      refine Agrees.skip (Agrees.bind hready.tail (selfTy.agrees hbase hready.tail.left)
        fun t s' hnames hready => ?_)
      refine Agrees.runs_bind hnames.runs_headPath ?_
      cases (selfTy.read base env).value.headPath with
      | none => exact Agrees.pure hready.stands rfl rfl
      | some selfPath =>
          refine Agrees.bind_all hready (traitPath.agrees hbase .type hready)
            fun _ _ hnames hready => ?_
          obtain ⟨rfl, hknown⟩ := hnames
          cases hvalue : (traitPath.read base env .type).value with
          | none => exact Agrees.pure hready.stands rfl rfl
          | some m =>
              refine Agrees.runs_bind (hknown m hvalue).offers.runs_pathOf ?_
              exact Agrees.pure hready.stands rfl rfl

theorem agrees_appendSegments (hbase : base.Settled) (path : CanonicalPath) :
    ∀ (segments : List PathSegment) {env : Env} {s : Session},
      Ready base env (segmentsNodeIds segments) s →
      Agrees base env (segmentsNodeIds segments) s (appendSegments path segments)
        (readAppendedSegments base env path segments) (fun _ => env) Same
  | [], _, _, hready => Agrees.pure hready.stands rfl rfl
  | seg :: rest, env, _, hready => by
      refine Agrees.bind hready (seg.appends hbase path hready.left) fun _ _ hsame hready => ?_
      rw [hsame]
      cases (seg.readAppended base env path).value with
      | none => exact Agrees.pure hready.stands rfl rfl
      | some path => exact agrees_appendSegments hbase path rest hready

theorem PathSegment.appends (hbase : base.Settled) (path : CanonicalPath) :
    ∀ (seg : PathSegment) {env : Env} {s : Session}, Ready base env seg.nodeIds s →
      Agrees base env seg.nodeIds s (seg.append path) (seg.readAppended base env path)
        (fun _ => env) Same
  | ⟨node, ident, none⟩, env, s, hready => by
      rw [PathSegment.append, PathSegment.readAppended]
      split
      · exact (agrees_stopWith hready.stands _ fun _ => rfl).mono List.nil_subperm
      · exact Agrees.pure hready.stands rfl rfl
  | ⟨node, ident, some args⟩, env, s, hready => by
      rw [PathSegment.append, PathSegment.readAppended]
      split
      · exact (agrees_stopWith hready.stands _ fun _ => rfl).mono List.nil_subperm
      · exact ((args.agrees hbase hready.tail).map rfl fun _ _ _ => rfl).skip

theorem agrees_paramTys (hbase : base.Settled) :
    ∀ (ps : List FnPointerParam) {env : Env} {s : Session}, Ready base env (paramTysNodeIds ps) s →
      Agrees base env (paramTysNodeIds ps) s (resolveParamTys ps) (readParamTys base env ps)
        (fun _ => env) fun _ _ _ => True
  | [], _, _, hready => Agrees.pure hready.stands rfl trivial
  | ⟨_, _, ty⟩ :: ps, _, _, hready =>
      (Agrees.bind hready.tail (ty.agrees hbase hready.tail.left).discard fun _ _ _ hready =>
        agrees_paramTys hbase ps hready).skip

theorem TraitBound.agrees (hbase : base.Settled) :
    ∀ (b : TraitBound) {env : Env} {s : Session}, Ready base env b.nodeIds s →
      Agrees base env b.nodeIds s b.resolve (b.read base env) (fun _ => env) Names
  | ⟨_, path⟩, _, _, hready => (path.agrees hbase .type hready.tail).skip

theorem Bound.agrees (hbase : base.Settled) :
    ∀ (b : Bound) {env : Env} {s : Session}, Ready base env b.nodeIds s →
      Agrees base env b.nodeIds s b.resolve (b.read base env) (fun _ => env) Names
  | .trait bound, _, _, hready => bound.agrees hbase hready
  | .lifetime _, _, _, hready => Agrees.pure hready.stands rfl ⟨rfl, fun _ h => nomatch h⟩

theorem agrees_bounds (hbase : base.Settled) :
    ∀ (bs : List Bound) {env : Env} {s : Session}, Ready base env (boundsNodeIds bs) s →
      Agrees base env (boundsNodeIds bs) s (resolveBounds bs) (readBounds base env bs)
        (fun _ => env) fun _ _ _ => True
  | [], _, _, hready => Agrees.pure hready.stands rfl trivial
  | b :: bs, _, _, hready =>
      Agrees.bind hready (b.agrees hbase hready.left).discard fun _ _ _ hready =>
        agrees_bounds hbase bs hready

theorem Expr.agrees (hbase : base.Settled) :
    ∀ (e : Expr) {env : Env} {s : Session}, Ready base env e.nodeIds s →
      Agrees base env e.nodeIds s e.resolve (e.read base env) (fun _ => env) fun _ _ _ => True
  | .literal _ _, _, _, hready => Agrees.pure hready.stands rfl trivial
  | .path _ p, _, _, hready => (p.agrees hbase .name hready.tail).discard.skip
  | .unary _ _ operand, _, _, hready => (operand.agrees hbase hready.tail).skip
  | .binary _ _ lhs rhs, _, _, hready =>
      (Agrees.bind hready.tail (lhs.agrees hbase hready.tail.left) fun _ _ _ hready =>
        rhs.agrees hbase hready).skip
  | .call _ callee args, _, _, hready =>
      (Agrees.bind hready.tail (callee.agrees hbase hready.tail.left) fun _ _ _ hready =>
        agrees_exprs hbase args hready).skip
  | .cast _ operand ty, _, _, hready =>
      (Agrees.bind hready.tail (operand.agrees hbase hready.tail.left) fun _ _ _ hready =>
        (ty.agrees hbase hready).discard).skip
  | .tuple _ elems, _, _, hready => (agrees_exprs hbase elems hready.tail).skip
  | .group _ inner, _, _, hready => (inner.agrees hbase hready.tail).skip
  | .block _ body, _, _, hready => (body.agrees hbase hready.tail).skip

theorem agrees_exprs (hbase : base.Settled) :
    ∀ (es : List Expr) {env : Env} {s : Session}, Ready base env (exprsNodeIds es) s →
      Agrees base env (exprsNodeIds es) s (resolveExprs es) (readExprs base env es)
        (fun _ => env) fun _ _ _ => True
  | [], _, _, hready => Agrees.pure hready.stands rfl trivial
  | e :: es, _, _, hready =>
      Agrees.bind hready (e.agrees hbase hready.left) fun _ _ _ hready =>
        agrees_exprs hbase es hready

theorem Block.agrees (hbase : base.Settled) :
    ∀ (b : Block) {env : Env} {s : Session}, Ready base env b.nodeIds s →
      Agrees base env b.nodeIds s b.resolve (b.read base env) (fun _ => env) fun _ _ _ => True
  | ⟨node, stmts, none⟩, env, s, hready => by
      let inner := env.enter node.id (Block.nodeIds ⟨node, stmts, none⟩)
      have hready' : Ready base inner (stmtsNodeIds stmts) (s.openFrame node.id) :=
        hready.enter (List.Subset.refl _)
      have hinner : Agrees base inner (stmtsNodeIds stmts) (s.openFrame node.id)
          (do resolveStmts stmts; pure ()) (do discard (readStmts base inner stmts))
          (fun _ => (readStmts base inner stmts).value) fun _ _ _ => True :=
        (agrees_stmts hbase stmts hready' (List.cons_ne_nil _ _)).map rfl fun _ _ _ => trivial
      exact Agrees.inFrame hready.stands hready.apart hinner
  | ⟨node, stmts, some tail⟩, env, s, hready => by
      let inner := env.enter node.id (Block.nodeIds ⟨node, stmts, some tail⟩)
      have hready' : Ready base inner (stmtsNodeIds stmts ++ tail.nodeIds) (s.openFrame node.id) :=
        hready.enter (List.Subset.refl _)
      exact Agrees.inFrame hready.stands hready.apart
        (Agrees.bind hready' (agrees_stmts hbase stmts hready'.left (List.cons_ne_nil _ _))
          fun _ _ _ hready => tail.agrees hbase hready)

theorem agrees_stmts (hbase : base.Settled) :
    ∀ (stmts : List Stmt) {env : Env} {s : Session}, Ready base env (stmtsNodeIds stmts) s →
      env.frames ≠ [] →
      Agrees base env (stmtsNodeIds stmts) s (resolveStmts stmts) (readStmts base env stmts) id
        HasFrame
  | [], _, _, hready, hframes => Agrees.pure hready.stands rfl hframes
  | st :: rest, _, _, hready, hframes =>
      Agrees.bind hready (st.agrees hbase hready.left hframes) fun _ _ hframes hready =>
        agrees_stmts hbase rest hready hframes

theorem Stmt.agrees (hbase : base.Settled) :
    ∀ (st : Stmt) {env : Env} {s : Session}, Ready base env st.nodeIds s → env.frames ≠ [] →
      Agrees base env st.nodeIds s st.resolve (st.read base env) id HasFrame
  | .bind _ pattern none none, _, _, hready, hframes =>
      (pattern.agrees true hready.tail hframes).skip
  -- The pattern comes last, so neither the type nor the value sees the names it introduces.
  | .bind _ pattern (some ty) none, env, s, hready, hframes => by
      have hready' : Ready base env (ty.nodeIds ++ pattern.nodeIds) s :=
        hready.tail.mono List.perm_append_comm.subperm
      refine Agrees.skip (Agrees.mono ?_ List.perm_append_comm.subperm)
      exact Agrees.bind hready' (ty.agrees hbase hready'.left).discard fun _ _ _ hready =>
        pattern.agrees true hready hframes
  | .bind _ pattern none (some init), env, s, hready, hframes => by
      have hready' : Ready base env (init.nodeIds ++ pattern.nodeIds) s :=
        hready.tail.mono List.perm_append_comm.subperm
      refine Agrees.skip (Agrees.mono ?_ List.perm_append_comm.subperm)
      exact Agrees.bind hready' (init.agrees hbase hready'.left) fun _ _ _ hready =>
        pattern.agrees true hready hframes
  | .bind _ pattern (some ty) (some init), env, s, hready, hframes => by
      have hids : (ty.nodeIds ++ (init.nodeIds ++ pattern.nodeIds)).Perm
          (pattern.nodeIds ++ ty.nodeIds ++ init.nodeIds) := by
        rw [← List.append_assoc, List.append_assoc pattern.nodeIds]
        exact List.perm_append_comm
      have hready' := hready.tail.mono hids.subperm
      refine Agrees.skip (Agrees.mono ?_ hids.subperm)
      exact Agrees.bind hready' (ty.agrees hbase hready'.left).discard fun _ _ _ hready =>
        Agrees.bind hready (init.agrees hbase hready.left) fun _ _ _ hready =>
          pattern.agrees true hready hframes
  | .expr _ value, env, _, hready, hframes =>
      ((value.agrees hbase hready.tail).mapRead rfl fun _ _ _ => hframes).skip
  | .empty _, _, _, hready, hframes => Agrees.pure hready.stands rfl hframes

end

end NameResolution
