import NameResolution.Proofs.Identities
import NameResolution.Proofs.Sites
import NameResolution.Proofs.Lexical.ItemReading

/-!
# NameResolution.Proofs.Lexical.Traversal

**One induction over the readings.** The readings of types, expressions and items follow
the tree, and most of what can be said about them is about paths. A `Traversal P` says how
`P`, a relation between the readings of one part in two sessions and the sites of that
part, holds of a path if it holds of the arguments in it, and that `P` goes along with
sequencing. Then `P` holds of every part of a crate (`Traversal.items`).

Statements about one session take it twice.
-/

namespace NameResolution

/-- Whether an error is about a declaration that cannot be seen. -/
def ResolveError.isPrivate : ResolveError → Bool
  | .privateItem _ _ _ => true
  | _ => false

/-- A relation between two readings of a part and its sites that is kept all along. Some frames are
around everything that is read. -/
structure Traversal (base base' : Session) (outer : List Frame)
    (P : ∀ {α : Type}, Reading α → Reading α → List PlacedSite → Prop) : Prop where
  pure : ∀ {α : Type} (a : α), P (pure a) (pure a) []
  bind : ∀ {α β : Type} {r r' : Reading α} {next next' : α → Reading β} {l₁ l₂ : List PlacedSite},
    P r r' l₁ → P (next r.value) (next' r.value) l₂ → P (r >>= next) (r' >>= next') (l₁ ++ l₂)
  introduce : ∀ (env : Env) (space : Namespace) (l : LocalName),
    ∀ complaint ∈ [GenericParam.redefinition, Resolution.redefinition],
    P (env.readNew space l complaint) (env.readNew space l complaint) []
  builtin : ∀ (modules : List NodeId) (use : NodeId),
    ∀ pick ∈ [Builtins.unit, Builtins.never, Builtins.inferred],
    P (readBuiltin base use (pick base.builtins)) (readBuiltin base' use (pick base'.builtins))
      [⟨modules, .type use⟩]
  path : ∀ (env : Env) (prefer : Namespace) (p : Path), outer <:+ env.frames →
    (∀ seg ∈ p.segments, ∀ args, seg.generics = some args →
      P (args.read base env) (args.read base' env) (args.sites.map (.mk env.modules))) →
    P (p.read base env prefer) (p.read base' env prefer) (p.sites.map (.mk env.modules))
  qualified : ∀ (env : Env) (p : QualifiedPath), outer <:+ env.frames →
    P (p.qualifier.selfTy.read base env) (p.qualifier.selfTy.read base' env)
      (p.qualifier.selfTy.sites.map (.mk env.modules)) →
    (∀ asTrait, p.qualifier.asTrait = some asTrait →
      P (asTrait.read base env .type) (asTrait.read base' env .type)
        (asTrait.sites.map (.mk env.modules))) →
    (∀ seg ∈ p.associated :: p.rest, ∀ args, seg.generics = some args →
      P (args.read base env) (args.read base' env) (args.sites.map (.mk env.modules))) →
    P (p.read base env) (p.read base' env) (p.sites.map (.mk env.modules))

/-! ### What is around the innermost frame stays the same -/

/-- The environment around the innermost frame. -/
def Env.outside (env : Env) : Env := { env with frames := env.frames.tail }

namespace Env

variable (env : Env)

@[simp] theorem outside_enter (owner : NodeId) (extent : List NodeId) :
    (env.enter owner extent).outside = env := rfl

@[simp] theorem modules_outside : env.outside.modules = env.modules := rfl

/-- There need not be any frame around. -/
theorem nil_suffix : [] <:+ env.frames := List.nil_suffix

/-- Whatever is around the innermost frame is around all that the frame is visible in. -/
theorem suffix_of_outside {env : Env} {outer : List Frame} (h : outer <:+ env.outside.frames) :
    outer <:+ env.frames := h.trans (List.tail_suffix env.frames)

@[simp] theorem outside_bind (space : Namespace) (l : LocalName) :
    (env.bind space l).outside = env.outside := by
  unfold bind
  split <;> simp [outside, *]

@[simp] theorem outside_readNew (space : Namespace) (l : LocalName)
    (complaint : Binding → Binding → ResolveError) :
    (env.readNew space l complaint).value.outside = env.outside := by
  unfold readNew
  split
  · rfl
  · exact env.outside_bind space l

@[simp] theorem outside_readPatternName (shadow : Bool) (node : Node) (name : Ident) :
    (env.readPatternName shadow node name).value.outside = env.outside := by
  unfold readPatternName
  split
  · exact env.outside_bind _ _
  · exact env.outside_readNew _ _ _

@[simp] theorem outside_readSelf (owner : NodeId) (target : Option Meaning) (locus : Span) :
    (env.readSelf owner target locus).value.outside = env.outside := by
  unfold readSelf
  split
  · rfl
  · exact env.outside_readNew _ _ _

@[simp] theorem outside_readReceiver (r : Option SelfParam) :
    (readReceiver env r).value.outside = env.outside := by
  cases r with
  | none => rfl
  | some r => exact env.outside_readNew _ _ _

end Env

mutual

theorem Pattern.outside_read (env : Env) (shadow : Bool) :
    ∀ p : Pattern, (p.read env shadow).value.outside = env.outside
  | .binding node name _ => env.outside_readPatternName shadow node name
  | .tuple _ elems => outside_readPatterns env shadow elems
  | .wildcard _ => rfl

theorem outside_readPatterns (env : Env) (shadow : Bool) :
    ∀ ps : List Pattern, (readPatterns env shadow ps).value.outside = env.outside
  | [] => rfl
  | p :: ps => (outside_readPatterns _ shadow ps).trans (p.outside_read env shadow)

end

theorem Stmt.outside_read (base : Session) (env : Env) :
    ∀ s : Stmt, (s.read base env).value.outside = env.outside
  | .bind _ pattern none none | .bind _ pattern none (some _)
  | .bind _ pattern (some _) none | .bind _ pattern (some _) (some _) =>
      pattern.outside_read env true
  | .expr _ _ | .empty _ => rfl

theorem outside_readStmts (base : Session) : ∀ (stmts : List Stmt) (env : Env),
    (readStmts base env stmts).value.outside = env.outside
  | [], _ => rfl
  | s :: rest, env => (outside_readStmts base rest _).trans (s.outside_read base env)

theorem GenericParam.outside_read (base : Session) (env : Env) (p : GenericParam) :
    (p.read base env).value.outside = env.outside := by
  unfold GenericParam.read
  split
  · exact env.outside_readNew _ _ _
  · exact env.outside_readNew _ _ _
  · rfl

theorem Param.outside_read (base : Session) (env : Env) (p : Param) :
    (p.read base env).value.outside = env.outside := p.pattern.outside_read env false

theorem outside_foldlM {f : Env → β → Reading Env}
    (h : ∀ env b, (f env b).value.outside = env.outside) :
    ∀ (l : List β) (env : Env), (l.foldlM f env).value.outside = env.outside
  | [], _ => rfl
  | b :: l, env => by
      rw [List.foldlM_cons, Reading.value_bind]
      exact (outside_foldlM h l _).trans (h env b)

theorem Generics.outside_read (base : Session) (env : Env) (g : Generics) :
    (g.read base env).value.outside = env.outside :=
  outside_foldlM (GenericParam.outside_read base) g.params env

namespace Traversal

variable {base base' : Session} {outer : List Frame}
  {P : ∀ {α : Type}, Reading α → Reading α → List PlacedSite → Prop}
  (h : Traversal base base' outer P)

include h

/-! ### Sequencing -/

section Sequencing

variable {α β : Type} {r r' : Reading α} {l : List PlacedSite}

/-- Something is made of the value. -/
theorem map (hr : P r r' l) (f : α → β) :
    P (r >>= fun a => Pure.pure (f a)) (r' >>= fun a => Pure.pure (f a)) l := by
  have hbind : P (r >>= fun a => Pure.pure (f a)) (r' >>= fun a => Pure.pure (f a)) (l ++ []) :=
    h.bind hr (h.pure (f r.value))
  rwa [List.append_nil] at hbind

theorem discard (hr : P r r' l) : P (Functor.discard r) (Functor.discard r') l :=
  h.map hr fun _ => ()

/-- What comes first has no sites. -/
theorem first {next next' : α → Reading β} (hr : P r r' [])
    (hnext : P (next r.value) (next' r.value) l) : P (r >>= next) (r' >>= next') l :=
  h.bind hr hnext

/-- What comes after has no sites. -/
theorem last {next next' : α → Reading β} (hr : P r r' l)
    (hnext : P (next r.value) (next' r.value) []) : P (r >>= next) (r' >>= next') l := by
  have hbind := h.bind hr hnext
  rwa [List.append_nil] at hbind

end Sequencing

/-! ### Patterns -/

/-- Every name is introduced in the same way, and only its namesakes are in the way. -/
theorem introduceNew (env : Env) (space : Namespace) (l : LocalName) :
    P (env.readNew space l Resolution.redefinition) (env.readNew space l Resolution.redefinition)
      [] :=
  h.introduce env space l _ (by simp)

theorem patternName (env : Env) (shadow : Bool) (node : Node) (name : Ident) :
    P (env.readPatternName shadow node name) (env.readPatternName shadow node name) [] := by
  unfold Env.readPatternName
  split
  · exact h.pure _
  · exact h.introduceNew _ _ _

omit h in
mutual

theorem pattern (h : Traversal base base' outer P) (env : Env) (shadow : Bool) :
    ∀ p : Pattern, P (p.read env shadow) (p.read env shadow) []
  | .binding node name _ => h.patternName env shadow node name
  | .tuple _ elems => h.patterns env shadow elems
  | .wildcard _ => h.pure _

theorem patterns (h : Traversal base base' outer P) (env : Env) (shadow : Bool) :
    ∀ ps : List Pattern, P (readPatterns env shadow ps) (readPatterns env shadow ps) []
  | [] => h.pure _
  | p :: ps => h.bind (h.pattern env shadow p) (h.patterns _ shadow ps)

end

/-! ### Types and expressions -/

omit h in
mutual

theorem followPath (h : Traversal base base' outer P) {env : Env} (henv : outer <:+ env.frames)
    (prefer : Namespace) : ∀ p : Path,
      P (p.read base env prefer) (p.read base' env prefer) (p.sites.map (.mk env.modules))
  | ⟨_, segments⟩ => h.path env prefer _ henv (h.segmentArgs henv segments)

theorem segmentArgs (h : Traversal base base' outer P) {env : Env} (henv : outer <:+ env.frames) :
    ∀ (segments : List PathSegment), ∀ seg ∈ segments, ∀ args, seg.generics = some args →
      P (args.read base env) (args.read base' env) (args.sites.map (.mk env.modules))
  | [], _, hseg, _, _ => nomatch hseg
  | first :: rest, seg, hseg, args, hargs => by
      rcases List.mem_cons.mp hseg with heq | hseg
      · exact h.ownArgs henv first args (heq ▸ hargs)
      · exact h.segmentArgs henv rest seg hseg args hargs

theorem ownArgs (h : Traversal base base' outer P) {env : Env} (henv : outer <:+ env.frames) :
    ∀ (seg : PathSegment) (args : GenericArgs), seg.generics = some args →
      P (args.read base env) (args.read base' env) (args.sites.map (.mk env.modules))
  | ⟨_, _, none⟩, _, hargs => nomatch hargs
  | ⟨_, _, some own⟩, _, hargs => by
      cases hargs
      exact h.args henv own

theorem args (h : Traversal base base' outer P) {env : Env} (henv : outer <:+ env.frames) :
    ∀ a : GenericArgs, P (a.read base env) (a.read base' env) (a.sites.map (.mk env.modules))
  | ⟨types, _⟩ => h.tys henv types

theorem tys (h : Traversal base base' outer P) {env : Env} (henv : outer <:+ env.frames) :
    ∀ ts : List Ty,
      P (readTys base env ts) (readTys base' env ts) ((tysSites ts).map (.mk env.modules))
  | [] => h.pure _
  | t :: ts => by
      rw [tysSites, List.map_append]
      exact h.bind (h.discard (h.ty henv t)) (h.tys henv ts)

theorem ty (h : Traversal base base' outer P) {env : Env} (henv : outer <:+ env.frames) :
    ∀ t : Ty, P (t.read base env) (t.read base' env) (t.sites.map (.mk env.modules))
  | .path _ p => h.last (h.followPath henv .type p) (by split <;> exact h.pure _)
  | .qualified _ p => h.map (h.qualifiedPath henv p) _
  | .tuple n [] => h.builtin env.modules n.id _ (by simp)
  | .tuple _ (t :: ts) => by
      change P _ _ ((tysSites (t :: ts)).map (.mk env.modules))
      rw [tysSites, List.map_append]
      exact h.map (h.bind (h.discard (h.ty henv t)) (h.tys henv ts)) _
  | .array _ elem size => by
      rw [Ty.sites, List.map_append]
      exact h.bind (h.ty henv elem) (h.map (h.expr henv size) _)
  | .slice _ elem => h.map (h.ty henv elem) _
  | .reference _ _ inner => h.map (h.ty henv inner) _
  | .pointer _ _ inner => h.map (h.ty henv inner) _
  | .dynOne _ ⟨_, path⟩ => h.map (h.followPath henv .type path) _
  | .dyn _ bounds => h.map (h.bounds henv bounds) _
  | .fnPointer _ params none => h.map (h.paramTys henv params) _
  | .fnPointer _ params (some ret) => by
      rw [Ty.sites, List.map_append]
      exact h.bind (h.paramTys henv params) (h.map (h.discard (h.ty henv ret)) _)
  | .inferred n => h.builtin env.modules n.id _ (by simp)
  | .never n => h.builtin env.modules n.id _ (by simp)

theorem qualifiedPath (h : Traversal base base' outer P) {env : Env} (henv : outer <:+ env.frames) :
    ∀ p : QualifiedPath, P (p.read base env) (p.read base' env) (p.sites.map (.mk env.modules))
  | ⟨_, ⟨_, selfTy, none⟩, associated, rest⟩ =>
      h.qualified env _ henv (h.ty henv selfTy) (fun _ htrait => nomatch htrait)
        (List.forall_mem_cons.mpr ⟨h.ownArgs henv associated, h.segmentArgs henv rest⟩)
  | ⟨_, ⟨_, selfTy, some asTrait⟩, associated, rest⟩ =>
      h.qualified env _ henv (h.ty henv selfTy)
        (fun _ htrait => by cases htrait; exact h.followPath henv .type asTrait)
        (List.forall_mem_cons.mpr ⟨h.ownArgs henv associated, h.segmentArgs henv rest⟩)

theorem bounds (h : Traversal base base' outer P) {env : Env} (henv : outer <:+ env.frames) :
    ∀ bs : List Bound,
      P (readBounds base env bs) (readBounds base' env bs) ((boundsSites bs).map (.mk env.modules))
  | [] => h.pure _
  | .trait ⟨_, path⟩ :: bs => by
      rw [boundsSites, List.map_append]
      exact h.bind (h.discard (h.followPath henv .type path)) (h.bounds henv bs)
  | .lifetime _ :: bs => by
      rw [boundsSites, List.map_append]
      exact h.bind (h.discard (h.pure _)) (h.bounds henv bs)

theorem paramTys (h : Traversal base base' outer P) {env : Env} (henv : outer <:+ env.frames) :
    ∀ ps : List FnPointerParam,
      P (readParamTys base env ps) (readParamTys base' env ps)
        ((paramTysSites ps).map (.mk env.modules))
  | [] => h.pure _
  | ⟨_, _, ty⟩ :: ps => by
      rw [paramTysSites, List.map_append]
      exact h.bind (h.discard (h.ty henv ty)) (h.paramTys henv ps)

theorem expr (h : Traversal base base' outer P) {env : Env} (henv : outer <:+ env.frames) :
    ∀ e : Expr, P (e.read base env) (e.read base' env) (e.sites.map (.mk env.modules))
  | .literal _ _ => h.pure _
  | .path _ p => h.discard (h.followPath henv .name p)
  | .unary _ _ operand => h.expr henv operand
  | .binary _ _ lhs rhs => by
      rw [Expr.sites, List.map_append]
      exact h.bind (h.expr henv lhs) (h.expr henv rhs)
  | .call _ callee args => by
      rw [Expr.sites, List.map_append]
      exact h.bind (h.expr henv callee) (h.exprs henv args)
  | .cast _ operand ty => by
      rw [Expr.sites, List.map_append]
      exact h.bind (h.expr henv operand) (h.discard (h.ty henv ty))
  | .tuple _ elems => h.exprs henv elems
  | .group _ inner => h.expr henv inner
  | .block _ body => h.block henv body

theorem exprs (h : Traversal base base' outer P) {env : Env} (henv : outer <:+ env.frames) :
    ∀ es : List Expr,
      P (readExprs base env es) (readExprs base' env es) ((exprsSites es).map (.mk env.modules))
  | [] => h.pure _
  | e :: es => by
      rw [exprsSites, List.map_append]
      exact h.bind (h.expr henv e) (h.exprs henv es)

theorem block (h : Traversal base base' outer P) {env : Env} (henv : outer <:+ env.frames) :
    ∀ b : Block, P (b.read base env) (b.read base' env) (b.sites.map (.mk env.modules))
  | ⟨_, stmts, none⟩ => h.last (h.stmts stmts (env.enter _ _) henv) (h.pure _)
  | ⟨node, stmts, some tail⟩ => by
      let inner := env.enter node.id (Block.nodeIds ⟨node, stmts, some tail⟩)
      have houtside : (readStmts base inner stmts).value.outside = env :=
        outside_readStmts base stmts inner
      have hafter : outer <:+ (readStmts base inner stmts).value.outside.frames := by
        rwa [houtside]
      have htail := h.expr (Env.suffix_of_outside hafter) tail
      rw [← Env.modules_outside, houtside] at htail
      rw [Block.sites, List.map_append]
      exact h.bind (h.stmts stmts inner henv) htail

theorem stmts (h : Traversal base base' outer P) :
    ∀ (stmts : List Stmt) (env : Env), outer <:+ env.outside.frames →
      P (readStmts base env stmts) (readStmts base' env stmts)
        ((stmtsSites stmts).map (.mk env.modules))
  | [], _, _ => h.pure _
  | s :: rest, env, henv => by
      have houtside : (s.read base env).value.outside = env.outside := s.outside_read base env
      have hrest := h.stmts rest (s.read base env).value (by rwa [houtside])
      rw [← Env.modules_outside, houtside] at hrest
      rw [stmtsSites, List.map_append]
      exact h.bind (h.stmt (Env.suffix_of_outside henv) s) hrest

theorem stmt (h : Traversal base base' outer P) {env : Env} (henv : outer <:+ env.frames) :
    ∀ s : Stmt, P (s.read base env) (s.read base' env) (s.sites.map (.mk env.modules))
  | .bind _ pattern none none => h.pattern env true pattern
  | .bind _ pattern (some ty) none =>
      h.last (h.discard (h.ty henv ty)) (h.pattern env true pattern)
  | .bind _ pattern none (some init) => h.last (h.expr henv init) (h.pattern env true pattern)
  | .bind _ pattern (some ty) (some init) => by
      rw [Stmt.sites, List.map_append]
      exact h.bind (h.discard (h.ty henv ty))
        (h.last (h.expr henv init) (h.pattern env true pattern))
  | .expr _ value => h.map (h.expr henv value) _
  | .empty _ => h.pure _

end

/-! ### Parts in a row -/

section Rows

variable {α : Type} {modules : List NodeId} {sites : α → List Site}

theorem optional {f f' : α → Reading Unit}
    (hf : ∀ a, P (f a) (f' a) ((sites a).map (.mk modules))) :
    ∀ o : Option α,
      P (readOptional f o) (readOptional f' o) ((optionalSites sites o).map (.mk modules))
  | none => h.pure _
  | some a => hf a

theorem members {f f' : α → Reading Unit}
    (hf : ∀ a, P (f a) (f' a) ((sites a).map (.mk modules))) :
    ∀ l : List α, P (l.forM f) (l.forM f') ((l.flatMap sites).map (.mk modules))
  | [] => h.pure _
  | a :: l => by
      rw [List.flatMap_cons, List.map_append]
      exact h.bind (hf a) (members hf l)

/-- Parts each of which sees what the ones before it have introduced. -/
theorem introducers {f f' : Env → α → Reading Env}
    (hf : ∀ env a, outer <:+ env.outside.frames →
      P (f env a) (f' env a) ((sites a).map (.mk env.modules)))
    (houtside : ∀ env a, (f env a).value.outside = env.outside) :
    ∀ (l : List α) (env : Env), outer <:+ env.outside.frames →
      P (l.foldlM f env) (l.foldlM f' env) ((l.flatMap sites).map (.mk env.modules))
  | [], _, _ => h.pure _
  | a :: l, env, henv => by
      have hsame : (f env a).value.outside = env.outside := houtside env a
      have hrest := introducers hf houtside l (f env a).value (hsame ▸ henv)
      rw [← Env.modules_outside, hsame] at hrest
      rw [List.flatMap_cons, List.map_append, List.foldlM_cons, List.foldlM_cons]
      exact h.bind (hf env a henv) hrest

end Rows

/-! ### Generics and members -/

section Members

theorem genericParam (env : Env) (p : GenericParam) (henv : outer <:+ env.outside.frames) :
    P (p.read base env) (p.read base' env) (p.sites.map (.mk env.modules)) := by
  obtain ⟨node, name, kind⟩ := p
  have hin : outer <:+ env.frames := Env.suffix_of_outside henv
  cases kind with
  | type bounds default =>
      have hdefault := h.optional (fun ty => h.discard (h.ty hin ty)) default
      have hname := h.introduce env .type (.own .type node.id name.name name.span)
        GenericParam.redefinition (by simp)
      simp only [GenericParam.read, GenericParam.sites, List.map_append]
      exact h.bind hdefault (h.last (h.bounds hin bounds) hname)
  | const ty default =>
      have hdefault := h.optional (fun e => h.expr hin e) default
      have hname := h.introduce env .name (.own .name node.id name.name name.span)
        GenericParam.redefinition (by simp)
      simp only [GenericParam.read, GenericParam.sites, List.map_append]
      exact h.bind (h.discard (h.ty hin ty)) (h.last hdefault hname)
  | lifetime => exact h.pure _

theorem wherePredicate {env : Env} (henv : outer <:+ env.frames) (p : WherePredicate) :
    P (p.read base env) (p.read base' env) (p.sites.map (.mk env.modules)) := by
  rw [WherePredicate.sites, List.map_append]
  exact h.bind (h.discard (h.ty henv p.ty)) (h.bounds henv p.bounds)

theorem generics (env : Env) (g : Generics) (henv : outer <:+ env.outside.frames) :
    P (g.read base env) (g.read base' env) (g.sites.map (.mk env.modules)) := by
  let inner := (g.params.foldlM (GenericParam.read base) env).value
  have hinner : inner.outside = env.outside :=
    outside_foldlM (GenericParam.outside_read base) g.params env
  have hin : outer <:+ inner.frames := Env.suffix_of_outside (hinner ▸ henv)
  have hwhere := h.optional (fun w => h.members (h.wherePredicate hin) w.predicates) g.whereClause
  rw [← Env.modules_outside, hinner] at hwhere
  rw [Generics.sites, List.map_append]
  exact h.bind (h.introducers h.genericParam (GenericParam.outside_read base) g.params env henv)
    (h.map hwhere _)

variable {env : Env} (henv : outer <:+ env.frames)

include henv

theorem const (c : ConstDecl) :
    P (c.read base env) (c.read base' env) (c.sites.map (.mk env.modules)) := by
  rw [ConstDecl.sites, List.map_append]
  exact h.bind (h.discard (h.ty henv c.ty)) (h.optional (h.expr henv) c.init)

theorem static (s : StaticDecl) :
    P (s.read base env) (s.read base' env) (s.sites.map (.mk env.modules)) := by
  rw [StaticDecl.sites, List.map_append]
  exact h.bind (h.discard (h.ty henv s.ty)) (h.optional (h.expr henv) s.init)

/-- The generic parameters of a construct are seen in all that comes after them. -/
theorem withGenerics {α : Type} {next next' : Env → Reading α} {l : List Site}
    (owner : NodeId) (extent : List NodeId) (g : Generics)
    (hnext : ∀ inner : Env, inner.outside = env →
      P (next inner) (next' inner) (l.map (.mk inner.modules))) :
    P (g.read base (env.enter owner extent) >>= next)
      (g.read base' (env.enter owner extent) >>= next')
      ((g.sites ++ l).map (.mk env.modules)) := by
  have hinner : (g.read base (env.enter owner extent)).value.outside = env :=
    g.outside_read base (env.enter owner extent)
  have hafter := hnext _ hinner
  rw [← Env.modules_outside, hinner] at hafter
  rw [List.map_append]
  exact h.bind (h.generics (env.enter owner extent) g henv) hafter

theorem typeAlias (owner : NodeId) (a : AliasDecl) :
    P (a.read base env owner) (a.read base' env owner) (a.sites.map (.mk env.modules)) :=
  h.withGenerics henv owner _ a.generics fun _ hinner =>
    h.discard (h.ty (Env.suffix_of_outside (hinner ▸ henv)) a.ty)

omit henv in
theorem receiver (env : Env) (r : Option SelfParam) :
    P (readReceiver env r) (readReceiver env r) [] := by
  cases r with
  | none => exact h.pure _
  | some r => exact h.introduceNew _ _ _

omit henv in
theorem param (env : Env) (p : Param) (henv : outer <:+ env.outside.frames) :
    P (p.read base env) (p.read base' env) (p.sites.map (.mk env.modules)) :=
  h.last (h.discard (h.ty (Env.suffix_of_outside henv) p.ty)) (h.pattern env false p.pattern)

theorem function (owner : NodeId) (f : FunctionDecl) :
    P (f.read base env owner) (f.read base' env owner) (f.sites.map (.mk env.modules)) := by
  refine h.withGenerics henv owner _ f.generics fun inner hinner => ?_
  let received := (readReceiver inner f.receiver).value
  let inside := (f.params.foldlM (Param.read base) received).value
  have hreceived : received.outside = inner.outside := inner.outside_readReceiver f.receiver
  have hinside : inside.outside = inner.outside :=
    (outside_foldlM (Param.outside_read base) f.params received).trans hreceived
  have hparams := h.introducers h.param (Param.outside_read base) f.params received
    (by rwa [hreceived, hinner])
  have hin : outer <:+ inside.frames := Env.suffix_of_outside (by rwa [hinside, hinner])
  have hret := h.optional (fun ty => h.discard (h.ty hin ty)) f.ret
  have hbody := h.optional (h.block hin) f.body
  rw [← Env.modules_outside, hreceived] at hparams
  rw [← Env.modules_outside, hinside] at hret hbody
  rw [List.map_append, List.map_append]
  exact h.first (h.receiver inner f.receiver) (h.bind hparams (h.bind hret hbody))

theorem namedField (f : NamedField) :
    P (f.read base env) (f.read base' env) (f.sites.map (.mk env.modules)) :=
  h.discard (h.ty henv f.ty)

theorem tupleField (f : TupleField) :
    P (f.read base env) (f.read base' env) (f.sites.map (.mk env.modules)) :=
  h.discard (h.ty henv f.ty)

theorem variant (v : Variant) :
    P (v.read base env) (v.read base' env) (v.sites.map (.mk env.modules)) := by
  obtain ⟨node, name, kind⟩ := v
  cases kind with
  | unit => exact h.pure _
  | tuple fields => exact h.members (h.tupleField henv) fields
  | record fields => exact h.members (h.namedField henv) fields
  | discriminant value => exact h.expr henv value

theorem implItem (i : ImplItem) :
    P (i.read base env) (i.read base' env) (i.sites.map (.mk env.modules)) := by
  obtain ⟨node, vis, kind⟩ := i
  cases kind with
  | function f => exact h.function henv node.id f
  | const c => exact h.const henv c
  | typeAlias a => exact h.typeAlias henv node.id a

theorem traitItem (i : TraitItem) :
    P (i.read base env) (i.read base' env) (i.sites.map (.mk env.modules)) := by
  obtain ⟨node, kind⟩ := i
  cases kind with
  | function f => exact h.function henv node.id f
  | const c => exact h.const henv c
  | type t => exact h.bounds henv t.bounds

theorem foreignItem (i : ForeignItem) :
    P (i.read base env) (i.read base' env) (i.sites.map (.mk env.modules)) := by
  obtain ⟨node, vis, kind⟩ := i
  cases kind with
  | function f => exact h.function henv node.id f
  | static _ _ ty => exact h.discard (h.ty henv ty)

end Members

/-! ### Items -/

section Items

theorem selfName (env : Env) (owner : NodeId) (target : Option Meaning) (locus : Span) :
    P (env.readSelf owner target locus) (env.readSelf owner target locus) [] := by
  cases target with
  | none => exact h.pure _
  | some m => exact h.introduceNew _ _ _

/-- The end of an implementation: its type, what `Self` stands for, and its items. -/
theorem implBody (env : Env) (owner : NodeId) (selfTy : Ty) (items : List ImplItem)
    (henv : outer <:+ env.outside.frames) :
    P (do
        let t ← selfTy.read base env
        let env ← env.readSelf owner t.decl selfTy.node.span
        items.forM (ImplItem.read base env))
      (do
        let t ← selfTy.read base' env
        let env ← env.readSelf owner t.decl selfTy.node.span
        items.forM (ImplItem.read base' env))
      ((selfTy.sites ++ items.flatMap ImplItem.sites).map (.mk env.modules)) := by
  let target := (selfTy.read base env).value.decl
  let inner := (env.readSelf owner target selfTy.node.span).value
  have hinner : inner.outside = env.outside := env.outside_readSelf owner target _
  have hitems := h.members (h.implItem (Env.suffix_of_outside (hinner ▸ henv))) items
  rw [← Env.modules_outside, hinner] at hitems
  rw [List.map_append]
  exact h.bind (h.ty (Env.suffix_of_outside henv) selfTy)
    (h.first (h.selfName env owner target selfTy.node.span) hitems)

variable {env : Env} (henv : outer <:+ env.frames)

include henv

theorem inherentImpl (owner : NodeId) (i : InherentImpl) :
    P (i.read base env owner) (i.read base' env owner) (i.sites.map (.mk env.modules)) :=
  h.withGenerics henv owner _ i.generics fun inner hinner =>
    h.implBody inner owner i.selfTy i.items (hinner ▸ henv)

theorem traitImpl (owner : NodeId) (i : TraitImpl) :
    P (i.read base env owner) (i.read base' env owner) (i.sites.map (.mk env.modules)) := by
  refine h.withGenerics henv owner _ i.generics fun inner hinner => ?_
  have hin : outer <:+ inner.outside.frames := hinner ▸ henv
  rw [List.map_append]
  exact h.bind (h.discard (h.followPath (Env.suffix_of_outside hin) .type i.traitPath))
    (h.implBody inner owner i.selfTy i.items hin)

/-- In a trait, `Self` stands for the trait. -/
theorem trait (node : Node) (t : TraitDecl)
    (hself : base.meaning node.id = base'.meaning node.id) :
    P (t.read base env node) (t.read base' env node) (t.sites.map (.mk env.modules)) := by
  refine h.withGenerics henv node.id _ t.generics fun inner hinner => ?_
  let inside := (inner.readSelf node.id (some (base.meaning node.id)) node.span).value
  have hinside : inside.outside = inner.outside := inner.outside_readSelf _ _ _
  have hin : outer <:+ inside.frames := Env.suffix_of_outside (by rwa [hinside, hinner])
  have hbounds := h.bounds hin t.supertraits
  have hitems := h.members (h.traitItem hin) t.items
  rw [← Env.modules_outside, hinside] at hbounds hitems
  rw [List.map_append]
  exact h.first (hself ▸ h.selfName inner node.id _ node.span) (h.bind hbounds hitems)

end Items

omit h in
mutual

/-- What is kept all along holds of every item. No frame is around an item. -/
theorem item (h : Traversal base base' [] P) (modules : List NodeId) : ∀ item : Item,
    (∀ id, (id, .trait) ∈ item.containers → base.meaning id = base'.meaning id) →
    P (item.read base modules) (item.read base' modules) (item.sites modules)
  | ⟨node, _, .module _ items⟩, hself =>
      h.items (node.id :: modules) items fun id hid => hself id (List.mem_cons_of_mem _ hid)
  | ⟨node, _, .typeAlias a⟩, _ => h.typeAlias (Env.inside modules).nil_suffix node.id a
  | ⟨node, _, .struct r⟩, _ => h.withGenerics (Env.inside modules).nil_suffix node.id _
      r.generics fun _ _ => h.members (h.namedField (Env.nil_suffix _)) r.fields
  | ⟨node, _, .tupleStruct s⟩, _ => h.withGenerics (Env.inside modules).nil_suffix node.id
      _ s.generics fun _ _ => h.members (h.tupleField (Env.nil_suffix _)) s.fields
  | ⟨node, _, .enum e⟩, _ => h.withGenerics (Env.inside modules).nil_suffix node.id _
      e.generics fun _ _ => h.members (h.variant (Env.nil_suffix _)) e.variants
  | ⟨node, _, .union r⟩, _ => h.withGenerics (Env.inside modules).nil_suffix node.id _
      r.generics fun _ _ => h.members (h.namedField (Env.nil_suffix _)) r.fields
  | ⟨_, _, .static s⟩, _ => h.static (Env.nil_suffix _) s
  | ⟨_, _, .const c⟩, _ => h.const (Env.nil_suffix _) c
  | ⟨node, _, .function f⟩, _ => h.function (Env.nil_suffix _) node.id f
  | ⟨node, _, .inherentImpl i⟩, _ => h.inherentImpl (Env.nil_suffix _) node.id i
  | ⟨node, _, .traitImpl i⟩, _ => h.traitImpl (Env.nil_suffix _) node.id i
  | ⟨node, _, .trait t⟩, hself =>
      h.trait (Env.nil_suffix _) node t (hself node.id List.mem_cons_self)
  | ⟨_, _, .foreign b⟩, _ => h.members (h.foreignItem (Env.nil_suffix _)) b.items

theorem items (h : Traversal base base' [] P) (modules : List NodeId) : ∀ items : List Item,
    (∀ id, (id, .trait) ∈ itemsContainers items → base.meaning id = base'.meaning id) →
    P (readItems base modules items) (readItems base' modules items) (itemsSites modules items)
  | [], _ => h.pure _
  | item :: rest, hself =>
      h.bind (h.item modules item fun id hid => hself id (List.mem_append_left _ hid))
        (h.items modules rest fun id hid => hself id (List.mem_append_right _ hid))

end

end Traversal

/-- What is kept all along holds of a crate. -/
theorem Traversal.crate {base : Session}
    {P : ∀ {α : Type}, Reading α → Reading α → List PlacedSite → Prop}
    (h : Traversal base base [] P) (c : Crate) : P (c.read base) (c.read base) c.sites :=
  h.items [c.node.id] c.items fun _ _ => rfl

end NameResolution
