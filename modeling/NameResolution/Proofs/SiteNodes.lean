import Mathlib.Data.List.Nodup
import NameResolution.Proofs.Binders
import NameResolution.Proofs.Identities
import NameResolution.Proofs.Sites

/-!
# NameResolution.Proofs.SiteNodes

**Every site and every binder of a crate is a node of its own.** A node is among the sites
and the binders of a part together at most as often as it is among the nodes of that part
that the second pass works on. So in a well-formed crate no site and no binder is listed
twice (`Crate.nodup_sites`, `Crate.nodup_binders`).
-/

namespace NameResolution

/-- How often a node is among sites. -/
def countSites (id : NodeId) (l : List Site) : Nat := (l.map Site.id).count id

/-- How often a node is among binders. -/
def countBinders (id : NodeId) (l : List Binder) : Nat := (l.map Binder.id).count id

section Counting

variable (id : NodeId)

@[simp] theorem countSites_nil : countSites id [] = 0 := rfl

@[simp] theorem countSites_append (l₁ l₂ : List Site) :
    countSites id (l₁ ++ l₂) = countSites id l₁ + countSites id l₂ := by
  simp [countSites]

@[simp] theorem countSites_behind (gate : Gate) (l : List Site) :
    countSites id (l.map (Site.behind gate)) = countSites id l := by
  unfold countSites
  rw [Site.ids_behind]

@[simp] theorem countSites_singleton (s : Site) : countSites id [s] = [s.id].count id := rfl

@[simp] theorem countBinders_nil : countBinders id [] = 0 := rfl

@[simp] theorem countBinders_append (l₁ l₂ : List Binder) :
    countBinders id (l₁ ++ l₂) = countBinders id l₁ + countBinders id l₂ := by
  simp [countBinders]

@[simp] theorem countBinders_singleton (b : Binder) : countBinders id [b] = [b.id].count id := rfl

mutual

theorem Pattern.countBinders_le : ∀ p : Pattern, countBinders id p.binders ≤ p.nodeIds.count id
  | .binding _ _ _ => Nat.le_refl _
  | .tuple _ elems => by
      have h := patterns_countBinders_le elems
      simp only [Pattern.binders, Pattern.nodeIds, List.count_cons]
      omega
  | .wildcard _ => Nat.zero_le _

theorem patterns_countBinders_le : ∀ ps : List Pattern,
    countBinders id (patternsBinders ps) ≤ (patternsNodeIds ps).count id
  | [] => Nat.le_refl 0
  | p :: ps => by
      have h₁ := p.countBinders_le
      have h₂ := patterns_countBinders_le ps
      simp only [patternsBinders, patternsNodeIds, countBinders_append, List.count_append]
      omega

end

mutual

theorem Path.count_le : ∀ p : Path,
    countSites id p.sites + countBinders id p.binders ≤ p.nodeIds.count id
  | ⟨node, segments⟩ => by
      have h := segments_count_le segments []
      simp only [Path.sites, Path.binders, Path.nodeIds, Site.id, countSites_append,
        countSites_singleton, List.count_cons, List.count_nil]
      omega

theorem segments_count_le : ∀ (segments before : List PathSegment),
    countSites id (segmentsSites before segments) + countBinders id (segmentsBinders segments) ≤
      (segmentsNodeIds segments).count id
  | [], _ => Nat.le_refl 0
  | seg :: rest, before => by
      have h₁ := seg.count_le (.args before seg)
      have h₂ := segments_count_le rest (before ++ [seg])
      simp only [segmentsSites, segmentsBinders, segmentsNodeIds, countSites_append,
        countBinders_append, List.count_append]
      omega

theorem PathSegment.count_le : ∀ (seg : PathSegment) (gate : Gate),
    countSites id (seg.sites gate) + countBinders id seg.binders ≤ seg.nodeIds.count id
  | ⟨node, ident, none⟩, _ => Nat.le_refl _
  | ⟨node, ident, some ⟨types, span⟩⟩, _ => by
      have h := tys_count_le types
      simp only [PathSegment.sites, PathSegment.binders, PathSegment.nodeIds, GenericArgs.sites,
        GenericArgs.binders, GenericArgs.nodeIds, Site.id, countSites_append, countSites_behind,
        countSites_singleton, List.count_cons, List.count_nil]
      omega

theorem tys_count_le : ∀ ts : List Ty,
    countSites id (tysSites ts) + countBinders id (tysBinders ts) ≤ (tysNodeIds ts).count id
  | [] => Nat.le_refl 0
  | t :: ts => by
      have h₁ := t.count_le
      have h₂ := tys_count_le ts
      simp only [tysSites, tysBinders, tysNodeIds, countSites_append, countBinders_append,
        List.count_append]
      omega

theorem Ty.count_le : ∀ t : Ty,
    countSites id t.sites + countBinders id t.binders ≤ t.nodeIds.count id
  | .path _ p => by
      have h := p.count_le
      simp only [Ty.sites, Ty.binders, Ty.nodeIds, List.count_cons]
      omega
  | .qualified _ p => by
      have h := p.count_le
      simp only [Ty.sites, Ty.binders, Ty.nodeIds, List.count_cons]
      omega
  | .tuple _ [] => Nat.le_refl _
  | .tuple _ (t :: ts) => by
      have h₁ := t.count_le
      have h₂ := tys_count_le ts
      simp only [Ty.sites, Ty.binders, Ty.nodeIds, tysSites, tysBinders, tysNodeIds,
        countSites_append, countBinders_append, List.count_append, List.count_cons]
      omega
  | .array _ elem size => by
      have h₁ := elem.count_le
      have h₂ := size.count_le
      simp only [Ty.sites, Ty.binders, Ty.nodeIds, countSites_append, countBinders_append,
        List.count_append, List.count_cons]
      omega
  | .slice _ inner => by
      have h := inner.count_le
      simp only [Ty.sites, Ty.binders, Ty.nodeIds, List.count_cons]
      omega
  | .reference _ _ inner => by
      have h := inner.count_le
      simp only [Ty.sites, Ty.binders, Ty.nodeIds, List.count_cons]
      omega
  | .pointer _ _ inner => by
      have h := inner.count_le
      simp only [Ty.sites, Ty.binders, Ty.nodeIds, List.count_cons]
      omega
  | .dynOne _ ⟨_, path⟩ => by
      have h := path.count_le
      simp only [Ty.sites, Ty.binders, Ty.nodeIds, TraitBound.sites, TraitBound.binders,
        TraitBound.nodeIds, List.count_cons]
      omega
  | .dyn _ bounds => by
      have h := bounds_count_le bounds
      simp only [Ty.sites, Ty.binders, Ty.nodeIds, List.count_cons]
      omega
  | .fnPointer _ params none => by
      have h := paramTys_count_le params
      simp only [Ty.sites, Ty.binders, Ty.nodeIds, List.count_cons]
      omega
  | .fnPointer _ params (some ret) => by
      have h₁ := paramTys_count_le params
      have h₂ := ret.count_le
      simp only [Ty.sites, Ty.binders, Ty.nodeIds, countSites_append, countBinders_append,
        List.count_append, List.count_cons]
      omega
  | .inferred _ | .never _ => Nat.le_refl _

theorem QualifiedPath.count_le : ∀ p : QualifiedPath,
    countSites id p.sites + countBinders id p.binders ≤ p.nodeIds.count id
  | ⟨_, ⟨head, selfTy, none⟩, associated, rest⟩ => by
      have h₁ := selfTy.count_le
      have h₂ := associated.count_le (.tail ⟨head, selfTy, none⟩)
      have h₃ := appended_count_le (.tail ⟨head, selfTy, none⟩) rest
      simp only [QualifiedPath.sites, QualifiedPath.binders, Qualifier.sites, Qualifier.binders,
        QualifiedPath.nodeIds, Qualifier.nodeIds, countSites_append, countBinders_append,
        List.count_append, List.count_cons]
      omega
  | ⟨_, ⟨head, selfTy, some asTrait⟩, associated, rest⟩ => by
      have h₁ := selfTy.count_le
      have h₂ := asTrait.count_le
      have h₃ := associated.count_le (.tail ⟨head, selfTy, some asTrait⟩)
      have h₄ := appended_count_le (.tail ⟨head, selfTy, some asTrait⟩) rest
      simp only [QualifiedPath.sites, QualifiedPath.binders, Qualifier.sites, Qualifier.binders,
        QualifiedPath.nodeIds, Qualifier.nodeIds, countSites_append, countBinders_append,
        countSites_behind, List.count_append, List.count_cons]
      omega

theorem appended_count_le (gate : Gate) : ∀ segments : List PathSegment,
    countSites id (appendedSites gate segments) + countBinders id (segmentsBinders segments) ≤
      (segmentsNodeIds segments).count id
  | [] => Nat.le_refl 0
  | seg :: rest => by
      have h₁ := seg.count_le gate
      have h₂ := appended_count_le gate rest
      simp only [appendedSites, segmentsBinders, segmentsNodeIds, countSites_append,
        countBinders_append, List.count_append]
      omega

theorem bounds_count_le : ∀ bs : List Bound,
    countSites id (boundsSites bs) + countBinders id (boundsBinders bs) ≤
      (boundsNodeIds bs).count id
  | [] => Nat.le_refl 0
  | .trait ⟨_, path⟩ :: bs => by
      have h₁ := path.count_le
      have h₂ := bounds_count_le bs
      simp only [boundsSites, boundsBinders, Bound.sites, Bound.binders, TraitBound.sites,
        TraitBound.binders, boundsNodeIds, Bound.nodeIds, TraitBound.nodeIds, countSites_append,
        countBinders_append, List.count_append, List.count_cons]
      omega
  | .lifetime _ :: bs => by
      have h := bounds_count_le bs
      simp only [boundsSites, boundsBinders, Bound.sites, Bound.binders, boundsNodeIds,
        Bound.nodeIds, countSites_append, countBinders_append, countSites_nil, countBinders_nil,
        List.count_nil, List.count_append]
      omega

theorem paramTys_count_le : ∀ ps : List FnPointerParam,
    countSites id (paramTysSites ps) + countBinders id (paramTysBinders ps) ≤
      (paramTysNodeIds ps).count id
  | [] => Nat.le_refl 0
  | ⟨_, _, ty⟩ :: ps => by
      have h₁ := ty.count_le
      have h₂ := paramTys_count_le ps
      simp only [paramTysSites, paramTysBinders, paramTysNodeIds, countSites_append,
        countBinders_append, List.count_append, List.count_cons]
      omega

theorem Expr.count_le : ∀ e : Expr,
    countSites id e.sites + countBinders id e.binders ≤ e.nodeIds.count id
  | .literal _ _ => Nat.zero_le _
  | .path _ p => by
      have h := p.count_le
      simp only [Expr.sites, Expr.binders, Expr.nodeIds, List.count_cons]
      omega
  | .unary _ _ operand => by
      have h := operand.count_le
      simp only [Expr.sites, Expr.binders, Expr.nodeIds, List.count_cons]
      omega
  | .binary _ _ lhs rhs => by
      have h₁ := lhs.count_le
      have h₂ := rhs.count_le
      simp only [Expr.sites, Expr.binders, Expr.nodeIds, countSites_append, countBinders_append,
        List.count_append, List.count_cons]
      omega
  | .call _ callee args => by
      have h₁ := callee.count_le
      have h₂ := exprs_count_le args
      simp only [Expr.sites, Expr.binders, Expr.nodeIds, countSites_append, countBinders_append,
        List.count_append, List.count_cons]
      omega
  | .cast _ operand ty => by
      have h₁ := operand.count_le
      have h₂ := ty.count_le
      simp only [Expr.sites, Expr.binders, Expr.nodeIds, countSites_append, countBinders_append,
        List.count_append, List.count_cons]
      omega
  | .tuple _ elems => by
      have h := exprs_count_le elems
      simp only [Expr.sites, Expr.binders, Expr.nodeIds, List.count_cons]
      omega
  | .group _ inner => by
      have h := inner.count_le
      simp only [Expr.sites, Expr.binders, Expr.nodeIds, List.count_cons]
      omega
  | .block _ body => by
      have h := body.count_le
      simp only [Expr.sites, Expr.binders, Expr.nodeIds, List.count_cons]
      omega

theorem exprs_count_le : ∀ es : List Expr,
    countSites id (exprsSites es) + countBinders id (exprsBinders es) ≤ (exprsNodeIds es).count id
  | [] => Nat.le_refl 0
  | e :: es => by
      have h₁ := e.count_le
      have h₂ := exprs_count_le es
      simp only [exprsSites, exprsBinders, exprsNodeIds, countSites_append, countBinders_append,
        List.count_append]
      omega

theorem Block.count_le : ∀ b : Block,
    countSites id b.sites + countBinders id b.binders ≤ b.nodeIds.count id
  | ⟨_, stmts, none⟩ => by
      have h := stmts_count_le stmts
      simp only [Block.sites, Block.binders, Block.nodeIds, List.count_cons]
      omega
  | ⟨_, stmts, some tail⟩ => by
      have h₁ := stmts_count_le stmts
      have h₂ := tail.count_le
      simp only [Block.sites, Block.binders, Block.nodeIds, countSites_append, countBinders_append,
        List.count_append, List.count_cons]
      omega

theorem stmts_count_le : ∀ stmts : List Stmt,
    countSites id (stmtsSites stmts) + countBinders id (stmtsBinders stmts) ≤
      (stmtsNodeIds stmts).count id
  | [] => Nat.le_refl 0
  | s :: rest => by
      have h₁ := s.count_le
      have h₂ := stmts_count_le rest
      simp only [stmtsSites, stmtsBinders, stmtsNodeIds, countSites_append, countBinders_append,
        List.count_append]
      omega

theorem Stmt.count_le : ∀ s : Stmt,
    countSites id s.sites + countBinders id s.binders ≤ s.nodeIds.count id
  | .bind _ pattern none none => by
      have h := pattern.countBinders_le id
      simp only [Stmt.sites, Stmt.binders, Stmt.nodeIds, countSites_nil, List.count_cons]
      omega
  | .bind _ pattern (some ty) none => by
      have h₁ := pattern.countBinders_le id
      have h₂ := ty.count_le
      simp only [Stmt.sites, Stmt.binders, Stmt.nodeIds, countBinders_append, List.count_append,
        List.count_cons]
      omega
  | .bind _ pattern none (some init) => by
      have h₁ := pattern.countBinders_le id
      have h₂ := init.count_le
      simp only [Stmt.sites, Stmt.binders, Stmt.nodeIds, countBinders_append, List.count_append,
        List.count_cons]
      omega
  | .bind _ pattern (some ty) (some init) => by
      have h₁ := pattern.countBinders_le id
      have h₂ := ty.count_le
      have h₃ := init.count_le
      simp only [Stmt.sites, Stmt.binders, Stmt.nodeIds, countSites_append, countBinders_append,
        List.count_append, List.count_cons]
      omega
  | .expr _ value => by
      have h := value.count_le
      simp only [Stmt.sites, Stmt.binders, Stmt.nodeIds, List.count_cons]
      omega
  | .empty _ => Nat.zero_le _

end

/-! ### The nodes of items -/

section Rows

variable {id} {f : α → List Site} {f' : α → List Binder} {g : α → List NodeId}

theorem count_flatMap_le (h : ∀ a, countSites id (f a) + countBinders id (f' a) ≤ (g a).count id) :
    ∀ l : List α,
      countSites id (l.flatMap f) + countBinders id (l.flatMap f') ≤ (l.flatMap g).count id
  | [] => Nat.le_refl 0
  | a :: l => by
      have h₁ := h a
      have h₂ := count_flatMap_le h l
      simp only [List.flatMap_cons, countSites_append, countBinders_append, List.count_append]
      omega

theorem count_optional_le
    (h : ∀ a, countSites id (f a) + countBinders id (f' a) ≤ (g a).count id) : ∀ o : Option α,
      countSites id (optionalSites f o) + countBinders id (optionalBinders f' o) ≤
        (optionalIds g o).count id
  | none => Nat.le_refl 0
  | some a => h a

end Rows

theorem GenericParam.count_le (p : GenericParam) :
    countSites id p.sites + countBinders id p.binders ≤ p.nodeIds.count id := by
  obtain ⟨node, name, kind⟩ := p
  cases kind with
  | type bounds default =>
      have h₁ := bounds_count_le id bounds
      have h₂ := count_optional_le (Ty.count_le id) default
      simp [GenericParam.sites, GenericParam.binders, GenericParam.nodeIds, List.count_cons]
      omega
  | const ty default =>
      have h₁ := ty.count_le id
      have h₂ := count_optional_le (Expr.count_le id) default
      simp [GenericParam.sites, GenericParam.binders, GenericParam.nodeIds, List.count_cons]
      omega
  | lifetime => exact Nat.zero_le _

theorem WherePredicate.count_le (p : WherePredicate) :
    countSites id p.sites + countBinders id p.binders ≤ p.nodeIds.count id := by
  have h₁ := p.ty.count_le id
  have h₂ := bounds_count_le id p.bounds
  simp [WherePredicate.sites, WherePredicate.binders, WherePredicate.nodeIds, List.count_cons]
  omega

theorem Generics.count_le (g : Generics) :
    countSites id g.sites + countBinders id g.binders ≤ g.nodeIds.count id := by
  have h₁ := count_flatMap_le (GenericParam.count_le id) g.params
  have h₂ := count_optional_le
    (fun w : WhereClause => count_flatMap_le (WherePredicate.count_le id) w.predicates)
    g.whereClause
  simp only [Generics.sites, Generics.binders, Generics.nodeIds, countSites_append,
    countBinders_append, List.count_append]
  omega

theorem ConstDecl.count_le (c : ConstDecl) :
    countSites id c.sites + countBinders id c.binders ≤ c.nodeIds.count id := by
  have h₁ := c.ty.count_le id
  have h₂ := count_optional_le (Expr.count_le id) c.init
  simp only [ConstDecl.sites, ConstDecl.binders, ConstDecl.nodeIds, countSites_append,
    countBinders_append, List.count_append]
  omega

theorem AliasDecl.count_le (a : AliasDecl) :
    countSites id a.sites + countBinders id a.binders ≤ a.nodeIds.count id := by
  have h₁ := a.generics.count_le id
  have h₂ := a.ty.count_le id
  simp only [AliasDecl.sites, AliasDecl.binders, AliasDecl.nodeIds, countSites_append,
    countBinders_append, List.count_append]
  omega

theorem Param.count_le (p : Param) :
    countSites id p.sites + countBinders id p.binders ≤ p.nodeIds.count id := by
  have h₁ := p.ty.count_le id
  have h₂ := p.pattern.countBinders_le id
  simp only [Param.sites, Param.binders, Param.nodeIds, countBinders_append, List.count_cons,
    List.count_append]
  omega

theorem countBinders_receiver_le (r : Option SelfParam) :
    countBinders id (optionalBinders SelfParam.binders r) ≤
      (optionalIds (fun r : SelfParam => [r.node.id]) r).count id := by
  cases r with
  | none => exact Nat.le_refl 0
  | some r => exact Nat.le_refl _

theorem FunctionDecl.count_le (f : FunctionDecl) :
    countSites id f.sites + countBinders id f.binders ≤ f.nodeIds.count id := by
  have h₁ := f.generics.count_le id
  have h₂ := countBinders_receiver_le id f.receiver
  have h₃ := count_flatMap_le (Param.count_le id) f.params
  have h₄ := count_optional_le (Ty.count_le id) f.ret
  have h₅ := count_optional_le (Block.count_le id) f.body
  simp only [FunctionDecl.sites, FunctionDecl.binders, FunctionDecl.nodeIds, countSites_append,
    countBinders_append, List.count_append]
  omega

theorem NamedField.count_le (f : NamedField) :
    countSites id f.sites + countBinders id f.binders ≤ f.nodeIds.count id := by
  have h := f.ty.count_le id
  simp only [NamedField.sites, NamedField.binders, NamedField.nodeIds, List.count_cons]
  omega

theorem TupleField.count_le (f : TupleField) :
    countSites id f.sites + countBinders id f.binders ≤ f.nodeIds.count id := by
  have h := f.ty.count_le id
  simp only [TupleField.sites, TupleField.binders, TupleField.nodeIds, List.count_cons]
  omega

theorem Variant.count_le (v : Variant) :
    countSites id v.sites + countBinders id v.binders ≤ v.bodyIds.count id := by
  obtain ⟨node, name, kind⟩ := v
  cases kind with
  | unit => exact Nat.zero_le _
  | tuple fields => exact count_flatMap_le (TupleField.count_le id) fields
  | record fields => exact count_flatMap_le (NamedField.count_le id) fields
  | discriminant value => exact value.count_le id

theorem ImplItem.count_le (i : ImplItem) :
    countSites id i.sites + countBinders id i.binders ≤ i.bodyIds.count id := by
  obtain ⟨node, vis, kind⟩ := i
  cases kind with
  | function f => exact f.count_le id
  | const c => exact c.count_le id
  | typeAlias a => exact a.count_le id

theorem TraitItem.count_le (i : TraitItem) :
    countSites id i.sites + countBinders id i.binders ≤ i.bodyIds.count id := by
  obtain ⟨node, kind⟩ := i
  cases kind with
  | function f => exact f.count_le id
  | const c => exact c.count_le id
  | type t => exact bounds_count_le id t.bounds

theorem ForeignItem.count_le (i : ForeignItem) :
    countSites id i.sites + countBinders id i.binders ≤ i.bodyIds.count id := by
  obtain ⟨node, vis, kind⟩ := i
  cases kind with
  | function f => exact f.count_le id
  | static _ _ ty => exact ty.count_le id

/-- The sites of an item, wherever it is placed. -/
theorem map_site_placed (modules : List NodeId) (l : List Site) :
    (l.map (PlacedSite.mk modules)).map PlacedSite.site = l := by
  rw [List.map_map]
  exact List.map_id l

mutual

theorem Item.count_le (modules : List NodeId) : ∀ item : Item,
    countSites id ((item.sites modules).map PlacedSite.site) + countBinders id item.binders ≤
      item.bodyIds.count id
  | ⟨node, _, kind⟩ => kind.count_le modules node

theorem ItemKind.count_le (modules : List NodeId) (node : Node) : ∀ kind : ItemKind,
    countSites id ((kind.sites modules node).map PlacedSite.site) + countBinders id kind.binders ≤
      kind.bodyIds.count id
  | .module _ items => items_count_le (node.id :: modules) items
  | .typeAlias a => by
      rw [ItemKind.sites, map_site_placed]
      exact a.count_le id
  | .struct r => by
      have h₁ := r.generics.count_le id
      have h₂ := count_flatMap_le (NamedField.count_le id) r.fields
      simp only [ItemKind.sites, ItemKind.binders, map_site_placed, RecordDecl.sites,
        RecordDecl.binders, ItemKind.bodyIds, countSites_append, countBinders_append,
        List.count_append]
      omega
  | .tupleStruct s => by
      have h₁ := s.generics.count_le id
      have h₂ := count_flatMap_le (TupleField.count_le id) s.fields
      simp only [ItemKind.sites, ItemKind.binders, map_site_placed, TupleStructDecl.sites,
        TupleStructDecl.binders, ItemKind.bodyIds, countSites_append, countBinders_append,
        List.count_append]
      omega
  | .enum e => by
      have h₁ := e.generics.count_le id
      have h₂ := count_flatMap_le (Variant.count_le id) e.variants
      simp only [ItemKind.sites, ItemKind.binders, map_site_placed, EnumDecl.sites,
        EnumDecl.binders, ItemKind.bodyIds, countSites_append, countBinders_append,
        List.count_append]
      omega
  | .union r => by
      have h₁ := r.generics.count_le id
      have h₂ := count_flatMap_le (NamedField.count_le id) r.fields
      simp only [ItemKind.sites, ItemKind.binders, map_site_placed, RecordDecl.sites,
        RecordDecl.binders, ItemKind.bodyIds, countSites_append, countBinders_append,
        List.count_append]
      omega
  | .static s => by
      have h₁ := s.ty.count_le id
      have h₂ := count_optional_le (Expr.count_le id) s.init
      simp only [ItemKind.sites, ItemKind.binders, map_site_placed, StaticDecl.sites,
        StaticDecl.binders, ItemKind.bodyIds, countSites_append, countBinders_append,
        List.count_append]
      omega
  | .const c => by
      rw [ItemKind.sites, map_site_placed]
      exact c.count_le id
  | .function f => by
      rw [ItemKind.sites, map_site_placed]
      exact f.count_le id
  | .inherentImpl i => by
      have h₁ := i.generics.count_le id
      have h₂ := i.selfTy.count_le id
      have h₃ := count_flatMap_le (ImplItem.count_le id) i.items
      simp only [ItemKind.sites, ItemKind.binders, map_site_placed, InherentImpl.sites,
        InherentImpl.binders, ItemKind.bodyIds, countSites_append, countBinders_append,
        List.count_append]
      omega
  | .traitImpl i => by
      have h₁ := i.generics.count_le id
      have h₂ := i.traitPath.count_le id
      have h₃ := i.selfTy.count_le id
      have h₄ := count_flatMap_le (ImplItem.count_le id) i.items
      simp only [ItemKind.sites, ItemKind.binders, map_site_placed, TraitImpl.sites,
        TraitImpl.binders, ItemKind.bodyIds, countSites_append, countBinders_append,
        List.count_append]
      omega
  | .trait t => by
      have h₁ := t.generics.count_le id
      have h₂ := bounds_count_le id t.supertraits
      have h₃ := count_flatMap_le (TraitItem.count_le id) t.items
      simp only [ItemKind.sites, ItemKind.binders, map_site_placed, TraitDecl.sites,
        TraitDecl.binders, ItemKind.bodyIds, countSites_append, countBinders_append,
        List.count_append]
      omega
  | .foreign b => by
      rw [ItemKind.sites, map_site_placed]
      exact count_flatMap_le (ForeignItem.count_le id) b.items

theorem items_count_le (modules : List NodeId) : ∀ items : List Item,
    countSites id ((itemsSites modules items).map PlacedSite.site) +
      countBinders id (itemsBinders items) ≤ (itemsBodyIds items).count id
  | [] => Nat.le_refl 0
  | item :: rest => by
      have h₁ := item.count_le modules
      have h₂ := items_count_le modules rest
      simp only [itemsSites, itemsBinders, itemsBodyIds, List.map_append, countSites_append,
        countBinders_append, List.count_append]
      omega

end

end Counting

namespace Crate

variable {c : Crate}

theorem count_le (c : Crate) (id : NodeId) :
    countSites id (c.sites.map PlacedSite.site) + countBinders id c.binders ≤
      (itemsBodyIds c.items).count id := items_count_le id [c.node.id] c.items

theorem WellFormed.nodup_bodyIds (h : c.WellFormed) : (itemsBodyIds c.items).Nodup :=
  (List.nodup_append.mp ((itemsNodeIds_perm c.items).nodup_iff.mp (List.nodup_cons.mp h.1).2)).2.1

/-- No node of a well-formed crate is listed twice. -/
theorem nodup_sites (hwf : c.WellFormed) : (c.sites.map fun x => x.site.id).Nodup := by
  refine List.nodup_iff_count_le_one.mpr fun id => ?_
  have honce := List.nodup_iff_count_le_one.mp hwf.nodup_bodyIds id
  have hsites := Nat.le_of_add_right_le (c.count_le id)
  rw [countSites, List.map_map] at hsites
  exact Nat.le_trans hsites honce

theorem nodup_binders (hwf : c.WellFormed) : (c.binders.map Binder.id).Nodup := by
  refine List.nodup_iff_count_le_one.mpr fun id => ?_
  have honce := List.nodup_iff_count_le_one.mp hwf.nodup_bodyIds id
  exact Nat.le_trans (Nat.le_of_add_left_le (c.count_le id)) honce

/-- Only the second pass works on binders. -/
theorem mem_bodyIds_of_binder {b : Binder} (hb : b ∈ c.binders) :
    b.id ∈ itemsBodyIds c.items := by
  have hpos : 0 < countBinders b.id c.binders := List.count_pos_iff.mpr (List.mem_map_of_mem hb)
  exact List.count_pos_iff.mp
    (Nat.lt_of_lt_of_le hpos (Nat.le_of_add_left_le (c.count_le b.id)))

end Crate

end NameResolution
