import Mathlib.Data.List.Nodup
import NameResolution.Tree.NodeIds
import NameResolution.Tree.Text
import NameResolution.Tree.Relabel

/-!
# NameResolution.Proofs.RelabelledTrees

**What a relabelling changes in a tree, and what it leaves alone.** The written form of a
type does not show what is replaced (`Ty.text_relabel`). The identities of the new tree are
the images of the old ones (`Crate.nodeIds_relabel`), so a crate stays well formed under a
relabelling that keeps its identities apart (`Crate.WellFormed.relabel`). The new tree
depends on nothing but what becomes of the identities that occur (`Crate.relabel_congr`).
-/

namespace NameResolution

variable (ρ : Relabelling)

/-! ## The written form -/

mutual

theorem Pattern.text_relabel : ∀ p : Pattern, (p.relabel ρ).text = p.text
  | .binding _ _ _ => rfl
  | .tuple _ elems => by simp only [Pattern.relabel, Pattern.text, patternTexts_relabel elems]
  | .wildcard _ => rfl

theorem patternTexts_relabel : ∀ ps : List Pattern,
    patternTexts (relabelPatterns ρ ps) = patternTexts ps
  | [] => rfl
  | p :: ps => by
      simp only [relabelPatterns, patternTexts, p.text_relabel, patternTexts_relabel ps]

end

mutual

theorem Path.text_relabel : ∀ p : Path, (p.relabel ρ).text = p.text
  | ⟨_, segments⟩ => by simp only [Path.relabel, Path.text, segmentTexts_relabel segments]

theorem segmentTexts_relabel : ∀ segments : List PathSegment,
    segmentTexts (relabelSegments ρ segments) = segmentTexts segments
  | [] => rfl
  | s :: rest => by
      simp only [relabelSegments, segmentTexts, s.text_relabel, segmentTexts_relabel rest]

theorem PathSegment.text_relabel : ∀ s : PathSegment, (s.relabel ρ).text = s.text
  | ⟨_, _, none⟩ => rfl
  | ⟨_, _, some ⟨[], _⟩⟩ => rfl
  | ⟨_, ident, some ⟨t :: ts, span⟩⟩ =>
      congrArg (ident.text ++ ·) (GenericArgs.text_relabel ⟨t :: ts, span⟩)

theorem GenericArgs.text_relabel : ∀ args : GenericArgs, (args.relabel ρ).text = args.text
  | ⟨types, _⟩ => by simp only [GenericArgs.relabel, GenericArgs.text, tyTexts_relabel types]

theorem tyTexts_relabel : ∀ ts : List Ty, tyTexts (relabelTys ρ ts) = tyTexts ts
  | [] => rfl
  | t :: ts => by simp only [relabelTys, tyTexts, t.text_relabel, tyTexts_relabel ts]

/-- A type is written alike under a relabelling. -/
theorem Ty.text_relabel : ∀ t : Ty, (t.relabel ρ).text = t.text
  | .path _ p => by simp only [Ty.relabel, Ty.text, p.text_relabel]
  | .qualified _ p => by simp only [Ty.relabel, Ty.text, p.text_relabel]
  | .tuple _ [] => rfl
  | .tuple _ [t] => by simp only [Ty.relabel, relabelTys, Ty.text, t.text_relabel]
  | .tuple _ (t :: t' :: ts) => by
      simp only [Ty.relabel, relabelTys, Ty.text, tyTexts, t.text_relabel, t'.text_relabel,
        tyTexts_relabel ts]
  | .array _ elem size => by simp only [Ty.relabel, Ty.text, elem.text_relabel, size.text_relabel]
  | .slice _ elem => by simp only [Ty.relabel, Ty.text, elem.text_relabel]
  | .reference _ _ inner => by simp only [Ty.relabel, Ty.text, inner.text_relabel]
  | .pointer _ _ inner => by simp only [Ty.relabel, Ty.text, inner.text_relabel]
  | .dynOne _ bound => by simp only [Ty.relabel, Ty.text, bound.text_relabel]
  | .dyn _ bounds => by simp only [Ty.relabel, Ty.text, boundTexts_relabel bounds]
  | .fnPointer _ params none => by simp only [Ty.relabel, Ty.text, paramTexts_relabel params]
  | .fnPointer _ params (some ret) => by
      simp only [Ty.relabel, Ty.text, paramTexts_relabel params, ret.text_relabel]
  | .inferred _ => rfl
  | .never _ => rfl

theorem QualifiedPath.text_relabel : ∀ p : QualifiedPath, (p.relabel ρ).text = p.text
  | ⟨_, qualifier, associated, rest⟩ => by
      simp only [QualifiedPath.relabel, QualifiedPath.text, qualifier.text_relabel,
        associated.text_relabel, segmentTexts_relabel rest]

theorem Qualifier.text_relabel : ∀ q : Qualifier, (q.relabel ρ).text = q.text
  | ⟨_, selfTy, none⟩ => by simp only [Qualifier.relabel, Qualifier.text, selfTy.text_relabel]
  | ⟨_, selfTy, some asTrait⟩ => by
      simp only [Qualifier.relabel, Qualifier.text, selfTy.text_relabel, asTrait.text_relabel]

theorem TraitBound.text_relabel : ∀ b : TraitBound, (b.relabel ρ).text = b.text
  | ⟨_, path⟩ => by simp only [TraitBound.relabel, TraitBound.text, path.text_relabel]

theorem Bound.text_relabel : ∀ b : Bound, (b.relabel ρ).text = b.text
  | .trait bound => by simp only [Bound.relabel, Bound.text, bound.text_relabel]
  | .lifetime _ => rfl

theorem boundTexts_relabel : ∀ bs : List Bound, boundTexts (relabelBounds ρ bs) = boundTexts bs
  | [] => rfl
  | b :: bs => by simp only [relabelBounds, boundTexts, b.text_relabel, boundTexts_relabel bs]

theorem paramTexts_relabel : ∀ ps : List FnPointerParam,
    paramTexts (relabelParamTys ρ ps) = paramTexts ps
  | [] => rfl
  | ⟨_, _, ty⟩ :: ps => by
      simp only [relabelParamTys, paramTexts, ty.text_relabel, paramTexts_relabel ps]

theorem Expr.text_relabel : ∀ e : Expr, (e.relabel ρ).text = e.text
  | .literal _ _ => rfl
  | .path _ p => by simp only [Expr.relabel, Expr.text, p.text_relabel]
  | .unary _ _ operand => by simp only [Expr.relabel, Expr.text, operand.text_relabel]
  | .binary _ _ lhs rhs => by
      simp only [Expr.relabel, Expr.text, lhs.text_relabel, rhs.text_relabel]
  | .call _ callee args => by
      simp only [Expr.relabel, Expr.text, callee.text_relabel, exprTexts_relabel args]
  | .cast _ operand ty => by
      simp only [Expr.relabel, Expr.text, operand.text_relabel, ty.text_relabel]
  | .tuple _ elems => by simp only [Expr.relabel, Expr.text, exprTexts_relabel elems]
  | .group _ inner => by simp only [Expr.relabel, Expr.text, inner.text_relabel]
  | .block _ body => by simp only [Expr.relabel, Expr.text, body.text_relabel]

theorem exprTexts_relabel : ∀ es : List Expr, exprTexts (relabelExprs ρ es) = exprTexts es
  | [] => rfl
  | e :: es => by simp only [relabelExprs, exprTexts, e.text_relabel, exprTexts_relabel es]

theorem Block.text_relabel : ∀ b : Block, (b.relabel ρ).text = b.text
  | ⟨_, stmts, none⟩ => by simp only [Block.relabel, Block.text, stmtsText_relabel stmts]
  | ⟨_, stmts, some tail⟩ => by
      simp only [Block.relabel, Block.text, stmtsText_relabel stmts, tail.text_relabel]

theorem stmtsText_relabel : ∀ stmts : List Stmt, stmtsText (relabelStmts ρ stmts) = stmtsText stmts
  | [] => rfl
  | s :: rest => by simp only [relabelStmts, stmtsText, s.text_relabel, stmtsText_relabel rest]

theorem Stmt.text_relabel : ∀ s : Stmt, (s.relabel ρ).text = s.text
  | .bind _ pattern none none => by simp only [Stmt.relabel, Stmt.text, pattern.text_relabel]
  | .bind _ pattern (some ty) none => by
      simp only [Stmt.relabel, Stmt.text, pattern.text_relabel, ty.text_relabel]
  | .bind _ pattern none (some init) => by
      simp only [Stmt.relabel, Stmt.text, pattern.text_relabel, init.text_relabel]
  | .bind _ pattern (some ty) (some init) => by
      simp only [Stmt.relabel, Stmt.text, pattern.text_relabel, ty.text_relabel,
        init.text_relabel]
  | .expr _ value => by simp only [Stmt.relabel, Stmt.text, value.text_relabel]
  | .empty _ => rfl

end

/-! ### What enters a canonical path -/

theorem relabelSegments_eq_map : ∀ segments : List PathSegment,
    relabelSegments ρ segments = segments.map (PathSegment.relabel ρ)
  | [] => rfl
  | s :: rest => congrArg (s.relabel ρ :: ·) (relabelSegments_eq_map rest)

theorem Path.segments_relabel (p : Path) :
    (p.relabel ρ).segments = p.segments.map (PathSegment.relabel ρ) := by
  obtain ⟨n, segments⟩ := p
  exact relabelSegments_eq_map ρ segments

@[simp] theorem length_relabelSegments (segments : List PathSegment) :
    (relabelSegments ρ segments).length = segments.length := by
  rw [relabelSegments_eq_map, List.length_map]

@[simp] theorem isEmpty_relabelSegments (segments : List PathSegment) :
    (relabelSegments ρ segments).isEmpty = segments.isEmpty := by
  cases segments <;> rfl

namespace PathSegment

@[simp] theorem node_relabel (s : PathSegment) : (s.relabel ρ).node = s.node.relabel ρ := by
  obtain ⟨n, ident, _ | args⟩ := s <;> rfl

@[simp] theorem ident_relabel (s : PathSegment) : (s.relabel ρ).ident = s.ident := by
  obtain ⟨n, ident, _ | args⟩ := s <;> rfl

theorem args_relabel (s : PathSegment) : (s.relabel ρ).args = relabelTys ρ s.args := by
  obtain ⟨n, ident, _ | ⟨types, span⟩⟩ := s <;> rfl

@[simp] theorem hasArgs_relabel (s : PathSegment) : (s.relabel ρ).hasArgs = s.hasArgs := by
  unfold hasArgs
  rw [args_relabel]
  cases s.args <;> rfl

@[simp] theorem canonicalArgs_relabel (s : PathSegment) :
    canonicalArgs (s.relabel ρ).args = canonicalArgs s.args := by
  unfold canonicalArgs
  rw [args_relabel, tyTexts_relabel]

theorem canonicalText_relabel (s : PathSegment) (withArgs : Bool) :
    (s.relabel ρ).canonicalText withArgs = s.canonicalText withArgs := by
  unfold canonicalText
  rw [hasArgs_relabel, ident_relabel, canonicalArgs_relabel]

end PathSegment

@[simp] theorem Ty.node_relabel (t : Ty) : (t.relabel ρ).node = t.node.relabel ρ := by
  cases t with
  | fnPointer n params ret => cases ret <;> rfl
  | _ => rfl

@[simp] theorem Generics.isEmpty_relabel (g : Generics) : (g.relabel ρ).isEmpty = g.isEmpty := by
  obtain ⟨params, whereClause⟩ := g
  cases params <;> rfl

/-! ## The identities -/

mutual

theorem Pattern.nodeIds_relabel : ∀ p : Pattern, (p.relabel ρ).nodeIds = p.nodeIds.map ρ.node
  | .binding _ _ _ => rfl
  | .tuple n elems => congrArg (ρ.node n.id :: ·) (patternsNodeIds_relabel elems)
  | .wildcard _ => rfl

theorem patternsNodeIds_relabel : ∀ ps : List Pattern,
    patternsNodeIds (relabelPatterns ρ ps) = (patternsNodeIds ps).map ρ.node
  | [] => rfl
  | p :: ps => by
      simp only [relabelPatterns, patternsNodeIds, p.nodeIds_relabel, patternsNodeIds_relabel ps,
        List.map_append]

end

mutual

theorem Path.nodeIds_relabel : ∀ p : Path, (p.relabel ρ).nodeIds = p.nodeIds.map ρ.node
  | ⟨n, segments⟩ => congrArg (ρ.node n.id :: ·) (segmentsNodeIds_relabel segments)

theorem segmentsNodeIds_relabel : ∀ segments : List PathSegment,
    segmentsNodeIds (relabelSegments ρ segments) = (segmentsNodeIds segments).map ρ.node
  | [] => rfl
  | s :: rest => by
      simp only [relabelSegments, segmentsNodeIds, s.nodeIds_relabel,
        segmentsNodeIds_relabel rest, List.map_append]

theorem PathSegment.nodeIds_relabel : ∀ s : PathSegment,
    (s.relabel ρ).nodeIds = s.nodeIds.map ρ.node
  | ⟨_, _, none⟩ => rfl
  | ⟨n, _, some args⟩ => congrArg (ρ.node n.id :: ·) args.nodeIds_relabel

theorem GenericArgs.nodeIds_relabel : ∀ args : GenericArgs,
    (args.relabel ρ).nodeIds = args.nodeIds.map ρ.node
  | ⟨types, _⟩ => tysNodeIds_relabel types

theorem tysNodeIds_relabel : ∀ ts : List Ty,
    tysNodeIds (relabelTys ρ ts) = (tysNodeIds ts).map ρ.node
  | [] => rfl
  | t :: ts => by
      simp only [relabelTys, tysNodeIds, t.nodeIds_relabel, tysNodeIds_relabel ts,
        List.map_append]

theorem Ty.nodeIds_relabel : ∀ t : Ty, (t.relabel ρ).nodeIds = t.nodeIds.map ρ.node
  | .path n p => congrArg (ρ.node n.id :: ·) p.nodeIds_relabel
  | .qualified n p => congrArg (ρ.node n.id :: ·) p.nodeIds_relabel
  | .tuple n elems => congrArg (ρ.node n.id :: ·) (tysNodeIds_relabel elems)
  | .array _ elem size => by
      simp only [Ty.relabel, Ty.nodeIds, elem.nodeIds_relabel, size.nodeIds_relabel,
        Node.id_relabel, List.map_cons, List.map_append]
  | .slice n elem => congrArg (ρ.node n.id :: ·) elem.nodeIds_relabel
  | .reference n _ inner => congrArg (ρ.node n.id :: ·) inner.nodeIds_relabel
  | .pointer n _ inner => congrArg (ρ.node n.id :: ·) inner.nodeIds_relabel
  | .dynOne n bound => congrArg (ρ.node n.id :: ·) bound.nodeIds_relabel
  | .dyn n bounds => congrArg (ρ.node n.id :: ·) (boundsNodeIds_relabel bounds)
  | .fnPointer n params none => congrArg (ρ.node n.id :: ·) (paramTysNodeIds_relabel params)
  | .fnPointer _ params (some ret) => by
      simp only [Ty.relabel, Ty.nodeIds, paramTysNodeIds_relabel params, ret.nodeIds_relabel,
        Node.id_relabel, List.map_cons, List.map_append]
  | .inferred _ => rfl
  | .never _ => rfl

theorem QualifiedPath.nodeIds_relabel : ∀ p : QualifiedPath,
    (p.relabel ρ).nodeIds = p.nodeIds.map ρ.node
  | ⟨_, qualifier, associated, rest⟩ => by
      simp only [QualifiedPath.relabel, QualifiedPath.nodeIds, qualifier.nodeIds_relabel,
        associated.nodeIds_relabel, segmentsNodeIds_relabel rest, Node.id_relabel, List.map_cons,
        List.map_append]

theorem Qualifier.nodeIds_relabel : ∀ q : Qualifier,
    (q.relabel ρ).nodeIds = q.nodeIds.map ρ.node
  | ⟨n, selfTy, none⟩ => congrArg (ρ.node n.id :: ·) selfTy.nodeIds_relabel
  | ⟨_, selfTy, some asTrait⟩ => by
      simp only [Qualifier.relabel, Qualifier.nodeIds, selfTy.nodeIds_relabel,
        asTrait.nodeIds_relabel, Node.id_relabel, List.map_cons, List.map_append]

theorem TraitBound.nodeIds_relabel : ∀ b : TraitBound,
    (b.relabel ρ).nodeIds = b.nodeIds.map ρ.node
  | ⟨n, path⟩ => congrArg (ρ.node n.id :: ·) path.nodeIds_relabel

theorem Bound.nodeIds_relabel : ∀ b : Bound, (b.relabel ρ).nodeIds = b.nodeIds.map ρ.node
  | .trait bound => bound.nodeIds_relabel
  | .lifetime _ => rfl

theorem boundsNodeIds_relabel : ∀ bs : List Bound,
    boundsNodeIds (relabelBounds ρ bs) = (boundsNodeIds bs).map ρ.node
  | [] => rfl
  | b :: bs => by
      simp only [relabelBounds, boundsNodeIds, b.nodeIds_relabel, boundsNodeIds_relabel bs,
        List.map_append]

theorem paramTysNodeIds_relabel : ∀ ps : List FnPointerParam,
    paramTysNodeIds (relabelParamTys ρ ps) = (paramTysNodeIds ps).map ρ.node
  | [] => rfl
  | ⟨_, _, ty⟩ :: ps => by
      simp only [relabelParamTys, paramTysNodeIds, ty.nodeIds_relabel,
        paramTysNodeIds_relabel ps, List.map_cons, List.map_append]

theorem Expr.nodeIds_relabel : ∀ e : Expr, (e.relabel ρ).nodeIds = e.nodeIds.map ρ.node
  | .literal _ _ => rfl
  | .path n p => congrArg (ρ.node n.id :: ·) p.nodeIds_relabel
  | .unary n _ operand => congrArg (ρ.node n.id :: ·) operand.nodeIds_relabel
  | .binary _ _ lhs rhs => by
      simp only [Expr.relabel, Expr.nodeIds, lhs.nodeIds_relabel, rhs.nodeIds_relabel,
        Node.id_relabel, List.map_cons, List.map_append]
  | .call _ callee args => by
      simp only [Expr.relabel, Expr.nodeIds, callee.nodeIds_relabel, exprsNodeIds_relabel args,
        Node.id_relabel, List.map_cons, List.map_append]
  | .cast _ operand ty => by
      simp only [Expr.relabel, Expr.nodeIds, operand.nodeIds_relabel, ty.nodeIds_relabel,
        Node.id_relabel, List.map_cons, List.map_append]
  | .tuple n elems => congrArg (ρ.node n.id :: ·) (exprsNodeIds_relabel elems)
  | .group n inner => congrArg (ρ.node n.id :: ·) inner.nodeIds_relabel
  | .block n body => congrArg (ρ.node n.id :: ·) body.nodeIds_relabel

theorem exprsNodeIds_relabel : ∀ es : List Expr,
    exprsNodeIds (relabelExprs ρ es) = (exprsNodeIds es).map ρ.node
  | [] => rfl
  | e :: es => by
      simp only [relabelExprs, exprsNodeIds, e.nodeIds_relabel, exprsNodeIds_relabel es,
        List.map_append]

theorem Block.nodeIds_relabel : ∀ b : Block, (b.relabel ρ).nodeIds = b.nodeIds.map ρ.node
  | ⟨n, stmts, none⟩ => congrArg (ρ.node n.id :: ·) (stmtsNodeIds_relabel stmts)
  | ⟨_, stmts, some tail⟩ => by
      simp only [Block.relabel, Block.nodeIds, stmtsNodeIds_relabel stmts, tail.nodeIds_relabel,
        Node.id_relabel, List.map_cons, List.map_append]

theorem stmtsNodeIds_relabel : ∀ stmts : List Stmt,
    stmtsNodeIds (relabelStmts ρ stmts) = (stmtsNodeIds stmts).map ρ.node
  | [] => rfl
  | s :: rest => by
      simp only [relabelStmts, stmtsNodeIds, s.nodeIds_relabel, stmtsNodeIds_relabel rest,
        List.map_append]

theorem Stmt.nodeIds_relabel : ∀ s : Stmt, (s.relabel ρ).nodeIds = s.nodeIds.map ρ.node
  | .bind n pattern none none => congrArg (ρ.node n.id :: ·) (pattern.nodeIds_relabel ρ)
  | .bind _ pattern (some ty) none => by
      simp only [Stmt.relabel, Stmt.nodeIds, pattern.nodeIds_relabel, ty.nodeIds_relabel,
        Node.id_relabel, List.map_cons, List.map_append]
  | .bind _ pattern none (some init) => by
      simp only [Stmt.relabel, Stmt.nodeIds, pattern.nodeIds_relabel, init.nodeIds_relabel,
        Node.id_relabel, List.map_cons, List.map_append]
  | .bind _ pattern (some ty) (some init) => by
      simp only [Stmt.relabel, Stmt.nodeIds, pattern.nodeIds_relabel, ty.nodeIds_relabel,
        init.nodeIds_relabel, Node.id_relabel, List.map_cons, List.map_append]
  | .expr n value => congrArg (ρ.node n.id :: ·) value.nodeIds_relabel
  | .empty _ => rfl

end

section Parts

variable {α : Type} {f : α → List NodeId} {r : α → α}

theorem optionalIds_relabel (h : ∀ a, f (r a) = (f a).map ρ.node) (o : Option α) :
    optionalIds f (o.map r) = (optionalIds f o).map ρ.node := by
  cases o with
  | none => rfl
  | some a => exact h a

theorem flatMap_relabel (h : ∀ a, f (r a) = (f a).map ρ.node) (l : List α) :
    (l.map r).flatMap f = (l.flatMap f).map ρ.node := by
  simp only [List.flatMap_map, List.map_flatMap, h]

end Parts

theorem GenericParam.nodeIds_relabel (p : GenericParam) :
    (p.relabel ρ).nodeIds = p.nodeIds.map ρ.node := by
  obtain ⟨n, name, kind⟩ := p
  cases kind with
  | type bounds default =>
      simp only [GenericParam.relabel, GenericParamKind.relabel, GenericParam.nodeIds,
        boundsNodeIds_relabel, optionalIds_relabel ρ (Ty.nodeIds_relabel ρ), Node.id_relabel,
        List.map_cons, List.map_append]
  | const ty default =>
      simp only [GenericParam.relabel, GenericParamKind.relabel, GenericParam.nodeIds,
        Ty.nodeIds_relabel, optionalIds_relabel ρ (Expr.nodeIds_relabel ρ), Node.id_relabel,
        List.map_cons, List.map_append]
  | lifetime => rfl

theorem WherePredicate.nodeIds_relabel (p : WherePredicate) :
    (p.relabel ρ).nodeIds = p.nodeIds.map ρ.node := by
  simp only [WherePredicate.relabel, WherePredicate.nodeIds, Ty.nodeIds_relabel,
    boundsNodeIds_relabel, Node.id_relabel, List.map_cons, List.map_append]

theorem Generics.nodeIds_relabel (g : Generics) :
    (g.relabel ρ).nodeIds = g.nodeIds.map ρ.node := by
  have hwhere : optionalIds (fun w => w.predicates.flatMap WherePredicate.nodeIds)
      (g.whereClause.map (WhereClause.relabel ρ)) = (optionalIds _ g.whereClause).map ρ.node :=
    optionalIds_relabel ρ (fun w =>
      flatMap_relabel ρ (WherePredicate.nodeIds_relabel ρ) w.predicates) g.whereClause
  simp only [Generics.relabel, Generics.nodeIds,
    flatMap_relabel ρ (GenericParam.nodeIds_relabel ρ), hwhere, List.map_append]

theorem NamedField.nodeIds_relabel (f : NamedField) :
    (f.relabel ρ).nodeIds = f.nodeIds.map ρ.node :=
  congrArg (ρ.node f.node.id :: ·) (f.ty.nodeIds_relabel ρ)

theorem TupleField.nodeIds_relabel (f : TupleField) :
    (f.relabel ρ).nodeIds = f.nodeIds.map ρ.node :=
  congrArg (ρ.node f.node.id :: ·) (f.ty.nodeIds_relabel ρ)

theorem Variant.nodeIds_relabel (v : Variant) : (v.relabel ρ).nodeIds = v.nodeIds.map ρ.node := by
  obtain ⟨n, name, kind⟩ := v
  cases kind with
  | unit => rfl
  | tuple fields =>
      exact congrArg (ρ.node n.id :: ·) (flatMap_relabel ρ (TupleField.nodeIds_relabel ρ) fields)
  | record fields =>
      exact congrArg (ρ.node n.id :: ·) (flatMap_relabel ρ (NamedField.nodeIds_relabel ρ) fields)
  | discriminant value => exact congrArg (ρ.node n.id :: ·) (value.nodeIds_relabel ρ)

theorem Param.nodeIds_relabel (p : Param) : (p.relabel ρ).nodeIds = p.nodeIds.map ρ.node := by
  simp only [Param.relabel, Param.nodeIds, Pattern.nodeIds_relabel, Ty.nodeIds_relabel,
    Node.id_relabel, List.map_cons, List.map_append]

theorem FunctionDecl.nodeIds_relabel (f : FunctionDecl) :
    (f.relabel ρ).nodeIds = f.nodeIds.map ρ.node := by
  have hreceiver : optionalIds (fun r => [r.node.id]) (f.receiver.map (SelfParam.relabel ρ))
      = (optionalIds (fun r => [r.node.id]) f.receiver).map ρ.node := by
    cases f.receiver <;> rfl
  simp only [FunctionDecl.relabel, FunctionDecl.nodeIds, Generics.nodeIds_relabel, hreceiver,
    flatMap_relabel ρ (Param.nodeIds_relabel ρ), optionalIds_relabel ρ (Ty.nodeIds_relabel ρ),
    optionalIds_relabel ρ (Block.nodeIds_relabel ρ), List.map_append]

theorem ConstDecl.nodeIds_relabel (c : ConstDecl) :
    (c.relabel ρ).nodeIds = c.nodeIds.map ρ.node := by
  simp only [ConstDecl.relabel, ConstDecl.nodeIds, Ty.nodeIds_relabel,
    optionalIds_relabel ρ (Expr.nodeIds_relabel ρ), List.map_append]

theorem AliasDecl.nodeIds_relabel (a : AliasDecl) :
    (a.relabel ρ).nodeIds = a.nodeIds.map ρ.node := by
  simp only [AliasDecl.relabel, AliasDecl.nodeIds, Generics.nodeIds_relabel, Ty.nodeIds_relabel,
    List.map_append]

theorem ImplItem.nodeIds_relabel (i : ImplItem) :
    (i.relabel ρ).nodeIds = i.nodeIds.map ρ.node := by
  obtain ⟨n, vis, kind⟩ := i
  cases kind with
  | function f => exact congrArg (ρ.node n.id :: ·) (f.nodeIds_relabel ρ)
  | const c => exact congrArg (ρ.node n.id :: ·) (c.nodeIds_relabel ρ)
  | typeAlias a => exact congrArg (ρ.node n.id :: ·) (a.nodeIds_relabel ρ)

theorem TraitItem.nodeIds_relabel (i : TraitItem) :
    (i.relabel ρ).nodeIds = i.nodeIds.map ρ.node := by
  obtain ⟨n, kind⟩ := i
  cases kind with
  | function f => exact congrArg (ρ.node n.id :: ·) (f.nodeIds_relabel ρ)
  | const c => exact congrArg (ρ.node n.id :: ·) (c.nodeIds_relabel ρ)
  | type t => exact congrArg (ρ.node n.id :: ·) (boundsNodeIds_relabel ρ t.bounds)

theorem ForeignItem.nodeIds_relabel (i : ForeignItem) :
    (i.relabel ρ).nodeIds = i.nodeIds.map ρ.node := by
  obtain ⟨n, vis, kind⟩ := i
  cases kind with
  | function f => exact congrArg (ρ.node n.id :: ·) (f.nodeIds_relabel ρ)
  | static name mutable ty => exact congrArg (ρ.node n.id :: ·) (ty.nodeIds_relabel ρ)

mutual

theorem Item.nodeIds_relabel : ∀ item : Item,
    (item.relabel ρ).nodeIds = item.nodeIds.map ρ.node
  | ⟨n, _, kind⟩ => congrArg (ρ.node n.id :: ·) kind.nodeIds_relabel

theorem ItemKind.nodeIds_relabel : ∀ kind : ItemKind,
    (kind.relabel ρ).nodeIds = kind.nodeIds.map ρ.node
  | .module _ items => itemsNodeIds_relabel items
  | .typeAlias a => a.nodeIds_relabel ρ
  | .struct s => by
      simp only [ItemKind.relabel, RecordDecl.relabel, ItemKind.nodeIds, Generics.nodeIds_relabel,
        flatMap_relabel ρ (NamedField.nodeIds_relabel ρ), List.map_append]
  | .tupleStruct s => by
      simp only [ItemKind.relabel, TupleStructDecl.relabel, ItemKind.nodeIds,
        Generics.nodeIds_relabel, flatMap_relabel ρ (TupleField.nodeIds_relabel ρ),
        List.map_append]
  | .enum e => by
      simp only [ItemKind.relabel, EnumDecl.relabel, ItemKind.nodeIds, Generics.nodeIds_relabel,
        flatMap_relabel ρ (Variant.nodeIds_relabel ρ), List.map_append]
  | .union u => by
      simp only [ItemKind.relabel, RecordDecl.relabel, ItemKind.nodeIds, Generics.nodeIds_relabel,
        flatMap_relabel ρ (NamedField.nodeIds_relabel ρ), List.map_append]
  | .static s => by
      simp only [ItemKind.relabel, StaticDecl.relabel, ItemKind.nodeIds, Ty.nodeIds_relabel,
        optionalIds_relabel ρ (Expr.nodeIds_relabel ρ), List.map_append]
  | .const c => c.nodeIds_relabel ρ
  | .function f => f.nodeIds_relabel ρ
  | .inherentImpl i => by
      simp only [ItemKind.relabel, InherentImpl.relabel, ItemKind.nodeIds,
        Generics.nodeIds_relabel, Ty.nodeIds_relabel,
        flatMap_relabel ρ (ImplItem.nodeIds_relabel ρ), List.map_append]
  | .traitImpl i => by
      simp only [ItemKind.relabel, TraitImpl.relabel, ItemKind.nodeIds, Generics.nodeIds_relabel,
        Path.nodeIds_relabel, Ty.nodeIds_relabel, flatMap_relabel ρ (ImplItem.nodeIds_relabel ρ),
        List.map_append]
  | .trait t => by
      simp only [ItemKind.relabel, TraitDecl.relabel, ItemKind.nodeIds, Generics.nodeIds_relabel,
        boundsNodeIds_relabel, flatMap_relabel ρ (TraitItem.nodeIds_relabel ρ), List.map_append]
  | .foreign b => flatMap_relabel ρ (ForeignItem.nodeIds_relabel ρ) b.items

theorem itemsNodeIds_relabel : ∀ items : List Item,
    itemsNodeIds (relabelItems ρ items) = (itemsNodeIds items).map ρ.node
  | [] => rfl
  | item :: rest => by
      simp only [relabelItems, itemsNodeIds, item.nodeIds_relabel, itemsNodeIds_relabel rest,
        List.map_append]

end

/-- The identities of a crate under a relabelling are the images of those it had. -/
theorem Crate.nodeIds_relabel (bound : NodeId) (c : Crate) :
    (c.relabel ρ bound).nodeIds = c.nodeIds.map ρ.node :=
  congrArg (ρ.node c.node.id :: ·) (itemsNodeIds_relabel ρ c.items)

/-- A crate stays well formed if its identities are kept apart and stay below the bound. -/
theorem Crate.WellFormed.relabel {c : Crate} (hwf : c.WellFormed) {bound : NodeId}
    (hinj : ∀ id ∈ c.nodeIds, ∀ id' ∈ c.nodeIds, ρ.node id = ρ.node id' → id = id')
    (hbound : ∀ id ∈ c.nodeIds, (ρ.node id).value < bound.value) :
    (c.relabel ρ bound).WellFormed := by
  unfold Crate.WellFormed
  rw [Crate.nodeIds_relabel]
  refine ⟨List.Nodup.map_on hinj hwf.1, fun id hid => ?_⟩
  obtain ⟨old, hold, rfl⟩ := List.mem_map.mp hid
  exact hbound old hold

/-! ## Relabellings that agree -/

/-- Two relabellings do the same to some identities, and to visibilities. -/
structure Relabelling.AgreeOn (ρ σ : Relabelling) (ids : List NodeId) : Prop where
  vis : ρ.vis = σ.vis
  node : ∀ id ∈ ids, ρ.node id = σ.node id

namespace Relabelling.AgreeOn

variable {ρ σ : Relabelling} {ids ids' : List NodeId}

theorem of_subset (h : ρ.AgreeOn σ ids) (hsub : ids' ⊆ ids) : ρ.AgreeOn σ ids' :=
  ⟨h.vis, fun id hid => h.node id (hsub hid)⟩

theorem tail {id : NodeId} (h : ρ.AgreeOn σ (id :: ids)) : ρ.AgreeOn σ ids :=
  h.of_subset (List.subset_cons_self id ids)

theorem left (h : ρ.AgreeOn σ (ids ++ ids')) : ρ.AgreeOn σ ids :=
  h.of_subset (List.subset_append_left ids ids')

theorem right (h : ρ.AgreeOn σ (ids ++ ids')) : ρ.AgreeOn σ ids' :=
  h.of_subset (List.subset_append_right ids ids')

theorem head {n : Node} (h : ρ.AgreeOn σ (n.id :: ids)) : n.relabel ρ = n.relabel σ :=
  congrArg (Node.mk · n.span) (h.node n.id List.mem_cons_self)

section Parts

variable {α : Type} {f : α → List NodeId} {r : Relabelling → α → α}

theorem optional (hr : ∀ a, ρ.AgreeOn σ (f a) → r ρ a = r σ a) {o : Option α}
    (h : ρ.AgreeOn σ (optionalIds f o)) : o.map (r ρ) = o.map (r σ) := by
  cases o with
  | none => rfl
  | some a => exact congrArg some (hr a h)

theorem each (hr : ∀ a, ρ.AgreeOn σ (f a) → r ρ a = r σ a) {l : List α}
    (h : ρ.AgreeOn σ (l.flatMap f)) : l.map (r ρ) = l.map (r σ) := by
  refine List.map_congr_left fun a ha => hr a (h.of_subset fun id hid => ?_)
  exact List.mem_flatMap.mpr ⟨a, ha, hid⟩

end Parts

end Relabelling.AgreeOn

section Congruence

open Relabelling (AgreeOn)

variable {ρ σ : Relabelling}

mutual

theorem Pattern.relabel_congr : ∀ p : Pattern, ρ.AgreeOn σ p.nodeIds → p.relabel ρ = p.relabel σ
  | .binding _ _ _, h => by simp only [Pattern.relabel, h.head]
  | .tuple _ elems, h => by simp only [Pattern.relabel, h.head, relabelPatterns_congr elems h.tail]
  | .wildcard _, h => by simp only [Pattern.relabel, h.head]

theorem relabelPatterns_congr : ∀ ps : List Pattern, ρ.AgreeOn σ (patternsNodeIds ps) →
    relabelPatterns ρ ps = relabelPatterns σ ps
  | [], _ => rfl
  | p :: ps, h => by
      simp only [relabelPatterns, p.relabel_congr h.left, relabelPatterns_congr ps h.right]

end

mutual

theorem Path.relabel_congr : ∀ p : Path, ρ.AgreeOn σ p.nodeIds → p.relabel ρ = p.relabel σ
  | ⟨_, segments⟩, h => by simp only [Path.relabel, h.head, relabelSegments_congr segments h.tail]

theorem relabelSegments_congr : ∀ segments : List PathSegment,
    ρ.AgreeOn σ (segmentsNodeIds segments) → relabelSegments ρ segments = relabelSegments σ segments
  | [], _ => rfl
  | s :: rest, h => by
      simp only [relabelSegments, s.relabel_congr h.left, relabelSegments_congr rest h.right]

theorem PathSegment.relabel_congr : ∀ s : PathSegment, ρ.AgreeOn σ s.nodeIds →
    s.relabel ρ = s.relabel σ
  | ⟨_, _, none⟩, h => by simp only [PathSegment.relabel, h.head]
  | ⟨_, _, some args⟩, h => by simp only [PathSegment.relabel, h.head, args.relabel_congr h.tail]

theorem GenericArgs.relabel_congr : ∀ args : GenericArgs, ρ.AgreeOn σ args.nodeIds →
    args.relabel ρ = args.relabel σ
  | ⟨types, _⟩, h => by simp only [GenericArgs.relabel, relabelTys_congr types h]

theorem relabelTys_congr : ∀ ts : List Ty, ρ.AgreeOn σ (tysNodeIds ts) →
    relabelTys ρ ts = relabelTys σ ts
  | [], _ => rfl
  | t :: ts, h => by simp only [relabelTys, t.relabel_congr h.left, relabelTys_congr ts h.right]

theorem Ty.relabel_congr : ∀ t : Ty, ρ.AgreeOn σ t.nodeIds → t.relabel ρ = t.relabel σ
  | .path _ p, h => by simp only [Ty.relabel, h.head, p.relabel_congr h.tail]
  | .qualified _ p, h => by simp only [Ty.relabel, h.head, p.relabel_congr h.tail]
  | .tuple _ elems, h => by simp only [Ty.relabel, h.head, relabelTys_congr elems h.tail]
  | .array _ elem size, h => by
      simp only [Ty.relabel, h.head, elem.relabel_congr h.tail.left,
        size.relabel_congr h.tail.right]
  | .slice _ elem, h => by simp only [Ty.relabel, h.head, elem.relabel_congr h.tail]
  | .reference _ _ inner, h => by simp only [Ty.relabel, h.head, inner.relabel_congr h.tail]
  | .pointer _ _ inner, h => by simp only [Ty.relabel, h.head, inner.relabel_congr h.tail]
  | .dynOne _ bound, h => by simp only [Ty.relabel, h.head, bound.relabel_congr h.tail]
  | .dyn _ bounds, h => by simp only [Ty.relabel, h.head, relabelBounds_congr bounds h.tail]
  | .fnPointer _ params none, h => by
      simp only [Ty.relabel, h.head, relabelParamTys_congr params h.tail]
  | .fnPointer _ params (some ret), h => by
      simp only [Ty.relabel, h.head, relabelParamTys_congr params h.tail.left,
        ret.relabel_congr h.tail.right]
  | .inferred _, h => by simp only [Ty.relabel, h.head]
  | .never _, h => by simp only [Ty.relabel, h.head]

theorem QualifiedPath.relabel_congr : ∀ p : QualifiedPath, ρ.AgreeOn σ p.nodeIds →
    p.relabel ρ = p.relabel σ
  | ⟨_, qualifier, associated, rest⟩, h => by
      simp only [QualifiedPath.relabel, h.head, qualifier.relabel_congr h.tail.left.left,
        associated.relabel_congr h.tail.left.right, relabelSegments_congr rest h.tail.right]

theorem Qualifier.relabel_congr : ∀ q : Qualifier, ρ.AgreeOn σ q.nodeIds →
    q.relabel ρ = q.relabel σ
  | ⟨_, selfTy, none⟩, h => by simp only [Qualifier.relabel, h.head, selfTy.relabel_congr h.tail]
  | ⟨_, selfTy, some asTrait⟩, h => by
      simp only [Qualifier.relabel, h.head, selfTy.relabel_congr h.tail.left,
        asTrait.relabel_congr h.tail.right]

theorem TraitBound.relabel_congr : ∀ b : TraitBound, ρ.AgreeOn σ b.nodeIds →
    b.relabel ρ = b.relabel σ
  | ⟨_, path⟩, h => by simp only [TraitBound.relabel, h.head, path.relabel_congr h.tail]

theorem Bound.relabel_congr : ∀ b : Bound, ρ.AgreeOn σ b.nodeIds → b.relabel ρ = b.relabel σ
  | .trait bound, h => by simp only [Bound.relabel, bound.relabel_congr h]
  | .lifetime _, _ => rfl

theorem relabelBounds_congr : ∀ bs : List Bound, ρ.AgreeOn σ (boundsNodeIds bs) →
    relabelBounds ρ bs = relabelBounds σ bs
  | [], _ => rfl
  | b :: bs, h => by
      simp only [relabelBounds, b.relabel_congr h.left, relabelBounds_congr bs h.right]

theorem relabelParamTys_congr : ∀ ps : List FnPointerParam, ρ.AgreeOn σ (paramTysNodeIds ps) →
    relabelParamTys ρ ps = relabelParamTys σ ps
  | [], _ => rfl
  | ⟨id, _, ty⟩ :: ps, h => by
      simp only [relabelParamTys, h.node id List.mem_cons_self, ty.relabel_congr h.tail.left,
        relabelParamTys_congr ps h.tail.right]

theorem Expr.relabel_congr : ∀ e : Expr, ρ.AgreeOn σ e.nodeIds → e.relabel ρ = e.relabel σ
  | .literal _ _, h => by simp only [Expr.relabel, h.head]
  | .path _ p, h => by simp only [Expr.relabel, h.head, p.relabel_congr h.tail]
  | .unary _ _ operand, h => by simp only [Expr.relabel, h.head, operand.relabel_congr h.tail]
  | .binary _ _ lhs rhs, h => by
      simp only [Expr.relabel, h.head, lhs.relabel_congr h.tail.left,
        rhs.relabel_congr h.tail.right]
  | .call _ callee args, h => by
      simp only [Expr.relabel, h.head, callee.relabel_congr h.tail.left,
        relabelExprs_congr args h.tail.right]
  | .cast _ operand ty, h => by
      simp only [Expr.relabel, h.head, operand.relabel_congr h.tail.left,
        ty.relabel_congr h.tail.right]
  | .tuple _ elems, h => by simp only [Expr.relabel, h.head, relabelExprs_congr elems h.tail]
  | .group _ inner, h => by simp only [Expr.relabel, h.head, inner.relabel_congr h.tail]
  | .block _ body, h => by simp only [Expr.relabel, h.head, body.relabel_congr h.tail]

theorem relabelExprs_congr : ∀ es : List Expr, ρ.AgreeOn σ (exprsNodeIds es) →
    relabelExprs ρ es = relabelExprs σ es
  | [], _ => rfl
  | e :: es, h => by simp only [relabelExprs, e.relabel_congr h.left, relabelExprs_congr es h.right]

theorem Block.relabel_congr : ∀ b : Block, ρ.AgreeOn σ b.nodeIds → b.relabel ρ = b.relabel σ
  | ⟨_, stmts, none⟩, h => by simp only [Block.relabel, h.head, relabelStmts_congr stmts h.tail]
  | ⟨_, stmts, some tail⟩, h => by
      simp only [Block.relabel, h.head, relabelStmts_congr stmts h.tail.left,
        tail.relabel_congr h.tail.right]

theorem relabelStmts_congr : ∀ stmts : List Stmt, ρ.AgreeOn σ (stmtsNodeIds stmts) →
    relabelStmts ρ stmts = relabelStmts σ stmts
  | [], _ => rfl
  | s :: rest, h => by
      simp only [relabelStmts, s.relabel_congr h.left, relabelStmts_congr rest h.right]

theorem Stmt.relabel_congr : ∀ s : Stmt, ρ.AgreeOn σ s.nodeIds → s.relabel ρ = s.relabel σ
  | .bind _ pattern none none, h => by
      simp only [Stmt.relabel, h.head, pattern.relabel_congr h.tail]
  | .bind _ pattern (some ty) none, h => by
      simp only [Stmt.relabel, h.head, pattern.relabel_congr h.tail.left,
        ty.relabel_congr h.tail.right]
  | .bind _ pattern none (some init), h => by
      simp only [Stmt.relabel, h.head, pattern.relabel_congr h.tail.left,
        init.relabel_congr h.tail.right]
  | .bind _ pattern (some ty) (some init), h => by
      simp only [Stmt.relabel, h.head, pattern.relabel_congr h.tail.left.left,
        ty.relabel_congr h.tail.left.right, init.relabel_congr h.tail.right]
  | .expr _ value, h => by simp only [Stmt.relabel, h.head, value.relabel_congr h.tail]
  | .empty _, h => by simp only [Stmt.relabel, h.head]

end

theorem GenericParam.relabel_congr (p : GenericParam) (h : ρ.AgreeOn σ p.nodeIds) :
    p.relabel ρ = p.relabel σ := by
  obtain ⟨n, name, kind⟩ := p
  cases kind with
  | type bounds default =>
      simp only [GenericParam.relabel, GenericParamKind.relabel, h.head,
        relabelBounds_congr bounds h.tail.left, h.tail.right.optional Ty.relabel_congr]
  | const ty default =>
      simp only [GenericParam.relabel, GenericParamKind.relabel, h.head,
        ty.relabel_congr h.tail.left, h.tail.right.optional Expr.relabel_congr]
  | lifetime => simp only [GenericParam.relabel, GenericParamKind.relabel, h.head]

theorem WherePredicate.relabel_congr (p : WherePredicate) (h : ρ.AgreeOn σ p.nodeIds) :
    p.relabel ρ = p.relabel σ := by
  simp only [WherePredicate.relabel, h.head, p.ty.relabel_congr h.tail.left,
    relabelBounds_congr p.bounds h.tail.right]

theorem Generics.relabel_congr (g : Generics) (h : ρ.AgreeOn σ g.nodeIds) :
    g.relabel ρ = g.relabel σ := by
  have hwhere (w : WhereClause)
      (h : ρ.AgreeOn σ (w.predicates.flatMap WherePredicate.nodeIds)) :
      w.relabel ρ = w.relabel σ := by
    simp only [WhereClause.relabel, h.each WherePredicate.relabel_congr]
  simp only [Generics.relabel, h.left.each GenericParam.relabel_congr, h.right.optional hwhere]

theorem NamedField.relabel_congr (f : NamedField) (h : ρ.AgreeOn σ f.nodeIds) :
    f.relabel ρ = f.relabel σ := by
  simp only [NamedField.relabel, h.head, h.vis, f.ty.relabel_congr h.tail]

theorem TupleField.relabel_congr (f : TupleField) (h : ρ.AgreeOn σ f.nodeIds) :
    f.relabel ρ = f.relabel σ := by
  simp only [TupleField.relabel, h.head, h.vis, f.ty.relabel_congr h.tail]

theorem Variant.relabel_congr (v : Variant) (h : ρ.AgreeOn σ v.nodeIds) :
    v.relabel ρ = v.relabel σ := by
  obtain ⟨n, name, kind⟩ := v
  cases kind with
  | unit => simp only [Variant.relabel, VariantKind.relabel, h.head]
  | tuple fields =>
      simp only [Variant.relabel, VariantKind.relabel, h.head, h.tail.each TupleField.relabel_congr]
  | record fields =>
      simp only [Variant.relabel, VariantKind.relabel, h.head, h.tail.each NamedField.relabel_congr]
  | discriminant value =>
      simp only [Variant.relabel, VariantKind.relabel, h.head, value.relabel_congr h.tail]

theorem Param.relabel_congr (p : Param) (h : ρ.AgreeOn σ p.nodeIds) :
    p.relabel ρ = p.relabel σ := by
  simp only [Param.relabel, h.head, p.pattern.relabel_congr h.tail.left,
    p.ty.relabel_congr h.tail.right]

theorem FunctionDecl.relabel_congr (f : FunctionDecl) (h : ρ.AgreeOn σ f.nodeIds) :
    f.relabel ρ = f.relabel σ := by
  have hreceiver (r : SelfParam) (h : ρ.AgreeOn σ [r.node.id]) : r.relabel ρ = r.relabel σ := by
    simp only [SelfParam.relabel, h.head]
  simp only [FunctionDecl.relabel, f.generics.relabel_congr h.left.left.left.left,
    h.left.left.left.right.optional hreceiver, h.left.left.right.each Param.relabel_congr,
    h.left.right.optional Ty.relabel_congr, h.right.optional Block.relabel_congr]

theorem ConstDecl.relabel_congr (c : ConstDecl) (h : ρ.AgreeOn σ c.nodeIds) :
    c.relabel ρ = c.relabel σ := by
  simp only [ConstDecl.relabel, c.ty.relabel_congr h.left, h.right.optional Expr.relabel_congr]

theorem AliasDecl.relabel_congr (a : AliasDecl) (h : ρ.AgreeOn σ a.nodeIds) :
    a.relabel ρ = a.relabel σ := by
  simp only [AliasDecl.relabel, a.generics.relabel_congr h.left, a.ty.relabel_congr h.right]

theorem ImplItem.relabel_congr (i : ImplItem) (h : ρ.AgreeOn σ i.nodeIds) :
    i.relabel ρ = i.relabel σ := by
  obtain ⟨n, vis, kind⟩ := i
  cases kind with
  | function f =>
      simp only [ImplItem.relabel, ImplItemKind.relabel, h.head, h.vis, f.relabel_congr h.tail]
  | const c =>
      simp only [ImplItem.relabel, ImplItemKind.relabel, h.head, h.vis, c.relabel_congr h.tail]
  | typeAlias a =>
      simp only [ImplItem.relabel, ImplItemKind.relabel, h.head, h.vis, a.relabel_congr h.tail]

theorem TraitItem.relabel_congr (i : TraitItem) (h : ρ.AgreeOn σ i.nodeIds) :
    i.relabel ρ = i.relabel σ := by
  obtain ⟨n, kind⟩ := i
  cases kind with
  | function f =>
      simp only [TraitItem.relabel, TraitItemKind.relabel, h.head, f.relabel_congr h.tail]
  | const c => simp only [TraitItem.relabel, TraitItemKind.relabel, h.head, c.relabel_congr h.tail]
  | type t =>
      simp only [TraitItem.relabel, TraitItemKind.relabel, h.head,
        relabelBounds_congr t.bounds h.tail]

theorem ForeignItem.relabel_congr (i : ForeignItem) (h : ρ.AgreeOn σ i.nodeIds) :
    i.relabel ρ = i.relabel σ := by
  obtain ⟨n, vis, kind⟩ := i
  cases kind with
  | function f =>
      simp only [ForeignItem.relabel, ForeignItemKind.relabel, h.head, h.vis,
        f.relabel_congr h.tail]
  | static name mutable ty =>
      simp only [ForeignItem.relabel, ForeignItemKind.relabel, h.head, h.vis,
        ty.relabel_congr h.tail]

mutual

theorem Item.relabel_congr : ∀ item : Item, ρ.AgreeOn σ item.nodeIds →
    item.relabel ρ = item.relabel σ
  | ⟨_, _, kind⟩, h => by simp only [Item.relabel, h.head, h.vis, kind.relabel_congr h.tail]

theorem ItemKind.relabel_congr : ∀ kind : ItemKind, ρ.AgreeOn σ kind.nodeIds →
    kind.relabel ρ = kind.relabel σ
  | .module _ items, h => by simp only [ItemKind.relabel, relabelItems_congr items h]
  | .typeAlias a, h => congrArg ItemKind.typeAlias (a.relabel_congr h)
  | .struct s, h => by
      simp only [ItemKind.relabel, RecordDecl.relabel, s.generics.relabel_congr h.left,
        h.right.each NamedField.relabel_congr]
  | .tupleStruct s, h => by
      simp only [ItemKind.relabel, TupleStructDecl.relabel, s.generics.relabel_congr h.left,
        h.right.each TupleField.relabel_congr]
  | .enum e, h => by
      simp only [ItemKind.relabel, EnumDecl.relabel, e.generics.relabel_congr h.left,
        h.right.each Variant.relabel_congr]
  | .union u, h => by
      simp only [ItemKind.relabel, RecordDecl.relabel, u.generics.relabel_congr h.left,
        h.right.each NamedField.relabel_congr]
  | .static s, h => by
      simp only [ItemKind.relabel, StaticDecl.relabel, s.ty.relabel_congr h.left,
        h.right.optional Expr.relabel_congr]
  | .const c, h => congrArg ItemKind.const (c.relabel_congr h)
  | .function f, h => congrArg ItemKind.function (f.relabel_congr h)
  | .inherentImpl i, h => by
      simp only [ItemKind.relabel, InherentImpl.relabel, i.generics.relabel_congr h.left.left,
        i.selfTy.relabel_congr h.left.right, h.right.each ImplItem.relabel_congr]
  | .traitImpl i, h => by
      simp only [ItemKind.relabel, TraitImpl.relabel, i.generics.relabel_congr h.left.left.left,
        i.traitPath.relabel_congr h.left.left.right, i.selfTy.relabel_congr h.left.right,
        h.right.each ImplItem.relabel_congr]
  | .trait t, h => by
      simp only [ItemKind.relabel, TraitDecl.relabel, t.generics.relabel_congr h.left.left,
        relabelBounds_congr t.supertraits h.left.right, h.right.each TraitItem.relabel_congr]
  | .foreign b, h => by
      simp only [ItemKind.relabel, ForeignBlock.relabel,
        AgreeOn.each ForeignItem.relabel_congr h]

theorem relabelItems_congr : ∀ items : List Item, ρ.AgreeOn σ (itemsNodeIds items) →
    relabelItems ρ items = relabelItems σ items
  | [], _ => rfl
  | item :: rest, h => by
      simp only [relabelItems, item.relabel_congr h.left, relabelItems_congr rest h.right]

end

/-- It only matters what becomes of the identities that occur in a crate. -/
theorem Crate.relabel_congr (c : Crate) (bound : NodeId) (h : ρ.AgreeOn σ c.nodeIds) :
    c.relabel ρ bound = c.relabel σ bound := by
  simp only [Crate.relabel, h.head, relabelItems_congr c.items h.tail]

end Congruence

end NameResolution
