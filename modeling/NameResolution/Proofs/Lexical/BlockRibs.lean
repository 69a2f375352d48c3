import NameResolution.Proofs.Lexical.RibRules

/-!
# NameResolution.Proofs.Lexical.BlockRibs

**What is bound in the blocks inside paths, types and expressions.** The names that a part
introduces itself come from its patterns; everything else is bound in the blocks inside
it, each of which has a rib of its own. Not all blocks are come to: what follows a segment
that leads nowhere is not resolved.

None of this depends on what the names stand for, so the induction is on the tree alone.
-/

namespace NameResolution

open Resolution

mutual

/-- The names of a pattern are introduced from left to right. -/
theorem Pattern.fills : ∀ (p : Pattern) {top : NodeId} {shadow : Bool} {s : Session},
    Fills top shadow s p.nodeIds p.introductions [] (p.bindNames shadow)
  | .binding node name _, _, _, _ => .introduce (b := ⟨.pattern, node.id, name.name⟩) rfl
  | .tuple _ elems, _, _, _ => (fills_bindPatterns elems).skip
  | .wildcard _, _, _, _ => .pure ()

theorem fills_bindPatterns : ∀ (ps : List Pattern) {top : NodeId} {shadow : Bool} {s : Session},
    Fills top shadow s (patternsNodeIds ps) (patternsIntroductions ps) [] (bindPatterns shadow ps)
  | [], _, _, _ => .pure ()
  | p :: ps, _, _, _ => .bind p.fills fun _ _ _ => fills_bindPatterns ps

end

mutual

theorem Path.fills (prefer : Namespace) : ∀ (p : Path) {top : NodeId} {shadow : Bool} {s : Session},
    Fills top shadow s p.nodeIds [] p.blocks (p.resolve prefer)
  | ⟨node, segments⟩, _, _, _ => by
      refine .quiet_bind Quiet.currentModule fun here _ => ?_
      refine .quiet_bind Quiet.rootModule fun root _ => ?_
      refine .quiet_bind (Quiet.steps.receiver? _ segments) fun receiver _ => ?_
      cases receiver with
      | some receiver =>
          exact .quiet (Quiet.steps.bind (Quiet.setResolved .name node.id receiver) fun _ =>
            Quiet.steps.pure _)
      | none =>
          refine .skip (.bind_quiet (fills_walk _ segments) fun reached => ?_)
          cases reached with
          | none => exact Quiet.steps.pure _
          | some decl =>
              exact Quiet.steps.bind (Quiet.recordPath node.id decl) fun _ => Quiet.steps.pure _

theorem fills_walk (w : Walk) : ∀ (segments : List PathSegment) {pos : Position} {top : NodeId}
    {shadow : Bool} {s : Session},
    Fills top shadow s (segmentsNodeIds segments) [] (segmentsBlocks segments) (walk w pos segments)
  | [], _, _, _, _ => .pure _
  | seg :: rest, _, _, _, _ => by
      refine .seq (seg.fills w rest.isEmpty) fun reached _ => ?_
      cases reached with
      | none => exact .pure _
      | some pos => exact fills_walk w rest

/-- The arguments of a segment are the only part of it in which there can be blocks. -/
theorem PathSegment.fills (w : Walk) (isLast : Bool) : ∀ (seg : PathSegment) {pos : Position}
    {top : NodeId} {shadow : Bool} {s : Session},
    Fills top shadow s seg.nodeIds [] seg.blocks (seg.follow w pos isLast)
  | ⟨_, .malformed, _⟩, _, _, _, _ => .quiet (Quiet.steps.stopWith rfl)
  | ⟨_, .crate, _⟩, pos, _, _, _ =>
      .quiet (Quiet.steps.unlessDeferred pos (Quiet.steps.followFirst w pos _ w.root))
  | ⟨_, .selfModule, _⟩, pos, _, _, _ =>
      .quiet (Quiet.steps.unlessDeferred pos (Quiet.steps.followFirst w pos _ w.here))
  | ⟨_, .super, _⟩, pos, _, _, _ =>
      .quiet (Quiet.steps.unlessDeferred pos (Quiet.steps.followSuper w pos _))
  | ⟨_, .ident name, none⟩, pos, _, _, _ =>
      .quiet (Quiet.steps.unlessDeferred pos (Quiet.steps.followName w pos _ name isLast))
  | ⟨_, .ident name, some args⟩, pos, _, _, _ => by
      refine .quiet_bind Quiet.steps.get fun s₁ _ => ?_
      split
      · exact .pure none
      · exact .skip (.bind_quiet args.fills fun _ => Quiet.steps.followName w pos _ name isLast)

theorem GenericArgs.fills : ∀ (args : GenericArgs) {top : NodeId} {shadow : Bool} {s : Session},
    Fills top shadow s args.nodeIds [] args.blocks args.resolve
  | ⟨types, _⟩, _, _, _ => fills_tys types

theorem fills_tys : ∀ (ts : List Ty) {top : NodeId} {shadow : Bool} {s : Session},
    Fills top shadow s (tysNodeIds ts) [] (tysBlocks ts) (resolveTys ts)
  | [], _, _, _ => .pure ()
  | t :: ts, _, _, _ => .seq t.fills.discard fun _ _ => fills_tys ts

theorem Ty.fills : ∀ (t : Ty) {top : NodeId} {shadow : Bool} {s : Session},
    Fills top shadow s t.nodeIds [] t.blocks t.resolve
  | .path _ p, _, _, _ => by
      refine .skip (.bind_quiet (p.fills .type) fun decl => ?_)
      cases decl with
      | none => exact Quiet.steps.pure _
      | some decl => exact Quiet.steps.bind Quiet.steps.get fun _ => Quiet.steps.pure _
  | .qualified _ p, _, _, _ => (p.fills.map _).skip
  | .tuple n [], _, _, _ => .quiet (Quiet.resolveBuiltin n.id Builtins.unit)
  | .tuple _ (t :: ts), _, _, _ => ((fills_tys (t :: ts)).map _).skip
  | .array _ elem size, _, _, _ => (Leaves.seq elem.fills fun _ _ => size.fills.map _).skip
  | .slice _ elem, _, _, _ => (elem.fills.map _).skip
  | .reference _ _ inner, _, _, _ => (inner.fills.map _).skip
  | .pointer _ _ inner, _, _, _ => (inner.fills.map _).skip
  | .dynOne _ bound, _, _, _ => (bound.fills.map _).skip
  | .dyn _ bounds, _, _, _ => ((fills_bounds bounds).map _).skip
  | .fnPointer _ params none, _, _, _ => ((fills_paramTys params).map _).skip
  | .fnPointer _ params (some ret), _, _, _ =>
      (Leaves.seq (fills_paramTys params) fun _ _ => ret.fills.discard.map _).skip
  | .inferred n, _, _, _ => .quiet (Quiet.resolveBuiltin n.id Builtins.inferred)
  | .never n, _, _, _ => .quiet (Quiet.resolveBuiltin n.id Builtins.never)

theorem QualifiedPath.fills : ∀ (p : QualifiedPath) {top : NodeId} {shadow : Bool} {s : Session},
    Fills top shadow s p.nodeIds [] p.blocks p.resolve
  | ⟨node, qualifier, associated, rest⟩, _, _, _ => by
      have hids : List.Perm (qualifier.nodeIds ++ (associated.nodeIds ++ segmentsNodeIds rest))
          (qualifier.nodeIds ++ associated.nodeIds ++ segmentsNodeIds rest) :=
        (List.append_assoc _ _ _).symm ▸ .refl _
      refine .skip (.mono ?_ hids.subperm)
      refine .seq qualifier.fills fun head _ => ?_
      cases head with
      | none => exact .pure _
      | some head =>
          refine .seq (associated.fills_append head) fun path _ => ?_
          cases path with
          | none => exact .pure _
          | some path =>
              refine .bind_quiet (fills_appendSegments path rest) fun path => ?_
              cases path with
              | none => exact Quiet.steps.pure _
              | some path =>
                  exact Quiet.steps.bind (Quiet.setQualified node.id path) fun _ =>
                    Quiet.steps.pure _

theorem Qualifier.fills : ∀ (q : Qualifier) {top : NodeId} {shadow : Bool} {s : Session},
    Fills top shadow s q.nodeIds [] q.blocks q.resolve
  | ⟨_, selfTy, none⟩, _, _, _ => by
      refine .skip (.bind_quiet selfTy.fills fun t => ?_)
      refine Quiet.steps.bind (Quiet.headPath t) fun path => ?_
      cases path <;> exact Quiet.steps.pure _
  | ⟨_, selfTy, some traitPath⟩, _, _, _ => by
      refine .skip (.seq selfTy.fills fun t _ => .quiet_bind (Quiet.headPath t) fun path _ => ?_)
      cases path with
      | none => exact .pure _
      | some path =>
          refine .bind_quiet (traitPath.fills .type) fun decl => ?_
          cases decl with
          | none => exact Quiet.steps.pure _
          | some decl => exact Quiet.steps.bind (Quiet.pathOf decl) fun _ => Quiet.steps.pure _

theorem fills_appendSegments (path : CanonicalPath) : ∀ (segments : List PathSegment)
    {top : NodeId} {shadow : Bool} {s : Session},
    Fills top shadow s (segmentsNodeIds segments) [] (segmentsBlocks segments)
      (appendSegments path segments)
  | [], _, _, _ => .pure _
  | seg :: rest, _, _, _ => by
      refine .seq (seg.fills_append path) fun path _ => ?_
      cases path with
      | none => exact .pure _
      | some path => exact fills_appendSegments path rest

theorem PathSegment.fills_append (path : CanonicalPath) : ∀ (seg : PathSegment) {top : NodeId}
    {shadow : Bool} {s : Session},
    Fills top shadow s seg.nodeIds [] seg.blocks (seg.append path)
  | ⟨_, ident, none⟩, _, _, _ => .quiet (Quiet.steps.append path _ fun _ h => nomatch h)
  | ⟨_, ident, some args⟩, _, _, _ => by
      rw [PathSegment.append]
      split
      · exact .quiet (Quiet.steps.stopWith rfl)
      · exact (args.fills.map _).skip

theorem TraitBound.fills : ∀ (b : TraitBound) {top : NodeId} {shadow : Bool} {s : Session},
    Fills top shadow s b.nodeIds [] b.blocks b.resolve
  | ⟨_, path⟩, _, _, _ => (path.fills .type).skip

theorem Bound.fills : ∀ (b : Bound) {top : NodeId} {shadow : Bool} {s : Session},
    Fills top shadow s b.nodeIds [] b.blocks b.resolve
  | .trait bound, _, _, _ => bound.fills
  | .lifetime _, _, _, _ => .pure _

theorem fills_bounds : ∀ (bs : List Bound) {top : NodeId} {shadow : Bool} {s : Session},
    Fills top shadow s (boundsNodeIds bs) [] (boundsBlocks bs) (resolveBounds bs)
  | [], _, _, _ => .pure ()
  | b :: bs, _, _, _ => .seq b.fills.discard fun _ _ => fills_bounds bs

theorem fills_paramTys : ∀ (ps : List FnPointerParam) {top : NodeId} {shadow : Bool} {s : Session},
    Fills top shadow s (paramTysNodeIds ps) [] (paramTysBlocks ps) (resolveParamTys ps)
  | [], _, _, _ => .pure ()
  | ⟨_, _, ty⟩ :: ps, _, _, _ => (Leaves.seq ty.fills.discard fun _ _ => fills_paramTys ps).skip

theorem Expr.fills : ∀ (e : Expr) {top : NodeId} {shadow : Bool} {s : Session},
    Fills top shadow s e.nodeIds [] e.blocks e.resolve
  | .literal _ _, _, _, _ => .pure ()
  | .path _ p, _, _, _ => (p.fills .name).discard.skip
  | .unary _ _ operand, _, _, _ => operand.fills.skip
  | .binary _ _ lhs rhs, _, _, _ => (Leaves.seq lhs.fills fun _ _ => rhs.fills).skip
  | .call _ callee args, _, _, _ => (Leaves.seq callee.fills fun _ _ => fills_exprs args).skip
  | .cast _ operand ty, _, _, _ => (Leaves.seq operand.fills fun _ _ => ty.fills.discard).skip
  | .tuple _ elems, _, _, _ => (fills_exprs elems).skip
  | .group _ inner, _, _, _ => inner.fills.skip
  | .block _ body, _, _, _ => body.fills.skip

theorem fills_exprs : ∀ (es : List Expr) {top : NodeId} {shadow : Bool} {s : Session},
    Fills top shadow s (exprsNodeIds es) [] (exprsBlocks es) (resolveExprs es)
  | [], _, _, _ => .pure ()
  | e :: es, _, _, _ => .seq e.fills fun _ _ => fills_exprs es

/-- A block introduces nothing in the frame around it. -/
theorem Block.fills : ∀ (b : Block) {top : NodeId} {shadow : Bool} {s : Session},
    Fills top shadow s b.nodeIds [] b.blocks b.resolve
  | ⟨node, stmts, none⟩, _, _, _ =>
      .inBlock (b := ⟨node, stmts, none⟩) ((fills_stmts stmts).bind_quiet fun _ =>
        Quiet.steps.pure ())
  | ⟨node, stmts, some tail⟩, _, _, _ =>
      .inBlock (b := ⟨node, stmts, some tail⟩) ((fills_stmts stmts).andThen fun _ _ => tail.fills)

theorem fills_stmts : ∀ (stmts : List Stmt) {top : NodeId} {s : Session},
    Fills top true s (stmtsNodeIds stmts) (stmts.flatMap Stmt.introductions) (stmtsBlocks stmts)
      (resolveStmts stmts)
  | [], _, _ => .pure ()
  | st :: rest, _, _ => .bind st.fills fun _ _ _ => fills_stmts rest

theorem Stmt.fills : ∀ (st : Stmt) {top : NodeId} {s : Session},
    Fills top true s st.nodeIds st.introductions st.blocks st.resolve
  | .bind _ pattern none none, _, _ => pattern.fills.skip
  -- The pattern comes last, but its nodes are listed first.
  | .bind _ pattern (some ty) none, _, _ =>
      ((Leaves.seq_own ty.fills.discard fun _ _ => pattern.fills).mono
        List.perm_append_comm.subperm).skip
  | .bind _ pattern none (some init), _, _ =>
      ((Leaves.seq_own init.fills fun _ _ => pattern.fills).mono
        List.perm_append_comm.subperm).skip
  | .bind _ pattern (some ty) (some init), _, _ => by
      have hids : (ty.nodeIds ++ (init.nodeIds ++ pattern.nodeIds)).Perm
          (pattern.nodeIds ++ ty.nodeIds ++ init.nodeIds) := by
        rw [← List.append_assoc, List.append_assoc pattern.nodeIds]
        exact List.perm_append_comm
      exact ((Leaves.seq ty.fills.discard fun _ _ =>
        .seq_own init.fills fun _ _ => pattern.fills).mono hids.subperm).skip
  | .expr _ value, _, _ => value.fills.skip
  | .empty _, _, _ => .pure ()

end

end NameResolution
