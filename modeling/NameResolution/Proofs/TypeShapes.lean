import NameResolution.Proofs.Attempts
import NameResolution.Proofs.TypeTexts

/-!
# NameResolution.Proofs.TypeShapes

**The header of an implementation says what the type and the trait look like, and nothing else.**
Types of one shape are written in one way (`Ty.text_shape`), so the headers that are made of them
have one text (`Ty.header_shape`). The shape of a plain type can be read back from the header
(`Ty.header_isRead`). So the headers of two implementations without parameters are the same
exactly if the types have the same shape and the traits have (`TraitImpl.IsPlain.sameText_iff`).
-/

namespace NameResolution

/-! ### Texts of shapes -/

mutual

theorem Path.text_shape : ∀ p : Path, p.shape.text = p.text
  | ⟨_, segments⟩ => by simp only [Path.shape, Path.text, segmentTexts_shapes segments]

theorem segmentTexts_shapes : ∀ segments : List PathSegment,
    segmentTexts (segmentShapes segments) = segmentTexts segments
  | [] => rfl
  | s :: rest => by
    simp only [segmentShapes, segmentTexts, s.text_shape, segmentTexts_shapes rest]

theorem PathSegment.text_shape : ∀ s : PathSegment, s.shape.text = s.text
  | ⟨_, _, none⟩ => rfl
  | ⟨_, _, some ⟨[], _⟩⟩ => rfl
  | ⟨_, _, some ⟨t :: ts, _⟩⟩ => by
    simp only [PathSegment.shape, GenericArgs.shape, PathSegment.text, GenericArgs.text, tyTexts,
      t.text_shape, tyTexts_shapes ts]

theorem tyTexts_shapes : ∀ ts : List Ty, tyTexts (tyShapes ts) = tyTexts ts
  | [] => rfl
  | t :: ts => by simp only [tyShapes, tyTexts, t.text_shape, tyTexts_shapes ts]

/-- A type is written as its shape is. -/
theorem Ty.text_shape : ∀ t : Ty, t.shape.text = t.text
  | .path _ p => by simp only [Ty.shape, Ty.text, p.text_shape]
  | .qualified _ p => by simp only [Ty.shape, Ty.text, p.text_shape]
  | .tuple _ [] => rfl
  | .tuple _ [t] => by simp only [Ty.shape, tyShapes, Ty.text, t.text_shape]
  | .tuple _ (t :: t' :: ts) => by
    simp only [Ty.shape, tyShapes, Ty.text, tyTexts, t.text_shape, t'.text_shape,
      tyTexts_shapes ts]
  | .array _ elem size => by
    simp only [Ty.shape, Ty.text, elem.text_shape, size.text_sizeShape]
  | .slice _ elem => by simp only [Ty.shape, Ty.text, elem.text_shape]
  | .reference _ _ inner => by simp only [Ty.shape, Ty.text, inner.text_shape]
  | .pointer _ _ inner => by simp only [Ty.shape, Ty.text, inner.text_shape]
  | .dynOne _ bound => by
    simp only [Ty.shape, Ty.text, boundTexts, Bound.text, String.intercalate_singleton,
      bound.text_shape]
  | .dyn _ bounds => by simp only [Ty.shape, Ty.text, boundTexts_shapes bounds]
  | .fnPointer _ params none => by simp only [Ty.shape, Ty.text, paramTexts_shapes params]
  | .fnPointer _ params (some ret) => by
    simp only [Ty.shape, Ty.text, paramTexts_shapes params, ret.text_shape]
  | .inferred _ => rfl
  | .never _ => rfl

theorem QualifiedPath.text_shape : ∀ q : QualifiedPath, q.shape.text = q.text
  | ⟨_, qualifier, associated, rest⟩ => by
    simp only [QualifiedPath.shape, QualifiedPath.text, qualifier.text_shape,
      associated.text_shape, segmentTexts_shapes rest]

theorem Qualifier.text_shape : ∀ q : Qualifier, q.shape.text = q.text
  | ⟨_, selfTy, none⟩ => by simp only [Qualifier.shape, Qualifier.text, selfTy.text_shape]
  | ⟨_, selfTy, some asTrait⟩ => by
    simp only [Qualifier.shape, Qualifier.text, selfTy.text_shape, asTrait.text_shape]

theorem TraitBound.text_shape : ∀ b : TraitBound, b.shape.text = b.text
  | ⟨_, p⟩ => by simp only [TraitBound.shape, TraitBound.text, p.text_shape]

theorem Bound.text_shape : ∀ b : Bound, b.shape.text = b.text
  | .trait bound => by simp only [Bound.shape, Bound.text, bound.text_shape]
  | .lifetime _ => rfl

theorem boundTexts_shapes : ∀ bs : List Bound, boundTexts (boundShapes bs) = boundTexts bs
  | [] => rfl
  | b :: bs => by simp only [boundShapes, boundTexts, b.text_shape, boundTexts_shapes bs]

theorem paramTexts_shapes : ∀ ps : List FnPointerParam,
    paramTexts (paramShapes ps) = paramTexts ps
  | [] => rfl
  | ⟨_, _, ty⟩ :: ps => by
    simp only [paramShapes, paramTexts, ty.text_shape, paramTexts_shapes ps]

theorem Expr.text_sizeShape : ∀ size : Expr, size.sizeShape.text = size.text
  | .literal _ _ => rfl
  | .path _ p => by simp only [Expr.sizeShape, Expr.text, p.text_shape]
  | .unary _ _ _ | .binary _ _ _ _ | .call _ _ _ | .cast _ _ _ | .tuple _ _ | .group _ _
  | .block _ _ => rfl

end

/-! ### Headers of shapes -/

theorem canonicalArgs_shapes (ts : List Ty) : canonicalArgs (tyShapes ts) = canonicalArgs ts := by
  rw [canonicalArgs, canonicalArgs, tyTexts_shapes]

theorem PathSegment.canonicalText_shape (withArgs : Bool) : ∀ s : PathSegment,
    s.shape.canonicalText withArgs = s.canonicalText withArgs
  | ⟨_, _, none⟩ => rfl
  | ⟨_, _, some ⟨[], _⟩⟩ => rfl
  | ⟨node, ident, some ⟨t :: ts, span⟩⟩ => by
    cases withArgs with
    | false => rfl
    | true => exact congrArg (ident.text ++ "::" ++ ·) (canonicalArgs_shapes (t :: ts))

theorem PathSegment.ident_shape : ∀ s : PathSegment, s.shape.ident = s.ident
  | ⟨_, _, none⟩ => rfl
  | ⟨_, _, some ⟨[], _⟩⟩ => rfl
  | ⟨_, _, some ⟨_ :: _, _⟩⟩ => rfl

theorem segmentShapes_eq_map : ∀ segments : List PathSegment,
    segmentShapes segments = segments.map PathSegment.shape
  | [] => rfl
  | s :: rest => congrArg (s.shape :: ·) (segmentShapes_eq_map rest)

/-- The text of what a header is made of. -/
def headerText (header : Except PathSegment CanonicalPath) : Except PathSegment String :=
  header.map CanonicalPath.text

theorem Path.header_shape {p : Path} (h : p.isPlain) (withArgs : Bool) :
    headerText (p.shape.headerPath withArgs) = headerText (p.headerPath withArgs) := by
  obtain ⟨node, segments⟩ := p
  rw [Path.isPlain, Bool.and_eq_true] at h
  have hread := ident_ne_malformed h.2
  have hshapes : ∀ s ∈ segmentShapes segments, s.ident ≠ .malformed := by
    rw [segmentShapes_eq_map]
    intro s hs
    obtain ⟨s', hs', rfl⟩ := List.mem_map.mp hs
    rw [s'.ident_shape]
    exact hread s' hs'
  rw [Path.shape, Path.headerPath_eq withArgs hshapes, Path.headerPath_eq withArgs hread]
  simp [headerText, Except.map, CanonicalPath.text, CanonicalPath.texts, segmentShapes_eq_map,
    Function.comp_def, PathSegment.canonicalText_shape]

theorem headerText_map (header : Except PathSegment CanonicalPath) (id : NodeId)
    (wrap : String → String) :
    headerText (header.map fun p => .single id (wrap p.text)) = (headerText header).map wrap := by
  cases header with
  | error s => rfl
  | ok p => exact congrArg Except.ok (CanonicalPath.text_single id (wrap p.text))

theorem headerText_single (id id' : NodeId) {t t' : String} (h : t = t') :
    headerText (.ok (.single id t)) = headerText (.ok (.single id' t')) := by
  subst h
  exact congrArg Except.ok
    ((CanonicalPath.text_single id t).trans (CanonicalPath.text_single id' t).symm)

/-- The header that is made of a plain type is that of its shape. -/
theorem Ty.header_shape (withArgs : Bool) : ∀ t : Ty, t.isPlain →
    headerText (t.shape.headerPath withArgs) = headerText (t.headerPath withArgs)
  | .path _ p, h => p.header_shape h withArgs
  | .reference _ _ inner, h => by
    rw [Ty.shape, Ty.headerPath, Ty.headerPath, headerText_map, headerText_map,
      inner.header_shape withArgs h]
  | .pointer _ _ inner, h => by
    rw [Ty.shape, Ty.headerPath, Ty.headerPath, headerText_map, headerText_map,
      inner.header_shape withArgs h]
  | .slice _ elem, h => by
    rw [Ty.shape, Ty.headerPath, Ty.headerPath, headerText_map _ _ ("[" ++ · ++ "]"),
      headerText_map _ _ ("[" ++ · ++ "]"), elem.header_shape withArgs h]
  | .qualified n q, _ => headerText_single _ n.id (Ty.qualified n q).text_shape
  | .tuple n elems, _ => headerText_single _ n.id (Ty.tuple n elems).text_shape
  | .array n elem size, _ => headerText_single _ n.id (Ty.array n elem size).text_shape
  | .dynOne n bound, _ => headerText_single _ n.id (Ty.dynOne n bound).text_shape
  | .dyn n bounds, _ => headerText_single _ n.id (Ty.dyn n bounds).text_shape
  | .fnPointer n params none, _ =>
    headerText_single _ n.id (Ty.fnPointer n params none).text_shape
  | .fnPointer n params (some ret), _ =>
    headerText_single _ n.id (Ty.fnPointer n params (some ret)).text_shape
  | .inferred n, _ => headerText_single _ n.id (Ty.inferred n).text_shape
  | .never n, _ => headerText_single _ n.id (Ty.never n).text_shape

/-! ### Headers -/

/-- An implementation has no parameters, and its type and its trait are plain. -/
structure TraitImpl.IsPlain (i : TraitImpl) : Prop where
  generics : i.generics.params = []
  selfTy : i.selfTy.isPlain
  traitPath : i.traitPath.isPlain

/-- Two implementations are of the same trait for the same type. -/
def TraitImpl.SameHeader (i j : TraitImpl) : Prop :=
  i.selfTy.shape = j.selfTy.shape ∧ i.traitPath.shape = j.traitPath.shape

namespace TraitImpl.IsPlain

variable {i j : TraitImpl}

/-- A plain implementation has a header, from which its type and its trait can be read back. -/
theorem exists_projection (h : i.IsPlain) (id : NodeId) : ∃ ty tr,
    i.projection id = .ok (.projection id tr ty) ∧
      (i.selfTy.headerPath true = .ok ty ∧ IsRead readTy EndsTy ty.text i.selfTy.shape) ∧
      (i.traitPath.headerPath true = .ok tr ∧
        IsRead readPath EndsPath tr.text i.traitPath.shape) := by
  obtain ⟨ty, hty, htyread⟩ := i.selfTy.header_isRead h.selfTy
  obtain ⟨tr, htr, htrread⟩ := i.traitPath.header_isRead h.traitPath
  have hargs : i.generics.isEmpty = true := by simp [Generics.isEmpty, h.generics]
  refine ⟨ty, tr, ?_, ⟨hty, htyread⟩, htr, htrread⟩
  unfold TraitImpl.projection
  rw [hargs, hty, htr]
  rfl

/-- **A header is unique to a type and a trait.** Two plain implementations are registered under the
same text exactly if their types have the same shape and their traits have. -/
theorem sameText_iff (hi : i.IsPlain) (hj : j.IsPlain) {id id' : NodeId}
    {p p' : CanonicalPath} (hp : i.projection id = .ok p) (hp' : j.projection id' = .ok p') :
    p.SameText p' ↔ i.SameHeader j := by
  obtain ⟨ty, tr, heq, ⟨hty, htyread⟩, htr, htrread⟩ := hi.exists_projection id
  obtain ⟨ty', tr', heq', ⟨hty', htyread'⟩, htr', htrread'⟩ := hj.exists_projection id'
  cases hp.symm.trans heq
  cases hp'.symm.trans heq'
  change [_] = [_] ↔ _
  rw [List.singleton_inj]
  constructor
  · intro htext
    obtain ⟨n, hty, hty', htr, htr'⟩ :=
      (htyread.and (htyread'.and (htrread.and htrread'))).exists
    have hchars : ty.text.toList ++ ' ' :: 'a' :: 's' :: ' ' :: (tr.text.toList ++ ['>']) =
        ty'.text.toList ++ ' ' :: 'a' :: 's' :: ' ' :: (tr'.text.toList ++ ['>']) := by
      simpa using congrArg String.toList htext
    -- The type is read up to where the trait begins, and the trait up to the last bracket.
    obtain ⟨hself, hrest⟩ := hty.unique hty' (.asTrait _) (.asTrait _) hchars
    simp only [List.cons.injEq, true_and] at hrest
    have hclose : EndsPath ['>'] := .closer (by decide) []
    exact ⟨hself, (htr.unique htr' hclose hclose hrest).1⟩
  · rintro ⟨hself, htrait⟩
    have hty : headerText (.ok ty) = headerText (.ok ty') := by
      rw [← hty, ← hty', ← i.selfTy.header_shape true hi.selfTy,
        ← j.selfTy.header_shape true hj.selfTy, hself]
    have htr : headerText (.ok tr) = headerText (.ok tr') := by
      rw [← htr, ← htr', ← i.traitPath.header_shape hi.traitPath,
        ← j.traitPath.header_shape hj.traitPath, htrait]
    rw [Except.ok.inj hty, Except.ok.inj htr]

end TraitImpl.IsPlain

end NameResolution
