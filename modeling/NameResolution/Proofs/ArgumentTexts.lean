import NameResolution.Resolve.Path
import NameResolution.Proofs.TypeShapes

/-!
# NameResolution.Proofs.ArgumentTexts

**Generic arguments that differ are written in different ways.** A list of arguments enters a
canonical path as one text, in which the written forms of the types are joined by bare commas.
The types are read back from that text up to the closing bracket (`readListed_canonicalArgs`), so
two lists have one text only if each type of the one looks like that of the other. What stands in
front of the arguments is the same if the segment has the same name (`PathSegment.canonicalText`),
or if the declaration is the same (`CanonicalPath.specialise`), so the whole paths differ as well.
-/

namespace NameResolution

open Filter

/-! ### Reading a list of arguments -/

/-- The shapes of plain types are read back from their list of arguments. -/
theorem readListed_canonicalArgs {ts : List Ty} (h : tysPlain ts) :
    ∀ᶠ n in atTop, ∀ s, (canonicalArgs ts).toList = '<' :: s →
      readListed (readTy n) '>' n s = some (tyShapes ts, []) := by
  filter_upwards [IsRead.all (tys_areRead ts h), eventually_gt_atTop (tyTexts ts).length]
    with n htexts hn
  intro s hs
  have hlist := readListed_intercalate '>' "," (by decide) (by decide) (startsItem_readTy n)
    htexts hn []
  have htext : (canonicalArgs ts).toList =
      '<' :: ((String.intercalate "," (tyTexts ts)).toList ++ ['>']) := by
    simp [canonicalArgs]
  rw [htext] at hs
  cases hs
  exact hlist

/-- The text of a list of arguments says what the types look like, and nothing else. -/
theorem canonicalArgs_eq_iff {ts us : List Ty} (hts : tysPlain ts) (hus : tysPlain us) :
    canonicalArgs ts = canonicalArgs us ↔ tyShapes ts = tyShapes us := by
  constructor
  · intro heq
    obtain ⟨n, hreadTs, hreadUs⟩ :=
      ((readListed_canonicalArgs hts).and (readListed_canonicalArgs hus)).exists
    obtain ⟨s, hs⟩ : ∃ s, (canonicalArgs ts).toList = '<' :: s :=
      ⟨_, by simp [canonicalArgs]; rfl⟩
    have hboth : some (tyShapes ts, []) = some (tyShapes us, ([] : List Char)) :=
      (hreadTs s hs).symm.trans (hreadUs s (heq ▸ hs))
    simpa using hboth
  · intro hshapes
    rw [← canonicalArgs_shapes ts, hshapes, canonicalArgs_shapes]

/-! ### What stands in front of the arguments -/

/-- Texts that are joined after the same ones are the same if the whole is. -/
theorem intercalate_concat_inj (between : String) (texts : List String) {t u : String} :
    String.intercalate between (texts ++ [t]) = String.intercalate between (texts ++ [u]) ↔
      t = u := by
  cases texts with
  | nil => simp
  | cons t' texts =>
    have happend : ∀ v, String.intercalate between (t' :: texts ++ [v]) =
        String.intercalate between (t' :: texts) ++ between ++ v := by
      intro v
      rw [String.intercalate_append_of_ne_nil (List.cons_ne_nil _ _) (List.cons_ne_nil _ _),
        String.intercalate_singleton]
    rw [happend, happend, String.append_right_inj]

/-- Two segments of one name have the same text in a header exactly if their arguments have. -/
theorem PathSegment.canonicalText_eq_iff {s s' : PathSegment} (hs : s.args ≠ [])
    (hs' : s'.args ≠ []) (hident : s.ident = s'.ident) :
    s.canonicalText true = s'.canonicalText true ↔
      canonicalArgs s.args = canonicalArgs s'.args := by
  have htext : ∀ seg : PathSegment, seg.args ≠ [] →
      seg.canonicalText true = seg.ident.text ++ "::" ++ canonicalArgs seg.args := by
    intro seg hseg
    simp [canonicalText, hasArgs, hseg]
  rw [htext s hs, htext s' hs', hident, String.append_right_inj]

/-- Two uses of one declaration have the same path exactly if their arguments are written in the
same way. -/
theorem CanonicalPath.specialise_eq_iff {p : CanonicalPath} {s s' : PathSegment}
    (hp : p.segments ≠ []) (hs : s.args ≠ []) (hs' : s'.args ≠ []) :
    (p.specialise (some s)).text = (p.specialise (some s')).text ↔
      canonicalArgs s.args = canonicalArgs s'.args := by
  obtain ⟨segments⟩ := p
  obtain ⟨before, ⟨id, t⟩, rfl⟩ := (List.eq_nil_or_concat segments).resolve_left hp
  have htext : ∀ seg : PathSegment, seg.args ≠ [] →
      (CanonicalPath.specialise ⟨before.concat (id, t)⟩ (some seg)).text =
        String.intercalate "::" (before.map Prod.snd ++
          [t ++ "::" ++ canonicalArgs seg.args]) := by
    intro seg hseg
    simp [specialise, PathSegment.hasArgs, hseg, mapLast, text, texts]
  rw [htext s hs, htext s' hs', intercalate_concat_inj, String.append_right_inj]

/-! ### Types that are given different arguments -/

/-- **Different arguments make different canonical paths.** Lists of plain types have the same text
exactly if they are structurally equal. So have the headers that name one thing with these
arguments, and the canonical paths that one declaration gets by them. -/
theorem arguments_determine_text {ts us : List Ty} (hts : ts ≠ []) (hus : us ≠ [])
    (hplain : tysPlain ts) (hplain' : tysPlain us) :
    (canonicalArgs ts = canonicalArgs us ↔ tyShapes ts = tyShapes us) ∧
    (∀ s s' : PathSegment, s.args = ts → s'.args = us → s.ident = s'.ident →
      (s.canonicalText true = s'.canonicalText true ↔ tyShapes ts = tyShapes us)) ∧
    (∀ s s' : PathSegment, s.args = ts → s'.args = us → ∀ p : CanonicalPath, p.segments ≠ [] →
      ((p.specialise (some s)).text = (p.specialise (some s')).text ↔
        tyShapes ts = tyShapes us)) := by
  have hargs := canonicalArgs_eq_iff hplain hplain'
  refine ⟨hargs, ?_, ?_⟩
  · rintro s s' rfl rfl hident
    rw [PathSegment.canonicalText_eq_iff hts hus hident, hargs]
  · rintro s s' rfl rfl p hp
    rw [CanonicalPath.specialise_eq_iff hp hts hus, hargs]

/-- A path of one segment. -/
def pathNamed (id offset : Nat) (name : String) (generics : Option GenericArgs) : Path :=
  ⟨⟨⟨id⟩, ⟨offset, 1⟩⟩, [⟨⟨⟨id + 1⟩, ⟨offset, 1⟩⟩, .ident name, generics⟩]⟩

/-- The arguments `dyn A, B`, where `B` stands with an empty list of arguments of its own. -/
def objectAndName : List Ty :=
  [.dynOne ⟨⟨1⟩, ⟨2, 1⟩⟩ ⟨⟨⟨2⟩, ⟨4, 1⟩⟩, pathNamed 3 4 "A" none⟩,
    .path ⟨⟨5⟩, ⟨6, 1⟩⟩ (pathNamed 6 6 "B" (some ⟨[], ⟨8, 1⟩⟩))]

/-- The arguments `dyn A, B` once more, with a list of bounds. -/
def objectsAndName : List Ty :=
  [.dyn ⟨⟨10⟩, ⟨20, 1⟩⟩ [.trait ⟨⟨⟨11⟩, ⟨22, 1⟩⟩, pathNamed 12 22 "A" none⟩],
    .path ⟨⟨14⟩, ⟨24, 1⟩⟩ (pathNamed 15 24 "B" none)]

/-- The only argument `(dyn A, B)`. -/
def tupleOfObject : List Ty := [.tuple ⟨⟨20⟩, ⟨40, 1⟩⟩ objectsAndName]

/-- The two forms of a trait object are the same argument, and two arguments are not a pair. -/
theorem arguments_determine_text_object :
    (objectAndName ≠ [] ∧ tysPlain objectAndName) ∧
      (objectsAndName ≠ [] ∧ tysPlain objectsAndName) ∧
      (tupleOfObject ≠ [] ∧ tysPlain tupleOfObject) ∧
      canonicalArgs objectAndName = canonicalArgs objectsAndName ∧
      canonicalArgs objectAndName ≠ canonicalArgs tupleOfObject := by
  have hobject : objectAndName ≠ [] ∧ tysPlain objectAndName := ⟨List.cons_ne_nil _ _, by decide⟩
  have hobjects : objectsAndName ≠ [] ∧ tysPlain objectsAndName :=
    ⟨List.cons_ne_nil _ _, by decide⟩
  have htuple : tupleOfObject ≠ [] ∧ tysPlain tupleOfObject := ⟨List.cons_ne_nil _ _, by decide⟩
  refine ⟨hobject, hobjects, htuple, ?_, ?_⟩
  · exact (arguments_determine_text hobject.1 hobjects.1 hobject.2 hobjects.2).1.mpr rfl
  · intro heq
    have hshapes := (arguments_determine_text hobject.1 htuple.1 hobject.2 htuple.2).1.mp heq
    cases hshapes

end NameResolution
