import NameResolution.Proofs.SelfType
import NameResolution.Proofs.VisitedPaths

/-!
# NameResolution.Proofs.ParameterHeads

**Which paths start from a generic parameter.** A path of one segment is looked up in the
open frames only, so it names the parameter wherever that is the innermost type of its
name. A path that goes on is looked up among the children of its module first, and starts
from the parameter only if the module has no child that is called the same
(`Crate.parameter_heads`).
-/

namespace NameResolution

/-- The child of a module that a longer path starts from: the first one of the name that has
children of its own, or just the first one. -/
def Tables.stem? (t : Tables) (module : NodeId) (name : String) : Option NodeId :=
  ((t.childrenNamed module name).find? (t.isContainer ·)).or (t.childrenNamed module name).head?

/-- A segment that others come after picks such a child, whatever namespace is preferred. -/
theorem Session.pickChild?_eq_stem? (s : Session) (prefer : Namespace) (module : NodeId)
    (name : String) :
    s.pickChild? prefer false (s.tables.childrenNamed module name) =
      s.tables.stem? module name := by
  unfold pickChild? Tables.stem?
  simp

/-- There is no such child only if no child has the name. -/
theorem Tables.stem?_eq_none {t : Tables} {module : NodeId} {name : String} :
    t.stem? module name = none ↔ t.childrenNamed module name = [] := by
  unfold stem?
  constructor
  · intro h
    simpa using (Option.or_eq_none_iff.mp h).2
  · intro h
    simp [h]

theorem Session.SameDeclarations.stem? {t t' : Tables} (h : Session.SameDeclarations t t')
    (module : NodeId) (name : String) : t'.stem? module name = t.stem? module name := by
  unfold Tables.stem?
  simp only [h.childrenNamed, h.isContainer]

namespace Crate

variable {c : Crate} {settings : Settings} {x : PlacedSite} {p : Path} {seg : PathSegment}
  {rest : List PathSegment} {b : Binder}

/-- A type path that is looked up has the name of a type parameter as its first segment, in a place
where the parameter is the innermost type of that name. -/
structure StartsLikeParam (c : Crate) (settings : Settings) (x : PlacedSite) (p : Path)
    (seg : PathSegment) (rest : List PathSegment) (b : Binder) : Prop where
  param : b ∈ c.binders
  kind : b.kind = .typeParam
  segments : p.segments = seg :: rest
  ident : seg.ident = .ident b.name
  innermost : ∃ env m, c.LooksUp settings x p .type env ∧
    env.find? (c.registered settings) .type b.name = some m ∧ m.decl = b.id

/-- The first segment is resolved to a child of the module if the path goes on and there is one to
pick, and to the parameter otherwise. -/
theorem SecondPass.resolved?_startsLikeParam {s : Session} (hwf : c.WellFormed)
    (hs : c.SecondPass (c.registered settings) s)
    (hp : c.StartsLikeParam settings x p seg rest b) :
    s.tables.resolved? seg.node.id =
      some ((if rest = [] then none
        else s.tables.stem? (x.modules.headD c.node.id) b.name).getD b.id) := by
  have hbase := c.firstPass hwf settings
  obtain ⟨env, m, hlook, hfind, hdecl⟩ := hp.innermost
  have hresolve : env.resolve (c.registered settings) .type b.name = some (.type, m) :=
    Env.resolve_of_type hfind fun hname => nomatch hname
  obtain ⟨space, hmem⟩ := Path.read_first hp.segments hp.ident hresolve
  have hhere : env.here (c.registered settings) = x.modules.headD c.node.id := by
    unfold Env.here
    rw [hlook.modules, hbase.root]
  rw [Session.pickChild?_eq_stem?, hhere, hdecl] at hmem
  rw [hs.tables.stem?]
  exact hs.resolved?_of_found hwf hbase (hlook.findings_subset hwf hmem) rfl

/-- **A generic parameter hides the items of its name from paths of one segment, and from longer
ones unless they are children of the module.** A well-formed crate is resolved. Wherever a parameter
is the innermost type of its name, a type path that is looked up and starts with this name has its
first segment resolved to the parameter if there are no other segments, or if the module around the
path has no child of the name. Otherwise the segment is resolved to such a child. Every path is
looked up that does not belong to another one. -/
theorem parameter_heads (hwf : c.WellFormed) (settings : Settings) :
    ∃ r, c.resolve settings = .ok r ∧
      (∀ x p seg rest b, c.StartsLikeParam settings x p seg rest b →
        (rest = [] ∨ r.tables.childrenNamed (x.modules.headD c.node.id) b.name = [] →
          r.declarationOf? seg.node.id = some b.id) ∧
        (rest ≠ [] → ∀ child,
          r.tables.stem? (x.modules.headD c.node.id) b.name = some child →
            r.declarationOf? seg.node.id = some child)) ∧
      ∀ x ∈ c.sites, ∀ p, x.site = .path p [] →
        ∃ prefer env, c.LooksUp settings x p prefer env := by
  obtain ⟨s, r, h⟩ := c.exists_outcome hwf settings
  refine ⟨r, h.resolve, ?_, fun x hx p hsite => c.exists_looksUp_of_open settings hx hsite⟩
  intro x p seg rest b hp
  have hresolved := h.secondPass.resolved?_startsLikeParam hwf hp
  rw [← h.tables] at hresolved
  constructor
  · rintro (rfl | hnone)
    · exact hresolved
    · rw [Tables.stem?_eq_none.mpr hnone, ite_self] at hresolved
      exact hresolved
  · intro hrest child hchild
    rw [if_neg hrest, hchild] at hresolved
    exact hresolved

/-- A struct `T`, and a struct with a type parameter `T` and fields of the types `T` and `T::X`. -/
def withNamesakeParam : Crate where
  node := ⟨⟨0⟩, ⟨34, 1⟩⟩
  items :=
    let node (id offset : Nat) : Node := ⟨⟨id⟩, ⟨offset, 1⟩⟩
    let name (text : String) (offset : Nat) : Ident := ⟨text, ⟨offset, 1⟩⟩
    let segment (id offset : Nat) (text : String) : PathSegment :=
      ⟨node id offset, .ident text, none⟩
    let field (id offset : Nat) (text : String) (p : Path) : NamedField :=
      ⟨node id (offset + 2), .ownModule, name text offset,
        .path (node (p.node.id.value + 1) (p.node.span.offset + 2)) p⟩
    [⟨node 1 2, .ownModule, .struct ⟨name "T" 0, .none, []⟩⟩,
      ⟨node 12 32, .ownModule, .struct ⟨name "S" 22,
        ⟨[⟨node 2 6, name "T" 4, .type [] none⟩], none⟩,
        [field 10 24 "f" ⟨node 4 10, [segment 3 8 "T"]⟩,
          field 11 28 "g" ⟨node 8 18, [segment 6 14 "T", segment 7 16 "X"]⟩]⟩⟩]
  idBound := ⟨13⟩

/-- The type of a field is looked up where the parameter is the innermost type `T`. -/
theorem startsLikeParam_withNamesakeParam {p : Path} {seg : PathSegment} {rest : List PathSegment}
    {m : Option Meaning} {i j : Nat}
    (hsite : withNamesakeParam.sites[i]? = some ⟨[⟨0⟩], .path p []⟩)
    (hvisit : (withNamesakeParam.read (withNamesakeParam.registered {})).findings[j]? =
      some (.visit p .type
        ⟨[⟨⟨12⟩, [⟨12⟩, ⟨2⟩, ⟨10⟩, ⟨5⟩, ⟨4⟩, ⟨3⟩, ⟨11⟩, ⟨9⟩, ⟨8⟩, ⟨6⟩, ⟨7⟩], [],
          [.own .type ⟨2⟩ "T" ⟨4, 1⟩]⟩], [⟨0⟩]⟩ m))
    (hsegments : p.segments = seg :: rest) (hident : seg.ident = .ident "T") :
    withNamesakeParam.StartsLikeParam {} ⟨[⟨0⟩], .path p []⟩ p seg rest
      ⟨.typeParam, ⟨2⟩, "T"⟩ where
  param := by decide
  kind := rfl
  segments := hsegments
  ident := hident
  innermost := ⟨_, _, ⟨List.mem_of_getElem? hsite, ⟨[], rfl⟩, rfl, m,
    List.mem_of_getElem? hvisit⟩, rfl, rfl⟩

/-- The path of the first field is just the name of the parameter. -/
theorem shortPath_withNamesakeParam :
    withNamesakeParam.StartsLikeParam {}
      ⟨[⟨0⟩], .path ⟨⟨⟨4⟩, ⟨10, 1⟩⟩, [⟨⟨⟨3⟩, ⟨8, 1⟩⟩, .ident "T", none⟩]⟩ []⟩
      ⟨⟨⟨4⟩, ⟨10, 1⟩⟩, [⟨⟨⟨3⟩, ⟨8, 1⟩⟩, .ident "T", none⟩]⟩ ⟨⟨⟨3⟩, ⟨8, 1⟩⟩, .ident "T", none⟩ []
      ⟨.typeParam, ⟨2⟩, "T"⟩ :=
  startsLikeParam_withNamesakeParam (i := 1) (j := 2) rfl rfl rfl rfl

/-- The path of the other field goes on after it. -/
theorem longPath_withNamesakeParam :
    withNamesakeParam.StartsLikeParam {}
      ⟨[⟨0⟩], .path ⟨⟨⟨8⟩, ⟨18, 1⟩⟩, [⟨⟨⟨6⟩, ⟨14, 1⟩⟩, .ident "T", none⟩,
        ⟨⟨⟨7⟩, ⟨16, 1⟩⟩, .ident "X", none⟩]⟩ []⟩
      ⟨⟨⟨8⟩, ⟨18, 1⟩⟩, [⟨⟨⟨6⟩, ⟨14, 1⟩⟩, .ident "T", none⟩, ⟨⟨⟨7⟩, ⟨16, 1⟩⟩, .ident "X", none⟩]⟩
      ⟨⟨⟨6⟩, ⟨14, 1⟩⟩, .ident "T", none⟩ [⟨⟨⟨7⟩, ⟨16, 1⟩⟩, .ident "X", none⟩]
      ⟨.typeParam, ⟨2⟩, "T"⟩ :=
  startsLikeParam_withNamesakeParam (m := none) (i := 4) (j := 4) rfl (by cbv) rfl rfl

/-- The type of the first field is the parameter, but the one of the other field starts from the
struct. -/
theorem parameter_heads_withNamesakeParam :
    withNamesakeParam.WellFormed ∧ ∃ r, withNamesakeParam.resolve {} = .ok r ∧
      r.declarationOf? ⟨3⟩ = some ⟨2⟩ ∧ r.declarationOf? ⟨6⟩ = some ⟨1⟩ := by
  have hwf : withNamesakeParam.WellFormed := by decide
  obtain ⟨r, hr, hheads, -⟩ := parameter_heads hwf {}
  have hstem : r.tables.stem? ⟨0⟩ "T" = some ⟨1⟩ := of_resolve hr (by decide +kernel)
  have hshort := (hheads _ _ _ _ _ shortPath_withNamesakeParam).1 (Or.inl rfl)
  have hlong := (hheads _ _ _ _ _ longPath_withNamesakeParam).2 (List.cons_ne_nil _ _) _
    hstem
  exact ⟨hwf, r, hr, hshort, hlong⟩

/-- The path `T` in the arguments of `Lost::X<T>`. -/
def argumentPath : Path := ⟨⟨⟨4⟩, ⟨12, 1⟩⟩, [⟨⟨⟨3⟩, ⟨10, 1⟩⟩, .ident "T", none⟩]⟩

/-- The path `Lost::X<T>`. -/
def lostPath : Path where
  node := ⟨⟨7⟩, ⟨18, 1⟩⟩
  segments := [⟨⟨⟨2⟩, ⟨8, 1⟩⟩, .ident "Lost", none⟩,
    ⟨⟨⟨6⟩, ⟨16, 1⟩⟩, .ident "X", some ⟨[.path ⟨⟨5⟩, ⟨14, 1⟩⟩ argumentPath], ⟨15, 1⟩⟩⟩]

/-- A struct with a type parameter `T` and a field of the type `Lost::X<T>`. Nothing is called
`Lost`. -/
def withLostArgument : Crate where
  node := ⟨⟨0⟩, ⟨28, 1⟩⟩
  items := [⟨⟨⟨10⟩, ⟨26, 1⟩⟩, .ownModule, .struct ⟨⟨"S", ⟨24, 1⟩⟩,
    ⟨[⟨⟨⟨1⟩, ⟨6, 1⟩⟩, ⟨"T", ⟨4, 1⟩⟩, .type [] none⟩], none⟩,
    [⟨⟨⟨9⟩, ⟨22, 1⟩⟩, .ownModule, ⟨"f", ⟨20, 1⟩⟩, .path ⟨⟨8⟩, ⟨19, 1⟩⟩ lostPath⟩]⟩⟩]
  idBound := ⟨11⟩

/-- The whole path is looked up where the parameter is the innermost type `T`. -/
theorem looksUp_withLostArgument : ∃ env m,
    withLostArgument.LooksUp {} ⟨[⟨0⟩], .path lostPath []⟩ lostPath .type env ∧
      env.find? (withLostArgument.registered {}) .type "T" = some m ∧ m.decl = ⟨1⟩ := by
  let env : Env := ⟨[⟨⟨10⟩, [⟨10⟩, ⟨1⟩, ⟨9⟩, ⟨8⟩, ⟨7⟩, ⟨2⟩, ⟨6⟩, ⟨5⟩, ⟨4⟩, ⟨3⟩], [],
    [.own .type ⟨1⟩ "T" ⟨4, 1⟩]⟩], [⟨0⟩]⟩
  have hsite : withLostArgument.sites[4]? = some ⟨[⟨0⟩], .path lostPath []⟩ := rfl
  have hvisit : (withLostArgument.read (withLostArgument.registered {})).findings[1]? =
      some (.visit lostPath .type env none) := by cbv
  exact ⟨env, _, ⟨List.mem_of_getElem? hsite, ⟨[], rfl⟩, rfl, none, List.mem_of_getElem? hvisit⟩,
    rfl, rfl⟩

/-- So the parameter is the innermost type of its name, and still not what the longer path starts
from. And where the start of a path stands for nothing, the parameter in its arguments is left
unresolved. -/
theorem parameter_heads_missed :
    (withNamesakeParam.WellFormed ∧ ∃ r, withNamesakeParam.resolve {} = .ok r ∧
      ∃ x p seg rest b, withNamesakeParam.StartsLikeParam {} x p seg rest b ∧ b.id = ⟨2⟩ ∧
        r.declarationOf? seg.node.id = some ⟨1⟩) ∧
    withLostArgument.WellFormed ∧ ∃ r, withLostArgument.resolve {} = .ok r ∧
      (∃ gate, ⟨[⟨0⟩], .path argumentPath [gate]⟩ ∈ withLostArgument.sites) ∧
      (∃ env m, withLostArgument.LooksUp {} ⟨[⟨0⟩], .path lostPath []⟩ lostPath .type env ∧
        env.find? (withLostArgument.registered {}) .type "T" = some m ∧ m.decl = ⟨1⟩) ∧
      r.declarationOf? ⟨3⟩ = none := by
  have hwf : withNamesakeParam.WellFormed := by decide
  have hwf' : withLostArgument.WellFormed := by decide
  obtain ⟨_, r, h⟩ := exists_outcome hwf {}
  obtain ⟨_, r', h'⟩ := exists_outcome hwf' {}
  have hfirst : r.declarationOf? ⟨6⟩ = some ⟨1⟩ := of_resolve h.resolve (by decide +kernel)
  have hnone : r'.declarationOf? ⟨3⟩ = none := of_resolve h'.resolve (by decide +kernel)
  exact ⟨⟨hwf, r, h.resolve, _, _, _, _, _, longPath_withNamesakeParam, rfl, hfirst⟩, hwf', r',
    h'.resolve, ⟨_, List.mem_of_getElem? (i := 2) rfl⟩, looksUp_withLostArgument, hnone⟩

end Crate

end NameResolution
