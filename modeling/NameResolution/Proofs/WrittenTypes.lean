import Mathlib
import NameResolution.Proofs.BarePaths
import NameResolution.Proofs.CanonicalPaths
import NameResolution.Proofs.PathEndings
import NameResolution.Proofs.Projections
import NameResolution.Proofs.RibPaths
import NameResolution.Proofs.Scoping
import NameResolution.Proofs.TypeTexts

/-!
# NameResolution.Proofs.WrittenTypes

**At the crate root, a type is written as it is resolved** (`Crate.written_types_agree`). The
canonical path of a type is made in two ways: from what the type is resolved to, and from its
written form alone, which is what the header of an implementation is registered under. In the
crate root of a crate without a prefix, the first never says anything but the second for a type
that is built around a path of plain names (`Ty.IsWritten`).

* What a path of plain names leads to has the names as the texts of its canonical path
  (`Path.Spells.texts_of_read`): beyond the first name because children are followed, and at
  the first name because the crate root has no texts. What hides an item there is called the
  same, unless it is called `Self`.
* Both ways treat the arguments of the last segment alike (`Path.Spells.texts_specialise`) and
  put the same marks around the path.
-/

namespace NameResolution

open Resolution

/-! ### Built-in types -/

namespace Crate.FirstPass

variable {c : Crate} {settings : Settings} {base : Session} (h : c.FirstPass settings base)
  (hwf : c.WellFormed)

include h hwf

/-- The canonical path of a built-in type is its written form. -/
theorem path_of_builtin {e : NodeId × String} (he : e ∈ base.builtins.texts) :
    base.tables.paths.get? e.1 = some (.single e.1 e.2) := by
  obtain ⟨s, hseed, hs, hbuiltins, -⟩ := seed_runs c settings hwf.root_lt
  have htype : e.1 ∈ base.builtins.types :=
    base.builtins.map_fst_texts ▸ List.mem_map_of_mem he
  obtain ⟨path, hpath, hlast⟩ := h.builtinPaths e.1 htype
  rw [show exec seed (.start c settings) = (.ok (), s) from hseed] at hpath
  rw [h.builtins, ← hbuiltins] at he
  rw [hlast, ← hpath]
  exact hs.builtinTexts e he

theorem path_meaning_of_builtin {e : NodeId × String} (he : e ∈ base.builtins.texts) :
    (base.meaning e.1).path = .single e.1 e.2 := by
  simp [Session.meaning, h.path_of_builtin hwf he]

/-- A built-in type has no children. -/
theorem isContainer_of_builtin {id : NodeId} (hid : id ∈ base.builtins.types) :
    base.tables.isContainer id = false := by
  refine Bool.eq_false_iff.mpr fun hcontainer => ?_
  obtain ⟨kind, hkind⟩ := Option.isSome_iff_exists.mp hcontainer
  rw [h.builtins] at hid
  rcases h.contained id kind hkind with ⟨rfl, -⟩ | ⟨a, ha, rfl, -⟩
  · rw [h.root] at hid
    exact (Builtins.apart_of_lt hwf.root_lt).1 hid
  · have hdeclared := (itemsAttempts_ids c.items).subset (List.mem_map_of_mem ha)
    exact (Builtins.apart_of_lt (hwf.lt_of_mem (List.mem_append_left _ hdeclared))).1 hid

/-- What the prelude has under a name is a built-in type that is written so. -/
theorem builtin_of_prelude {space : Namespace} {name : String} {m : Meaning}
    (hm : Env.findMember? base space base.builtins.prelude name = some m) :
    m.decl ∈ base.builtins.types ∧ m.path.texts = [name] := by
  obtain ⟨b, hb, rfl⟩ := Option.map_eq_some_iff.mp hm
  rw [h.prelude] at hb
  cases space with
  | name => cases hb
  | type =>
      obtain ⟨p, hp, rfl⟩ := Option.map_eq_some_iff.mp hb
      have hmem : p ∈ base.builtins.primitives := List.mem_of_find?_eq_some hp
      have hname : [p.1] = [name] := by simpa using List.find?_some hp
      have htext : (p.2, p.1) ∈ base.builtins.texts :=
        List.mem_append_left _ (List.mem_map.mpr ⟨p, hmem, rfl⟩)
      refine ⟨List.mem_append_left _ (List.mem_map_of_mem hmem), ?_⟩
      rw [← hname]
      exact congrArg CanonicalPath.texts (h.path_meaning_of_builtin hwf htext)

/-- What the crate root has under a name has this as its canonical path, if the crate has no prefix,
and it is a child of the crate root if it has children of its own. -/
theorem member_of_root (hunprefixed : settings.prefixCrateName = false) {space : Namespace}
    {name : String} {m : Meaning}
    (hm : Env.findMember? base space c.node.id name = some m) :
    m.path.texts = [name] ∧ (base.tables.isContainer m.decl = true →
      m.decl ∈ base.tables.childrenNamed c.node.id name) := by
  obtain ⟨b, hb, rfl⟩ := Option.map_eq_some_iff.mp hm
  rw [h.ribs space c.node.id _ (h.ne_prelude hwf List.mem_cons_self)] at hb
  obtain ⟨a, hfirst, rfl⟩ := Option.map_eq_some_iff.mp hb
  obtain ⟨hmodule, -, hkey⟩ := isFor_of_firstFor hfirst
  have hnested := c.nested hwf settings
  have ha := mem_of_firstFor hfirst
  have haccepted := mem_accepted_of_firstFor hfirst
  have hkey : a.key.texts = [name] := hkey
  constructor
  · obtain ⟨path, hhosts, hpath⟩ := c.attempts_located settings a ha
    have hempty : path.texts = [] := (hnested.texts_eq_nil_iff hhosts).mpr
      ⟨hmodule, (Session.texts_rootPathFor_eq_nil_iff c settings).mpr hunprefixed⟩
    change (base.meaning a.id).path.texts = _
    rw [h.meaning_accepted hwf haccepted]
    change a.path.texts = _
    rw [hpath, CanonicalPath.texts_append, hempty, hkey]
    rfl
  · intro hcontainer
    obtain ⟨kind, hkind⟩ := Option.isSome_iff_exists.mp (h.kind_of_isContainer hwf ha hcontainer)
    obtain ⟨hown, htexts, -⟩ := hnested.container_of_kind ha hkind
    refine h.mem_childrenNamed.mpr ⟨a, haccepted, hmodule ▸ hown, ?_, rfl⟩
    exact List.head_eq_of_cons_eq (htexts.symm.trans hkey)

/-- What the crate root or the prelude has under a name has this name as its canonical path, and it
has no children unless it is a child of the crate root of that name itself. -/
theorem of_member (hunprefixed : settings.prefixCrateName = false) {space : Namespace}
    {owner : NodeId} {name : String} {m : Meaning}
    (howner : owner ∈ [c.node.id] ++ [base.builtins.prelude])
    (hm : Env.findMember? base space owner name = some m) :
    m.path.texts = [name] ∧ (base.tables.isContainer m.decl = true →
      base.tables.childrenNamed c.node.id name ≠ []) := by
  rcases List.mem_append.mp howner with hin | hin
  · rw [List.mem_singleton.mp hin] at hm
    obtain ⟨htexts, hchild⟩ := h.member_of_root hwf hunprefixed hm
    exact ⟨htexts, fun hcontainer => List.ne_nil_of_mem (hchild hcontainer)⟩
  · rw [List.mem_singleton.mp hin] at hm
    obtain ⟨hbuiltin, htexts⟩ := h.builtin_of_prelude hwf hm
    refine ⟨htexts, fun hcontainer => ?_⟩
    rw [h.isContainer_of_builtin hwf hbuiltin] at hcontainer
    cases hcontainer

end Crate.FirstPass

/-! ### Paths of plain names -/

/-- A path of plain names, of which only the last one may have generic arguments. -/
structure Path.Spells (p : Path) (names : List String) : Prop where
  idents : p.segments.map PathSegment.ident = names.map PathIdent.ident
  args : ∀ seg ∈ p.segments.dropLast, seg.hasArgs = false

namespace Path.Spells

variable {p : Path} {names : List String}

theorem concat (h : p.Spells names) (hne : names ≠ []) :
    ∃ init name before last, names = init ++ [name] ∧ p.segments = before ++ [last] ∧
      before.map (·.canonicalText true) = init ∧ last.ident = .ident name := by
  obtain ⟨init, name, rfl⟩ := (List.eq_nil_or_concat names).resolve_left hne
  have hidents := h.idents
  rw [List.concat_eq_append, List.map_append] at hidents
  obtain ⟨before, tail, hsegments, hbefore, htail⟩ := List.map_eq_append_iff.mp hidents
  obtain ⟨last, rfl, hlast⟩ := List.map_eq_singleton_iff.mp htail
  refine ⟨init, name, before, last, List.concat_eq_append, hsegments, ?_, hlast⟩
  have hargs := h.args
  rw [hsegments, List.dropLast_concat] at hargs
  have hinit : (before.map PathSegment.ident).map PathIdent.text = init := by
    rw [hbefore, List.map_map]
    exact List.map_id init
  rw [← hinit, List.map_map]
  refine List.map_congr_left fun seg hseg => ?_
  simp [PathSegment.canonicalText, hargs seg hseg]

/-- The header that is made of the path has its segments as they are written. -/
theorem headerPath (h : p.Spells names) : ∃ q, p.headerPath true = .ok q ∧
    q.texts = p.segments.map (·.canonicalText true) := by
  refine ⟨_, Path.headerPath_eq true fun seg hseg hident => ?_, by simp [CanonicalPath.texts]⟩
  have hmem := List.mem_map_of_mem (f := PathSegment.ident) hseg
  rw [h.idents, hident] at hmem
  obtain ⟨name, -, hname⟩ := List.mem_map.mp hmem
  cases hname

/-- If a declaration has the names as its canonical path, the arguments are added to it in the way
they are written. -/
theorem texts_specialise (h : p.Spells names) (hne : names ≠ []) {q : CanonicalPath}
    (hq : q.texts = names) :
    (q.specialise p.segments.getLast?).texts = p.segments.map (·.canonicalText true) := by
  obtain ⟨init, name, before, last, rfl, hsegments, hbefore, hlast⟩ := h.concat hne
  obtain ⟨segments⟩ := q
  obtain ⟨front, tail, rfl, hfront, htail⟩ := List.map_eq_append_iff.mp hq
  obtain ⟨⟨id, text⟩, rfl, rfl⟩ := List.map_eq_singleton_iff.mp htail
  rw [hsegments, List.map_append, hbefore, ← hfront]
  cases hargs : last.hasArgs <;>
    simp [CanonicalPath.specialise, CanonicalPath.mapLast, CanonicalPath.texts,
      PathSegment.canonicalText, hargs, hlast, PathIdent.text]

end Path.Spells

/-! ### What plain names lead to -/

/-- No construct around hides what the module has under a name: none has a type of that name, and if
the module has no such type either, none has anything of that name. -/
structure Env.IsFree (base : Session) (env : Env) (name : String) : Prop where
  types : ∀ f ∈ env.frames, f.find? .type name = none
  names : (findMember? base .type (env.here base) name).isSome ∨
    ∀ f ∈ env.frames, f.find? .name name = none

/-- Where no construct around hides it, a name stands for what a module or the prelude has. -/
theorem Env.IsFree.exists_member {base : Session} {env : Env} {name : String}
    (h : env.IsFree base name) (hhere : env.here base ∈ env.modules) {space : Namespace}
    {m : Meaning} (hresolve : env.resolve base .type name = some (space, m)) :
    ∃ owner ∈ env.modules ++ [base.builtins.prelude],
      findMember? base space owner name = some m := by
  rcases Option.or_eq_some_iff.mp hresolve with htype | ⟨hnone, hother⟩
  · obtain ⟨_, hfind, heq⟩ := Option.map_eq_some_iff.mp htype
    cases heq
    refine (Env.find?_inv hfind).resolve_left fun ⟨f, hf, l, hl, _⟩ => ?_
    rw [h.types f hf] at hl
    cases hl
  · obtain ⟨_, hfind, heq⟩ := Option.map_eq_some_iff.mp hother
    cases heq
    refine (Env.find?_inv hfind).resolve_left fun ⟨f, hf, l, hl, _⟩ => ?_
    rcases h.names with hmember | hnames
    · -- The type of that name would have been found first.
      obtain ⟨t, ht⟩ := Option.isSome_iff_exists.mp hmember
      have hfree : env.frames.findSome? (·.find? .type name) = none :=
        List.findSome?_eq_none_iff.mpr h.types
      have hfound := Option.map_eq_none_iff.mp hnone
      rw [find?, hfree, Option.map_none, Option.none_or, List.findSome?_eq_none_iff] at hfound
      rw [hfound _ (List.mem_append_left _ hhere)] at ht
      cases ht
    · have hl' := hnames f hf
      change f.find? .name name = some l at hl
      rw [hl'] at hl
      cases hl

/-- The first name leads to a child of the module around the path, or else to what it stands for in
the environment. -/
theorem PathSegment.value_read_first {base : Session} {env : Env} {prefer : Namespace}
    (isLast : Bool) (scope : NodeId) (node : Node) (name : String)
    (generics : Option GenericArgs) :
    (PathSegment.read base env prefer false ⟨scope, none⟩ isLast
        ⟨node, .ident name, generics⟩).value =
      match base.pickChild? prefer isLast (base.tables.childrenNamed scope name) with
      | some child => some (Spot.advance base ⟨scope, none⟩ (base.meaning child))
      | none => (env.resolve base prefer name).map fun found =>
          Spot.advance base ⟨scope, none⟩ found.2 := by
  cases hpick : base.pickChild? prefer isLast (base.tables.childrenNamed scope name) <;>
    cases hresolve : env.resolve base prefer name <;> cases generics <;>
      simp [PathSegment.read, Spot.isDeferred, readName, hpick, hresolve, Reading.stopWith]

/-- A name leads nowhere from something without children. -/
theorem Spot.value_readSegments_of_leaf {base : Session} {env : Env} {scope : NodeId} {m : Meaning}
    (hleaf : base.tables.isContainer m.decl = false) {seg : PathSegment} {name : String}
    (hname : seg.ident = .ident name) (rest : List PathSegment) :
    (readSegments base env .type false (Spot.advance base ⟨scope, none⟩ m) (seg :: rest)).value
      = none := by
  obtain ⟨node, ident, generics⟩ := seg
  obtain rfl : ident = .ident name := hname
  simp only [Spot.advance, value_readSegments_cons, PathSegment.value_read_ident, hleaf]
  rfl

section Root

variable {c : Crate} {settings : Settings} {base s : Session} {env : Env} {name : String}
  {m : Meaning} (hbase : c.FirstPass settings base) (hwf : c.WellFormed)
  (hunprefixed : settings.prefixCrateName = false) (hstands : Stands base env s)
  (hroot : env.modules = [c.node.id])

include hbase hwf

include hstands in
/-- What a construct around introduces has its own name as its canonical path, and no children,
unless it is `Self`. -/
theorem Stands.of_local {f : Frame} (hf : f ∈ env.frames) {space : Namespace} {l : LocalName}
    (hl : f.find? space name = some l) (hself : name ≠ "Self") :
    l.meaning.path.texts = [name] ∧ base.tables.isContainer l.meaning.decl = false := by
  obtain ⟨hmem, hspelled⟩ := Frame.of_find? hl
  have hown : l.name ≠ "Self" := hspelled ▸ hself
  refine ⟨?_, Bool.eq_false_iff.mpr fun hcontainer => ?_⟩
  · rw [hstands.own f hf space l hmem hown, hspelled, CanonicalPath.texts_single]
  · obtain ⟨kind, hkind⟩ := Option.isSome_iff_exists.mp hcontainer
    exact hstands.fresh f hf space l hmem hown _ ((hbase.settled hwf).offers_container hkind) rfl

include hunprefixed hstands hroot

/-- What a name stands for in the crate root has this name as its canonical path, and it has no
children unless it is a child of the crate root of that name. -/
theorem Stands.of_resolve (hname : name ≠ "Self" ∨ env.IsFree base name) {space : Namespace}
    (hresolve : env.resolve base .type name = some (space, m)) :
    m.path.texts = [name] ∧ (base.tables.isContainer m.decl = true →
      base.tables.childrenNamed c.node.id name ≠ []) := by
  rcases hname with hself | hfree
  · obtain ⟨space', hfind⟩ := Env.exists_find?_of_resolve hresolve
    rcases Env.find?_inv hfind with ⟨f, hf, l, hl, rfl⟩ | ⟨owner, howner, hm⟩
    · obtain ⟨htexts, hleaf⟩ := hstands.of_local hbase hwf hf hl hself
      refine ⟨htexts, fun hcontainer => ?_⟩
      rw [hleaf] at hcontainer
      cases hcontainer
    · exact hbase.of_member hwf hunprefixed (hroot ▸ howner) hm
  · have hhere : env.here base ∈ env.modules := by simp [Env.here, hroot]
    obtain ⟨owner, howner, hm⟩ := hfree.exists_member hhere hresolve
    exact hbase.of_member hwf hunprefixed (hroot ▸ howner) hm

/-- A path that goes on beyond its first name leads from container to container. -/
theorem Path.leads_of_read {node : Node} {first second : PathSegment} {rest : List PathSegment}
    {names : List String} (hfirst : first.ident = .ident name)
    (hnames : (second :: rest).map PathSegment.ident = names.map PathIdent.ident)
    (hname : name ≠ "Self" ∨ base.tables.childrenNamed c.node.id name ≠ [] ∨
      env.IsFree base name)
    (hm : (Path.read base env .type ⟨node, first :: second :: rest⟩).value = some m) :
    ∃ id, Leads (c.attempts settings) c.node.id (name :: names) id ∧ m = base.meaning id := by
  have hhere : env.here base = c.node.id := by simp [Env.here, hroot]
  have hwalk : (readSegments base env .type false ⟨c.node.id, none⟩
      (first :: second :: rest)).value = some m := by
    rw [← hhere, ← hm]
    exact (readWhole_of_no_receiver base env node rfl _).1.symm
  rw [value_readSegments_cons] at hwalk
  obtain ⟨fnode, ident, generics⟩ := first
  obtain rfl : ident = .ident name := hfirst
  rw [PathSegment.value_read_first] at hwalk
  cases hpick : base.pickChild? .type (second :: rest).isEmpty
      (base.tables.childrenNamed c.node.id name) with
  | some child =>
      have hfollowed : (readSegments base env .type false
          (Spot.advance base ⟨c.node.id, none⟩ (base.meaning child)) (second :: rest)).value =
          (base.follow? .type child names).map base.meaning :=
        value_readSegments (second :: rest) hnames fun hchild => if_pos hchild
      simp only [hpick, hfollowed] at hwalk
      obtain ⟨id, hfollow, rfl⟩ := Option.map_eq_some_iff.mp hwalk
      obtain ⟨a, ha, hcontainer, rfl, rfl⟩ := hbase.mem_childrenNamed.mp (mem_of_pickChild? hpick)
      have hstep := Leads.root.step (mem_of_mem_accepted ha) hcontainer
      exact ⟨id, hbase.leads_of_follow? hstep hfollow, rfl⟩
  | none =>
      -- What the name stands for then has no children, so the second name leads nowhere.
      exfalso
      cases hresolve : env.resolve base .type name with
      | none =>
          rw [hpick, hresolve] at hwalk
          cases hwalk
      | some found =>
          have hnone := Session.pickChild?_eq_none hpick
          have hleaf : base.tables.isContainer found.2.decl = false := by
            refine Bool.eq_false_iff.mpr fun hcontainer => ?_
            have hfree := hname.imp_right fun h => h.resolve_left fun hne => hne hnone
            exact (hstands.of_resolve hbase hwf hunprefixed hroot hfree hresolve).2 hcontainer hnone
          obtain ⟨_, _, rfl, hsecond, -⟩ := List.map_eq_cons_iff.mp hnames.symm
          simp only [hpick, hresolve, Option.map_some,
            Spot.value_readSegments_of_leaf hleaf hsecond.symm] at hwalk
          cases hwalk

/-- What a path of plain names leads to has the names as its canonical path. -/
theorem Path.Spells.texts_of_read {p : Path} {names : List String} (h : p.Spells (name :: names))
    (hname : name ≠ "Self" ∨ names ≠ [] ∧ base.tables.childrenNamed c.node.id name ≠ [] ∨
      env.IsFree base name)
    (hm : (p.read base env .type).value = some m) : m.path.texts = name :: names := by
  obtain ⟨node, segments⟩ := p
  obtain ⟨⟨fnode, ident, generics⟩, rest, hsegments, hfirst, hrest⟩ :=
    List.map_eq_cons_iff.mp h.idents
  obtain rfl : segments = _ := hsegments
  cases rest with
  | nil =>
      obtain rfl := List.map_eq_nil_iff.mp (hrest.symm.trans rfl)
      obtain rfl : ident = .ident name := hfirst
      rw [(Path.read_single base env .type node fnode name generics).1] at hm
      obtain ⟨found, hresolve, rfl⟩ := Option.map_eq_some_iff.mp hm
      have hfree := hname.imp_right fun h => h.resolve_left fun ⟨hne, _⟩ => hne rfl
      exact (hstands.of_resolve hbase hwf hunprefixed hroot hfree hresolve).1
  | cons second rest =>
      obtain ⟨id, hleads, rfl⟩ := Path.leads_of_read hbase hwf hunprefixed hstands hroot hfirst
        hrest (hname.imp_right (Or.imp_left And.right)) hm
      have hnested := c.nested hwf settings
      rcases hnested.texts_of_leads hleads with ⟨-, hnil⟩ | ⟨a, ha, rfl, hcontainer, htexts⟩
      · cases hnil
      · have hpath := hbase.paths a ha
          (Or.inl ((hnested.origin a ha).vis_of_container hcontainer))
        rw [(Session.texts_rootPathFor_eq_nil_iff c settings).mpr hunprefixed] at htexts
        simp [Session.meaning, hpath, htexts]

end Root

/-! ### Types -/

/-- Any nesting of references, pointers and slices around a built-in type or a path of plain names.
Only `Self` can be the name of a construct around for something that is called otherwise: a path may
start with it if it goes on from a child of the module, or if no construct around hides what the
module has under it. -/
inductive Ty.IsWritten (base : Session) (env : Env) : Ty → Prop
  | unit (n : Node) : IsWritten base env (.tuple n [])
  | never (n : Node) : IsWritten base env (.never n)
  | inferred (n : Node) : IsWritten base env (.inferred n)
  | primitive (n : Node) {p : Path} {name : String} (h : p.Spells [name])
      (hname : name ∈ primitiveNames) : IsWritten base env (.path n p)
  | path (n : Node) {p : Path} {name : String} {names : List String} (h : p.Spells (name :: names))
      (hname : name ≠ "Self" ∨
        names ≠ [] ∧ base.tables.childrenNamed (env.here base) name ≠ [] ∨
        env.IsFree base name) : IsWritten base env (.path n p)
  | reference (n : Node) (mutable : Bool) {inner : Ty} (h : IsWritten base env inner) :
      IsWritten base env (.reference n mutable inner)
  | pointer (n : Node) (mutable : Bool) {inner : Ty} (h : IsWritten base env inner) :
      IsWritten base env (.pointer n mutable inner)
  | slice (n : Node) {elem : Ty} (h : IsWritten base env elem) : IsWritten base env (.slice n elem)

/-- The nodes of the path that a type is built around. -/
def Ty.pathIds : Ty → List NodeId
  | .path _ p => p.nodeIds
  | .reference _ _ inner | .pointer _ _ inner => inner.pathIds
  | .slice _ elem => elem.pathIds
  | .qualified _ _ | .tuple _ _ | .array _ _ _ | .dynOne _ _ | .dyn _ _ | .fnPointer _ _ _
  | .inferred _ | .never _ => []

/-- The type around another has the same path as it is written and as it is resolved, if the inner
one does. -/
theorem TypeMeaning.text_wrapped {v : TypeMeaning} {q : CanonicalPath}
    (h : ∀ path, v.path = some path → path.text = q.text) (id : NodeId) (wrap : String → String) :
    ∀ path, (v.wrapped id wrap).path = some path →
      path.text = (CanonicalPath.single id (wrap q.text)).text := by
  intro path hpath
  obtain ⟨inner, hinner, rfl⟩ := Option.map_eq_some_iff.mp hpath
  rw [CanonicalPath.text_single, CanonicalPath.text_single, h inner hinner]

section Resolved

variable {base s : Session} {env : Env}

/-- Resolving a type with a form of its own answers with the canonical path that is read. -/
theorem Stands.runs_resolveBuiltin (h : Stands base env s) (hbase : base.Settled) (use : NodeId)
    {pick : Builtins → NodeId} (hpick : pick base.builtins ∈ base.builtins.types) :
    ∃ r s', Runs (resolveBuiltin use pick) s r s' ∧
      r.path = (readBuiltin base use (pick base.builtins)).value.path := by
  obtain ⟨r, s', hrun, ⟨-, hpath, -⟩, -⟩ := agrees_resolveBuiltin hbase h use pick hpick
  exact ⟨r, s', hrun, hpath⟩

theorem Path.runs_resolveTy (hbase : base.Settled) (n : Node) (p : Path)
    (hready : Ready base env p.nodeIds s) :
    ∃ r s', Runs (Ty.resolve (.path n p)) s r s' ∧
      r.path = (Ty.read base env (.path n p)).value.path := by
  obtain ⟨_, s', hrun, ⟨rfl, hknown⟩, -⟩ := p.agrees hbase .type hready
  rw [Ty.read, Reading.value_bind]
  cases hvalue : (p.read base env .type).value with
  | none =>
      rw [hvalue] at hrun
      exact ⟨_, s', hrun.bind (Runs.pure _ _), rfl⟩
  | some m =>
      rw [hvalue] at hrun
      refine ⟨_, s', hrun.bind (Runs.get_bind (Runs.pure _ _)), ?_⟩
      change (s'.tables.paths.get? m.decl).map _ = _
      rw [(hknown m hvalue).named]
      rfl

theorem Ty.runs_wrapped {inner : Ty} {v : TypeMeaning}
    (h : ∃ r s', Runs inner.resolve s r s' ∧ r.path = v.path) (id : NodeId)
    (wrap : String → String) :
    ∃ r s', Runs (do return (← inner.resolve).wrapped id wrap) s r s' ∧
      r.path = (v.wrapped id wrap).path := by
  obtain ⟨r, s', hrun, hpath⟩ := h
  exact ⟨_, s', hrun.bind (Runs.pure _ _), congrArg (Option.map _) hpath⟩

/-- A type is resolved from every session in which its path is still to be worked on, to the
canonical path that is read. -/
theorem Ty.IsWritten.runs {t : Ty} (h : t.IsWritten base env) (hbase : base.Settled)
    (hready : Ready base env t.pathIds s) :
    ∃ r s', Runs t.resolve s r s' ∧ r.path = (t.read base env).value.path := by
  induction h with
  | unit n => exact hready.stands.runs_resolveBuiltin hbase n.id (by simp [Builtins.types])
  | never n => exact hready.stands.runs_resolveBuiltin hbase n.id (by simp [Builtins.types])
  | inferred n => exact hready.stands.runs_resolveBuiltin hbase n.id (by simp [Builtins.types])
  | primitive n _ _ | path n _ _ => exact Path.runs_resolveTy hbase n _ hready
  | reference n _ _ ih | pointer n _ _ ih | slice n _ ih =>
      exact Ty.runs_wrapped (ih hready) n.id _

end Resolved

/-! ### Headers -/

section Headers

variable {c : Crate} {settings : Settings} {base s : Session} {env : Env}
  (hbase : c.FirstPass settings base) (hwf : c.WellFormed)

/-- The header that is made of a type is the written form of every canonical path that is read of
it. -/
def Ty.HeaderAgrees (base : Session) (env : Env) (t : Ty) : Prop :=
  ∃ q, t.headerPath true = .ok q ∧
    ∀ path, (t.read base env).value.path = some path → path.text = q.text

include hbase hwf

/-- A type with a form of its own. -/
theorem Crate.FirstPass.headerAgrees_builtin {t : Ty} {use : NodeId} {e : NodeId × String}
    (he : e ∈ base.builtins.specialTexts) (hread : t.read base env = readBuiltin base use e.1)
    (hheader : t.headerPath true = .ok (.single use e.2)) : t.HeaderAgrees base env := by
  refine ⟨_, hheader, fun path hpath => ?_⟩
  rw [hread] at hpath
  cases hpath
  rw [hbase.path_meaning_of_builtin hwf (List.mem_append_right _ he), CanonicalPath.text_single,
    CanonicalPath.text_single]

variable (hunprefixed : settings.prefixCrateName = false) (hstands : Stands base env s)
  (hroot : env.modules = [c.node.id])

include hunprefixed hstands hroot

theorem Path.Spells.headerAgrees (n : Node) {p : Path} {name : String} {names : List String}
    (h : p.Spells (name :: names)) (hname : name ≠ "Self" ∨
      names ≠ [] ∧ base.tables.childrenNamed c.node.id name ≠ [] ∨ env.IsFree base name) :
    Ty.HeaderAgrees base env (.path n p) := by
  obtain ⟨q, hq, htexts⟩ := h.headerPath
  refine ⟨q, hq, fun path hpath => ?_⟩
  rw [Ty.read, Reading.value_bind] at hpath
  cases hvalue : (p.read base env .type).value with
  | none =>
      rw [hvalue] at hpath
      cases hpath
  | some m =>
      rw [hvalue] at hpath
      cases hpath
      have hm := h.texts_of_read hbase hwf hunprefixed hstands hroot hname hvalue
      rw [CanonicalPath.text, CanonicalPath.text, htexts,
        h.texts_specialise (List.cons_ne_nil _ _) hm]

theorem Ty.IsWritten.headerAgrees {t : Ty} (h : t.IsWritten base env) : t.HeaderAgrees base env := by
  induction h with
  | unit n =>
      exact hbase.headerAgrees_builtin hwf (e := (base.builtins.unit, "()"))
        (by simp [Builtins.specialTexts]) rfl rfl
  | never n =>
      exact hbase.headerAgrees_builtin hwf (e := (base.builtins.never, "!"))
        (by simp [Builtins.specialTexts]) rfl rfl
  | inferred n =>
      exact hbase.headerAgrees_builtin hwf (e := (base.builtins.inferred, "_"))
        (by simp [Builtins.specialTexts]) rfl rfl
  | primitive n hp hname =>
      refine hp.headerAgrees hbase hwf hunprefixed hstands hroot n (Or.inl ?_)
      rintro rfl
      exact absurd hname (by decide)
  | path n hp hname =>
      have hhere : env.here base = c.node.id := by simp [Env.here, hroot]
      exact hp.headerAgrees hbase hwf hunprefixed hstands hroot n (hhere ▸ hname)
  | reference n mutable _ ih | pointer n mutable _ ih | slice n _ ih =>
      obtain ⟨q, hq, htext⟩ := ih
      unfold HeaderAgrees
      rw [Ty.headerPath, hq]
      exact ⟨_, rfl, TypeMeaning.text_wrapped htext n.id _⟩

end Headers

namespace Crate

/-- **At the crate root, a type is written as it is resolved.** In a well-formed crate without a
prefix, let a type be built by references, pointers and slices around a built-in type or a path of
plain names, with arguments for the last of them at most, and let it be written in the crate root.
If the first name is `Self`, no construct around may hide what the crate root has under it. When the
second pass comes to the path, its nodes are still to be worked on. From every such session the type
is resolved, there is a header for it as it is written, and if it has a canonical path, that has the
same text. -/
theorem written_types_agree {c : Crate} (hwf : c.WellFormed) (settings : Settings)
    (hunprefixed : settings.prefixCrateName = false) :
    (∀ x p env, c.LooksUp settings x p .type env → x.modules = [c.node.id] →
      env.modules = [c.node.id] ∧ ∃ before after s, (c.read (c.registered settings)).findings =
          before ++ (p.read (c.registered settings) env .type).findings ++ after ∧
        Ready (c.registered settings) env p.nodeIds s ∧
        s.ledger = (c.registered settings).ledger.noteAll (c.registered settings) before) ∧
    ∀ (env : Env) (t : Ty) (s : Session), env.modules = [c.node.id] →
      t.IsWritten (c.registered settings) env →
      Ready (c.registered settings) env t.pathIds s →
      ∃ r s' header, Runs t.resolve s r s' ∧ t.headerPath true = .ok header ∧
        ∀ path, r.path = some path → path.text = header.text := by
  have hbase := c.firstPass hwf settings
  refine ⟨fun x p env hlook hroot => ⟨hlook.modules.trans hroot, hlook.exists_ready hwf⟩,
    fun env t s hroot ht hready => ?_⟩
  obtain ⟨r, s', hrun, hpath⟩ := ht.runs (hbase.settled hwf) hready
  obtain ⟨header, hheader, htext⟩ :=
    ht.headerAgrees hbase hwf hunprefixed hready.stands hroot
  exact ⟨r, s', header, hrun, hheader, fun path hr => htext path (hpath.symm.trans hr)⟩

/-- The path `m::S<u8>`. -/
def pathIntoModule : Path :=
  let node (id offset : Nat) : Node := ⟨⟨id⟩, ⟨offset, 1⟩⟩
  let byte : Ty := .path (node 11 44) ⟨node 12 44, [⟨node 13 44, .ident "u8", none⟩]⟩
  ⟨node 8 39, [⟨node 9 39, .ident "m", none⟩,
    ⟨node 10 42, .ident "S", some ⟨[byte], ⟨43, 4⟩⟩⟩]⟩

/-- The type `&mut [*const m::S<u8>]`. -/
def typeAroundPath : Ty :=
  let node (id offset : Nat) : Node := ⟨⟨id⟩, ⟨offset, 1⟩⟩
  .reference (node 4 27) true
    (.slice (node 5 32) (.pointer (node 6 33) false (.path (node 7 39) pathIntoModule)))

/-- A struct `S` in a module `m`, and an alias for a type around it. -/
def withTypeAroundPath : Crate where
  node := ⟨⟨0⟩, ⟨0, 50⟩⟩
  items :=
    let node (id offset : Nat) : Node := ⟨⟨id⟩, ⟨offset, 1⟩⟩
    [⟨node 1 0, .ownModule, .module ⟨"m", ⟨4, 1⟩⟩
        [⟨node 2 8, .ownModule, .struct ⟨⟨"S", ⟨15, 1⟩⟩, .none, []⟩⟩]⟩,
      ⟨node 3 18, .ownModule, .typeAlias ⟨⟨"A", ⟨23, 1⟩⟩, .none, typeAroundPath⟩⟩]
  idBound := ⟨14⟩

/-- The type of the alias has a canonical path, and that is written as the type is. -/
theorem written_types_agree_withTypeAroundPath :
    withTypeAroundPath.WellFormed ∧
      ∃ x env s r s' header,
        withTypeAroundPath.LooksUp {} x pathIntoModule .type env ∧ x.modules = [⟨0⟩] ∧
        typeAroundPath.IsWritten (withTypeAroundPath.registered {}) env ∧
        Ready (withTypeAroundPath.registered {}) env typeAroundPath.pathIds s ∧
        Runs typeAroundPath.resolve s r s' ∧
        r.path = some (.single ⟨4⟩ "&mut [*const m::S::<u8>]") ∧
        typeAroundPath.headerPath true = .ok header ∧
        header.text = "&mut [*const m::S::<u8>]" := by
  have hwf : withTypeAroundPath.WellFormed := by decide
  obtain ⟨prefer, env, hlook⟩ := withTypeAroundPath.exists_looksUp_of_open {}
    (x := ⟨[⟨0⟩], .path pathIntoModule []⟩) (List.mem_of_getElem? (i := 4) rfl) rfl
  let inAlias : Env := (Env.inside [⟨0⟩]).enter ⟨3⟩ ((List.range' 3 11).map NodeId.mk)
  -- The path is visited once, in the frame of the alias.
  have hvisits : ∀ v ∈ (withTypeAroundPath.read
      (withTypeAroundPath.registered {})).findings.filterMap Finding.visited?,
      v.1 = ⟨8⟩ → v.2.2 = (.type, inAlias) := by
    decide +kernel
  obtain ⟨outcome, hvisit⟩ := hlook.visit
  have hwhere := hvisits (⟨8⟩, _, prefer, env) (List.mem_filterMap.mpr ⟨_, hvisit, rfl⟩) rfl
  obtain ⟨rfl, rfl⟩ := Prod.mk.inj hwhere
  have hspells : pathIntoModule.Spells ["m", "S"] := ⟨rfl, by decide⟩
  have hwritten : typeAroundPath.IsWritten (withTypeAroundPath.registered {}) inAlias :=
    .reference _ _ (.slice _ (.pointer _ _ (.path _ hspells (Or.inl (by decide)))))
  obtain ⟨hcomes, hagree⟩ := written_types_agree hwf {} rfl
  obtain ⟨hroot, _, _, s, -, hready, -⟩ := hcomes _ _ _ hlook rfl
  obtain ⟨r, s', header, hrun, hheader, htext⟩ := hagree inAlias _ s hroot hwritten hready
  have hpath : r.path = some (.single ⟨4⟩ "&mut [*const m::S::<u8>]") := by
    have hsettled := (withTypeAroundPath.firstPass hwf {}).settled hwf
    obtain ⟨_, _, hrun', hpath⟩ := hwritten.runs hsettled hready
    obtain ⟨rfl, -⟩ := hrun.eq hrun'
    rw [hpath]
    decide +kernel
  exact ⟨hwf, _, inAlias, s, r, s', header, hlook, rfl, hwritten, hready, hrun, hpath, hheader,
    (htext _ hpath).symm.trans (CanonicalPath.text_single _ _)⟩

end Crate

end NameResolution
