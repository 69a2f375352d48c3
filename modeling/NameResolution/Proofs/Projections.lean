import NameResolution.Proofs.ChildTables
import NameResolution.Proofs.Scoping
import NameResolution.Proofs.Lexical.Entries
import NameResolution.Proofs.Lexical.Visits

/-!
# NameResolution.Proofs.Projections

**An implementation of a trait has one form as a declaration and another one in paths.** Its
items are registered behind the canonical path of the module and the header as written
(`Crate.HoldsImpl.registered`). A path such as `<Ty as Tr>::f` gets a header that is made of the
canonical paths of what `Ty` and `Tr` stand for, and nothing in front
(`QualifiedPath.Projects.value_read`). The two say the same where canonical paths start, in the
crate root without the name of the crate, and nowhere else (`Crate.projections_agree_iff`).
-/

namespace NameResolution

/-! ### Texts -/

/-- The header `<ty as tr>`. -/
def projected (ty tr : String) : String := "<" ++ ty ++ " as " ++ tr ++ ">"

namespace CanonicalPath

theorem text_append {p q : CanonicalPath} (hp : p.texts ≠ []) (hq : q.texts ≠ []) :
    (p ++ q).text = p.text ++ "::" ++ q.text := by
  unfold text
  rw [texts_append]
  exact String.intercalate_append_of_ne_nil hp hq

/-- A path in front of a header is not the same as one in front of both of its names, which makes
the text longer. -/
theorem text_eq_text_projected_iff (path : CanonicalPath) (i j k l a b : NodeId)
    (ty tr name : String) :
    (path ++ (single i (projected ty tr) ++ single j name)).text =
        (single k (projected (path ++ single a ty).text (path ++ single b tr).text) ++
          single l name).text ↔ path.texts = [] := by
  constructor
  · intro heq
    by_contra hne
    rw [text_append hne (by simp), text_append (by simp) (by simp), text_append (by simp) (by simp),
      text_append hne (by simp), text_append hne (by simp)] at heq
    have hlength := congrArg String.length heq
    have hcolons : "::".length = 2 := by decide
    simp only [text_single, projected, String.length_append, hcolons] at hlength
    omega
  · intro hempty
    have htext : ∀ id t, (path ++ single id t).text = t := fun id t => by
      rw [← text_single id t]
      exact SameText.text_eq (by simp [SameText, hempty])
    rw [htext, htext]
    exact SameText.text_eq (by simp [SameText, hempty])

end CanonicalPath

/-- Only in the outermost module canonical paths may start with the name of a declaration. -/
theorem Nested.texts_eq_nil_iff {l : List Attempt} {root module : NodeId}
    {rootPath path : CanonicalPath} (h : Nested l root rootPath)
    (hhosts : Hosts l root rootPath module path) :
    path.texts = [] ↔ module = root ∧ rootPath.texts = [] := by
  rcases hhosts with ⟨rfl, rfl⟩ | ⟨m, hm, hkind, rfl, rfl⟩
  · simp
  · refine iff_of_false (fun hempty => ?_) fun hroot => h.id_ne_root hm hroot.1
    have hcontainer := (h.container_of_kind hm hkind).1
    rcases h.texts_of_container hm hcontainer with ⟨-, htexts⟩ | ⟨b, -, -, -, htexts⟩ <;>
      simp [htexts] at hempty

theorem Session.texts_rootPathFor_eq_nil_iff (c : Crate) (settings : Settings) :
    (rootPathFor c settings).texts = [] ↔ settings.prefixCrateName = false := by
  unfold rootPathFor
  split <;> simp [*]

/-! ### Implementations as they are registered -/

/-- A path is one name without generic arguments. -/
def Path.IsName (p : Path) (name : String) : Prop :=
  ∃ node snode, p = ⟨node, [⟨snode, .ident name, none⟩]⟩

theorem Path.IsName.headerPath {p : Path} {name : String} (h : p.IsName name) (withArgs : Bool) :
    ∃ id, p.headerPath withArgs = .ok (.single id name) := by
  obtain ⟨node, snode, rfl⟩ := h
  refine ⟨snode.id, ?_⟩
  cases withArgs <;> rfl

/-- Where all attempts are about different nodes, one that is accepted was not made before. -/
theorem Attempt.earlier?_of_accepted {before after : List Attempt} {a : Attempt}
    (hnodup : ((before ++ a :: after).map Attempt.id).Nodup)
    (ha : a ∈ accepted (before ++ a :: after)) : a.earlier? before = none := by
  refine Option.eq_none_iff_forall_not_mem.mpr fun b hb => ?_
  have hfirst := firstFor_of_mem_accepted ha
  unfold firstFor at hfirst
  rw [List.find?_append] at hfirst
  change firstFor before a.module a.space a.key = some b at hb
  have heq : some b = some a := by
    rw [← hfirst, ← hb]
    change _ = (firstFor before a.module a.space a.key).or _
    rw [hb, Option.some_or]
  cases heq
  rw [List.map_append, List.map_cons] at hnodup
  exact (List.nodup_append.mp hnodup).2.2 a.id (List.mem_map_of_mem (mem_of_firstFor hb)) a.id
    List.mem_cons_self rfl

namespace Crate

variable {c : Crate} {settings : Settings} {s : Session} {module : NodeId} {item : Item}
  {i : TraitImpl} {f : ImplItem} {ty tr name : String}

/-- A module holds an implementation of a trait whose header has a name for the type and one for the
trait. The implementation is accepted, and `f` is an item of it. -/
structure HoldsImpl (c : Crate) (settings : Settings) (module : NodeId) (item : Item)
    (i : TraitImpl) (f : ImplItem) (ty tr : String) : Prop where
  placed : ∃ outer, (module :: outer, item) ∈ c.placedItems
  kind : item.kind = .traitImpl i
  selfTy : ∃ node p, i.selfTy = .path node p ∧ p.IsName ty
  traitPath : i.traitPath.IsName tr
  accepted : ∃ a ∈ accepted (c.attempts settings), a.id = item.node.id
  mem : f ∈ i.items

theorem HoldsImpl.projection (h : c.HoldsImpl settings module item i f ty tr) :
    i.projection item.node.id = .ok (.single item.node.id (projected ty tr)) := by
  obtain ⟨node, p, hself, hty⟩ := h.selfTy
  obtain ⟨id, hty⟩ := hty.headerPath i.generics.isEmpty
  obtain ⟨id', htr⟩ := h.traitPath.headerPath i.generics.isEmpty
  have hself : i.selfTy.headerPath i.generics.isEmpty = .ok (.single id ty) := by
    rw [hself]
    exact hty
  unfold TraitImpl.projection
  rw [hself, htr]
  change Except.ok (CanonicalPath.projection _ _ _) = _
  unfold CanonicalPath.projection
  rw [CanonicalPath.text_single, CanonicalPath.text_single]
  rfl

/-- The header is attempted first, and then the items unless it has been taken. -/
theorem HoldsImpl.attempts_eq (h : c.HoldsImpl settings module item i f ty tr) (place : Place)
    (before : List Attempt) {a : Attempt}
    (ha : a = place.projectionAttempt module item.node (.single item.node.id (projected ty tr))) :
    item.attempts module place before =
      a :: if (a.earlier? before).isSome then []
        else i.items.map (ImplItem.attempt module a.inner) := by
  have hprojection := h.projection
  have hkind := h.kind
  obtain ⟨node, vis, kind⟩ := item
  cases hkind
  simp only [Item.attempts, ItemKind.attempts, hprojection]
  rw [← ha]
  cases a.earlier? before <;> rfl

/-- Behind the header, the items of an implementation are attempted in its module. -/
theorem HoldsImpl.mem_attempts (h : c.HoldsImpl settings module item i f ty tr)
    (hwf : c.WellFormed) : ∃ a ∈ c.attempts settings, a.module = module ∧ a.id = f.node.id ∧
      a.vis.isSome ∧ a.key = .single item.node.id (projected ty tr) ++
        .single f.node.id f.kind.declares.2.name := by
  obtain ⟨outer, hplaced⟩ := h.placed
  obtain ⟨path, before, after, heq⟩ := c.attempts_of_placed settings hplaced
  obtain ⟨b, hb, hid⟩ := h.accepted
  have hnested := c.nested hwf settings
  let a := (Place.ofModule path).projectionAttempt module item.node
    (.single item.node.id (projected ty tr))
  rw [h.attempts_eq (.ofModule path) before (a := a) rfl, List.append_assoc,
    List.cons_append] at heq
  have hmem : a ∈ c.attempts settings := heq ▸ List.mem_append_right _ List.mem_cons_self
  -- The header was accepted, so nothing before it has taken its name.
  have ha : a ∈ NameResolution.accepted (c.attempts settings) :=
    hnested.eq_of_id (mem_of_mem_accepted hb) hmem hid ▸ hb
  have hfree : a.earlier? before = none := by
    have hnodup := (List.nodup_cons.mp hnested.nodup).2
    rw [heq] at hnodup ha
    exact Attempt.earlier?_of_accepted hnodup ha
  refine ⟨f.attempt module a.inner, ?_, rfl, rfl, rfl, rfl⟩
  rw [heq, hfree]
  exact List.mem_append_right _ (List.mem_cons_of_mem _
    (List.mem_append_left _ (List.mem_map_of_mem h.mem)))

/-- An item of an implementation is registered behind the path of the module and the header. -/
theorem HoldsImpl.registered (h : c.HoldsImpl settings module item i f ty tr)
    (hwf : c.WellFormed) : ∃ path,
      Hosts (c.attempts settings) c.node.id (Session.rootPathFor c settings) module path ∧
      (c.registered settings).tables.paths.get? f.node.id =
        some (path ++ (.single item.node.id (projected ty tr) ++
          .single f.node.id f.kind.declares.2.name)) := by
  obtain ⟨a, ha, rfl, hid, hvis, hkey⟩ := h.mem_attempts hwf
  obtain ⟨path, hhosts, hpath⟩ := c.attempts_located settings a ha
  have hnamed := (c.firstPass hwf settings).paths a ha (Or.inl hvis)
  rw [hid, hpath, hkey] at hnamed
  exact ⟨path, hhosts, hnamed⟩

end Crate

/-! ### Qualified paths as they are read -/

/-- A path has the form `<ty as tr>::name`. -/
structure QualifiedPath.Projects (q : QualifiedPath) (ty tr name : String)
    (selfPath traitPath : Path) : Prop where
  selfTy : ∃ node, q.qualifier.selfTy = .path node selfPath
  asTrait : q.qualifier.asTrait = some traitPath
  selfName : selfPath.IsName ty
  traitName : traitPath.IsName tr
  associated : q.associated.ident = .ident name ∧ q.associated.generics = none
  rest : q.rest = []

namespace QualifiedPath.Projects

variable {q : QualifiedPath} {ty tr name : String} {selfPath traitPath : Path} {base : Session}
  {env : Env} (h : q.Projects ty tr name selfPath traitPath)

include h

theorem selfPath_subset :
    (selfPath.read base env .type).findings ⊆ (q.read base env).findings := by
  obtain ⟨node, ⟨qnode, selfTy, asTrait⟩, associated, rest⟩ := q
  obtain ⟨tnode, rfl⟩ := h.selfTy
  rw [QualifiedPath.read, Qualifier.read, Ty.read, Reading.findings_bind, Reading.findings_bind,
    Reading.findings_bind, List.append_assoc, List.append_assoc]
  exact List.subset_append_left _ _

/-- Once the type stands for something, the trait is read. -/
theorem traitPath_subset {m : Meaning} (hself : (selfPath.read base env .type).value = some m) :
    (traitPath.read base env .type).findings ⊆ (q.read base env).findings := by
  obtain ⟨node, ⟨qnode, selfTy, asTrait⟩, associated, rest⟩ := q
  obtain ⟨tnode, rfl⟩ := h.selfTy
  cases h.asTrait
  rw [QualifiedPath.read, Qualifier.read, Ty.read, Reading.findings_bind, Reading.findings_bind]
  simp only [Reading.value_bind, Reading.findings_bind, hself]
  intro f hf
  simp [TypeMeaning.headPath, hf]

/-- The header is made of the canonical paths of the type and the trait. -/
theorem value_read {m m' : Meaning} (hself : (selfPath.read base env .type).value = some m)
    (htrait : (traitPath.read base env .type).value = some m') :
    (q.read base env).value =
      some (.single q.qualifier.node.id (projected m.path.text m'.path.text) ++
        .single q.associated.node.id name) := by
  obtain ⟨node, ⟨qnode, selfTy, asTrait⟩, ⟨anode, ident, generics⟩, rest⟩ := q
  obtain ⟨tnode, rfl⟩ := h.selfTy
  obtain ⟨rfl, rfl⟩ := h.associated
  cases h.asTrait
  cases h.rest
  obtain ⟨pnode, snode, rfl⟩ := h.selfName
  rw [QualifiedPath.read, Qualifier.read, Ty.read]
  simp only [Reading.value_bind, hself]
  simp [TypeMeaning.headPath, htrait, PathSegment.readAppended, readAppendedSegments]
  rfl

end QualifiedPath.Projects

/-! ### Both in a crate -/

/-- A path is resolved to a child of a module that is called by a name. -/
def ResolvedCrate.NamesChild (r : ResolvedCrate) (module : NodeId) (name : String) (p : Path)
    (child : NodeId) : Prop :=
  r.declarationOf? p.node.id = some child ∧ child ∈ r.tables.childrenNamed module name

instance (r : ResolvedCrate) (module : NodeId) (name : String) (p : Path) (child : NodeId) :
    Decidable (r.NamesChild module name p child) :=
  inferInstanceAs (Decidable (_ ∧ _))

namespace Crate

variable {c : Crate} {settings : Settings} {s : Session}

/-- A path that starts from a type is read in an environment while a crate is. What there is to be
resolved in it is among the sites of the crate, in the modules around it. -/
structure ReadsQualified (c : Crate) (settings : Settings) (q : QualifiedPath) (env : Env) :
    Prop where
  findings : (q.read (c.registered settings) env).findings ⊆
    (c.read (c.registered settings)).findings
  sites : ∀ s ∈ q.sites, ∃ x ∈ c.sites, x.modules = env.modules ∧ x.site.id = s.id

/-- The path that an alias stands for is read in the modules around the alias. -/
theorem exists_readsQualified_of_alias (hwf : c.WellFormed) (settings : Settings)
    {modules : List NodeId} {node : Node} {vis : Visibility} {a : AliasDecl} {tnode : Node}
    {q : QualifiedPath} (hplaced : (modules, ⟨node, vis, .typeAlias a⟩) ∈ c.placedItems)
    (hty : a.ty = .qualified tnode q) :
    ∃ env : Env, env.modules = modules ∧ c.ReadsQualified settings q env := by
  let base := c.registered settings
  have hnodup : (siteIds c.sites).Nodup := c.nodup_sites hwf
  have hitem := isPart_itemsPlaced base [c.node.id] c.items hplaced hnodup
  let outside := (Env.inside modules).enter node.id (node.id :: a.nodeIds)
  let env := (a.generics.read base outside).value
  have hmodules : env.modules = modules := congrArg Env.modules (a.generics.outside_read base _)
  have hread : (discard (a.ty.read base env)).IsPart (a.ty.sites.map (.mk modules))
      (Item.read base modules ⟨node, vis, .typeAlias a⟩)
      (Item.sites modules ⟨node, vis, .typeAlias a⟩) :=
    isPart_withGenerics base modules (fun env => discard (a.ty.read base env)) node.id _ a.generics
      (hitem.nodup hnodup)
  have hpart := hread.trans hitem
  rw [hty] at hpart
  refine ⟨env, hmodules, fun f hf => hpart.findings ?_, fun s hs => ?_⟩
  · exact List.mem_append_left _ (List.mem_append_left _ hf)
  · exact ⟨⟨modules, s⟩, hpart.sites.subset (List.mem_map_of_mem hs), hmodules.symm, rfl⟩

namespace SecondPass

variable (hwf : c.WellFormed) (hs : c.SecondPass (c.registered settings) s)

include hwf hs

/-- Whatever has a canonical form is read. -/
theorem exists_readsQualified {use : NodeId} {form : CanonicalPath}
    (hform : s.tables.qualified.get? use = some form) :
    ∃ q env, q.node.id = use ∧ c.ReadsQualified settings q env := by
  have hmem := (hs.qualified_eq_some (c.firstPass hwf settings) hwf).mp hform
  obtain ⟨q, env, huse, -, hfindings, hsites⟩ :=
    (c.visits (c.registered settings)).forms use form hmem
  exact ⟨q, env, huse, hfindings, hsites⟩

/-- What a plain name stands for has the path with which it was accepted. -/
theorem path_of_visit {node snode : Node} {name : String} {generics : Option GenericArgs}
    {prefer : Namespace} {env : Env} {m : Meaning}
    (hvisit : .visit ⟨node, [⟨snode, .ident name, generics⟩]⟩ prefer env (some m) ∈
      (c.read (c.registered settings)).findings)
    {a : Attempt} (ha : a ∈ accepted (c.attempts settings)) (hid : a.id = m.decl) :
    m.path = a.path := by
  have hbase := c.firstPass hwf settings
  obtain ⟨s', hready⟩ := (hs.traced _ _ _ _ hvisit).ready
  obtain ⟨⟨space, m'⟩, hresolve, heq⟩ :=
    Option.map_eq_some_iff.mp (hs.outcome_eq_resolve hvisit).symm
  cases heq
  have hm := (hready.stands.knows_resolve (hbase.settled hwf) hresolve).named
  have hknown := (hready.stands.knows _ (hbase.knows_accepted hwf ha)).named
  rw [hbase.meaning_accepted hwf ha] at hknown
  change s'.tables.paths.get? a.id = some a.path at hknown
  rw [hid, hm] at hknown
  exact Option.some.inj hknown

/-- A plain name that is resolved to a child of a module stands for something with a canonical path
that is the one of the module with the name behind it. -/
theorem exists_meaning_of_child {p : Path} {name : String} (hname : p.IsName name) {env : Env}
    (hread : (p.read (c.registered settings) env .type).findings ⊆
      (c.read (c.registered settings)).findings)
    {module child : NodeId} {path : CanonicalPath}
    (hhosts : Hosts (c.attempts settings) c.node.id (Session.rootPathFor c settings) module path)
    (hresolved : s.tables.resolved? p.node.id = some child)
    (hchild : child ∈ s.tables.childrenNamed module name) :
    ∃ m, (p.read (c.registered settings) env .type).value = some m ∧
      m.path.text = (path ++ .single child name).text := by
  have hbase := c.firstPass hwf settings
  have hnested := c.nested hwf settings
  have hvisit := hread p.visit_mem_read
  rw [hs.resolved?_of_visit hwf hbase hvisit] at hresolved
  obtain ⟨m, hvalue, rfl⟩ := Option.map_eq_some_iff.mp hresolved
  rw [hs.tables.childrenNamed, hbase.mem_childrenNamed] at hchild
  obtain ⟨a, ha, hcontainer, rfl, hid⟩ := hchild
  obtain ⟨node, snode, rfl⟩ := hname
  rw [hvalue] at hvisit
  have hmem := mem_of_mem_accepted ha
  obtain ⟨hmodule, hkey⟩ := hnested.key_of_module hmem hhosts hcontainer
  obtain ⟨path', hhosts', hpath⟩ := c.attempts_located settings a hmem
  rw [hmodule] at hhosts'
  refine ⟨m, hvalue, CanonicalPath.SameText.text_eq ?_⟩
  rw [hs.path_of_visit hwf hvisit ha hid, hpath, hnested.path_of_hosts hhosts' hhosts]
  simp [CanonicalPath.SameText, hkey]

end SecondPass

/-- **An implementation item and a path that projects to it have the same canonical form in the
crate root only.** A well-formed crate is resolved. Every canonical form that is recorded is that of
a path in the crate that starts from a type. Let `impl tr for ty` be accepted in a module with an
item `f`, and let `<ty as tr>::f` be such a path, wherever it is, in which `ty` and `tr` are
resolved to members of the module. The item has the canonical path of the module with `<ty as tr>`
and `f` behind it. The path has a canonical form that begins with a header made of the canonical
paths of the two members. The texts are the same exactly if the module is the crate root and the
name of the crate is not put before canonical paths. -/
theorem projections_agree_iff (hwf : c.WellFormed) (settings : Settings) :
    ∃ r, c.resolve settings = .ok r ∧
      (∀ use form, r.tables.qualified.get? use = some form →
        ∃ q env, q.node.id = use ∧ c.ReadsQualified settings q env) ∧
      ∀ module item i f ty tr, c.HoldsImpl settings module item i f ty tr →
        ∃ path, r.tables.paths.get? module = some path ∧
          r.tables.paths.get? f.node.id = some (path ++
            (.single item.node.id (projected ty tr) ++
              .single f.node.id f.kind.declares.2.name)) ∧
          ∀ q env selfPath traitPath selfTy asTrait, c.ReadsQualified settings q env →
            q.Projects ty tr f.kind.declares.2.name selfPath traitPath →
            r.NamesChild module ty selfPath selfTy → r.NamesChild module tr traitPath asTrait →
            ∃ form, r.tables.qualified.get? q.node.id = some form ∧
              form = .single q.qualifier.node.id (projected (path ++ .single selfTy ty).text
                  (path ++ .single asTrait tr).text) ++
                .single q.associated.node.id f.kind.declares.2.name ∧
              (r.pathText? f.node.id = some form.text ↔
                module = c.node.id ∧ settings.prefixCrateName = false) := by
  obtain ⟨s, r, h⟩ := c.exists_outcome hwf settings
  have hbase := c.firstPass hwf settings
  have hs := h.secondPass
  refine ⟨r, h.resolve, fun use form hform => ?_, fun module item i f ty tr himpl => ?_⟩
  · rw [h.tables] at hform
    exact hs.exists_readsQualified hwf hform
  obtain ⟨path, hhosts, hregistered⟩ := himpl.registered hwf
  have hitem := hs.paths _ _ hregistered
  rw [← h.tables] at hitem
  refine ⟨path, ?_, hitem, fun q env selfPath traitPath selfTy asTrait hq hprojects hself htrait =>
    ?_⟩
  · rw [h.tables]
    exact hs.paths _ _ (hbase.path_of_hosts hwf hhosts)
  unfold ResolvedCrate.NamesChild ResolvedCrate.declarationOf? at hself htrait
  rw [h.tables] at hself htrait
  -- The type stands for something, so the trait is read, and there is a header to be made.
  obtain ⟨m, hm, hmtext⟩ := hs.exists_meaning_of_child hwf hprojects.selfName
    (List.Subset.trans hprojects.selfPath_subset hq.findings) hhosts hself.1 hself.2
  obtain ⟨m', hm', hmtext'⟩ := hs.exists_meaning_of_child hwf hprojects.traitName
    (List.Subset.trans (hprojects.traitPath_subset hm) hq.findings) hhosts htrait.1 htrait.2
  have hvalue := hprojects.value_read hm hm'
  rw [hmtext, hmtext'] at hvalue
  refine ⟨_, ?_, rfl, ?_⟩
  · rw [h.tables, hs.qualified_eq_some hbase hwf]
    refine hq.findings ?_
    rw [q.findings_read, hvalue]
    simp
  · unfold ResolvedCrate.pathText?
    rw [hitem, Option.map_some, Option.some_inj, CanonicalPath.text_eq_text_projected_iff,
      (c.nested hwf settings).texts_eq_nil_iff hhosts, Session.texts_rootPathFor_eq_nil_iff]

/-- A path of one name. Its segment has the node before its own. -/
def plainPath (id offset : Nat) (name : String) : Path :=
  ⟨⟨⟨id + 1⟩, ⟨offset + 2, 1⟩⟩, [⟨⟨⟨id⟩, ⟨offset, 1⟩⟩, .ident name, none⟩]⟩

theorem isName_plainPath (id offset : Nat) (name : String) :
    (plainPath id offset name).IsName name :=
  ⟨_, _, rfl⟩

/-- The function `f` in an implementation. -/
def projectedFunction : ImplItem :=
  ⟨⟨⟨8⟩, ⟨20, 1⟩⟩, .ownModule, .function ⟨⟨"f", ⟨18, 1⟩⟩, .none, none, [], none, none⟩⟩

/-- The implementation `impl Tr for Ty`, which has the function. -/
def projectedImpl : TraitImpl where
  generics := .none
  traitPath := plainPath 3 8 "Tr"
  selfTy := .path ⟨⟨7⟩, ⟨16, 1⟩⟩ (plainPath 5 12 "Ty")
  items := [projectedFunction]

/-- The path `<Ty as Tr>::f`. -/
def projectingPath : QualifiedPath where
  node := ⟨⟨17⟩, ⟨38, 1⟩⟩
  qualifier := ⟨⟨⟨15⟩, ⟨34, 1⟩⟩, .path ⟨⟨12⟩, ⟨28, 1⟩⟩ (plainPath 10 24 "Ty"),
    some (plainPath 13 30 "Tr")⟩
  associated := ⟨⟨⟨16⟩, ⟨36, 1⟩⟩, .ident "f", none⟩
  rest := []

/-- The alias `A` of the path. -/
def projectingAlias : AliasDecl where
  name := ⟨"A", ⟨42, 1⟩⟩
  generics := .none
  ty := .qualified ⟨⟨18⟩, ⟨40, 1⟩⟩ projectingPath

/-- The implementation and the alias, behind the struct `Ty` and the trait `Tr`. -/
def projectionItems : List Item :=
  [⟨⟨⟨1⟩, ⟨2, 1⟩⟩, .ownModule, .struct ⟨⟨"Ty", ⟨0, 1⟩⟩, .none, []⟩⟩,
    ⟨⟨⟨2⟩, ⟨6, 1⟩⟩, .ownModule, .trait ⟨⟨"Tr", ⟨4, 1⟩⟩, .none, [], []⟩⟩,
    ⟨⟨⟨9⟩, ⟨22, 1⟩⟩, .ownModule, .traitImpl projectedImpl⟩,
    ⟨⟨⟨19⟩, ⟨44, 1⟩⟩, .ownModule, .typeAlias projectingAlias⟩]

/-- The items in the crate root. -/
def withProjection : Crate := ⟨⟨⟨0⟩, ⟨46, 1⟩⟩, projectionItems, ⟨20⟩⟩

/-- The items in a module `m`. -/
def withInnerProjection : Crate where
  node := ⟨⟨0⟩, ⟨50, 1⟩⟩
  items := [⟨⟨⟨20⟩, ⟨48, 1⟩⟩, .ownModule, .module ⟨"m", ⟨46, 1⟩⟩ projectionItems⟩]
  idBound := ⟨21⟩

theorem holdsImpl_projectedImpl {c : Crate} {module : NodeId} {outer : List NodeId}
    (hplaced : (module :: outer, ⟨⟨⟨9⟩, ⟨22, 1⟩⟩, .ownModule, .traitImpl projectedImpl⟩) ∈
      c.placedItems)
    (haccepted : ∃ a ∈ accepted (c.attempts {}), a.id = ⟨9⟩) :
    c.HoldsImpl {} module ⟨⟨⟨9⟩, ⟨22, 1⟩⟩, .ownModule, .traitImpl projectedImpl⟩ projectedImpl
      projectedFunction "Ty" "Tr" where
  placed := ⟨outer, hplaced⟩
  kind := rfl
  selfTy := ⟨_, _, rfl, isName_plainPath 5 12 "Ty"⟩
  traitPath := isName_plainPath 3 8 "Tr"
  accepted := haccepted
  mem := List.mem_singleton_self _

theorem projects_projectingPath :
    projectingPath.Projects "Ty" "Tr" "f" (plainPath 10 24 "Ty") (plainPath 13 30 "Tr") where
  selfTy := ⟨_, rfl⟩
  asTrait := rfl
  selfName := isName_plainPath 10 24 "Ty"
  traitName := isName_plainPath 13 30 "Tr"
  associated := ⟨rfl, rfl⟩
  rest := rfl

/-- In the crate root the path gets the canonical path of the function. -/
theorem projections_agree_withProjection :
    withProjection.WellFormed ∧ ∃ r, withProjection.resolve {} = .ok r ∧
      ∃ form, r.tables.qualified.get? projectingPath.node.id = some form ∧
        r.pathText? projectedFunction.node.id = some form.text := by
  have hwf : withProjection.WellFormed := by decide
  obtain ⟨r, hr, -, hitems⟩ := projections_agree_iff hwf {}
  obtain ⟨hself, htrait⟩ : r.NamesChild ⟨0⟩ "Ty" (plainPath 10 24 "Ty") ⟨1⟩ ∧
      r.NamesChild ⟨0⟩ "Tr" (plainPath 13 30 "Tr") ⟨2⟩ := of_resolve hr (by decide +kernel)
  have himpl : withProjection.HoldsImpl {} ⟨0⟩ _ _ _ "Ty" "Tr" :=
    holdsImpl_projectedImpl (List.mem_of_getElem? (i := 2) rfl) (by decide +kernel)
  have halias : ([⟨0⟩], ⟨⟨⟨19⟩, ⟨44, 1⟩⟩, .ownModule, .typeAlias projectingAlias⟩) ∈
      withProjection.placedItems := List.mem_of_getElem? (i := 3) rfl
  obtain ⟨env, -, hread⟩ := exists_readsQualified_of_alias hwf {} halias rfl
  obtain ⟨path, -, -, hforms⟩ := hitems _ _ _ _ _ _ himpl
  obtain ⟨form, hform, -, hagree⟩ :=
    hforms _ _ _ _ _ _ hread projects_projectingPath hself htrait
  exact ⟨hwf, r, hr, form, hform, hagree.mpr ⟨rfl, rfl⟩⟩

/-- In a module it does not, although all of the names stand for what is in the module. -/
theorem projections_differ_in_module :
    withInnerProjection.WellFormed ∧
      withInnerProjection.HoldsImpl {} ⟨20⟩
        ⟨⟨⟨9⟩, ⟨22, 1⟩⟩, .ownModule, .traitImpl projectedImpl⟩ projectedImpl projectedFunction
        "Ty" "Tr" ∧
      projectingPath.Projects "Ty" "Tr" "f" (plainPath 10 24 "Ty") (plainPath 13 30 "Tr") ∧
      (∃ env : Env, env.modules = [⟨20⟩, ⟨0⟩] ∧
        withInnerProjection.ReadsQualified {} projectingPath env) ∧
      ∃ r, withInnerProjection.resolve {} = .ok r ∧
        r.NamesChild ⟨20⟩ "Ty" (plainPath 10 24 "Ty") ⟨1⟩ ∧
        r.NamesChild ⟨20⟩ "Tr" (plainPath 13 30 "Tr") ⟨2⟩ ∧
        (r.tables.qualified.get? projectingPath.node.id).map CanonicalPath.text =
          some "<m::Ty as m::Tr>::f" ∧
        r.pathText? projectedFunction.node.id = some "m::<Ty as Tr>::f" := by
  have hwf : withInnerProjection.WellFormed := by decide
  obtain ⟨_, r, h⟩ := exists_outcome hwf {}
  have halias : ([⟨20⟩, ⟨0⟩], ⟨⟨⟨19⟩, ⟨44, 1⟩⟩, .ownModule, .typeAlias projectingAlias⟩) ∈
      withInnerProjection.placedItems := List.mem_of_getElem? (i := 4) rfl
  exact ⟨hwf, holdsImpl_projectedImpl (List.mem_of_getElem? (i := 3) rfl) (by decide +kernel),
    projects_projectingPath, exists_readsQualified_of_alias hwf {} halias rfl, r, h.resolve,
    of_resolve h.resolve (by decide +kernel)⟩

end Crate

end NameResolution
