import NameResolution.Proofs.Completion
import NameResolution.Proofs.ItemOrder
import NameResolution.Proofs.Lexical.Likeness

/-!
# NameResolution.Proofs.DeclarationOrder

**When the order of declaration does not matter** (`Crate.order_irrelevant`). If nothing is
reported, the items of a module can be put in another order without any path, segment or
type being resolved to something else, provided that the names before the last segments of
paths are clear where they are looked up: of two items of such a name in the module, one is
a container and the other is not (`Crate.ClearIn`). If both are, or neither is, a path goes
on from the one that comes first (`Crate.order_matters`).

The first pass leaves behind sessions that are `Alike`. So the items read the same, and the
second pass finds out the same in another order.
-/

namespace NameResolution

/-- Whether something is directly inside a module, as an item or in an extern block. -/
def Attempt.IsItemOf (a : Attempt) (module : NodeId) : Prop :=
  a.module = module ∧ a.container = some module

instance (a : Attempt) (module : NodeId) : Decidable (a.IsItemOf module) :=
  inferInstanceAs (Decidable (_ ∧ _))

/-- Two items of a name in a module differ in whether they are containers themselves. What is no
module has no items. -/
def Crate.ClearIn (c : Crate) (settings : Settings) (module : NodeId) (name : String) : Prop :=
  ∀ a ∈ c.attempts settings, ∀ b ∈ c.attempts settings, a.IsItemOf module → b.IsItemOf module →
    a.name = name → b.name = name → a.kind.isSome = b.kind.isSome → a.id = b.id

instance (c : Crate) (settings : Settings) (module : NodeId) (name : String) :
    Decidable (c.ClearIn settings module name) :=
  inferInstanceAs (Decidable (∀ a ∈ c.attempts settings, ∀ b ∈ c.attempts settings,
    a.IsItemOf module → b.IsItemOf module → a.name = name → b.name = name →
    a.kind.isSome = b.kind.isSome → a.id = b.id))

/-! ### Picking a child -/

/-- If wanted or not decides between the elements, then so it does what is found first. -/
theorem find?_or_head?_eq_some {α : Type} {wanted : α → Bool} {l : List α} {x : α}
    (hdecides : ∀ a ∈ l, ∀ b ∈ l, wanted a = wanted b → a = b) :
    (l.find? wanted).or l.head? = some x ↔
      x ∈ l ∧ (wanted x = true ∨ ∀ y ∈ l, wanted y = false) := by
  constructor
  · intro h
    rcases Option.or_eq_some_iff.mp h with h | ⟨hnone, h⟩
    · exact ⟨List.mem_of_find?_eq_some h, Or.inl (List.find?_some h)⟩
    · exact ⟨List.mem_of_head? h,
        Or.inr fun y hy => by simpa using List.find?_eq_none.mp hnone y hy⟩
  · rintro ⟨hx, hwanted⟩
    cases hfind : l.find? wanted with
    | some y =>
        have hy := List.mem_of_find?_eq_some hfind
        have hfound := List.find?_some hfind
        have hsame : wanted y = wanted x := by
          rcases hwanted with hwanted | hnone
          · rw [hfound, hwanted]
          · rw [hnone y hy, hnone x hx]
        rw [hdecides y hy x hx hsame]
        rfl
    | none =>
        have hnone : ∀ y ∈ l, wanted y = false := fun y hy => by
          simpa using List.find?_eq_none.mp hfind y hy
        obtain ⟨y, rest, rfl⟩ := List.exists_cons_of_ne_nil (List.ne_nil_of_mem hx)
        have hy : y ∈ y :: rest := List.mem_cons_self
        rw [hdecides x hx y hy ((hnone x hx).trans (hnone y hy).symm)]
        rfl

/-! ### What the first pass leaves behind -/

namespace Crate.FirstPass

variable {c : Crate} {settings : Settings} {base : Session} (h : c.FirstPass settings base)

include h

/-- What is known as a container. -/
theorem containers_iff {id : NodeId} {kind : ContainerKind} :
    base.tables.containers.get? id = some kind ↔
      id = c.node.id ∧ kind = .module ∨
        ∃ a ∈ c.attempts settings, a.id = id ∧ a.kind = some kind := by
  constructor
  · intro hget
    exact (h.contained id kind hget).imp_left fun ⟨hid, hkind⟩ => ⟨hid.trans h.root, hkind⟩
  · rintro (⟨rfl, rfl⟩ | ⟨a, ha, rfl, hkind⟩)
    · have hroot := h.rootModule
      rw [h.root] at hroot
      simpa [Tables.isModule] using hroot
    · exact h.containers a ha kind hkind

/-- An attempted declaration is a container if it was attempted as one. -/
theorem isContainer_attempt (hwf : c.WellFormed) {a : Attempt} (ha : a ∈ c.attempts settings) :
    base.tables.isContainer a.id = a.kind.isSome := by
  unfold Tables.isContainer
  cases hkind : a.kind with
  | some kind => rw [h.containers a ha kind hkind]
  | none =>
      refine Option.isSome_eq_false_iff.mpr (Option.isNone_iff_eq_none.mpr ?_)
      refine Option.eq_none_iff_forall_ne_some.mpr fun kind hget => ?_
      rcases h.containers_iff.mp hget with ⟨hroot, -⟩ | ⟨b, hb, hid, hsome⟩
      · exact (c.nested hwf settings).id_ne_root ha hroot
      · rw [(c.nested hwf settings).eq_of_id hb ha hid, hkind] at hsome
        cases hsome

end Crate.FirstPass

/-! ### Crates that declare the same -/

/-- Two crates that declare the same in another order, and what the first pass leaves behind. -/
structure Crate.Reordered (c c' : Crate) (settings : Settings) (base base' : Session) : Prop where
  wellFormed : c.WellFormed
  wellFormed' : c'.WellFormed
  pass : c.FirstPass settings base
  pass' : c'.FirstPass settings base'
  start : Session.start c' settings = Session.start c settings
  parents : ∀ m, base.tables.isModule m = true →
    base'.tables.parents.get? m = base.tables.parents.get? m
  attempts : (c.attempts settings).Perm (c'.attempts settings)
  members : ∀ owner, (c'.attempts settings).filter (·.IsMemberOf owner) =
    (c.attempts settings).filter (·.IsMemberOf owner)
  unrepeated : Unrepeated (c.attempts settings)

namespace Crate.Reordered

variable {c c' : Crate} {settings : Settings} {base base' : Session}
  (h : c.Reordered c' settings base base')

include h

theorem accepted : NameResolution.accepted (c.attempts settings) = c.attempts settings :=
  accepted_eq_self h.unrepeated.duplicateReports

theorem accepted' : NameResolution.accepted (c'.attempts settings) = c'.attempts settings :=
  accepted_eq_self (h.unrepeated.perm h.attempts).duplicateReports

theorem node : c'.node.id = c.node.id := congrArg Session.root h.start

theorem root : base'.root = base.root := h.pass'.root.trans (h.node.trans h.pass.root.symm)

theorem builtins : base'.builtins = base.builtins :=
  h.pass'.builtins.trans ((congrArg Session.builtins h.start).trans h.pass.builtins.symm)

theorem containers (id : NodeId) :
    base'.tables.containers.get? id = base.tables.containers.get? id := by
  refine Option.ext fun kind => ?_
  rw [h.pass'.containers_iff, h.pass.containers_iff, h.node]
  simp only [h.attempts.mem_iff]

theorem isContainer (id : NodeId) : base'.tables.isContainer id = base.tables.isContainer id := by
  unfold Tables.isContainer
  rw [h.containers]

theorem isModule (id : NodeId) : base'.tables.isModule id = base.tables.isModule id := by
  unfold Tables.isModule
  rw [h.containers]

theorem classify (id : NodeId) : base'.classify id = base.classify id := by
  have hdeclared : ∀ space,
      (base'.scope space).wasDeclared id = (base.scope space).wasDeclared id := fun space => by
    refine decide_eq_decide.mpr ?_
    rw [h.pass'.declared, h.pass.declared, h.accepted, h.accepted', h.builtins]
    simp only [h.attempts.mem_iff]
  have hnames : base'.names.wasDeclared id = base.names.wasDeclared id := hdeclared .name
  have htypes : base'.types.wasDeclared id = base.types.wasDeclared id := hdeclared .type
  unfold Session.classify
  rw [hnames, htypes, h.isModule]

theorem mem_childrenNamed {child scope : NodeId} {name : String} :
    child ∈ base'.tables.childrenNamed scope name ↔
      child ∈ base.tables.childrenNamed scope name := by
  rw [h.pass'.mem_childrenNamed, h.pass.mem_childrenNamed, h.accepted, h.accepted']
  simp only [h.attempts.mem_iff]

/-! #### Meanings -/

theorem meaning_attempt {a : Attempt} (ha : a ∈ c.attempts settings) :
    base'.meaning a.id = base.meaning a.id := by
  have ha' := h.attempts.mem_iff.mp ha
  rw [h.pass'.meaning_accepted h.wellFormed' (h.accepted'.symm ▸ ha'),
    h.pass.meaning_accepted h.wellFormed (h.accepted.symm ▸ ha)]

theorem meaning_builtin {id : NodeId} (hid : id ∈ base.builtins.types) :
    base'.meaning id = base.meaning id := by
  obtain ⟨path, hseed, hpath⟩ := h.pass.builtinPaths id hid
  obtain ⟨path', hseed', hpath'⟩ := h.pass'.builtinPaths id (h.builtins.symm ▸ hid)
  rw [h.start, hseed] at hseed'
  cases hseed'
  unfold Session.meaning
  rw [h.classify, hpath, hpath']

theorem meaning_module {m : NodeId} (hm : base.tables.isModule m = true) :
    base'.meaning m = base.meaning m := by
  have hget : base.tables.containers.get? m = some .module := by simpa [Tables.isModule] using hm
  rcases h.pass.contained m .module hget with ⟨rfl, -⟩ | ⟨a, ha, rfl, -⟩
  · have hrootPath : base'.rootPath = base.rootPath :=
      h.pass'.rootPath.trans ((congrArg Session.rootPath h.start).trans h.pass.rootPath.symm)
    have hnamed := h.pass'.rootNamed
    rw [h.root, hrootPath] at hnamed
    unfold Session.meaning
    rw [h.classify, h.pass.rootNamed, hnamed]
  · exact h.meaning_attempt ha

/-! #### Look-ups -/

theorem findMember? (space : Namespace) (owner : NodeId) (name : String) :
    Env.findMember? base' space owner name = Env.findMember? base space owner name := by
  have hprelude : base'.builtins.prelude = base.builtins.prelude :=
    congrArg Builtins.prelude h.builtins
  have hbinding : (base'.scope space).bindingIn? owner (.single owner name) =
      (base.scope space).bindingIn? owner (.single owner name) := by
    by_cases howner : owner = base.builtins.prelude
    · have h' := h.pass'.prelude space (.single owner name)
      rw [hprelude, h.builtins] at h'
      rw [howner] at h' ⊢
      exact h'.trans (h.pass.prelude space _).symm
    · rw [h.pass'.ribs space owner _ (hprelude.symm ▸ howner), h.pass.ribs space owner _ howner,
        h.unrepeated.firstFor_perm h.attempts]
  unfold Env.findMember?
  rw [hbinding]
  refine Option.map_congr fun b hb => ?_
  by_cases howner : owner = base.builtins.prelude
  · rw [howner, h.pass.prelude] at hb
    cases space with
    | name => cases hb
    | type =>
        obtain ⟨p, hp, rfl⟩ := Option.map_eq_some_iff.mp hb
        have hmem : p ∈ base.builtins.primitives := List.mem_of_find?_eq_some hp
        exact h.meaning_builtin (List.mem_append_left _ (List.mem_map_of_mem hmem))
  · rw [h.pass.ribs space owner _ howner] at hb
    obtain ⟨a, ha, rfl⟩ := Option.map_eq_some_iff.mp hb
    exact h.meaning_attempt (mem_of_firstFor ha)

/-- The children of a name are in the same order if none of them is an item of a module. -/
theorem childrenNamed_members {scope : NodeId} {name : String}
    (hmembers : ∀ a ∈ c.attempts settings, a.name = name → ¬ a.IsItemOf scope) :
    base'.tables.childrenNamed scope name = base.tables.childrenNamed scope name := by
  let child? (a : Attempt) : Option NodeId :=
    if a.container = some scope ∧ a.name = name then some a.id else none
  have honly : ∀ l : List Attempt, (∀ a ∈ l, a.name = name → ¬ a.IsItemOf scope) →
      l.filterMap child? = (l.filter (·.IsMemberOf scope)).filterMap child? := by
    intro l hl
    rw [List.filterMap_filter]
    refine List.filterMap_congr fun a ha => ?_
    by_cases hmember : a.IsMemberOf scope
    · rw [if_pos (decide_eq_true hmember)]
    · have hother : ¬ (a.container = some scope ∧ a.name = name) := fun ⟨hcontainer, hname⟩ =>
        hmember ⟨hcontainer, fun hmodule => hl a ha hname ⟨hmodule, hcontainer⟩⟩
      rw [if_neg (by simpa using hmember)]
      exact if_neg hother
  rw [h.pass'.childrenNamed_eq, h.pass.childrenNamed_eq, h.accepted, h.accepted']
  change (c'.attempts settings).filterMap child? = (c.attempts settings).filterMap child?
  rw [honly _ hmembers, honly _ fun a ha => hmembers a (h.attempts.mem_iff.mpr ha), h.members]

/-- What a segment wants tells the declarations of its name apart. -/
theorem wanted_decides (prefer : Namespace) {isLast : Bool} {scope : NodeId} {name : String}
    (hclear : isLast = true ∨ c.ClearIn settings scope name ∧
      ∃ a ∈ c.attempts settings, a.name = name ∧ a.IsItemOf scope) :
    ∀ x ∈ base.tables.childrenNamed scope name, ∀ y ∈ base.tables.childrenNamed scope name,
      (if isLast then base.classify x == some prefer else base.tables.isContainer x) =
        (if isLast then base.classify y == some prefer else base.tables.isContainer y) →
      x = y := by
  intro x hx y hy hsame
  obtain ⟨a, ha, hac, rfl, rfl⟩ := h.pass.mem_childrenNamed.mp hx
  obtain ⟨b, hb, hbc, hname, rfl⟩ := h.pass.mem_childrenNamed.mp hy
  have hmema := mem_of_mem_accepted ha
  have hmemb := mem_of_mem_accepted hb
  cases isLast with
  | true =>
      -- There is one declaration of the name in each namespace, and there are two namespaces.
      rw [if_pos rfl, if_pos rfl, h.pass.classify_accepted h.wellFormed ha,
        h.pass.classify_accepted h.wellFormed hb] at hsame
      have hspace : a.space = b.space := by
        revert hsame
        cases a.space <;> cases b.space <;> cases prefer <;> decide
      obtain ⟨hmodule, hkey⟩ :=
        (c.nested h.wellFormed settings).sameKey hmema hmemb hac hbc hname.symm
      exact congrArg Attempt.id (h.unrepeated.eq_of_clashes hmema hmemb ⟨hmodule, hspace, hkey⟩)
  | false =>
      have hkinds : a.kind.isSome = b.kind.isSome := by
        simpa [h.pass.isContainer_attempt h.wellFormed hmema,
          h.pass.isContainer_attempt h.wellFormed hmemb] using hsame
      obtain ⟨hclear, d, hd, hdname, hdmodule, hdc⟩ := hclear.resolve_left (by decide)
      -- If one of that name is an item of a module, then so are all.
      have hnested := c.nested h.wellFormed settings
      have hmodule := (hnested.sameKey hmema hd hac hdc hdname.symm).1.trans hdmodule
      have hmodule' := (hnested.sameKey hmemb hd hbc hdc (hname.trans hdname.symm)).1.trans hdmodule
      exact hclear a hmema b hmemb ⟨hmodule, hac⟩ ⟨hmodule', hbc⟩ rfl hname hkinds

theorem pickChild? {prefer : Namespace} {isLast : Bool} {scope : NodeId} {name : String}
    (hclear : isLast = true ∨ c.ClearIn settings scope name) :
    base'.pickChild? prefer isLast (base'.tables.childrenNamed scope name) =
      base.pickChild? prefer isLast (base.tables.childrenNamed scope name) := by
  unfold Session.pickChild?
  simp only [h.classify, h.isContainer]
  by_cases hitem : ∃ a ∈ c.attempts settings, a.name = name ∧ a.IsItemOf scope
  · have hdecides : ∀ x ∈ base.tables.childrenNamed scope name, _ :=
      h.wanted_decides prefer (hclear.imp_right fun hclear => ⟨hclear, hitem⟩)
    refine Option.ext fun x => ?_
    rw [find?_or_head?_eq_some hdecides, find?_or_head?_eq_some fun a ha b hb =>
      hdecides a (h.mem_childrenNamed.mp ha) b (h.mem_childrenNamed.mp hb)]
    simp only [h.mem_childrenNamed]
  · rw [h.childrenNamed_members fun a ha hname hof => hitem ⟨a, ha, hname, hof⟩]

/-- A crate reads the same in both sessions. -/
theorem alike : Alike base base' (c.ClearIn settings) where
  root := h.root
  builtins := h.builtins
  builtinMeanings _ hid := h.meaning_builtin hid
  containers := h.containers
  modules _ hm := h.meaning_module hm
  parents := h.parents
  members := h.findMember?
  children scope name child hchild := by
    obtain ⟨a, ha, -, -, rfl⟩ := h.pass.mem_childrenNamed.mp hchild
    exact h.meaning_attempt (mem_of_mem_accepted ha)
  picks _ _ _ _ hclear := h.pickChild? hclear

end Crate.Reordered

/-! ### Whole crates -/

/-- In the paths of a crate, the names before the last segments are clear where they are looked up:
at first in the module around the path, and then in what the segment before was resolved to. -/
def Crate.PathsClear (c : Crate) (settings : Settings) (r : ResolvedCrate) : Prop :=
  ∀ x ∈ c.sites, ∀ p gates, x.site = .path p gates →
    SegmentsClear r.declarationOf? (c.ClearIn settings) (some (x.modules.headD c.node.id))
      p.segments

section WithItems

variable {c : Crate} {items : List Item} (hitems : ItemsPermuted c.items items)
  (hwf : c.WellFormed) {settings : Settings}

include hitems hwf

theorem Crate.reordered_withItems (hunrepeated : Unrepeated (c.attempts settings)) :
    c.Reordered (c.withItems items) settings (c.registered settings)
      ((c.withItems items).registered settings) := by
  have hwf' := hwf.withItems hitems
  have hmodules : (itemsModuleIds c.items).Perm (itemsModuleIds items) :=
    ((itemsNesting_keys c.node.id c.items).symm.trans
      ((collects_nesting.perm hitems c.node.id).map Prod.fst)).trans
        (itemsNesting_keys c.node.id items)
  refine
    { wellFormed := hwf
      wellFormed' := hwf'
      pass := c.firstPass hwf settings
      pass' := (c.withItems items).firstPass hwf' settings
      start := rfl
      parents := fun m hm => ?_
      attempts := Crate.attempts_withItems hitems hunrepeated
      members := Crate.members_withItems hitems hunrepeated hwf
      unrepeated := hunrepeated }
  have hmodule := (c.firstPass hwf settings).isModule_iff.mp hm
  rw [c.parents_registered hwf settings hmodule,
    (c.withItems items).parents_registered hwf' settings
      ((hmodules.cons c.node.id).subset hmodule), Crate.parent?_withItems hitems hwf]

/-- The second pass finds out the same in another order. -/
theorem Crate.findings_withItems (hunrepeated : Unrepeated (c.attempts settings))
    {r : ResolvedCrate} (hclear : c.PathsClear settings r)
    (hentered : Entered (c.registered settings) r.tables
      (c.read (c.registered settings)).findings) :
    (c.read (c.registered settings)).findings.Perm
      ((c.withItems items).read ((c.withItems items).registered settings)).findings := by
  have h := Crate.reordered_withItems hitems hwf hunrepeated
  have hmodules : ∀ x ∈ c.sites, ∀ m ∈ x.modules,
      (c.registered settings).tables.isModule m = true := by
    refine itemsSites_modules (fun l => ∀ m ∈ l, (c.registered settings).tables.isModule m = true)
      c.items (fun m hm => ?_) fun p hp outer houter => ?_
    · rw [List.mem_singleton.mp hm]
      exact h.pass.isModule_iff.mpr List.mem_cons_self
    · have hkey : p.1 ∈ itemsModuleIds c.items :=
        (itemsNesting_keys _ _).subset (List.mem_map_of_mem hp)
      exact List.forall_mem_cons.mpr
        ⟨h.pass.isModule_iff.mpr (List.mem_cons_of_mem _ hkey), houter⟩
  have hread : c.read (c.registered settings) =
      readItems ((c.withItems items).registered settings) [c.node.id] c.items := by
    refine (h.alike.traversal (h.pass.settled hwf)).items [c.node.id] c.items (fun id hid => ?_)
      hentered fun x hx => ⟨hmodules x hx, h.pass.root ▸ hclear x hx⟩
    obtain ⟨a, ha, rfl, -⟩ : ∃ a ∈ c.attempts settings, a.id = id ∧ a.kind = some .trait :=
      exists_attempt_of_mem_itemsContainers c.items (id, .trait) hid
    exact (h.meaning_attempt ha).symm
  rw [hread]
  exact (collects_findings _).perm hitems [c.node.id]

end WithItems

/-- **When the order of declaration does not matter.** If resolving a well-formed crate reports
nothing, and the names before the last segments of its paths are clear where they are looked up,
then every path, segment and type is resolved to the same declaration whatever the order of the
items of a module. -/
theorem Crate.order_irrelevant {c : Crate} (hwf : c.WellFormed) {settings : Settings}
    {items : List Item} (hitems : ItemsPermuted c.items items) :
    ∃ r r', c.resolve settings = .ok r ∧ (c.withItems items).resolve settings = .ok r' ∧
      (r.hasErrors = false → c.PathsClear settings r →
        ∀ use, r'.declarationOf? use = r.declarationOf? use) := by
  have hwf' := hwf.withItems hitems
  obtain ⟨s, r, h⟩ := c.exists_outcome hwf settings
  obtain ⟨s', r', h'⟩ := (c.withItems items).exists_outcome hwf' settings
  refine ⟨r, r', h.resolve, h'.resolve, fun hclean hclear use => Option.ext fun decl => ?_⟩
  have hbase := c.firstPass hwf settings
  have hnodup : (c.attempts settings).Nodup :=
    (List.nodup_cons.mp (c.nested hwf settings).nodup).2.of_map
  have hunrepeated := Unrepeated.of_accepted hnodup (hbase.accepted_eq (h.clean hclean).1)
  have hfindings := Crate.findings_withItems hitems hwf hunrepeated hclear
    (h.tables ▸ h.secondPass.entered hwf hbase (h.clean hclean).2)
  unfold ResolvedCrate.declarationOf?
  rw [h.tables, h'.tables, h.secondPass.resolved?_eq_some hwf hbase,
    h'.secondPass.resolved?_eq_some hwf' ((c.withItems items).firstPass hwf' settings)]
  simp only [hfindings.mem_iff]

/-- An alias for `m::S`, and both a module and a struct called `m`. In a module `n`, both a struct
and a function are called `m`. -/
def Crate.withMixedNames : Crate where
  node := ⟨⟨0⟩, ⟨0, 40⟩⟩
  items :=
    let node (id offset : Nat) : Node := ⟨⟨id⟩, ⟨offset, 1⟩⟩
    let name (text : String) (offset : Nat) : Ident := ⟨text, ⟨offset, 1⟩⟩
    [⟨node 1 0, .ownModule, .typeAlias ⟨name "T" 2, .none,
        .path (node 2 4) ⟨node 3 4, [⟨node 4 4, .ident "m", none⟩, ⟨node 5 6, .ident "S", none⟩]⟩⟩⟩,
      ⟨node 6 8, .ownModule, .module (name "m" 10)
        [⟨node 7 12, .everywhere, .struct ⟨name "S" 14, .none, []⟩⟩]⟩,
      ⟨node 8 16, .ownModule, .struct ⟨name "m" 18, .none, []⟩⟩,
      ⟨node 9 20, .ownModule, .module (name "n" 22)
        [⟨node 10 24, .ownModule, .struct ⟨name "m" 26, .none, []⟩⟩,
          ⟨node 11 28, .ownModule, .function ⟨name "m" 30, .none, none, [], none, none⟩⟩]⟩]
  idBound := ⟨12⟩

/-- The alias stands for the struct in the module in whatever order the items come. That the name is
not clear in the other module has nothing to do with it. -/
theorem Crate.order_withMixedNames :
    withMixedNames.WellFormed ∧ ItemsPermuted withMixedNames.items withMixedNames.items.reverse ∧
      ¬ withMixedNames.ClearIn {} ⟨9⟩ "m" ∧ ∃ r r', withMixedNames.resolve {} = .ok r ∧
        (withMixedNames.withItems withMixedNames.items.reverse).resolve {} = .ok r' ∧
        r.hasErrors = false ∧ withMixedNames.PathsClear {} r ∧
        r'.declarationOf? ⟨3⟩ = some ⟨7⟩ := by
  have hwf : withMixedNames.WellFormed := by decide
  have hitems : ItemsPermuted withMixedNames.items withMixedNames.items.reverse :=
    .here (List.reverse_perm _).symm
  obtain ⟨r, r', hr, hr', hsame⟩ := @order_irrelevant withMixedNames hwf {} _ hitems
  have hclear : withMixedNames.PathsClear {} r := by
    -- The only name before the last segment of a path is that of the module and the struct.
    intro x hx p gates hsite
    change x ∈ [_, _, _] at hx
    simp only [List.mem_cons, List.not_mem_nil, or_false] at hx
    rcases hx with rfl | rfl | rfl <;> cases hsite
    refine ⟨fun name hident container hcontainer => ?_, trivial⟩
    cases hident
    cases hcontainer
    decide
  have hrun : (withMixedNames.resolve {}).toOption.map (fun r =>
      (r.hasErrors, r.declarationOf? ⟨3⟩)) = some (false, some ⟨7⟩) := by
    decide +kernel
  rw [hr] at hrun
  obtain ⟨hclean, hpath⟩ := Prod.ext_iff.mp (Option.some.inj hrun)
  exact ⟨hwf, hitems, by decide, r, r', hr, hr', hclean, hclear,
    (hsame hclean hclear ⟨3⟩).trans hpath⟩

/-- A module and an enum, both called `A` and both with something called `X` inside, and an alias
for `A::X`. -/
def Crate.withNamesakePath : Crate where
  node := ⟨⟨0⟩, ⟨0, 30⟩⟩
  items :=
    let node (id offset : Nat) : Node := ⟨⟨id⟩, ⟨offset, 1⟩⟩
    let name (text : String) (offset : Nat) : Ident := ⟨text, ⟨offset, 1⟩⟩
    [⟨node 2 0, .ownModule, .module (name "A" 2)
        [⟨node 1 4, .everywhere, .struct ⟨name "X" 6, .none, []⟩⟩]⟩,
      ⟨node 4 8, .ownModule, .enum ⟨name "A" 10, .none, [⟨node 3 12, name "X" 12, .unit⟩]⟩⟩,
      ⟨node 9 14, .ownModule, .typeAlias ⟨name "T" 16, .none,
        .path (node 8 18) ⟨node 7 18, [⟨node 5 18, .ident "A", none⟩,
          ⟨node 6 20, .ident "X", none⟩]⟩⟩⟩]
  idBound := ⟨10⟩

/-- The alias stands for the struct or for the variant, depending on which of the two items called
`A` comes first. -/
theorem Crate.order_matters :
    withNamesakePath.WellFormed ∧ ∃ items, ItemsPermuted withNamesakePath.items items ∧
      ∃ r r', withNamesakePath.resolve {} = .ok r ∧ r.hasErrors = false ∧
        (withNamesakePath.withItems items).resolve {} = .ok r' ∧
        r.declarationOf? ⟨7⟩ ≠ r'.declarationOf? ⟨7⟩ := by
  have hwf : withNamesakePath.WellFormed := by decide
  have hitems : ItemsPermuted withNamesakePath.items withNamesakePath.items.reverse :=
    .here (List.reverse_perm _).symm
  obtain ⟨_, r, h⟩ := exists_outcome hwf {}
  obtain ⟨_, r', h'⟩ := exists_outcome (hwf.withItems hitems) {}
  have hrun : (withNamesakePath.resolve {}).toOption.map (fun r =>
      (r.hasErrors, r.declarationOf? ⟨7⟩)) = some (false, some ⟨1⟩) := by
    decide +kernel
  have hrun' : ((withNamesakePath.withItems withNamesakePath.items.reverse).resolve {}).toOption.map
      (fun r => r.declarationOf? ⟨7⟩) = some (some ⟨3⟩) := by
    decide +kernel
  rw [h.resolve] at hrun
  rw [h'.resolve] at hrun'
  obtain ⟨hclean, hstruct⟩ := Prod.ext_iff.mp (Option.some.inj hrun)
  refine ⟨hwf, _, hitems, r, r', h.resolve, hclean, h'.resolve, fun hsame => ?_⟩
  have hvariant : r'.declarationOf? ⟨7⟩ = some ⟨3⟩ := Option.some.inj hrun'
  have hboth : (some ⟨1⟩ : Option NodeId) = some ⟨3⟩ := hstruct.symm.trans (hsame.trans hvariant)
  exact absurd hboth (by decide)

end NameResolution
