import Mathlib
import NameResolution.Proofs.ChildTables
import NameResolution.Proofs.ParentPaths
import NameResolution.Proofs.Scoping

/-!
# NameResolution.Proofs.MemberPaths

**A member of a module is the same by whatever way it is named**
(`Crate.members_agree`). A name that stands alone is looked up in the ribs around it, while
`self::X`, `super::X` and `crate::X` go through the table of children of a module. The
ribs have the one attempt for a name that was accepted (`Env.find?_of_here`), and it is the only
child of that name in its namespace (`Crate.FirstPass.follow?_of_accepted`).
-/

namespace NameResolution

/-- How a member of a module can be named from inside an environment, by the name alone or by a
keyword and the name. -/
inductive Env.Spells (env : Env) (root : NodeId) (space : Namespace) (module : NodeId)
    (name : String) : List PathIdent → Prop
  /-- Directly inside the module, unless a construct around has a name of its own. -/
  | bare (hhere : env.modules.head? = some module)
      (hfree : env.frames.findSome? (·.find? space name) = none) :
      Spells env root space module name [.ident name]
  | fromSelf (hhere : env.modules.head? = some module) :
      Spells env root space module name [.selfModule, .ident name]
  /-- In a module that is directly inside the module. -/
  | fromSuper (houter : env.modules[1]? = some module) :
      Spells env root space module name [.super, .ident name]
  | fromCrate (hroot : module = root) : Spells env root space module name [.crate, .ident name]

section Spelled

variable {c : Crate} {settings : Settings} {base s : Session} {env : Env} {a : Attempt} {p : Path}
  {prefer : Namespace}

/-- Where no frame has a name, the innermost module is asked first. -/
theorem Env.find?_of_here {space : Namespace} {name : String} {module : NodeId} {m : Meaning}
    (hhere : env.modules.head? = some module)
    (hfree : env.frames.findSome? (·.find? space name) = none)
    (hmember : findMember? base space module name = some m) :
    env.find? base space name = some m := by
  obtain ⟨outer, hmodules⟩ := List.head?_eq_some_iff.mp hhere
  rw [find?, hfree, hmodules]
  simp [hmember]

/-- The attempt that was accepted for a member of a module is what the module has under the name. -/
theorem Stands.findMember?_of_accepted (h : Stands base env s) (hwf : c.WellFormed)
    (hbase : c.FirstPass settings base) (ha : a ∈ accepted (c.attempts settings))
    (hcontainer : a.container = some a.module) (hmodule : a.module ∈ env.modules) :
    (Env.findMember? base a.space a.module a.name).map Meaning.decl = some a.id := by
  have hmem := mem_of_mem_accepted ha
  obtain ⟨path, hhosts, -⟩ := c.attempts_located settings a hmem
  obtain ⟨-, htexts⟩ := (c.nested hwf settings).key_of_module hmem hhosts hcontainer
  have hkey : (CanonicalPath.single a.module a.name).SameText a.key := htexts.symm
  rw [h.findMember?_eq hbase hmodule, firstFor_congr _ _ _ hkey, firstFor_of_mem_accepted ha]
  rfl

/-- A name that stands alone in a module stands for the member that was accepted under it. -/
theorem Stands.value_of_bare (h : Stands base env s) (hwf : c.WellFormed)
    (hbase : c.FirstPass settings base) (ha : a ∈ accepted (c.attempts settings))
    (hcontainer : a.container = some a.module) (hhere : env.modules.head? = some a.module)
    (hfree : env.frames.findSome? (·.find? a.space a.name) = none)
    (hp : p.segments.map PathSegment.ident = [.ident a.name]) :
    (p.read base env a.space).value.map Meaning.decl = some a.id := by
  obtain ⟨node, segments⟩ := p
  obtain ⟨⟨snode, ident, generics⟩, rfl, rfl⟩ := List.map_eq_singleton_iff.mp hp
  have hmember := h.findMember?_of_accepted hwf hbase ha hcontainer (List.mem_of_head? hhere)
  obtain ⟨m, hm, hdecl⟩ := Option.map_eq_some_iff.mp hmember
  rw [(Path.read_single base env a.space node snode a.name generics).1, Env.resolve,
    Env.find?_of_here hhere hfree hm, ← hdecl]
  rfl

/-- Behind `self` or `super`, a name is followed from the module that the keyword leads to. -/
theorem Path.value_of_keyword (h : env.Nests base) {name : String} {module : NodeId}
    {keyword : PathIdent} (hp : p.segments.map PathSegment.ident = [keyword, .ident name])
    (hkeyword : keyword = .selfModule ∧ env.modules[0]? = some module ∨
      keyword = .super ∧ env.modules[1]? = some module) :
    (p.read base env prefer).value = (base.follow? prefer module [name]).map base.meaning := by
  obtain ⟨first, rest, hsegments, hfirst, hrest⟩ := List.map_eq_cons_iff.mp hp
  have hne : rest ≠ [] := fun hnil => by rw [hnil] at hrest; cases hrest
  rcases hkeyword with ⟨rfl, hmodule⟩ | ⟨rfl, hmodule⟩
  · have hup : p.GoesUp [first] [] rest [name] :=
      ⟨hsegments, Or.inr ⟨first, rfl, hfirst⟩, List.forall_mem_nil _, hrest,
        Or.inr ⟨List.cons_ne_nil _ _, hne⟩⟩
    rw [Path.value_read_goesUp h hup, List.length_nil, hmodule]
    rfl
  · have hup : p.GoesUp [] [first] rest [name] :=
      ⟨hsegments, Or.inl rfl, List.forall_mem_singleton.mpr hfirst, hrest,
        Or.inl (List.cons_ne_nil _ _)⟩
    rw [Path.value_read_goesUp h hup, List.length_singleton, hmodule]
    rfl

end Spelled

namespace Crate

variable {c : Crate} {settings : Settings} {s : Session} {a : Attempt} {x : PlacedSite} {p : Path}
  {env : Env}

/-- However a member of a module is named, where its namespace is preferred, a path that is looked
up is resolved to it. -/
theorem SecondPass.resolved?_of_spells (hwf : c.WellFormed)
    (hs : c.SecondPass (c.registered settings) s) (ha : a ∈ accepted (c.attempts settings))
    (hcontainer : a.container = some a.module) (hlook : c.LooksUp settings x p a.space env)
    (hspells : env.Spells c.node.id a.space a.module a.name (p.segments.map PathSegment.ident)) :
    s.tables.resolved? p.node.id = some a.id := by
  have hbase := c.firstPass hwf settings
  have hnests := hlook.nests hwf
  -- Behind a keyword, the member is the only child of its name in the namespace.
  have hfollow : ((((c.registered settings).follow? a.space a.module [a.name]).map
      (c.registered settings).meaning).map Meaning.decl) = some a.id := by
    rw [hbase.follow?_of_accepted hwf ha hcontainer]
    rfl
  rw [hs.resolved?_of_looksUp hwf hlook]
  generalize hidents : p.segments.map PathSegment.ident = idents at hspells
  cases hspells with
  | bare hhere hfree =>
      obtain ⟨_, _, s', -, hready, -⟩ := hlook.exists_ready hwf
      exact hready.stands.value_of_bare hwf hbase ha hcontainer hhere hfree hidents
  | fromSelf hhere =>
      rw [List.head?_eq_getElem?] at hhere
      rw [Path.value_of_keyword hnests hidents (Or.inl ⟨rfl, hhere⟩), hfollow]
  | fromSuper houter =>
      rw [Path.value_of_keyword hnests hidents (Or.inr ⟨rfl, houter⟩), hfollow]
  | fromCrate hroot =>
      have hp : p.FromRoot [a.name] := ⟨List.cons_ne_nil _ _, hidents⟩
      rw [Path.value_read_fromRoot hp, hbase.root, ← hroot, hfollow]

/-- **A member of a module is the same by whatever way it is named.** In a well-formed crate, let
an item or something in an extern block be accepted in a module. Where its namespace is preferred,
every path that is looked up and names it is resolved to it: `self::X` in the module, `super::X` in
the modules directly inside it, `crate::X` if it is the crate root, and `X` alone in the module
unless a construct around has a name of its own. Every path is looked up unless it stands inside
another one, and nothing comes of those that are skipped. -/
theorem members_agree (hwf : c.WellFormed) (settings : Settings) :
    ∃ r, c.resolve settings = .ok r ∧
      (∀ a ∈ accepted (c.attempts settings), a.container = some a.module →
        ∀ x p env, c.LooksUp settings x p a.space env →
          env.Spells c.node.id a.space a.module a.name (p.segments.map PathSegment.ident) →
            r.declarationOf? p.node.id = some a.id) ∧
      c.LooksUpOrSkips settings r.tables := by
  obtain ⟨s, r, h⟩ := c.exists_outcome hwf settings
  refine ⟨r, h.resolve, fun a ha hcontainer x p env hlook hspells => ?_,
    h.tables ▸ h.secondPass.looksUpOrSkips hwf⟩
  change r.tables.resolved? p.node.id = some a.id
  rw [h.tables]
  exact h.secondPass.resolved?_of_spells hwf ha hcontainer hlook hspells

/-- A struct `S` in the crate root and one in a module `m`, with a static of the type
`(self::S, super::S, crate::S, S)` beside it. -/
def withTwoStructs : Crate where
  node := ⟨⟨0⟩, ⟨0, 99⟩⟩
  items :=
    let node (id offset : Nat) : Node := ⟨⟨id⟩, ⟨offset, 1⟩⟩
    let struct (id offset : Nat) : Item :=
      ⟨node id offset, .ownModule, .struct ⟨⟨"S", ⟨offset + 7, 1⟩⟩, .none, []⟩⟩
    let name (id offset : Nat) : PathSegment := ⟨node id offset, .ident "S", none⟩
    let path (id offset : Nat) (keyword : PathIdent) : Ty :=
      .path (node id offset) ⟨node (id + 1) offset,
        [⟨node (id + 2) offset, keyword, none⟩, name (id + 3) (offset + 7)]⟩
    let types : List Ty := [path 6 40 .selfModule, path 10 50 .super, path 14 60 .crate,
      .path (node 18 70) ⟨node 19 70, [name 20 70]⟩]
    [struct 1 0, ⟨node 2 10, .ownModule, .module ⟨"m", ⟨14, 1⟩⟩
      [struct 3 18,
        ⟨node 4 30, .ownModule, .static ⟨⟨"A", ⟨37, 1⟩⟩, false, .tuple (node 5 39) types, none⟩⟩]⟩]
  idBound := ⟨21⟩

/-- The same name is the inner struct by itself and behind `self`, and the outer one behind `super`
and `crate`. -/
theorem members_agree_withTwoStructs :
    withTwoStructs.WellFormed ∧ ∃ r, withTwoStructs.resolve {} = .ok r ∧
      r.declarationOf? ⟨7⟩ = some ⟨3⟩ ∧ r.declarationOf? ⟨11⟩ = some ⟨1⟩ ∧
      r.declarationOf? ⟨15⟩ = some ⟨1⟩ ∧ r.declarationOf? ⟨19⟩ = some ⟨3⟩ := by
  have hwf : withTwoStructs.WellFormed := by decide
  obtain ⟨r, hr, hmembers, -⟩ := members_agree hwf {}
  let here : Env := .inside [⟨2⟩, ⟨0⟩]
  have hvisits : (withTwoStructs.read (withTwoStructs.registered {})).findings.filterMap
        Finding.visited? =
      [(⟨7⟩, [.selfModule, .ident "S"], .type, here), (⟨11⟩, [.super, .ident "S"], .type, here),
        (⟨15⟩, [.crate, .ident "S"], .type, here), (⟨19⟩, [.ident "S"], .type, here)] := by
    decide +kernel
  have hstructs : ∀ d ∈ [(⟨0⟩, ⟨1⟩), (⟨2⟩, ⟨3⟩)], ∃ a ∈ accepted (withTwoStructs.attempts {}),
      a.container = some a.module ∧ a.space = .type ∧ a.name = "S" ∧ (a.module, a.id) = d := by
    decide +kernel
  have hresolved {use module d : NodeId} {idents : List PathIdent}
      (hd : (module, d) ∈ [((⟨0⟩, ⟨1⟩) : NodeId × NodeId), (⟨2⟩, ⟨3⟩)])
      (hspells : here.Spells ⟨0⟩ .type module "S" idents)
      (hvisit : (use, idents, .type, here) ∈
        (withTwoStructs.read (withTwoStructs.registered {})).findings.filterMap
          Finding.visited?) :
      r.declarationOf? use = some d := by
    obtain ⟨a, ha, hcontainer, hspace, hname, heq⟩ := hstructs _ hd
    obtain ⟨f, hf, hvisited⟩ := List.mem_filterMap.mp hvisit
    cases f <;> cases hvisited
    obtain ⟨x, hlook⟩ := exists_looksUp_of_visit hf
    cases heq
    rw [← hspace, ← hname] at hspells
    exact hmembers a ha hcontainer x _ here (hspace.symm ▸ hlook) hspells
  rw [hvisits] at hresolved
  exact ⟨hwf, r, hr, hresolved (by decide) (.fromSelf rfl) (by decide),
    hresolved (by decide) (.fromSuper rfl) (by decide),
    hresolved (by decide) (.fromCrate rfl) (by decide),
    hresolved (by decide) (.bare rfl rfl) (by decide)⟩

/-- Where the second pass turns back before it gets to `self::S`, the path is not resolved to the
struct of that module. -/
theorem members_agree_skipped :
    (withSkippedPath .selfModule).WellFormed ∧
      ∃ r, (withSkippedPath .selfModule).resolve {} = .ok r ∧
        ∃ a ∈ accepted ((withSkippedPath .selfModule).attempts {}),
          a.container = some a.module ∧ a.space = .type ∧
          ∃ p, (withSkippedPath .selfModule).HasArgument [a.module] p ∧
            p.segments.map PathSegment.ident = [.selfModule, .ident a.name] ∧
            r.declarationOf? p.node.id ≠ some a.id := by
  have hwf : (withSkippedPath .selfModule).WellFormed := by decide
  obtain ⟨r, hr⟩ := resolve_succeeds hwf {}
  have hnone : r.declarationOf? (Path.toSkip .selfModule).node.id = none :=
    of_resolve hr (by decide +kernel)
  have hstruct : ∃ a ∈ accepted ((withSkippedPath .selfModule).attempts {}),
      a.container = some a.module ∧ a.space = .type ∧ a.module = ⟨0⟩ ∧ a.name = "S" := by
    decide +kernel
  obtain ⟨a, ha, hcontainer, hspace, hmodule, hname⟩ := hstruct
  refine ⟨hwf, r, hr, a, ha, hcontainer, hspace, .toSkip .selfModule,
    hmodule ▸ hasArgument_withSkippedPath .selfModule, ?_, ?_⟩
  · rw [hname]
    rfl
  · rw [hnone]
    exact (Option.some_ne_none _).symm

end Crate

end NameResolution
