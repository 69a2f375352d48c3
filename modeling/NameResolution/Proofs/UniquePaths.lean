import NameResolution.Proofs.Nesting
import NameResolution.Proofs.Lexical.Replay
import NameResolution.Proofs.Completion

/-!
# NameResolution.Proofs.UniquePaths

**When two declarations have the same canonical path** (`Crate.canonical_paths_unique`).
Names are checked for duplicates in one rib at a time, and the names there are relative to
the module (`Attempt.key`). A canonical path is the path of the module with the key behind
it (`Attempt.Located`), so it can be had in more than one way: the key of a variant, of a
trait item or of an implementation item has several segments, and the first of them may
spell the way into a nested module (`Attempt.ReachesInto`).

There is no other way. Modules have paths of their own (`Nested.eq_of_descends`), and no
key is accepted twice in one rib.
-/

namespace NameResolution

open Resolution

/-! ### Keys and canonical paths -/

/-- A canonical path is that of the module with the key behind it. -/
def Attempt.Located (l : List Attempt) (root : NodeId) (rootPath : CanonicalPath) (a : Attempt) :
    Prop :=
  ∃ path, Hosts l root rootPath a.module path ∧ a.path = path ++ a.key

namespace Attempt.Located

variable {l l' : List Attempt} {root : NodeId} {rootPath : CanonicalPath} {a : Attempt}

theorem mono (h : a.Located l root rootPath) (hl : l ⊆ l') : a.Located l' root rootPath := by
  obtain ⟨path, hhosts, hpath⟩ := h
  exact ⟨path, hhosts.mono hl, hpath⟩

theorem texts (h : a.Located l root rootPath) :
    ∃ path, Hosts l root rootPath a.module path ∧ a.path.texts = path.texts ++ a.key.texts := by
  obtain ⟨path, hhosts, hpath⟩ := h
  exact ⟨path, hhosts, by rw [hpath, CanonicalPath.texts_append]⟩

/-- What is located in a nested module is located in the module around that one. -/
theorem nest {m : Attempt} (h : a.Located l m.id m.path) (hkind : m.kind = some .module)
    (hm : m ∈ l') (hl : l ⊆ l') : a.Located l' root rootPath := by
  obtain ⟨path, hhosts, hlocated⟩ := h
  refine ⟨path, Or.inr ?_, hlocated⟩
  rcases hhosts with ⟨hid, hpath⟩ | ⟨m', hm', hkind', hid, hpath⟩
  · exact ⟨m, hm, hkind, hid.symm, hpath.symm⟩
  · exact ⟨m', hl hm', hkind', hid, hpath⟩

/-- Directly in a module. -/
theorem direct {path : CanonicalPath} (hpath : a.path = path ++ a.key) :
    a.Located l a.module path :=
  ⟨path, Or.inl ⟨rfl, rfl⟩, hpath⟩

end Attempt.Located

/-- A place whose path is that of a module with its key behind it. -/
def Place.IsIn (path : CanonicalPath) (place : Place) : Prop :=
  place.path = path ++ place.key

namespace Place.IsIn

variable {path : CanonicalPath} {place : Place}

theorem ofModule (path : CanonicalPath) : (Place.ofModule path).IsIn path :=
  (CanonicalPath.append_empty path).symm

theorem extend (h : place.IsIn path) (inner : CanonicalPath) : (place.extend inner).IsIn path := by
  unfold IsIn at h ⊢
  simp only [Place.extend, h, CanonicalPath.append_assoc]

end Place.IsIn

/-- An item that is no module gives whatever it attempts the path of its place with the key behind
it. -/
theorem ItemKind.attempts_path {node : Node} {vis : Visibility} {kind : ItemKind} {here : NodeId}
    {path : CanonicalPath} {place : Place} {before : List Attempt} (hplace : place.IsIn path)
    (hflat : ∀ name items, kind ≠ .module name items) :
    ∀ a ∈ kind.attempts node vis here place before, a.path = path ++ a.key := by
  intro a ha
  have hown := ItemKind.attempts_own hflat a ha
  cases hown with
  | leaf space id name itemVis hname himpl => exact hplace.extend (.single id name.name)
  | container name k hname hkind himpl => exact hplace.extend (.single node.id name.name)
  | member owner k space id name hname hkind himpl howner =>
      exact (hplace.extend (.single node.id owner.name)).extend (.single id name.name)
  | implItem i inner hname hitems hmem =>
      exact (hplace.extend inner).extend (.single i.node.id i.kind.declares.2.name)
  | header i projection hkind hprojection => exact hplace.extend projection

/-- Every attempt of items that are directly inside a module is located there or further in. -/
theorem itemsAttempts_located (items : List Item) {here : NodeId} {path : CanonicalPath}
    {before : List Attempt} : ∀ a ∈ itemsAttempts here (.ofModule path) before items,
      a.Located (itemsAttempts here (.ofModule path) before items) here path := by
  induction items using items_induction generalizing here path before with
  | nil =>
      intro a ha
      cases ha
  | module node vis name items rest ihInside ih =>
      intro a ha
      simp only [itemsAttempts, Item.attempts, ItemKind.attempts] at ha ⊢
      rcases List.mem_append.mp ha with ha | ha
      · refine Attempt.Located.mono ?_ (List.subset_append_left _ _)
        rcases List.mem_cons.mp ha with rfl | ha
        · exact .direct ((Place.IsIn.ofModule path).extend (.single node.id name.name))
        · exact (ihInside a ha).nest rfl List.mem_cons_self (List.subset_cons_self _ _)
      · exact (ih a ha).mono (List.subset_append_right _ _)
  | flat node vis kind rest hflat ih =>
      intro a ha
      simp only [itemsAttempts, Item.attempts] at ha ⊢
      rcases List.mem_append.mp ha with ha | ha
      · have hpath := ItemKind.attempts_path (.ofModule path) hflat a ha
        rw [← (ItemKind.attempts_here hflat ha).1]
        exact .direct hpath
      · exact (ih a ha).mono (List.subset_append_right _ _)

/-! ### Nested modules -/

/-- Names that lead from a module to one nested in it, module by module. -/
inductive Descends (l : List Attempt) (outer : NodeId) : List String → NodeId → Prop
  | self : Descends l outer [] outer
  | step {names : List String} {m : Attempt} (h : Descends l outer names m.module) (hm : m ∈ l)
      (hkind : m.kind = some .module) : Descends l outer (names ++ [m.name]) m.id

/-- The key of a declaration spells the way into a nested module, and there the key of another
declaration. -/
def Attempt.ReachesInto (l : List Attempt) (a b : Attempt) : Prop :=
  ∃ names, names ≠ [] ∧ Descends l a.module names b.module ∧ a.key.texts = names ++ b.key.texts

section Descends

variable {l : List Attempt} {root outer inner inner' : NodeId} {rootPath path : CanonicalPath}
  {names : List String}

theorem Descends.eq_self (h : Descends l outer names inner) (hnames : names = []) :
    inner = outer := by
  cases h with
  | self => rfl
  | step h hm hkind => exact absurd hnames (List.append_ne_nil_of_right_ne_nil _ (by simp))

/-- The way to a nested module goes through the modules around it. -/
theorem Descends.split {first second : List String}
    (h : Descends l outer (first ++ second) inner) :
    ∃ middle, Descends l outer first middle ∧ Descends l middle second inner := by
  generalize hnames : first ++ second = names at h
  induction h generalizing second with
  | self =>
      obtain ⟨rfl, rfl⟩ := List.append_eq_nil_iff.mp hnames
      exact ⟨outer, .self, .self⟩
  | @step names m h hm hkind ih =>
      rcases List.eq_nil_or_concat second with rfl | ⟨front, last, rfl⟩
      · rw [List.append_nil] at hnames
        exact ⟨m.id, hnames ▸ .step h hm hkind, .self⟩
      · rw [List.concat_eq_append, ← List.append_assoc] at hnames
        obtain ⟨hfront, hlast⟩ := List.append_inj' hnames rfl
        obtain rfl : last = m.name := List.singleton_inj.mp hlast
        obtain ⟨middle, hfirst, hsecond⟩ := ih hfront
        refine ⟨middle, hfirst, ?_⟩
        rw [List.concat_eq_append]
        exact .step hsecond hm hkind

end Descends

namespace Nested

variable {l : List Attempt} {root outer inner inner' : NodeId} {rootPath path path' : CanonicalPath}
  {names : List String} {a b : Attempt} (h : Nested l root rootPath)

include h

/-- A module has one path. -/
theorem path_of_hosts (hhosts : Hosts l root rootPath inner path)
    (hhosts' : Hosts l root rootPath inner path') : path = path' := by
  rcases hhosts with ⟨rfl, rfl⟩ | ⟨m, hm, -, rfl, rfl⟩
  · rcases hhosts' with ⟨-, rfl⟩ | ⟨m', hm', -, hid, -⟩
    · rfl
    · exact absurd hid (h.id_ne_root hm')
  · rcases hhosts' with ⟨hid, -⟩ | ⟨m', hm', -, hid, rfl⟩
    · exact absurd hid (h.id_ne_root hm)
    · rw [h.eq_of_id hm hm' hid.symm]

section Modules

variable (hlocated : ∀ a ∈ l, a.Located l root rootPath)

include hlocated

/-- The path of a nested module is that of the module around it with its name behind it. -/
theorem path_of_module {m : Attempt} (hm : m ∈ l) (hkind : m.kind = some .module) :
    ∃ path, Hosts l root rootPath m.module path ∧ m.path.texts = path.texts ++ [m.name] := by
  obtain ⟨path, hhosts, htexts⟩ := (hlocated m hm).texts
  rw [(h.container_of_kind hm hkind).2.1] at htexts
  exact ⟨path, hhosts, htexts⟩

/-- The names that lead to a module are those of its path. -/
theorem descends_of_hosts (hhosts : Hosts l root rootPath inner path) :
    ∃ names, Descends l root names inner ∧ path.texts = rootPath.texts ++ names := by
  -- The modules around a module have ever shorter paths.
  induction hlength : path.texts.length using Nat.strongRecOn generalizing inner path with
  | _ n ih =>
      rcases hhosts with ⟨rfl, rfl⟩ | ⟨m, hm, hkind, rfl, rfl⟩
      · exact ⟨[], .self, (List.append_nil _).symm⟩
      · obtain ⟨around, haround, htexts⟩ := h.path_of_module hlocated hm hkind
        have hshorter : around.texts.length < n := by
          rw [← hlength, htexts, List.length_append]
          exact Nat.lt_succ_self _
        obtain ⟨names, hnames, hpath⟩ := ih _ hshorter haround rfl
        refine ⟨names ++ [m.name], .step hnames hm hkind, ?_⟩
        rw [htexts, hpath, List.append_assoc]

/-- Further in, the path of a module grows by the names that lead there. -/
theorem hosts_of_descends (hdescends : Descends l outer names inner)
    (hhosts : Hosts l root rootPath outer path) :
    ∃ path', Hosts l root rootPath inner path' ∧ path'.texts = path.texts ++ names := by
  induction hdescends with
  | self => exact ⟨path, hhosts, (List.append_nil _).symm⟩
  | @step names m _ hm hkind ih =>
      obtain ⟨path', hhosts', htexts'⟩ := ih
      obtain ⟨around, haround, htexts⟩ := h.path_of_module hlocated hm hkind
      refine ⟨m.path, Or.inr ⟨m, hm, hkind, rfl, rfl⟩, ?_⟩
      rw [htexts, h.path_of_hosts haround hhosts', htexts', List.append_assoc]

omit hlocated in
/-- Where no name is accepted twice, the same names lead to the same module. -/
theorem eq_of_descends (haccepted : accepted l = l) (hinner : Descends l outer names inner)
    (hinner' : Descends l outer names inner') : inner = inner' := by
  induction hinner generalizing inner' with
  | self => exact (hinner'.eq_self rfl).symm
  | @step names m _ hm hkind ih =>
      generalize hnames : names ++ [m.name] = names' at hinner'
      cases hinner' with
      | self => exact absurd hnames (List.append_ne_nil_of_right_ne_nil _ (by simp))
      | @step names' m' hdescends' hm' hkind' =>
          obtain ⟨rfl, hname⟩ := List.append_inj' hnames rfl
          -- Both are modules of one name in one module.
          have hmodule : m.module = m'.module := ih hdescends'
          have hkey : m.key.SameText m'.key := by
            unfold CanonicalPath.SameText
            rw [(h.container_of_kind hm hkind).2.1, (h.container_of_kind hm' hkind').2.1, hname]
          have hspace : m.space = m'.space :=
            (h.container_of_kind hm hkind).2.2.symm.trans (h.container_of_kind hm' hkind').2.2
          rw [eq_of_mem_accepted (haccepted.symm ▸ hm) (haccepted.symm ▸ hm') hmodule hspace hkey]

omit hlocated in
/-- If the names of one path begin with those of a module that the other one is in, the way from
there on is the same. -/
theorem reachesInto_of_append (haccepted : accepted l = l) (ha : a ∈ l) (hb : b ∈ l)
    (hspace : a.space = b.space) (hne : a ≠ b) {first second : List String}
    (hfirst : Descends l root first a.module) (hsecond : Descends l root (first ++ second) b.module)
    (hkey : a.key.texts = second ++ b.key.texts) : a.ReachesInto l b := by
  obtain ⟨middle, hmiddle, hinner⟩ := hsecond.split
  rw [h.eq_of_descends haccepted hmiddle hfirst] at hinner
  refine ⟨second, fun hnil => hne ?_, hinner, hkey⟩
  -- In the same module both would have the same key.
  have hmodule : a.module = b.module := (hinner.eq_self hnil).symm
  rw [hnil, List.nil_append] at hkey
  exact eq_of_mem_accepted (haccepted.symm ▸ ha) (haccepted.symm ▸ hb) hmodule hspace hkey

/-- Two declarations of a namespace have the same canonical path exactly if the key of one of them
leads to the other one. -/
theorem sameText_path_iff (haccepted : accepted l = l) (ha : a ∈ l) (hb : b ∈ l)
    (hspace : a.space = b.space) (hne : a ≠ b) :
    a.path.SameText b.path ↔ a.ReachesInto l b ∨ b.ReachesInto l a := by
  obtain ⟨pathA, hhostsA, htextsA⟩ := (hlocated a ha).texts
  obtain ⟨pathB, hhostsB, htextsB⟩ := (hlocated b hb).texts
  constructor
  · intro hsame
    obtain ⟨namesA, hdescendsA, hpathA⟩ := h.descends_of_hosts hlocated hhostsA
    obtain ⟨namesB, hdescendsB, hpathB⟩ := h.descends_of_hosts hlocated hhostsB
    unfold CanonicalPath.SameText at hsame
    rw [htextsA, htextsB, hpathA, hpathB, List.append_assoc, List.append_assoc,
      List.append_cancel_left_eq] at hsame
    rcases List.append_eq_append_iff.mp hsame with ⟨names, rfl, hkey⟩ | ⟨names, rfl, hkey⟩
    · exact Or.inl (h.reachesInto_of_append haccepted ha hb hspace hne hdescendsA hdescendsB hkey)
    · exact Or.inr
        (h.reachesInto_of_append haccepted hb ha hspace.symm hne.symm hdescendsB hdescendsA hkey)
  · rintro (⟨names, -, hdescends, hkey⟩ | ⟨names, -, hdescends, hkey⟩)
    · obtain ⟨path, hhosts, htexts⟩ := h.hosts_of_descends hlocated hdescends hhostsA
      unfold CanonicalPath.SameText
      rw [htextsA, htextsB, hkey, h.path_of_hosts hhostsB hhosts, htexts, List.append_assoc]
    · obtain ⟨path, hhosts, htexts⟩ := h.hosts_of_descends hlocated hdescends hhostsB
      unfold CanonicalPath.SameText
      rw [htextsA, htextsB, hkey, h.path_of_hosts hhostsA hhosts, htexts, List.append_assoc]

end Modules

end Nested

/-! ### Whole crates -/

theorem Crate.attempts_located (c : Crate) (settings : Settings) :
    ∀ a ∈ c.attempts settings,
      a.Located (c.attempts settings) c.node.id (Session.rootPathFor c settings) :=
  itemsAttempts_located c.items

/-- **When two declarations have the same canonical path.** If resolving a well-formed crate reports
nothing, everything that was declared has its canonical path, and two declarations of one namespace
have the same one only if the key of one of them spells the way into a nested module and, from
there on, the key of the other one. -/
theorem Crate.canonical_paths_unique {c : Crate} (hwf : c.WellFormed) (settings : Settings) :
    ∃ r, c.resolve settings = .ok r ∧ (r.hasErrors = false →
      (∀ a ∈ c.attempts settings, r.tables.paths.get? a.id = some a.path) ∧
      ∀ a ∈ c.attempts settings, ∀ b ∈ c.attempts settings, a.space = b.space → a.id ≠ b.id →
        (a.path.SameText b.path ↔
          a.ReachesInto (c.attempts settings) b ∨ b.ReachesInto (c.attempts settings) a)) := by
  have hbase := c.firstPass hwf settings
  obtain ⟨s, r, h⟩ := c.exists_outcome hwf settings
  refine ⟨r, h.resolve, fun hclean => ?_⟩
  have haccepted := hbase.accepted_eq (h.clean hclean).1
  refine ⟨fun a ha => ?_, fun a ha b hb hspace hne => ?_⟩
  · rw [h.tables]
    exact h.secondPass.paths _ _ (hbase.paths a ha (Or.inr (haccepted.symm ▸ ha)))
  · exact (c.nested hwf settings).sameText_path_iff (c.attempts_located settings) haccepted ha hb
      hspace fun heq => hne (congrArg Attempt.id heq)

/-- A module that holds a struct and its function `f`, and an implementation beside the module that
gives the struct another function `f`. -/
def Crate.withDistantImpl : Crate where
  node := ⟨⟨0⟩, ⟨0, 60⟩⟩
  items :=
    let node (id offset : Nat) : Node := ⟨⟨id⟩, ⟨offset, 1⟩⟩
    let name (text : String) (offset : Nat) : Ident := ⟨text, ⟨offset, 1⟩⟩
    let function (id offset : Nat) : ImplItem :=
      ⟨node id offset, .everywhere, .function ⟨name "f" offset, .none, none, [], none, none⟩⟩
    let selfTy (id offset : Nat) (names : List PathSegment) : Ty :=
      .path (node id offset) ⟨node (id + 1) offset, names⟩
    let segment (id offset : Nat) (text : String) : PathSegment :=
      ⟨node id offset, .ident text, none⟩
    [⟨node 1 0, .everywhere, .module (name "m" 4)
        [⟨node 2 8, .everywhere, .struct ⟨name "S" 8, .none, []⟩⟩,
          ⟨node 3 12, .ownModule,
            .inherentImpl ⟨.none, selfTy 4 16 [segment 6 16 "S"], [function 7 20]⟩⟩]⟩,
      ⟨node 8 30, .ownModule, .inherentImpl
        ⟨.none, selfTy 9 34 [segment 11 34 "m", segment 12 36 "S"], [function 13 40]⟩⟩]
  idBound := ⟨14⟩

/-- The key `m::S::f` of one function leads to the module `m`, where the other one has the key
`S::f`. -/
theorem Crate.canonical_paths_withDistantImpl :
    withDistantImpl.WellFormed ∧ ∃ r, withDistantImpl.resolve {} = .ok r ∧ r.hasErrors = false ∧
      ∃ a ∈ withDistantImpl.attempts {}, ∃ b ∈ withDistantImpl.attempts {},
        a.id = ⟨13⟩ ∧ b.id = ⟨7⟩ ∧ a.path.SameText b.path := by
  have hwf : withDistantImpl.WellFormed := by decide
  obtain ⟨r, hr, h⟩ := canonical_paths_unique hwf {}
  have hclean : r.hasErrors = false := by
    have hrun : (withDistantImpl.resolve {}).toOption.map ResolvedCrate.hasErrors = some false := by
      decide +kernel
    rw [hr] at hrun
    exact Option.some.inj hrun
  have hcases : ∃ m ∈ withDistantImpl.attempts {}, ∃ a ∈ withDistantImpl.attempts {},
      ∃ b ∈ withDistantImpl.attempts {}, a.id = ⟨13⟩ ∧ b.id = ⟨7⟩ ∧ a.space = b.space ∧
        m.kind = some .module ∧ m.module = a.module ∧ m.id = b.module ∧
        a.key.texts = [m.name] ++ b.key.texts := by
    decide +kernel
  obtain ⟨m, hm, a, ha, b, hb, haid, hbid, hspace, hkind, hmodule, hinner, hkey⟩ := hcases
  have hreaches : a.ReachesInto (withDistantImpl.attempts {}) b := by
    refine ⟨[] ++ [m.name], by simp, ?_, hkey⟩
    rw [← hinner, ← hmodule]
    exact .step .self hm hkind
  have hne : a.id ≠ b.id := by
    rw [haid, hbid]
    decide
  exact ⟨hwf, r, hr, hclean, a, ha, b, hb, haid, hbid,
    ((h hclean).2 a ha b hb hspace hne).mpr (Or.inl hreaches)⟩

/-- A module `A` with a struct `X`, and an enum `A` with a variant `X`. -/
def Crate.withNamesakes : Crate where
  node := ⟨⟨0⟩, ⟨16, 1⟩⟩
  items :=
    [⟨⟨⟨2⟩, ⟨6, 1⟩⟩, .ownModule, .module ⟨"A", ⟨4, 1⟩⟩
        [⟨⟨⟨1⟩, ⟨2, 1⟩⟩, .ownModule, .struct ⟨⟨"X", ⟨0, 1⟩⟩, .none, []⟩⟩]⟩,
      ⟨⟨⟨4⟩, ⟨14, 1⟩⟩, .ownModule,
        .enum ⟨⟨"A", ⟨12, 1⟩⟩, .none, [⟨⟨⟨3⟩, ⟨10, 1⟩⟩, ⟨"X", ⟨8, 1⟩⟩, .unit⟩]⟩⟩]
  idBound := ⟨5⟩

/-- The struct and the variant are different types with the same canonical path, and nothing is
reported. -/
theorem Crate.canonical_paths_collide :
    withNamesakes.WellFormed ∧ ∃ r, withNamesakes.resolve {} = .ok r ∧ r.hasErrors = false ∧
      ∃ a ∈ withNamesakes.attempts {}, ∃ b ∈ withNamesakes.attempts {},
        a.space = b.space ∧ a.id ≠ b.id ∧
        ∃ p q, r.tables.paths.get? a.id = some p ∧ r.tables.paths.get? b.id = some q ∧
          p.SameText q := by
  have hwf : withNamesakes.WellFormed := by decide
  obtain ⟨_, r, h⟩ := exists_outcome hwf {}
  have hrun : (withNamesakes.resolve {}).toOption.map (fun r =>
      (r.hasErrors, r.tables.paths.get? ⟨1⟩, r.tables.paths.get? ⟨3⟩)) =
        some (false, some ⟨[(⟨2⟩, "A"), (⟨1⟩, "X")]⟩, some ⟨[(⟨4⟩, "A"), (⟨3⟩, "X")]⟩) := by
    decide +kernel
  rw [h.resolve] at hrun
  obtain ⟨hclean, hpaths⟩ := Prod.ext_iff.mp (Option.some.inj hrun)
  obtain ⟨hstruct, hvariant⟩ := Prod.ext_iff.mp hpaths
  have hdeclared : ∃ a ∈ withNamesakes.attempts {}, ∃ b ∈ withNamesakes.attempts {},
      a.space = b.space ∧ a.id = ⟨1⟩ ∧ b.id = ⟨3⟩ := by
    decide
  obtain ⟨a, ha, b, hb, hspace, haid, hbid⟩ := hdeclared
  refine ⟨hwf, r, h.resolve, hclean, a, ha, b, hb, hspace, ?_, ⟨[(⟨2⟩, "A"), (⟨1⟩, "X")]⟩,
    ⟨[(⟨4⟩, "A"), (⟨3⟩, "X")]⟩, ?_, ?_, rfl⟩
  · rw [haid, hbid]
    decide
  · rw [haid]
    exact hstruct
  · rw [hbid]
    exact hvariant

end NameResolution
