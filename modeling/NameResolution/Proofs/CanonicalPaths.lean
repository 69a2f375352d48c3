import Mathlib
import NameResolution.Proofs.VisitedPaths

/-!
# NameResolution.Proofs.CanonicalPaths

**Canonical paths and paths from the crate root are inverse to each other**
(`Crate.canonical_paths_inverse`). The first pass writes a canonical path by adding one
segment to that of the container; the second pass follows a path by searching the children
of the container reached. What it finds depends on the names alone (`Session.follow?`).

* Whatever is found is reached by following attempts from container to container, so its
  canonical path has the names that were followed (`Crate.FirstPass.leads_of_follow?`).
* Where no name is declared twice and no module shares its name with an enum or a trait,
  the names of a canonical path leave only one choice at every container
  (`Crate.FirstPass.follow?_of_leads`).
-/

namespace NameResolution

open Resolution

/-! ### Following names -/

/-- What plain names lead to from a declaration that has been reached. -/
def Session.follow? (base : Session) (prefer : Namespace) (id : NodeId) :
    List String → Option NodeId
  | [] => some id
  | name :: rest =>
    if base.tables.isContainer id then
      match base.pickChild? prefer rest.isEmpty (base.tables.childrenNamed id name) with
      | none => none
      | some child => base.follow? prefer child rest
    else none

section Follow

variable {base : Session} {env : Env} {prefer : Namespace}

theorem value_readSegments_cons (single : Bool) (spot : Spot) (seg : PathSegment)
    (rest : List PathSegment) :
    (readSegments base env prefer single spot (seg :: rest)).value =
      match (seg.read base env prefer single spot rest.isEmpty).value with
      | none => none
      | some spot => (readSegments base env prefer single spot rest).value := by
  rw [readSegments, Reading.value_bind]
  cases (seg.read base env prefer single spot rest.isEmpty).value <;> rfl

/-- What a plain name leads to once something has been reached. -/
theorem PathSegment.value_read_ident (scope : NodeId) (m : Meaning) (isLast : Bool) (node : Node)
    (name : String) (generics : Option GenericArgs) :
    (PathSegment.read base env prefer false ⟨scope, some m⟩ isLast
        ⟨node, .ident name, generics⟩).value =
      if base.tables.isContainer m.decl then
        (base.pickChild? prefer isLast (base.tables.childrenNamed scope name)).map fun child =>
          Spot.advance base ⟨scope, some m⟩ (base.meaning child)
      else none := by
  cases hcontainer : base.tables.isContainer m.decl with
  | false => cases generics <;> simp [PathSegment.read, Spot.isDeferred, hcontainer]
  | true =>
      cases hpick : base.pickChild? prefer isLast (base.tables.childrenNamed scope name) <;>
        cases generics <;>
          simp [PathSegment.read, Spot.isDeferred, hcontainer, readName, hpick, Reading.stopWith]

/-- Reading segments that are plain names follows the names. -/
theorem value_readSegments : ∀ (segments : List PathSegment) {names : List String} {id : NodeId}
    {scope : NodeId}, segments.map PathSegment.ident = names.map PathIdent.ident →
    (base.tables.isContainer id = true → scope = id) →
    (readSegments base env prefer false ⟨scope, some (base.meaning id)⟩ segments).value =
      (base.follow? prefer id names).map base.meaning
  | [], [], _, _, _, _ => rfl
  | ⟨node, _, generics⟩ :: rest, name :: names, id, scope, hnames, hscope => by
      obtain ⟨rfl, hrest⟩ := List.cons_eq_cons.mp hnames
      have hlast : rest.isEmpty = names.isEmpty := by
        cases rest <;> cases names <;> first | rfl | cases hrest
      rw [value_readSegments_cons, PathSegment.value_read_ident, Session.follow?, hlast]
      change (match (if base.tables.isContainer id = true then Option.map _ _ else none) with
        | none => none
        | some spot => (readSegments base env prefer false spot rest).value) = _
      by_cases hcontainer : base.tables.isContainer id = true
      · rw [if_pos hcontainer, if_pos hcontainer, hscope hcontainer]
        cases base.pickChild? prefer names.isEmpty (base.tables.childrenNamed id name) with
        | none => rfl
        | some child => exact value_readSegments rest hrest fun hchild => if_pos hchild
      · rw [if_neg hcontainer, if_neg hcontainer]
        rfl

/-- A path from the crate root along plain names, of which there is at least one. -/
structure Path.FromRoot (p : Path) (names : List String) : Prop where
  proper : names ≠ []
  idents : p.segments.map PathSegment.ident = .crate :: names.map PathIdent.ident

/-- A path of plain names from the crate root stands for what the names lead to, wherever the path
stands. -/
theorem Path.value_read_fromRoot {p : Path} {names : List String} (hp : p.FromRoot names) :
    (p.read base env prefer).value =
      (base.follow? prefer base.root names).map base.meaning := by
  obtain ⟨node, segments⟩ := p
  obtain ⟨root, segments, rfl, hroot, hnames⟩ := List.map_eq_cons_iff.mp hp.idents
  obtain ⟨knode, ident, generics⟩ := root
  obtain rfl : ident = .crate := hroot
  obtain ⟨seg, rest, rfl⟩ : ∃ seg rest, segments = seg :: rest := by
    refine List.exists_cons_of_ne_nil fun hnil => hp.proper ?_
    rw [hnil] at hnames
    exact List.map_eq_nil_iff.mp hnames.symm
  let root : PathSegment := ⟨knode, .crate, generics⟩
  have hreceiver : env.receiver? base prefer (root :: seg :: rest) = none := rfl
  have hlength : ((root :: seg :: rest).length == 1) = false := rfl
  have hwalk : (readSegments base env prefer false ⟨env.here base, none⟩
      (root :: seg :: rest)).value =
      (base.follow? prefer base.root names).map base.meaning := by
    rw [value_readSegments_cons]
    exact value_readSegments (seg :: rest) hnames fun _ => rfl
  rw [Path.read, Reading.value_bind, Reading.value_bind, Reading.value_pure, readWhole, hreceiver,
    hlength]
  rw [← hwalk]
  simp only [Reading.value_bind]
  cases (readSegments base env prefer false ⟨env.here base, none⟩
    (root :: seg :: rest)).value <;> rfl

/-- The only child that is wanted is the one that is picked. -/
theorem Session.pickChild?_eq_some {isLast : Bool} {candidates : List NodeId} {child : NodeId}
    (hchild : child ∈ candidates)
    (hwanted : (if isLast then base.classify child == some prefer
      else base.tables.isContainer child) = true)
    (hunique : ∀ other ∈ candidates, (if isLast then base.classify other == some prefer
      else base.tables.isContainer other) = true → other = child) :
    base.pickChild? prefer isLast candidates = some child := by
  have hfind : (candidates.find? fun id =>
      if isLast then base.classify id == some prefer else base.tables.isContainer id) =
      some child := by
    cases hfound : candidates.find? fun id =>
        if isLast then base.classify id == some prefer else base.tables.isContainer id with
    | none => exact absurd hwanted (List.find?_eq_none.mp hfound child hchild)
    | some other =>
        have hother := List.find?_some hfound
        exact congrArg some (hunique other (List.mem_of_find?_eq_some hfound) hother)
  unfold Session.pickChild?
  simp only [hfind, Option.some_or]

end Follow

/-! ### Following attempts -/

/-- No module declares both a module and an enum or a trait of the same name. -/
def Crate.ModulesNamedApart (c : Crate) (settings : Settings) : Prop :=
  ∀ m ∈ c.attempts settings, ∀ a ∈ c.attempts settings, m.module = a.module →
    m.kind = some .module → a.kind = some .enum ∨ a.kind = some .trait → m.name ≠ a.name

namespace Crate.FirstPass

variable {c : Crate} {settings : Settings} {base : Session} {prefer : Namespace} {id d : NodeId}
  {a b : Attempt} {names : List String} (hwf : c.WellFormed) (h : c.FirstPass settings base)

include h

/-- Whatever names lead to is reached by following attempts. -/
theorem leads_of_follow? : ∀ {names prior : List String} {id : NodeId},
    Leads (c.attempts settings) c.node.id prior id → base.follow? prefer id names = some d →
    Leads (c.attempts settings) c.node.id (prior ++ names) d
  | [], _, _, hleads, hfollow => by
      cases hfollow
      rwa [List.append_nil]
  | name :: rest, prior, id, hleads, hfollow => by
      rw [Session.follow?] at hfollow
      split at hfollow
      · cases hpick : base.pickChild? prefer rest.isEmpty (base.tables.childrenNamed id name) with
        | none =>
            rw [hpick] at hfollow
            cases hfollow
        | some child =>
            rw [hpick] at hfollow
            obtain ⟨a, ha, hcontainer, rfl, rfl⟩ :=
              h.mem_childrenNamed.mp (mem_of_pickChild? hpick)
            have hstep := hleads.step (mem_of_mem_accepted ha) hcontainer
            rw [← List.singleton_append, ← List.append_assoc]
            exact leads_of_follow? hstep hfollow
      · cases hfollow

theorem isContainer_of_kind (ha : a ∈ c.attempts settings) (hkind : a.kind.isSome) :
    base.tables.isContainer a.id = true := by
  obtain ⟨kind, hkind⟩ := Option.isSome_iff_exists.mp hkind
  unfold Tables.isContainer
  rw [h.containers a ha kind hkind]
  rfl

include hwf

theorem kind_of_isContainer (ha : a ∈ c.attempts settings)
    (hcontainer : base.tables.isContainer a.id = true) : a.kind.isSome := by
  have hnested := c.nested hwf settings
  obtain ⟨kind, hget⟩ := Option.isSome_iff_exists.mp hcontainer
  rcases h.contained a.id kind hget with ⟨hroot, -⟩ | ⟨b, hb, hid, hkind⟩
  · exact absurd (hroot.trans h.root) (hnested.id_ne_root ha)
  · rw [hnested.eq_of_id ha hb hid.symm, hkind]
    rfl

/-- What something is a member of is known as a container. -/
theorem isContainer_of_member (ha : a ∈ c.attempts settings) (hmember : a.container = some id) :
    base.tables.isContainer id = true := by
  rcases (c.nested hwf settings).texts_of_container ha hmember with
    ⟨rfl, -⟩ | ⟨b, hb, hkind, rfl, -⟩
  · have hmodule := h.rootModule
    rw [h.root] at hmodule
    unfold Tables.isModule at hmodule
    unfold Tables.isContainer
    rw [eq_of_beq hmodule]
    rfl
  · exact h.isContainer_of_kind hb hkind

omit h in
/-- Two members of a container that have both been accepted under the same name belong to different
namespaces. -/
theorem eq_of_same_name (ha : a ∈ accepted (c.attempts settings))
    (hb : b ∈ accepted (c.attempts settings)) (hac : a.container = some id)
    (hbc : b.container = some id) (hname : a.name = b.name) (hspace : a.space = b.space) :
    a = b := by
  obtain ⟨hmodule, hkey⟩ := (c.nested hwf settings).sameKey (mem_of_mem_accepted ha)
    (mem_of_mem_accepted hb) hac hbc hname
  exact eq_of_mem_accepted ha hb hmodule hspace hkey

/-- A member that has been accepted is found under its name, where its namespace is preferred. -/
theorem follow?_of_accepted (ha : a ∈ accepted (c.attempts settings))
    (hcontainer : a.container = some id) :
    base.follow? a.space id [a.name] = some a.id := by
  have hmember := h.isContainer_of_member hwf (mem_of_mem_accepted ha) hcontainer
  have hclass := h.classify_accepted hwf ha
  have hpick : base.pickChild? a.space true (base.tables.childrenNamed id a.name) = some a.id := by
    refine Session.pickChild?_eq_some ?_ (by simp [hclass]) fun other hother hwanted => ?_
    · exact h.mem_childrenNamed.mpr ⟨a, ha, hcontainer, rfl, rfl⟩
    · obtain ⟨b, hb, hbc, hname, rfl⟩ := h.mem_childrenNamed.mp hother
      rw [if_pos rfl, h.classify_accepted hwf hb] at hwanted
      have hspace : b.space = a.space := by simpa using hwanted
      exact congrArg Attempt.id (eq_of_same_name hwf hb ha hbc hcontainer hname hspace)
  rw [Session.follow?, if_pos hmember, List.isEmpty_nil, hpick]
  rfl

omit h in
/-- Two containers of one module that have the same name are the same. -/
theorem eq_of_containers (haccepted : accepted (c.attempts settings) = c.attempts settings)
    (hapart : c.ModulesNamedApart settings) (ha : a ∈ c.attempts settings)
    (hb : b ∈ c.attempts settings) (hac : a.container = some id) (hbc : b.container = some id)
    (hname : a.name = b.name) (hakind : a.kind.isSome) (hbkind : b.kind.isSome) : a = b := by
  have hnested := c.nested hwf settings
  obtain ⟨k, hk⟩ := Option.isSome_iff_exists.mp hakind
  obtain ⟨k', hk'⟩ := Option.isSome_iff_exists.mp hbkind
  obtain ⟨hmodule, -⟩ := hnested.sameKey ha hb hac hbc hname
  have hspace := (hnested.container_of_kind ha hk).2.2
  have hspace' := (hnested.container_of_kind hb hk').2.2
  refine eq_of_same_name hwf (haccepted.symm ▸ ha) (haccepted.symm ▸ hb) hac hbc hname ?_
  rw [← hspace, ← hspace']
  -- Only a module and an enum or a trait could be in different namespaces.
  cases k with
  | module =>
      cases k' with
      | module => rfl
      | enum => exact absurd hname (hapart a ha b hb hmodule hk (Or.inl hk'))
      | trait => exact absurd hname (hapart a ha b hb hmodule hk (Or.inr hk'))
  | enum =>
      cases k' with
      | module => exact absurd hname.symm (hapart b hb a ha hmodule.symm hk' (Or.inl hk))
      | enum | trait => rfl
  | trait =>
      cases k' with
      | module => exact absurd hname.symm (hapart b hb a ha hmodule.symm hk' (Or.inr hk))
      | enum | trait => rfl

section Exact

variable (haccepted : accepted (c.attempts settings) = c.attempts settings)
  (hapart : c.ModulesNamedApart settings)

include haccepted hapart

/-- The names that lead to a container leave no other choice, whatever comes after them. -/
theorem follow?_append_of_leads {rest : List String} (hrest : rest ≠ [])
    (hleads : Leads (c.attempts settings) c.node.id names id)
    (hid : base.tables.isContainer id = true) :
    base.follow? prefer c.node.id (names ++ rest) = base.follow? prefer id rest := by
  -- The last name is moved over to `rest` at each step, so it is followed as an inner one.
  induction hleads generalizing rest with
  | root => rfl
  | @step names container a hleads ha hcontainer ih =>
      have hmember := h.isContainer_of_member hwf ha hcontainer
      have hempty : rest.isEmpty = false := List.isEmpty_eq_false_iff.mpr hrest
      have hpick : base.pickChild? prefer false (base.tables.childrenNamed container a.name) =
          some a.id := by
        refine Session.pickChild?_eq_some ?_ hid fun other hother hwanted => ?_
        · exact h.mem_childrenNamed.mpr ⟨a, haccepted.symm ▸ ha, hcontainer, rfl, rfl⟩
        · obtain ⟨b, hb, hbc, hname, rfl⟩ := h.mem_childrenNamed.mp hother
          have hb := mem_of_mem_accepted hb
          have hsame := eq_of_containers hwf haccepted hapart hb ha hbc hcontainer hname
            (h.kind_of_isContainer hwf hb hwanted) (h.kind_of_isContainer hwf ha hid)
          exact congrArg Attempt.id hsame
      rw [List.append_assoc, List.singleton_append, ih (List.cons_ne_nil _ _) hmember,
        Session.follow?, if_pos hmember, hempty, hpick]

/-- The names of a canonical path lead back to the declaration, in the namespace of which they are
looked up. -/
theorem follow?_of_leads (ha : a ∈ c.attempts settings)
    (hleads : Leads (c.attempts settings) c.node.id names a.id) :
    base.follow? a.space c.node.id names = some a.id := by
  have hnested := c.nested hwf settings
  generalize hid : a.id = id at hleads
  cases hleads with
  | root => exact absurd hid (hnested.id_ne_root ha)
  | @step names container b hleads hb hcontainer =>
      obtain rfl := hnested.eq_of_id ha hb hid
      have hmember := h.isContainer_of_member hwf ha hcontainer
      rw [h.follow?_append_of_leads hwf haccepted hapart (List.cons_ne_nil _ _) hleads hmember]
      exact h.follow?_of_accepted hwf (haccepted.symm ▸ ha) hcontainer

end Exact

end Crate.FirstPass

/-! ### Both directions -/

namespace Crate

variable {c : Crate} {settings : Settings} {s : Session} {x : PlacedSite} {p : Path}
  {prefer : Namespace} {env : Env} {names : List String}

/-- A path from the crate root that is looked up is resolved to what its names lead to. -/
theorem SecondPass.resolved?_of_fromRoot (hwf : c.WellFormed)
    (hs : c.SecondPass (c.registered settings) s) (hlook : c.LooksUp settings x p prefer env)
    (hp : p.FromRoot names) :
    s.tables.resolved? p.node.id = (c.registered settings).follow? prefer c.node.id names := by
  rw [hs.resolved?_of_looksUp hwf hlook, Path.value_read_fromRoot hp,
    (c.firstPass hwf settings).root, Option.map_map]
  exact Option.map_id_apply

/-- **Canonical paths and paths from the crate root are inverse to each other.** What a path
`crate::n₁::…::nₖ` is resolved to has the canonical path `n₁::…::nₖ`, behind the prefix of the
crate. And if no name was declared twice and modules are named apart, everything that has a
container has a canonical path behind the prefix of the crate, and a path from the crate root with
the same names that is looked up, where its namespace is preferred, is resolved to it. Every path is
looked up unless it stands inside another one, and nothing comes of those that are skipped. -/
theorem canonical_paths_inverse (hwf : c.WellFormed) (settings : Settings) :
    ∃ r, c.resolve settings = .ok r ∧
      (∀ x ∈ c.sites, ∀ p gates names d, x.site = .path p gates → p.FromRoot names →
        r.declarationOf? p.node.id = some d →
        ∃ path, r.tables.paths.get? d = some path ∧
          path.texts = (Session.rootPathFor c settings).texts ++ names) ∧
      ((c.registered settings).errors.reported.filter ResolveError.isDuplicate = [] →
        c.ModulesNamedApart settings →
        ∀ a ∈ c.attempts settings, a.container.isSome →
          r.tables.paths.get? a.id = some a.path ∧
          ∃ names, names ≠ [] ∧ a.path.texts = (Session.rootPathFor c settings).texts ++ names ∧
            ∀ x p env, c.LooksUp settings x p a.space env → p.FromRoot names →
              r.declarationOf? p.node.id = some a.id) ∧
      c.LooksUpOrSkips settings r.tables := by
  have hbase := c.firstPass hwf settings
  have hnested := c.nested hwf settings
  obtain ⟨s, r, h⟩ := c.exists_outcome hwf settings
  have hs := h.secondPass
  have hresolved (id : NodeId) : r.declarationOf? id = s.tables.resolved? id := by
    rw [← h.tables]
    rfl
  have hpath : ∀ a ∈ c.attempts settings, a.container.isSome →
      r.tables.paths.get? a.id = some a.path := fun a ha hcontainer => by
    rw [h.tables]
    exact hs.paths a.id a.path
      (hbase.paths a ha (Or.inl ((hnested.origin a ha).vis_of_container hcontainer)))
  refine ⟨r, h.resolve, fun x hx p gates names d hsite hp hd => ?_,
    fun hduplicates hapart a ha hcontainer => ?_, h.tables ▸ hs.looksUpOrSkips hwf⟩
  · rw [hresolved] at hd
    obtain ⟨prefer, env, hlook⟩ :=
      hs.exists_looksUp_of_resolved hwf hx hsite List.mem_cons_self hd
    have hfollow : (c.registered settings).follow? prefer c.node.id names = some d :=
      (hs.resolved?_of_fromRoot hwf hlook hp).symm.trans hd
    rcases hnested.texts_of_leads (hbase.leads_of_follow? .root hfollow) with
      ⟨-, hnil⟩ | ⟨a, ha, rfl, hcontainer, htexts⟩
    · exact absurd hnil hp.proper
    · exact ⟨a.path, hpath a ha hcontainer, htexts⟩
  · have haccepted : accepted (c.attempts settings) = c.attempts settings :=
      accepted_eq_self (hbase.duplicates.symm.trans hduplicates)
    obtain ⟨container, hmember⟩ := Option.isSome_iff_exists.mp hcontainer
    obtain ⟨names, hleads⟩ := hnested.exists_leads ha hmember
    rcases hnested.texts_of_leads hleads with ⟨hroot, -⟩ | ⟨b, hb, hid, -, htexts⟩
    · exact absurd hroot (hnested.id_ne_root ha)
    · obtain rfl := hnested.eq_of_id hb ha hid
      have hne : names ≠ [] := fun hnil => hnested.id_ne_root ha (hleads.eq_root hnil)
      refine ⟨hpath b ha hcontainer, names, hne, htexts, fun x p env hlook hp => ?_⟩
      rw [hresolved, hs.resolved?_of_fromRoot hwf hlook hp]
      exact hbase.follow?_of_leads hwf haccepted hapart ha hleads

/-- The path `crate::m::g`. -/
def pathToNestedFunction : Path :=
  ⟨⟨⟨6⟩, ⟨40, 1⟩⟩, [⟨⟨⟨7⟩, ⟨40, 1⟩⟩, .crate, none⟩, ⟨⟨⟨8⟩, ⟨47, 1⟩⟩, .ident "m", none⟩,
    ⟨⟨⟨9⟩, ⟨50, 1⟩⟩, .ident "g", none⟩]⟩

/-- A function `g` in a module `m`, and one in the crate root that uses it as `crate::m::g`. -/
def withNestedFunction : Crate where
  node := ⟨⟨0⟩, ⟨0, 60⟩⟩
  items :=
    let node (id offset : Nat) : Node := ⟨⟨id⟩, ⟨offset, 1⟩⟩
    let function (id offset : Nat) (name : String) (body : Option Block) : Item :=
      ⟨node id offset, .ownModule,
        .function ⟨⟨name, ⟨offset + 3, 1⟩⟩, .none, none, [], none, body⟩⟩
    [⟨node 1 0, .ownModule, .module ⟨"m", ⟨4, 1⟩⟩ [function 2 8 "g" none]⟩,
      function 3 30 "f" (some ⟨node 4 38, [], some (.path (node 5 40) pathToNestedFunction)⟩)]
  idBound := ⟨10⟩

theorem canonical_paths_withNestedFunction :
    withNestedFunction.WellFormed ∧
      (∃ x env, withNestedFunction.LooksUp {} x pathToNestedFunction .name env) ∧
      pathToNestedFunction.FromRoot ["m", "g"] ∧
      ∃ r, withNestedFunction.resolve {} = .ok r ∧ r.declarationOf? ⟨6⟩ = some ⟨2⟩ ∧
        ∃ path, r.tables.paths.get? ⟨2⟩ = some path ∧ path.texts = ["m", "g"] := by
  have hwf : withNestedFunction.WellFormed := by decide
  have hfrom : pathToNestedFunction.FromRoot ["m", "g"] := ⟨by decide, rfl⟩
  obtain ⟨prefer, env, hlook⟩ := withNestedFunction.exists_looksUp_of_open {}
    (x := ⟨[⟨0⟩], .path pathToNestedFunction []⟩) (List.mem_of_getElem? (i := 3) rfl) rfl
  -- The path is visited once, as the path of an expression.
  have hvisits : ∀ v ∈ (withNestedFunction.read
      (withNestedFunction.registered {})).findings.filterMap Finding.visited?,
      v.1 = ⟨6⟩ → v.2.2.1 = .name := by
    decide +kernel
  obtain ⟨outcome, hvisit⟩ := hlook.visit
  obtain rfl : prefer = .name :=
    hvisits (⟨6⟩, _, prefer, env) (List.mem_filterMap.mpr ⟨_, hvisit, rfl⟩) rfl
  have hduplicates : (withNestedFunction.registered {}).errors.reported.filter
      ResolveError.isDuplicate = [] := by decide +kernel
  have hapart : withNestedFunction.ModulesNamedApart {} := by
    unfold ModulesNamedApart
    decide +kernel
  obtain ⟨r, hr, hsound, hcomplete, -⟩ := canonical_paths_inverse hwf {}
  have hg : ∃ a ∈ withNestedFunction.attempts {}, a.container.isSome ∧ a.id = ⟨2⟩ ∧
      a.space = .name ∧ a.path.texts = ["m", "g"] := by decide +kernel
  obtain ⟨a, ha, hcontainer, hid, hspace, htexts⟩ := hg
  obtain ⟨-, names, -, hnames, hresolved⟩ := hcomplete hduplicates hapart a ha hcontainer
  obtain rfl : names = ["m", "g"] := hnames.symm.trans htexts
  have hd := hresolved _ _ env (hspace ▸ hlook) hfrom
  rw [hid] at hd
  exact ⟨hwf, ⟨_, env, hlook⟩, hfrom, r, hr, hd,
    hsound _ hlook.mem_sites _ [] _ _ rfl hfrom hd⟩

/-- Where the second pass turns back before it gets to `crate::S`, the path is not resolved to the
struct, although nothing is declared twice and the path has the names of the canonical one. -/
theorem canonical_paths_skipped :
    (withSkippedPath .crate).WellFormed ∧
      ((withSkippedPath .crate).registered {}).errors.reported.filter
        ResolveError.isDuplicate = [] ∧
      (withSkippedPath .crate).ModulesNamedApart {} ∧
      ∃ r, (withSkippedPath .crate).resolve {} = .ok r ∧
        ∃ a ∈ (withSkippedPath .crate).attempts {}, a.container.isSome ∧ a.space = .type ∧
          a.path.texts = (Session.rootPathFor (withSkippedPath .crate) {}).texts ++ ["S"] ∧
          ∃ p, (withSkippedPath .crate).HasArgument [⟨0⟩] p ∧ p.FromRoot ["S"] ∧
            r.declarationOf? p.node.id ≠ some a.id := by
  have hwf : (withSkippedPath .crate).WellFormed := by decide
  obtain ⟨r, hr⟩ := resolve_succeeds hwf {}
  have hnone : r.declarationOf? (Path.toSkip .crate).node.id = none :=
    of_resolve hr (by decide +kernel)
  have hapart : (withSkippedPath .crate).ModulesNamedApart {} := by
    unfold ModulesNamedApart
    decide +kernel
  have hstruct : ∃ a ∈ (withSkippedPath .crate).attempts {}, a.container.isSome ∧
      a.space = .type ∧
      a.path.texts = (Session.rootPathFor (withSkippedPath .crate) {}).texts ++ ["S"] := by
    decide +kernel
  obtain ⟨a, ha, hcontainer, hspace, htexts⟩ := hstruct
  refine ⟨hwf, by decide +kernel, hapart, r, hr, a, ha, hcontainer, hspace, htexts, .toSkip .crate,
    hasArgument_withSkippedPath .crate, ⟨by decide, rfl⟩, ?_⟩
  rw [hnone]
  exact (Option.some_ne_none _).symm

end Crate

end NameResolution
