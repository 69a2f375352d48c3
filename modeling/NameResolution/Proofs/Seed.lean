import NameResolution.Resolve.Crate
import NameResolution.Proofs.Growth

/-!
# NameResolution.Proofs.Seed

**What is known before a crate is looked at.** Seeding a session succeeds and leaves
behind the prelude with the primitive types, the canonical paths of the crate root and of
the built-in types, and nothing else (`Session.Seeded`).

The identities of the built-in types are the ones from the bound of the crate on
(`Builtins.types_allocate`), so they are all different and none of them is in the tree.
-/

namespace NameResolution

open Resolution

/-! ### Identities of built-in types -/

namespace Builtins

/-- The built-in types get the identities from the bound on, in order. -/
theorem types_allocate (bound : NodeId) :
    (allocate (.startingAt bound)).1.types =
      (List.range 20).map fun i => ⟨bound.value + i⟩ := rfl

theorem prelude_allocate (bound : NodeId) :
    (allocate (.startingAt bound)).1.prelude = ⟨bound.value + 20⟩ := rfl

theorem nodup_types (bound : NodeId) : (allocate (.startingAt bound)).1.types.Nodup := by
  rw [types_allocate]
  refine List.Pairwise.map _ (fun i j hne h => ?_) List.nodup_range
  injection h with h
  omega

theorem le_of_mem_types {bound id : NodeId} (h : id ∈ (allocate (.startingAt bound)).1.types) :
    bound.value ≤ id.value := by
  rw [types_allocate] at h
  obtain ⟨i, -, rfl⟩ := List.mem_map.mp h
  exact Nat.le_add_right _ _

/-- A node of the tree is neither a built-in type nor the prelude. -/
theorem apart_of_lt {bound id : NodeId} (h : id.value < bound.value) :
    id ∉ (allocate (.startingAt bound)).1.types ∧
      id ≠ (allocate (.startingAt bound)).1.prelude := by
  refine ⟨fun hin => absurd h (Nat.not_lt.mpr (le_of_mem_types hin)), fun heq => ?_⟩
  rw [heq, prelude_allocate] at h
  exact absurd h (Nat.not_lt.mpr (Nat.le_add_right _ _))

/-- The primitive types have the names of the table, each once. -/
theorem names_allocate (bound : NodeId) :
    (allocate (.startingAt bound)).1.primitives.map Prod.fst = primitiveNames := rfl

end Builtins

/-! ### The prelude -/

/-- The binding of a primitive type. -/
def primitiveBinding (p : String × NodeId) : Binding := ⟨.single p.2 p.1, p.2, ⟨0, 0⟩⟩

/-- The primitive type of a name, among some of them. -/
def findPrimitive? (l : List (String × NodeId)) (key : CanonicalPath) : Option (String × NodeId) :=
  l.find? fun p => decide ([p.1] = key.texts)

theorem findPrimitive?_single (i : NodeId) (name : String) : ∀ l : List (String × NodeId),
    (findPrimitive? l (.single i name)).map Prod.snd = l.lookup name
  | [] => rfl
  | (primitive, id) :: rest => by
      have ih := findPrimitive?_single i name rest
      unfold findPrimitive? at ih ⊢
      by_cases hname : primitive = name
      · simp [hname]
      · have hne : (name == primitive) = false := beq_eq_false_iff_ne.mpr (Ne.symm hname)
        rw [List.lookup_cons, hne, ← ih]
        simp [hname]

/-- A primitive type that is added to others is found if none of them has its name. -/
theorem findPrimitive?_append (l : List (String × NodeId)) (p : String × NodeId)
    (key : CanonicalPath) : findPrimitive? (l ++ [p]) key =
      (findPrimitive? l key).or (if [p.1] = key.texts then some p else none) := by
  unfold findPrimitive?
  rw [List.find?_append]
  by_cases hkey : [p.1] = key.texts
  · simp [hkey]
  · simp [hkey]

theorem findPrimitive?_eq_none {l : List (String × NodeId)} {p : String × NodeId}
    {key : CanonicalPath} (hname : p.1 ∉ l.map Prod.fst) (hkey : [p.1] = key.texts) :
    findPrimitive? l key = none := by
  refine List.find?_eq_none.mpr fun q hq => ?_
  have hne : q.1 ≠ p.1 := fun heq => hname (heq ▸ List.mem_map_of_mem hq)
  rw [← hkey]
  simpa using hne

/-- The symbol table of the types and the table of paths while the prelude is being filled, `done`
being the primitive types that are in it. -/
structure Filled (prelude : NodeId) (paths : Register CanonicalPath)
    (done : List (String × NodeId)) (types : Scope) (paths' : Register CanonicalPath) : Prop where
  opened : types.opened = [prelude]
  rib : (types.rib? prelude).isSome
  onlyRib : ∀ x, (types.rib? x).isSome → x = prelude
  binds : ∀ x key, types.bindingIn? x key =
    if x = prelude then (findPrimitive? done key).map primitiveBinding else none
  declared : ∀ id, id ∈ types.declared ↔ id ∈ done.map Prod.snd
  named : ∀ p ∈ done, paths'.get? p.2 = some (.single p.2 p.1)
  kept : ∀ id, id ∉ done.map Prod.snd → paths'.get? id = paths.get? id

/-- The session with another table of types and another table of paths. -/
def Session.filled (s : Session) (types : Scope) (paths : Register CanonicalPath) : Session :=
  { s with types, tables := { s.tables with paths } }

/-- One more primitive type. -/
theorem Filled.step {s : Session} {done : List (String × NodeId)} {types : Scope}
    {paths : Register CanonicalPath}
    (h : Filled s.builtins.prelude s.tables.paths done types paths) {p : String × NodeId}
    (hname : p.1 ∉ done.map Prod.fst) (hid : p.2 ∉ done.map Prod.snd)
    (hpathless : s.tables.paths.get? p.2 = none) :
    ∃ types' paths',
      Runs (bindPrimitive p.1 p.2) (s.filled types paths) () (s.filled types' paths') ∧
      Filled s.builtins.prelude s.tables.paths (done ++ [p]) types' paths' := by
  have hnew : types.bindingIn? s.builtins.prelude (primitiveBinding p).path = none := by
    rw [h.binds, if_pos rfl, findPrimitive?_eq_none hname rfl]
    rfl
  have hhead : ((s.filled types paths).scope .type).opened.head? = some s.builtins.prelude := by
    change types.opened.head? = _
    rw [h.opened]
    rfl
  have hbind : Runs (bindNew .type (primitiveBinding p)) (s.filled types paths) true
      (s.filled (types.bindIn s.builtins.prelude (primitiveBinding p)) paths) :=
    runs_makeBinding_added hhead (Or.inr hnew) redefinition
  have hpath : Runs (setPath p.2 (.single p.2 p.1))
      (s.filled (types.bindIn s.builtins.prelude (primitiveBinding p)) paths) ()
      (s.filled (types.bindIn s.builtins.prelude (primitiveBinding p))
        (paths.set p.2 (.single p.2 p.1))) :=
    runs_setPath ((h.kept p.2 hid).trans hpathless) _
  refine ⟨_, _, hbind.discard.bind hpath, h.opened, ?_, fun x hx => ?_, fun x key => ?_,
    fun id => ?_, fun q hq => ?_, fun id hout => ?_⟩
  · rw [Scope.isSome_rib?_bindIn]
    exact h.rib
  · rw [Scope.isSome_rib?_bindIn] at hx
    exact h.onlyRib x hx
  · rw [Scope.bindingIn?_bindIn h.rib, h.binds]
    by_cases hx : x = s.builtins.prelude
    · rw [if_pos hx, if_pos hx, findPrimitive?_append]
      by_cases hkey : [p.1] = key.texts
      · have hsame : (primitiveBinding p).path.SameText key := hkey
        rw [if_pos ⟨hx, hsame⟩, if_pos hkey, findPrimitive?_eq_none hname hkey]
        rfl
      · have hother : ¬ (primitiveBinding p).path.SameText key := hkey
        rw [if_neg fun hboth => hother hboth.2, if_neg hkey, Option.or_none]
    · rw [if_neg fun hboth => hx hboth.1, if_neg hx, if_neg hx]
  · rw [Scope.declared_bindIn, List.map_append, List.mem_append, List.mem_cons, h.declared]
    simp [primitiveBinding, or_comm]
  · rcases List.mem_append.mp hq with hq | hq
    · have hne : q.2 ≠ p.2 := fun heq => hid (heq ▸ List.mem_map_of_mem hq)
      rw [Register.get?_set_ne hne]
      exact h.named q hq
    · rw [List.mem_singleton.mp hq, Register.get?_set_self]
  · rw [List.map_append, List.mem_append, not_or] at hout
    have hne : id ≠ p.2 := fun heq => hout.2 (by simp [heq])
    rw [Register.get?_set_ne hne]
    exact h.kept id hout.1

/-- All of the primitive types, one after the other. -/
theorem Filled.all {s : Session} : ∀ (rest done : List (String × NodeId)) {types : Scope}
    {paths : Register CanonicalPath}, Filled s.builtins.prelude s.tables.paths done types paths →
      ((done ++ rest).map Prod.fst).Nodup → ((done ++ rest).map Prod.snd).Nodup →
      (∀ p ∈ rest, s.tables.paths.get? p.2 = none) →
      ∃ types' paths',
        Runs (rest.forM fun (name, id) => bindPrimitive name id) (s.filled types paths) ()
          (s.filled types' paths') ∧
        Filled s.builtins.prelude s.tables.paths (done ++ rest) types' paths'
  | [], done, types, paths, h, _, _, _ => ⟨types, paths, Runs.pure _ _, by rwa [List.append_nil]⟩
  | p :: rest, done, types, paths, h, hnames, hids, hpathless => by
      rw [List.append_cons] at hnames hids ⊢
      have hname : p.1 ∉ done.map Prod.fst := by
        rw [List.map_append, List.map_append] at hnames
        have hdisjoint := (List.nodup_append.mp (List.nodup_append.mp hnames).1).2.2
        exact fun hin => hdisjoint _ hin _ (by simp) rfl
      have hid : p.2 ∉ done.map Prod.snd := by
        rw [List.map_append, List.map_append] at hids
        have hdisjoint := (List.nodup_append.mp (List.nodup_append.mp hids).1).2.2
        exact fun hin => hdisjoint _ hin _ (by simp) rfl
      obtain ⟨types₁, paths₁, hrun₁, h₁⟩ := h.step hname hid (hpathless p List.mem_cons_self)
      obtain ⟨types₂, paths₂, hrun₂, h₂⟩ := Filled.all rest (done ++ [p]) h₁ hnames hids
        fun q hq => hpathless q (List.mem_cons_of_mem _ hq)
      exact ⟨types₂, paths₂, hrun₁.bind hrun₂, h₂⟩

/-- Filling the prelude of a session that has no types yet. -/
theorem Filled.between {s : Session} (htypes : s.types = .empty .type)
    (hnames : (s.builtins.primitives.map Prod.fst).Nodup)
    (hids : (s.builtins.primitives.map Prod.snd).Nodup)
    (hpathless : ∀ id ∈ s.builtins.primitives.map Prod.snd, s.tables.paths.get? id = none) :
    ∃ types paths,
      Runs (between Session.openPrelude Session.closePrelude
        (s.builtins.primitives.forM fun (name, id) => bindPrimitive name id)) s ()
        (s.filled { types with opened := [] } paths) ∧
      Filled s.builtins.prelude s.tables.paths s.builtins.primitives types paths := by
  have hempty : Filled s.builtins.prelude s.tables.paths [] (s.types.push s.builtins.prelude)
      s.tables.paths := by
    rw [htypes]
    refine ⟨rfl, Scope.isSome_rib?_push (Or.inl rfl), fun x hx => ?_, fun x key => ?_,
      fun _ => Iff.rfl, (fun p hp => nomatch hp), fun _ _ => rfl⟩
    · refine Decidable.byContradiction fun hne => ?_
      rw [Scope.rib?_push, if_neg hne] at hx
      exact Bool.false_ne_true hx
    · rw [Scope.bindingIn?_push]
      split <;> rfl
  obtain ⟨types, paths, hfill, hfilled⟩ := Filled.all s.builtins.primitives [] hempty hnames hids
    fun p hp => hpathless p.2 (List.mem_map_of_mem hp)
  have hclose : (s.filled types paths).closePrelude =
      (.ok (), s.filled { types with opened := [] } paths) := by
    have hpop := Scope.pop_cons hfilled.opened
    have hfield : (s.filled types paths).types = types := rfl
    have hprelude : (s.filled types paths).builtins = s.builtins := rfl
    unfold Session.closePrelude
    rw [hfield, hprelude, hpop]
    rfl
  exact ⟨types, paths, Runs.between hfill hclose, hfilled⟩

/-! ### The seeded session -/

/-- The built-in types that no path can spell. -/
def Builtins.special (b : Builtins) : List NodeId := [b.unit, b.never, b.inferred]

/-- How these are written. -/
def Builtins.specialTexts (b : Builtins) : List (NodeId × String) :=
  [(b.unit, "()"), (b.never, "!"), (b.inferred, "_")]

/-- How the built-in types are written. -/
def Builtins.texts (b : Builtins) : List (NodeId × String) :=
  b.primitives.map Prod.swap ++ b.specialTexts

theorem Builtins.map_fst_texts (b : Builtins) : b.texts.map Prod.fst = b.types := by
  simp [texts, specialTexts, types]

/-- What a session holds before the crate is looked at. -/
structure Session.Seeded (s : Session) : Prop where
  names : s.names = .empty .name
  closed : s.types.opened = []
  onlyRib : ∀ x, (s.types.rib? x).isSome → x = s.builtins.prelude
  binds : ∀ x key, s.types.bindingIn? x key =
    if x = s.builtins.prelude then
      (findPrimitive? s.builtins.primitives key).map primitiveBinding
    else none
  declared : ∀ id, id ∈ s.types.declared ↔ id ∈ s.builtins.primitives.map Prod.snd
  builtinTexts : ∀ e ∈ s.builtins.texts, s.tables.paths.get? e.1 = some (.single e.1 e.2)
  rootPath : s.tables.paths.get? s.root = some s.rootPath
  pathless : ∀ id, id ≠ s.root → id ∉ s.builtins.types → s.tables.paths.get? id = none
  tables : s.tables =
    { Tables.empty with
      containers := Register.empty.set s.root .module, paths := s.tables.paths }
  modules : s.modules = .empty
  reported : s.errors.reported = []

theorem Session.Seeded.builtinPaths {s : Session} (h : s.Seeded) {id : NodeId}
    (hid : id ∈ s.builtins.types) : ∃ path, s.tables.paths.get? id = some path := by
  rw [← s.builtins.map_fst_texts] at hid
  obtain ⟨e, he, rfl⟩ := List.mem_map.mp hid
  exact ⟨_, h.builtinTexts e he⟩

/-- The session in which these types have their paths. -/
private def Session.withSpecialPaths (s : Session) (b : Builtins) : Session :=
  ((s.withPath b.unit (.single b.unit "()")).withPath b.never (.single b.never "!")).withPath
    b.inferred (.single b.inferred "_")

private theorem get?_specialPaths (s : Session) (b : Builtins) (id : NodeId) :
    (s.withSpecialPaths b).tables.paths.get? id =
      if id = b.inferred then some (.single b.inferred "_")
      else if id = b.never then some (.single b.never "!")
      else if id = b.unit then some (.single b.unit "()")
      else s.tables.paths.get? id := by
  unfold Session.withSpecialPaths
  simp only [Session.withPath, Session.tables_withTables, Register.get?_set]

private theorem get?_specialPaths_of_not_mem (s : Session) {b : Builtins} {id : NodeId}
    (h : id ∉ b.special) :
    (s.withSpecialPaths b).tables.paths.get? id = s.tables.paths.get? id := by
  have hne : ∀ special ∈ b.special, id ≠ special := fun special hs heq => h (heq ▸ hs)
  rw [get?_specialPaths, if_neg (hne b.inferred (by simp [Builtins.special])),
    if_neg (hne b.never (by simp [Builtins.special])),
    if_neg (hne b.unit (by simp [Builtins.special]))]

private theorem get?_specialPath (s : Session) {b : Builtins} (hnodup : b.special.Nodup)
    {e : NodeId × String} (he : e ∈ b.specialTexts) :
    (s.withSpecialPaths b).tables.paths.get? e.1 = some (.single e.1 e.2) := by
  simp only [Builtins.special, List.nodup_cons, List.mem_cons, List.not_mem_nil, or_false,
    not_or] at hnodup
  rw [get?_specialPaths]
  simp only [Builtins.specialTexts, List.mem_cons, List.not_mem_nil, or_false] at he
  rcases he with rfl | rfl | rfl
  · rw [if_neg hnodup.1.2, if_neg hnodup.1.1, if_pos rfl]
  · rw [if_neg hnodup.2.1, if_pos rfl]
  · rw [if_pos rfl]

/-- The end of seeding: the built-in types that no path can spell get their paths. -/
private theorem runs_specialPaths {s : Session} {b : Builtins} (hnodup : b.special.Nodup)
    (hpathless : ∀ id ∈ b.special, s.tables.paths.get? id = none) :
    Runs
      (do
        setPath b.unit (.single b.unit "()")
        setPath b.never (.single b.never "!")
        setPath b.inferred (.single b.inferred "_"))
      s () (s.withSpecialPaths b) := by
  simp only [Builtins.special, List.nodup_cons, List.mem_cons, List.not_mem_nil, or_false, not_or,
    not_false_eq_true, List.nodup_nil, and_true] at hnodup
  obtain ⟨⟨hun, hui⟩, hni⟩ := hnodup
  have hunit : s.tables.paths.get? b.unit = none := hpathless _ (by simp [Builtins.special])
  have hnever : (s.withPath b.unit (.single b.unit "()")).tables.paths.get? b.never = none :=
    (Register.get?_set_ne (Ne.symm hun) _).trans (hpathless _ (by simp [Builtins.special]))
  have hinferred : ((s.withPath b.unit (.single b.unit "()")).withPath b.never
      (.single b.never "!")).tables.paths.get? b.inferred = none :=
    (Register.get?_set_ne (Ne.symm hni) _).trans ((Register.get?_set_ne (Ne.symm hui) _).trans
      (hpathless _ (by simp [Builtins.special])))
  exact (runs_setPath hunit _).bind ((runs_setPath hnever _).bind (runs_setPath hinferred _))

/-- Seeding succeeds, provided that the identity of the crate root is not that of a built-in
type. -/
theorem seed_runs (c : Crate) (settings : Settings) (hroot : c.node.id.value < c.idBound.value) :
    ∃ s, Runs seed (.start c settings) () s ∧ s.Seeded ∧
      s.builtins = (Builtins.allocate (.startingAt c.idBound)).1 ∧ s.root = c.node.id ∧
      s.rootPath = Session.rootPathFor c settings ∧
      s.errors.limit = settings.maxDiagnostics := by
  let start := Session.start c settings
  let b := (Builtins.allocate (.startingAt c.idBound)).1
  have hnodup : (b.primitives.map Prod.snd ++ b.special).Nodup := Builtins.nodup_types c.idBound
  obtain ⟨hnodupPrims, hnodupSpecial, hdisjoint⟩ := List.nodup_append.mp hnodup
  have hfresh : c.node.id ∉ b.types := (Builtins.apart_of_lt hroot).1
  have hprims : b.primitives.map Prod.snd ⊆ b.types := List.subset_append_left _ _
  have hspecial : b.special ⊆ b.types := List.subset_append_right _ _
  -- The root becomes a module with a path, then the prelude is filled.
  let tables :=
    { start.tables with containers := start.tables.containers.set start.root .module }
  let s₁ := (start.withTables tables).withPath start.root start.rootPath
  have hpathless : ∀ id, id ≠ c.node.id → s₁.tables.paths.get? id = none := fun id hne =>
    Register.get?_set_ne hne _
  have hbuiltin : ∀ id ∈ b.types, s₁.tables.paths.get? id = none := fun id hid =>
    hpathless id fun heq => hfresh (heq ▸ hid)
  obtain ⟨types, paths, hfill, hfilled⟩ := Filled.between (s := s₁) rfl
    (by change (b.primitives.map Prod.fst).Nodup; rw [Builtins.names_allocate]; decide)
    hnodupPrims fun id hid => hbuiltin id (hprims hid)
  let s₂ := s₁.filled { types with opened := [] } paths
  have hend := runs_specialPaths (s := s₂) (b := b) hnodupSpecial fun id hid =>
    (hfilled.kept id fun hin => hdisjoint id hin id hid rfl).trans (hbuiltin id (hspecial hid))
  have houtside : ∀ id ∉ b.types,
      (s₂.withSpecialPaths b).tables.paths.get? id = s₁.tables.paths.get? id := fun id hid =>
    (get?_specialPaths_of_not_mem s₂ fun hin => hid (hspecial hin)).trans
      (hfilled.kept id fun hin => hid (hprims hin))
  refine ⟨s₂.withSpecialPaths b, Runs.get_bind (Runs.bind (runs_updateTables _ start)
    (Runs.bind (runs_setPath rfl _) (Runs.bind hfill hend))), ?_, rfl, rfl, rfl, rfl⟩
  refine ⟨rfl, rfl, fun x hx => hfilled.onlyRib x hx, fun x key => hfilled.binds x key,
    fun id => hfilled.declared id, fun e he => ?_, ?_,
    fun id hne hout => (houtside id hout).trans (hpathless id hne), rfl, rfl, rfl⟩
  · rcases List.mem_append.mp he with he | he
    · obtain ⟨p, hp, rfl⟩ := List.mem_map.mp he
      have hid : p.2 ∈ b.primitives.map Prod.snd := List.mem_map_of_mem hp
      exact (get?_specialPaths_of_not_mem s₂ fun hin => hdisjoint p.2 hid p.2 hin rfl).trans
        (hfilled.named p hp)
    · exact get?_specialPath s₂ hnodupSpecial he
  · exact (houtside c.node.id hfresh).trans (Register.get?_set_self _ _ _)

end NameResolution
