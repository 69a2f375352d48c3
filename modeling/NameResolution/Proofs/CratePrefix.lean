import NameResolution.Proofs.CoupledPasses
import NameResolution.Proofs.Completion
import NameResolution.Proofs.KeptDeclarations
import NameResolution.Proofs.PrivateUses

/-!
# NameResolution.Proofs.CratePrefix

**The name of the crate before every canonical path changes the paths and nothing else**
(`Crate.crate_name_transparent`). The runs with the name and without it go through the same
stages, and at each of them the sessions differ in canonical paths alone
(`Session.Renamed`): what both runs have entered since the stage began stands under the same
keys, the paths of the second run having something in front (`Register.GrownAlike`).

* Seeding names the built-in types alike, once the crate root has its path.
* The first pass puts the name of the crate before every path that it enters.
* The second pass enters the same paths in both runs, which are those of binders.
-/

namespace NameResolution

open Resolution

/-! ### Registers that grow alike -/

/-- The same entries were added to two registers of canonical paths, but with `front` before each
path of the second one. -/
structure Register.GrownAlike (front : CanonicalPath)
    (old old' paths paths' : Register CanonicalPath) : Prop where
  keys : paths.keys = paths'.keys
  added : ∃ entries, paths.entries = entries ++ old.entries ∧
    paths'.entries = entries.map (fun e => (e.1, front ++ e.2)) ++ old'.entries

namespace Register

/-- Whether there is an entry depends on the keys. -/
theorem isSome_get?_iff {α : Type} (r : Register α) (id : NodeId) :
    (r.get? id).isSome ↔ id ∈ r.keys := by
  unfold get? keys
  rw [List.lookup_isSome_iff, List.mem_map]
  constructor
  · rintro ⟨e, he, hid⟩
    exact ⟨e, he, (eq_of_beq hid).symm⟩
  · rintro ⟨e, he, rfl⟩
    exact ⟨e, he, beq_self_eq_true _⟩

theorem isSome_get?_eq {α β : Type} {r : Register α} {r' : Register β} (h : r.keys = r'.keys)
    (id : NodeId) : (r.get? id).isSome = (r'.get? id).isSome := by
  rw [Bool.eq_iff_iff, isSome_get?_iff, isSome_get?_iff, h]

/-- Changing what is entered changes what is found. -/
theorem lookup_map {α β : Type} (f : α → β) (l : List (NodeId × α)) (id : NodeId) :
    (l.map fun e => (e.1, f e.2)).lookup id = (l.lookup id).map f := by
  induction l with
  | nil => rfl
  | cons e l ih =>
      obtain ⟨key, a⟩ := e
      by_cases hid : id = key
      · simp [hid]
      · have hne : (id == key) = false := beq_false_of_ne hid
        simp [List.lookup_cons, hne, ih]

namespace GrownAlike

variable {front : CanonicalPath} {old old' paths paths' : Register CanonicalPath}

theorem start (h : old.keys = old'.keys) : GrownAlike front old old' old old' :=
  ⟨h, [], rfl, rfl⟩

theorem set (h : GrownAlike front old old' paths paths') (id : NodeId) (path : CanonicalPath) :
    GrownAlike front old old' (paths.set id path) (paths'.set id (front ++ path)) := by
  obtain ⟨entries, hpaths, hpaths'⟩ := h.added
  refine ⟨by rw [keys_set, keys_set, h.keys], (id, path) :: entries, ?_, ?_⟩
  · simp [Register.set, hpaths]
  · simp [Register.set, hpaths']

/-- What had no path at first has one with `front` before it in the second register if it has one in
the first. -/
theorem get?_eq (h : GrownAlike front old old' paths paths') {id : NodeId}
    (hnone : old.get? id = none) (hnone' : old'.get? id = none) :
    paths'.get? id = (paths.get? id).map (front ++ ·) := by
  obtain ⟨entries, hpaths, hpaths'⟩ := h.added
  unfold Register.get? at *
  rw [hpaths, hpaths', List.lookup_append, List.lookup_append, lookup_map, hnone, hnone',
    Option.or_none, Option.or_none]

end GrownAlike

end Register

/-! ### Sessions that differ in canonical paths -/

/-- Plain changes of the tables leave canonical paths and visibilities alone. -/
theorem Tables.Plain.kept {f : Tables → Tables} (h : Tables.Plain f) (t : Tables) :
    (f t).paths = t.paths ∧ (f t).qualified = t.qualified ∧
      (f t).visibilities = t.visibilities := by
  have hown : f t = (f t).respelled t.paths t.qualified t.visibilities :=
    h t t.paths t.qualified t.visibilities
  refine ⟨?_, ?_, ?_⟩ <;> rw [hown] <;> rfl

/-- Which uses are not allowed has nothing to do with canonical paths. -/
theorem Tables.privateUses_respelled (t : Tables) (paths qualified : Register CanonicalPath) :
    (t.respelled paths qualified t.visibilities).privateUses = t.privateUses := by
  have hsame : Session.SameDeclarations t (t.respelled paths qualified t.visibilities) :=
    ⟨rfl, rfl, rfl, rfl, rfl⟩
  refine List.filterMap_congr fun site _ => ?_
  unfold Tables.privateUse? Tables.isVisible Tables.isWithin
  simp only [hsame.enclosing]
  rfl

namespace Session

/-- The session with other canonical paths. -/
def renamed (s : Session) (rootPath : CanonicalPath) (paths qualified : Register CanonicalPath) :
    Session :=
  { s with rootPath, tables := s.tables.respelled paths qualified s.tables.visibilities }

/-- Two sessions differ in nothing but canonical paths, which have grown alike. -/
inductive Renamed (front : CanonicalPath) (old old' : Register CanonicalPath) :
    Session → Session → Prop
  | intro {s : Session} (rootPath : CanonicalPath) (paths qualified : Register CanonicalPath)
      (hpaths : Register.GrownAlike front old old' s.tables.paths paths)
      (hqualified : s.tables.qualified.keys = qualified.keys) :
      Renamed front old old' s (s.renamed rootPath paths qualified)

namespace Renamed

variable {front : CanonicalPath} {old old' : Register CanonicalPath} {s s' : Session}

theorem grownAlike (h : Renamed front old old' s s') :
    Register.GrownAlike front old old' s.tables.paths s'.tables.paths := by
  obtain ⟨_, _, _, hpaths, -⟩ := h
  exact hpaths

theorem qualified_keys (h : Renamed front old old' s s') :
    s.tables.qualified.keys = s'.tables.qualified.keys := by
  obtain ⟨_, _, _, -, hqualified⟩ := h
  exact hqualified

/-- A new stage begins with the paths that there are. -/
theorem restart (h : Renamed front old old' s s') (next : CanonicalPath) :
    Renamed next s.tables.paths s'.tables.paths s s' := by
  obtain ⟨rootPath, paths, qualified, hpaths, hqualified⟩ := h
  exact .intro rootPath paths qualified (.start hpaths.keys) hqualified

theorem sameView (h : Renamed front old old' s s') : s.SameView s' := by
  obtain ⟨rootPath, paths, qualified, hpaths, -⟩ := h
  exact ⟨rfl, rfl, fun space => by cases space <;> rfl, rfl, rfl, rfl, rfl, fun _ => rfl,
    fun id => Register.isSome_get?_eq hpaths.keys id⟩

theorem withPath (h : Renamed front old old' s s') (id : NodeId) (path : CanonicalPath) :
    Renamed front old old' (s.withPath id path) (s'.withPath id (front ++ path)) := by
  obtain ⟨rootPath, paths, qualified, hpaths, hqualified⟩ := h
  exact .intro rootPath _ qualified (hpaths.set id path) hqualified

theorem plain (h : Renamed front old old' s s') {f : Tables → Tables} (hf : Tables.Plain f) :
    Renamed front old old' (s.withTables (f s.tables)) (s'.withTables (f s'.tables)) := by
  obtain ⟨rootPath, paths, qualified, hpaths, hqualified⟩ := h
  obtain ⟨hp, hq, hv⟩ := hf.kept s.tables
  have hsession : (s.renamed rootPath paths qualified).withTables
      (f (s.renamed rootPath paths qualified).tables) =
      (s.withTables (f s.tables)).renamed rootPath paths qualified := by
    unfold renamed
    rw [hf, tables_withTables, hv]
    rfl
  rw [hsession]
  refine .intro rootPath paths qualified ?_ ?_
  · rwa [tables_withTables, hp]
  · rwa [tables_withTables, hq]

theorem lockstep : Session.Lockstep (Renamed front old old') where
  sameView := sameView
  reporting h e := by
    obtain ⟨rootPath, paths, qualified, hpaths, hqualified⟩ := h
    exact .intro rootPath paths qualified hpaths hqualified
  withBinding h space owner b := by
    obtain ⟨rootPath, paths, qualified, hpaths, hqualified⟩ := h
    cases space <;> exact .intro rootPath paths qualified hpaths hqualified
  openFrame h owner := by
    obtain ⟨rootPath, paths, qualified, hpaths, hqualified⟩ := h
    exact .intro rootPath paths qualified hpaths hqualified
  openModule h module := by
    obtain ⟨rootPath, paths, qualified, hpaths, hqualified⟩ := h
    exact .intro rootPath paths qualified hpaths hqualified
  withoutFrame h := by
    obtain ⟨rootPath, paths, qualified, hpaths, hqualified⟩ := h
    exact .intro rootPath paths qualified hpaths hqualified
  withoutModule h := by
    obtain ⟨rootPath, paths, qualified, hpaths, hqualified⟩ := h
    exact .intro rootPath paths qualified hpaths hqualified
  plain h _ hf := h.plain hf

/-- Declaring things under another crate path renames them. -/
theorem registering : Session.Registering front (Renamed front old old') where
  toLockstep := lockstep
  setVisibility h id v := by
    obtain ⟨rootPath, paths, qualified, hpaths, hqualified⟩ := h
    exact .intro rootPath paths qualified hpaths hqualified
  withPath h id path _ := h.withPath id path

/-- What is done inside the items does not depend on what declarations are called. -/
theorem coupling : Session.Coupling False (Renamed .empty old old') where
  toLockstep := lockstep
  paths _ hfalse := hfalse.elim
  withPath h id path _ := h.withPath id path
  setQualified h use path path' _ := by
    obtain ⟨rootPath, paths, qualified, hpaths, hqualified⟩ := h
    refine .intro rootPath paths (qualified.set use path') hpaths ?_
    rw [tables_withTables, Register.keys_set, Register.keys_set, hqualified]

theorem openPrelude (h : Renamed front old old' s s') :
    Renamed front old old' s.openPrelude s'.openPrelude := by
  obtain ⟨rootPath, paths, qualified, hpaths, hqualified⟩ := h
  exact .intro rootPath paths qualified hpaths hqualified

theorem closePrelude (h : Renamed front old old' s s') :
    Renamed front old old' s.closePrelude.2 s'.closePrelude.2 := by
  obtain ⟨rootPath, paths, qualified, hpaths, hqualified⟩ := h
  exact .intro rootPath paths qualified hpaths hqualified

end Renamed

end Session

/-! ### The stages -/

/-- The session in which only the crate root is known. -/
private def Session.atRoot (c : Crate) (settings : Settings) : Session :=
  ((Session.start c settings).withTables
    { Tables.empty with containers := Register.empty.set c.node.id .module }).withPath c.node.id
      (Session.rootPathFor c settings)

/-- Seeding enters the canonical path of the crate root before anything else. -/
private theorem runs_seedBuiltins {c : Crate} {settings : Settings} {s : Session}
    (h : Runs seed (.start c settings) () s) :
    Runs (seedBuiltins (Builtins.allocate (.startingAt c.idBound)).1) (.atRoot c settings) ()
      s := by
  rw [seed_eq] at h
  obtain ⟨_, s₁, hmark, hrest⟩ := h.get_bind_inv.bind_inv
  obtain ⟨-, rfl⟩ := hmark.eq (runs_updateTables _ _)
  obtain ⟨_, s₂, hpath, hrest⟩ := hrest.bind_inv
  obtain ⟨-, rfl⟩ := hpath.eq (runs_setPath rfl _)
  exact hrest

namespace Crate

variable {c : Crate}

/-- The settings without and with the name of the crate before every canonical path. -/
private def named (settings : Settings) (prefixCrateName : Bool) : Settings :=
  { settings with prefixCrateName }

/-- The canonical path that every other one starts with if the name of the crate is put before
it. -/
def namePath (c : Crate) (settings : Settings) : CanonicalPath :=
  .single c.node.id settings.crateName

/-- After seeding, the crate root has another path in the two runs and nothing else has. -/
private theorem renamed_seed {settings : Settings} {s s' : Session}
    (hrun : Runs seed (.start c (named settings false)) () s)
    (hrun' : Runs seed (.start c (named settings true)) () s') :
    Session.Renamed .empty (Register.empty.set c.node.id .empty)
      (Register.empty.set c.node.id (c.namePath settings)) s s' := by
  have hroot : Session.Renamed .empty (Register.empty.set c.node.id .empty)
      (Register.empty.set c.node.id (c.namePath settings)) (.atRoot c (named settings false))
      (.atRoot c (named settings true)) :=
    .intro (c.namePath settings) _ .empty (.start rfl) rfl
  exact (Session.Renamed.coupling.seedBuiltins (fun _ _ h => h.openPrelude)
    (fun _ _ h => h.closePrelude) _ hroot (runs_seedBuiltins hrun) (runs_seedBuiltins hrun')).1

/-- The first pass puts the name of the crate before every path that it enters. -/
private theorem exists_renamed (hwf : c.WellFormed) (settings : Settings) :
    ∃ s s', Runs seed (.start c (named settings false)) () s ∧ s.Seeded ∧
      Runs seed (.start c (named settings true)) () s' ∧ s'.Seeded ∧
      s.root = c.node.id ∧ s.builtins = (Builtins.allocate (.startingAt c.idBound)).1 ∧
      Session.Renamed .empty (Register.empty.set c.node.id .empty)
        (Register.empty.set c.node.id (c.namePath settings)) s s' ∧
      Session.Renamed (c.namePath settings) s.tables.paths s'.tables.paths
        (c.registered (named settings false)) (c.registered (named settings true)) := by
  obtain ⟨s, hseed, hs, hbuiltins, hroot, hrootPath, -⟩ :=
    seed_runs c (named settings false) hwf.root_lt
  obtain ⟨s', hseed', hs', -, -, hrootPath', -⟩ := seed_runs c (named settings true) hwf.root_lt
  have hseeded := renamed_seed hseed hseed'
  refine ⟨s, s', hseed, hs, hseed', hs', hroot, hbuiltins, hseeded, ?_⟩
  -- Both runs go on from the seeded sessions, under the crate paths that these hold.
  have hrun := c.runs_firstPass hwf (named settings false)
  have hrun' := c.runs_firstPass hwf (named settings true)
  obtain ⟨_, t, ht, hdeclare⟩ := hrun.bind_inv
  obtain ⟨_, t', ht', hdeclare'⟩ := hrun'.bind_inv
  obtain ⟨-, rfl⟩ := ht.eq hseed
  obtain ⟨-, rfl⟩ := ht'.eq hseed'
  have hitems : InStep (Session.Renamed (c.namePath settings) s.tables.paths s'.tables.paths) Eq
      (declareItems (.ofModule .empty) c.items)
      (declareItems (.ofModule (c.namePath settings)) c.items) :=
    Session.Renamed.registering.items (.ofModule .empty) c.items
  have hcrate := hdeclare.get_bind_inv
  have hcrate' := hdeclare'.get_bind_inv
  rw [hrootPath] at hcrate
  rw [hrootPath'] at hcrate'
  exact (Session.Renamed.lockstep.inCrate hitems (hseeded.restart _) hcrate hcrate').1

/-- After the first pass, the crate root and all that was declared have the name of the crate before
their canonical paths. -/
private theorem paths_registered (hwf : c.WellFormed) (settings : Settings) {id : NodeId}
    (hid : id ∈ c.node.id :: itemsDeclaredIds c.items) :
    (c.registered (named settings true)).tables.paths.get? id =
      ((c.registered (named settings false)).tables.paths.get? id).map
        (c.namePath settings ++ ·) := by
  rcases List.mem_cons.mp hid with rfl | hid
  · have hpass := c.firstPass hwf (named settings false)
    have hpass' := c.firstPass hwf (named settings true)
    have hnamed := hpass.rootNamed
    have hnamed' := hpass'.rootNamed
    rw [hpass.root, hpass.rootPath] at hnamed
    rw [hpass'.root, hpass'.rootPath] at hnamed'
    rw [hnamed, hnamed']
    rfl
  · obtain ⟨s, s', -, hs, -, hs', hroot, hbuiltins, hseeded, hregistered⟩ :=
      exists_renamed hwf settings
    have view := hseeded.sameView
    have hne : id ≠ c.node.id := fun heq =>
      (List.nodup_cons.mp hwf.nodup).1 (List.mem_append_left _ (heq ▸ hid))
    have hapart := (Builtins.apart_of_lt (hwf.lt_of_mem (List.mem_append_left _ hid))).1
    refine hregistered.grownAlike.get?_eq (hs.pathless id (hroot ▸ hne) (hbuiltins ▸ hapart)) ?_
    exact hs'.pathless id (view.root ▸ hroot ▸ hne) (view.builtins ▸ hbuiltins ▸ hapart)

/-- Nothing else that has a canonical path after the first pass is affected. -/
private theorem paths_registered_of_not_declared (hwf : c.WellFormed) (settings : Settings)
    {id : NodeId} (hid : id ∉ c.node.id :: itemsDeclaredIds c.items) :
    (c.registered (named settings true)).tables.paths.get? id =
      (c.registered (named settings false)).tables.paths.get? id := by
  rw [List.mem_cons, not_or] at hid
  obtain ⟨hne, hdeclared⟩ := hid
  by_cases hbuiltin : id ∈ (Builtins.allocate (.startingAt c.idBound)).1.types
  · obtain ⟨s, s', hseed, -, hseed', -, -, -, hseeded, -⟩ := exists_renamed hwf settings
    have hpass := c.firstPass hwf (named settings false)
    have hpass' := c.firstPass hwf (named settings true)
    obtain ⟨path, hpath, hlast⟩ := hpass.builtinPaths id (hpass.builtins ▸ hbuiltin)
    obtain ⟨path', hpath', hlast'⟩ := hpass'.builtinPaths id (hpass'.builtins ▸ hbuiltin)
    rw [show exec seed (.start c (named settings false)) = (.ok (), s) from hseed] at hpath
    rw [show exec seed (.start c (named settings true)) = (.ok (), s') from hseed'] at hpath'
    have hsame := hseeded.grownAlike.get?_eq (Register.get?_set_ne hne _)
      (Register.get?_set_ne hne _)
    rw [hpath, hpath'] at hsame
    rw [hlast, hlast', hsame]
    rfl
  · rw [(c.unused_of_not_declared hwf (named settings true) hne hbuiltin hdeclared).pathless,
      (c.unused_of_not_declared hwf (named settings false) hne hbuiltin hdeclared).pathless]

/-- No binder is the crate root or declares something. -/
theorem not_mem_of_binder (hwf : c.WellFormed) {id : NodeId} (h : id ∈ c.binders.map Binder.id) :
    id ∉ c.node.id :: itemsDeclaredIds c.items := by
  obtain ⟨b, hb, rfl⟩ := List.mem_map.mp h
  have hbody := mem_bodyIds_of_binder hb
  obtain ⟨hroot, hrest⟩ := List.nodup_cons.mp hwf.nodup
  rw [List.mem_cons, not_or]
  refine ⟨fun heq => hroot (List.mem_append_right _ (heq ▸ hbody)), fun hdeclared => ?_⟩
  exact (List.nodup_append.mp hrest).2.2 b.id hdeclared b.id hbody rfl

/-- No built-in type is the crate root or declares something. -/
theorem not_mem_of_builtin (hwf : c.WellFormed) {id : NodeId}
    (h : id ∈ (Builtins.allocate (.startingAt c.idBound)).1.types) :
    id ∉ c.node.id :: itemsDeclaredIds c.items := by
  rw [List.mem_cons, not_or]
  refine ⟨?_, fun hdeclared => ?_⟩
  · rintro rfl
    exact (Builtins.apart_of_lt hwf.root_lt).1 h
  · exact (Builtins.apart_of_lt (hwf.lt_of_mem (List.mem_append_left _ hdeclared))).1 h

/-- The second pass leaves the built-in types what they are. -/
private theorem builtins_of_resolveItems {s s' : Session} (h : Runs c.resolveItems s () s') :
    s'.builtins = s.builtins := by
  have stable : Session.Stable fun s s' => s'.builtins = s.builtins :=
    { refl := fun _ => rfl
      trans := fun h₁ h₂ => h₂.trans h₁
      reporting := fun _ _ => rfl
      withPath := fun _ _ _ => rfl
      withBinding := fun s space _ _ => s.builtins_withScope space _ }
  have rules : PrimitiveRules (Keeps fun s s' => s'.builtins = s.builtins) :=
    stable.primitives (fun _ _ _ => rfl) (fun h => h) (fun h => h)
  exact h.keeps (rules.treeRules.resolveCrate c)

/-- What has no canonical path after the first pass and gets one in the second pass is a binder. -/
theorem mem_binders_of_new_path (hwf : c.WellFormed) {settings : Settings} {s : Session}
    (hrun : Runs c.resolveItems (c.registered settings) () s) {id : NodeId}
    (hnone : (c.registered settings).tables.paths.get? id = none)
    (hsome : (s.tables.paths.get? id).isSome) : id ∈ c.binders.map Binder.id := by
  obtain ⟨added, hadded, hproceeds⟩ := c.exists_proceeds_of_runs hwf hrun
  obtain ⟨path, hpath⟩ := Option.isSome_iff_exists.mp hsome
  rcases hproceeds.introduced.get?_paths hpath with ⟨b, hb, hid, -⟩ | hbefore
  · exact List.mem_map.mpr ⟨b, hadded.subset hb, hid⟩
  · rw [hnone] at hbefore
    cases hbefore

/-- Whether something has a canonical path after the first pass does not depend on the name of the
crate. -/
private theorem isSome_registered (hwf : c.WellFormed) (settings : Settings) (id : NodeId) :
    ((c.registered (named settings false)).tables.paths.get? id).isSome =
      ((c.registered (named settings true)).tables.paths.get? id).isSome := by
  obtain ⟨_, _, -, -, -, -, -, -, -, hregistered⟩ := exists_renamed hwf settings
  exact hregistered.sameView.named id

section Resolved

variable {settings : Settings} {s s' : Session} (hwf : c.WellFormed)
  (hrun : Runs c.resolveItems (c.registered (named settings false)) () s)
  (hrun' : Runs c.resolveItems (c.registered (named settings true)) () s')

include hwf hrun hrun'

/-- The second pass enters the same canonical paths in both runs. -/
private theorem renamed_resolved :
    Session.Renamed .empty (c.registered (named settings false)).tables.paths
      (c.registered (named settings true)).tables.paths s s' := by
  obtain ⟨_, _, -, -, -, -, -, -, -, hregistered⟩ := exists_renamed hwf settings
  exact (Session.Renamed.coupling.crate c (hregistered.restart .empty) hrun hrun').1

private theorem paths_of_new {id : NodeId}
    (hnone : (c.registered (named settings false)).tables.paths.get? id = none) :
    s'.tables.paths.get? id = s.tables.paths.get? id := by
  have hnone' : (c.registered (named settings true)).tables.paths.get? id = none := by
    have hisSome := isSome_registered hwf settings id
    rw [hnone] at hisSome
    exact Option.isNone_iff_eq_none.mp (by simpa using hisSome.symm)
  rw [(renamed_resolved hwf hrun hrun').grownAlike.get?_eq hnone hnone']
  exact congrFun Option.map_id _

variable (hs : c.SecondPass (c.registered (named settings false)) s)
  (hs' : c.SecondPass (c.registered (named settings true)) s')

include hs hs'

omit hrun hrun' in
/-- What had a canonical path after the first pass still has it. -/
private theorem paths_of_old {id : NodeId} {path : CanonicalPath}
    (hpath : (c.registered (named settings false)).tables.paths.get? id = some path) :
    s.tables.paths.get? id = (c.registered (named settings false)).tables.paths.get? id ∧
      s'.tables.paths.get? id = (c.registered (named settings true)).tables.paths.get? id := by
  have hisSome := isSome_registered hwf settings id
  rw [hpath] at hisSome
  obtain ⟨path', hpath'⟩ := Option.isSome_iff_exists.mp hisSome.symm
  rw [hpath, hpath']
  exact ⟨hs.paths id path hpath, hs'.paths id path' hpath'⟩

/-- In the end, the crate root and all that is declared have the name of the crate in front. -/
private theorem paths_resolved {id : NodeId} (hid : id ∈ c.node.id :: itemsDeclaredIds c.items) :
    s'.tables.paths.get? id =
      (s.tables.paths.get? id).map (.single c.node.id settings.crateName ++ ·) := by
  cases hpath : (c.registered (named settings false)).tables.paths.get? id with
  | none =>
      -- Only a binder could have got a path since.
      have hnone : s.tables.paths.get? id = none := by
        by_contra hsome
        refine not_mem_of_binder hwf (mem_binders_of_new_path hwf hrun hpath ?_) hid
        exact Option.isSome_iff_ne_none.mpr hsome
      rw [paths_of_new hwf hrun hrun' hpath, hnone]
      rfl
  | some path =>
      obtain ⟨hkept, hkept'⟩ := paths_of_old hwf hs hs' hpath
      rw [hkept, hkept', paths_registered hwf settings hid]
      rfl

/-- In the end, everything else has the same canonical path in both runs. -/
private theorem paths_resolved_of_not_declared {id : NodeId}
    (hid : id ∉ c.node.id :: itemsDeclaredIds c.items) :
    s'.tables.paths.get? id = s.tables.paths.get? id := by
  cases hpath : (c.registered (named settings false)).tables.paths.get? id with
  | none => exact paths_of_new hwf hrun hrun' hpath
  | some path =>
      obtain ⟨hkept, hkept'⟩ := paths_of_old hwf hs hs' hpath
      rw [hkept, hkept', paths_registered_of_not_declared hwf settings hid]

end Resolved

/-- **The name of the crate before every canonical path is transparent.** With it and without it, a
well-formed crate is resolved with the same result, canonical paths apart. The path of the crate
root and of everything that is declared has the name of the crate in front, and the other paths are
the same. Among these are the paths of built-in types and those of generic parameters, receivers and
local names. -/
theorem crate_name_transparent (hwf : c.WellFormed) (settings : Settings) :
    ∃ r r', c.resolve { settings with prefixCrateName := false } = .ok r ∧
      c.resolve { settings with prefixCrateName := true } = .ok r' ∧
      r' = { r with tables :=
        { r.tables with paths := r'.tables.paths, qualified := r'.tables.qualified } } ∧
      r'.tables.qualified.keys = r.tables.qualified.keys ∧
      (∀ id ∈ c.node.id :: itemsDeclaredIds c.items,
        r'.tables.paths.get? id =
          (r.tables.paths.get? id).map (.single c.node.id settings.crateName ++ ·)) ∧
      (∀ id ∉ c.node.id :: itemsDeclaredIds c.items,
        r'.tables.paths.get? id = r.tables.paths.get? id) ∧
      ∀ id, id ∈ r.builtins.types ∨ id ∈ c.binders.map Binder.id →
        id ∉ c.node.id :: itemsDeclaredIds c.items := by
  obtain ⟨s, errors, hrun, hs, hend, hlimit, hreported⟩ :=
    c.exists_ending hwf (named settings false)
  obtain ⟨s', errors', hrun', hs', hend', hlimit', hreported'⟩ :=
    c.exists_ending hwf (named settings true)
  have hrenamed := renamed_resolved hwf hrun hrun'
  have herrors : errors' = errors := by
    have hsame : errors'.reported = errors.reported := by
      obtain ⟨rootPath, paths, qualified, -, -⟩ := hrenamed
      have huses := s.tables.privateUses_respelled paths qualified
      rw [hreported', hreported, ← huses]
      rfl
    obtain ⟨limit, reported⟩ := errors
    obtain ⟨limit', reported'⟩ := errors'
    obtain rfl : limit = limit' := hlimit.trans hlimit'.symm
    obtain rfl : reported' = reported := hsame
    rfl
  refine ⟨_, _, resolve_of_runs hend, resolve_of_runs hend', ?_, hrenamed.qualified_keys.symm,
    fun id hid => paths_resolved hwf hrun hrun' hs hs' hid,
    fun id hid => paths_resolved_of_not_declared hwf hrun hrun' hs hs' hid, fun id hid => ?_⟩
  · obtain ⟨rootPath, paths, qualified, -, -⟩ := hrenamed
    rw [herrors]
    rfl
  · rcases hid with hbuiltin | hbinder
    · have hbuiltins := (builtins_of_resolveItems hrun).trans (c.firstPass hwf _).builtins
      exact not_mem_of_builtin hwf (hbuiltins ▸ hbuiltin)
    · exact not_mem_of_binder hwf hbinder

/-- The function gets the name of the crate in front, but its generic parameter does not. -/
theorem crate_name_withGenericFunction :
    withGenericFunction.WellFormed ∧ ∃ r r',
      withGenericFunction.resolve { crateName := "demo", prefixCrateName := false } = .ok r ∧
      withGenericFunction.resolve { crateName := "demo", prefixCrateName := true } = .ok r' ∧
      r.pathText? ⟨2⟩ = some "m::f" ∧ r'.pathText? ⟨2⟩ = some "demo::m::f" ∧
      r.pathText? ⟨3⟩ = some "T" ∧ r'.pathText? ⟨3⟩ = some "T" := by
  have hwf : withGenericFunction.WellFormed := by decide
  obtain ⟨r, r', hr, hr', -, -, hdeclared, hothers, hbinders⟩ :=
    crate_name_transparent hwf { crateName := "demo" }
  obtain ⟨hf, hT⟩ : r.tables.paths.get? ⟨2⟩ = some ⟨[(⟨1⟩, "m"), (⟨2⟩, "f")]⟩ ∧
      r.tables.paths.get? ⟨3⟩ = some (.single ⟨3⟩ "T") := of_resolve hr (by decide +kernel)
  have hf' := hdeclared ⟨2⟩ (by decide)
  have hT' := hothers ⟨3⟩ (hbinders ⟨3⟩ (Or.inr (by decide)))
  simp only [hf] at hf'
  refine ⟨hwf, r, r', hr, hr', ?_, ?_, ?_, ?_⟩ <;> unfold ResolvedCrate.pathText?
  · rw [hf]
    rfl
  · rw [hf']
    rfl
  · rw [hT]
    rfl
  · rw [hT', hT]
    rfl

end Crate

end NameResolution
