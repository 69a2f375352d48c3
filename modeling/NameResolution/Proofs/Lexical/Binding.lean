import NameResolution.Resolve.Item
import NameResolution.Proofs.Lexical.FrameRules
import NameResolution.Proofs.Lexical.ItemReading

/-!
# NameResolution.Proofs.Lexical.Binding

**A name that is bound comes first in the innermost frame.** `Stands.bind` says so of the
ribs; `agrees_bindNew` and `agrees_bindLatest` say it of a node that introduces a name for
itself, such as a generic parameter or a pattern, and `agrees_bindSelf` of `Self`. Where
the frame has the name already and it may not be repeated, all that happens is that an
error is reported (`agrees_refused`).
-/

namespace NameResolution

open Resolution
open Session (SameDeclarations)

variable {base s s' : Session} {env : Env} {ids : List NodeId}

theorem Frame.find?_add (f : Frame) (space : Namespace) (l : LocalName) (x : Namespace)
    (name : String) :
    (f.add space l).find? x name =
      if x = space ∧ l.name = name then some l else f.find? x name := by
  by_cases hname : l.name = name
  · cases space <;> cases x <;> simp [Frame.find?, Frame.add, Frame.locals, hname]
  · cases space <;> cases x <;> simp [Frame.find?, Frame.add, Frame.locals, hname]

@[simp] theorem Frame.owner_add (f : Frame) (space : Namespace) (l : LocalName) :
    (f.add space l).owner = f.owner := by
  cases space <;> rfl

@[simp] theorem Frame.extent_add (f : Frame) (space : Namespace) (l : LocalName) :
    (f.add space l).extent = f.extent := by
  cases space <;> rfl

theorem Frame.mem_locals_add {f : Frame} {space x : Namespace} {l l' : LocalName}
    (h : l' ∈ (f.add space l).locals x) : l' = l ∨ l' ∈ f.locals x := by
  cases space <;> cases x
  · exact List.mem_cons.mp h
  · exact Or.inr h
  · exact Or.inr h
  · exact List.mem_cons.mp h

/-- Among the frames once a name has been added to the innermost one, a name is this one or was
there before. -/
theorem Frame.mem_locals_cons_add {f g : Frame} {outer : List Frame} {space x : Namespace}
    {l l' : LocalName} (hg : g ∈ f.add space l :: outer) (hl' : l' ∈ g.locals x) :
    (l' = l ∧ g.extent = f.extent) ∨ ∃ g' ∈ f :: outer, l' ∈ g'.locals x ∧ g'.extent = g.extent := by
  rcases List.mem_cons.mp hg with rfl | hg
  · rcases Frame.mem_locals_add hl' with rfl | hl'
    · exact .inl ⟨rfl, Frame.extent_add f space l'⟩
    · exact .inr ⟨f, List.mem_cons_self, hl', (Frame.extent_add f space l).symm⟩
  · exact .inr ⟨g, List.mem_cons_of_mem _ hg, hl', rfl⟩

theorem Env.bind_eq {f : Frame} {outer : List Frame} (hframes : env.frames = f :: outer)
    (space : Namespace) (l : LocalName) :
    env.bind space l = { env with frames := f.add space l :: outer } := by
  unfold Env.bind
  rw [hframes]

theorem Env.extents_bind (env : Env) (space : Namespace) (l : LocalName) :
    (env.bind space l).extents = env.extents := by
  cases hframes : env.frames with
  | nil => simp [Env.bind, hframes]
  | cons f outer => simp [Env.bind_eq hframes, Env.extents, hframes]

/-- Nothing else that is open shares its rib with the innermost frame. -/
theorem Stands.owner_apart {f : Frame} {outer : List Frame} (h : Stands base env s)
    (hframes : env.frames = f :: outer) : (∀ g ∈ outer, g.owner ≠ f.owner) ∧
      ∀ o ∈ env.modules ++ [base.builtins.prelude], o ≠ f.owner := by
  have hnodup := h.nodup
  rw [Env.owners, hframes, List.append_assoc, List.map_cons, List.cons_append] at hnodup
  have hnot := (List.nodup_cons.mp hnodup).1
  refine ⟨fun g hg heq => hnot (List.mem_append_left _ ?_), fun o ho heq => hnot ?_⟩
  · exact List.mem_map.mpr ⟨g, hg, heq⟩
  · exact List.mem_append_right _ (heq ▸ ho)

section Innermost

variable {f : Frame} {outer : List Frame} (h : Stands base env s)
  (hframes : env.frames = f :: outer)

include h hframes

theorem Stands.head?_opened (space : Namespace) :
    (s.scope space).opened.head? = some f.owner := by
  rw [h.opened]
  simp [Env.owners, hframes]

theorem Stands.isSome_rib?_innermost (space : Namespace) :
    ((s.scope space).rib? f.owner).isSome :=
  h.ribs space f.owner (by simp [Env.owners, hframes])

/-- The innermost rib has what the innermost frame has. -/
theorem Stands.bindingIn?_innermost (space : Namespace) (i : NodeId) (name : String) :
    (s.scope space).bindingIn? f.owner (.single i name) =
      (env.findInnermost? space name).map LocalName.binding := by
  have hframe := h.frames f (by simp [hframes]) space i name
  unfold Env.findInnermost?
  rw [hframe, hframes]
  rfl

end Innermost

/-- A binding that is made in the innermost rib is the first name of the innermost frame. -/
theorem Stands.bind {f : Frame} {outer : List Frame} {space : Namespace} {l : LocalName}
    (h : Stands base env s) (hframes : env.frames = f :: outer)
    (hscope : ∀ x, s'.scope x = (s.withBinding space f.owner l.binding).scope x)
    (hbuiltins : s'.builtins = s.builtins) (hroot : s'.root = s.root)
    (hmodules : s'.modules = s.modules) (htables : SameDeclarations s.tables s'.tables)
    (hknows : ∀ m, s.Knows m → s'.Knows m) (hoffers : ∀ m, s.Offers m → s'.Offers m)
    (hl : s'.Knows l.meaning) (hin : l.node ∈ f.extent)
    (hfresh : l.name ≠ "Self" → ∀ m, base.Offers m → m.decl ≠ l.meaning.decl)
    (hown : l.name ≠ "Self" → l.meaning.path = .single l.node l.name) :
    Stands base (env.bind space l) s' := by
  have hf : f ∈ env.frames := hframes ▸ List.mem_cons_self
  have hsub : ∀ g ∈ outer, g ∈ env.frames := fun g hg => hframes ▸ List.mem_cons_of_mem _ hg
  have hrib := h.isSome_rib?_innermost hframes space
  have howners : (env.bind space l).owners base = env.owners base := by
    simp [Env.bind_eq hframes, Env.owners, hframes]
  obtain ⟨houter, hmembers⟩ := h.owner_apart hframes
  -- All other ribs are as they were.
  have hother : ∀ o ≠ f.owner, ∀ x key,
      (s'.scope x).bindingIn? o key = (s.scope x).bindingIn? o key := fun o ho x key => by
    rw [hscope, Session.bindingIn?_withBinding hrib, if_neg fun hsame => ho hsame.2.1]
  have hopened : ∀ x, (s'.scope x).opened = (s.scope x).opened := fun x => by
    rw [hscope, Session.opened_withBinding]
  rw [Env.bind_eq hframes] at howners ⊢
  exact
    { builtins := hbuiltins.trans h.builtins
      root := hroot.trans h.root
      tables := h.tables.trans htables
      modules := hmodules ▸ h.modules
      outermost := h.outermost
      areModules := h.areModules
      opened := fun x => (hopened x).trans ((h.opened x).trans howners.symm)
      nodup := howners ▸ h.nodup
      ribs := fun x o ho => by
        rw [hscope, Session.isSome_rib?_withBinding]
        exact h.ribs x o (howners ▸ ho)
      frames := fun g hg x i name => by
        rcases List.mem_cons.mp hg with rfl | hg
        · rw [hscope, Session.bindingIn?_withBinding hrib, Frame.owner_add, Frame.find?_add,
            h.frames f hf]
          by_cases hsame : x = space ∧ l.name = name
          · have hkey : l.binding.path.SameText (.single i name) :=
              CanonicalPath.single_sameText_single.mpr hsame.2
            rw [if_pos ⟨hsame.1, rfl, hkey⟩, if_pos hsame]
            rfl
          · rw [if_neg fun hboth => hsame ⟨hboth.1,
              CanonicalPath.single_sameText_single.mp hboth.2.2⟩, if_neg hsame]
        · rw [hother g.owner (houter g hg)]
          exact h.frames g (hsub g hg) x i name
      members := fun o ho x key => (hother o (hmembers o ho) x key).trans (h.members o ho x key)
      locals := fun g hg x l' hl' => by
        rcases Frame.mem_locals_cons_add hg hl' with ⟨rfl, -⟩ | ⟨g', hg', hl', -⟩
        · exact hl
        · exact hknows _ (h.locals g' (hframes ▸ hg') x l' hl')
      introduced := fun g hg x l' hl' => by
        rcases Frame.mem_locals_cons_add hg hl' with ⟨rfl, hextent⟩ | ⟨g', hg', hl', hextent⟩
        · exact hextent ▸ hin
        · exact hextent ▸ h.introduced g' (hframes ▸ hg') x l' hl'
      fresh := fun g hg x l' hl' => by
        rcases Frame.mem_locals_cons_add hg hl' with ⟨rfl, -⟩ | ⟨g', hg', hl', -⟩
        · exact hfresh
        · exact h.fresh g' (hframes ▸ hg') x l' hl'
      own := fun g hg x l' hl' => by
        rcases Frame.mem_locals_cons_add hg hl' with ⟨rfl, -⟩ | ⟨g', hg', hl', -⟩
        · exact hown
        · exact h.own g' (hframes ▸ hg') x l' hl'
      knows := fun m hm => hknows m (h.knows m hm)
      offers := fun m hm => hoffers m (h.offers m hm) }

/-! ### Classification -/

namespace Session

/-- The namespace of a declaration depends on where it was declared and on what is a module. -/
theorem classify_congr {id : NodeId}
    (hdeclared : ∀ x, id ∈ (s'.scope x).declared ↔ id ∈ (s.scope x).declared)
    (hmodule : s'.tables.isModule id = s.tables.isModule id) : s'.classify id = s.classify id := by
  have hnames := hdeclared .name
  have htypes := hdeclared .type
  rw [scope_name, scope_name] at hnames
  rw [scope_type, scope_type] at htypes
  have hn : s'.names.wasDeclared id = s.names.wasDeclared id := decide_eq_decide.mpr hnames
  have ht : s'.types.wasDeclared id = s.types.wasDeclared id := decide_eq_decide.mpr htypes
  unfold classify
  rw [hn, ht, hmodule]

theorem mem_declared_withBinding_of_ne {space : Namespace} {owner id : NodeId} {b : Binding}
    (hne : id ≠ b.id) (x : Namespace) :
    id ∈ ((s.withBinding space owner b).scope x).declared ↔ id ∈ (s.scope x).declared := by
  rw [declared_withBinding]
  split
  · simp [hne]
  · rfl

/-- A node that was unused belongs to the namespace in which it is bound first. -/
theorem classify_of_declared {space : Namespace} {id : NodeId} (hunused : s.Unused id)
    (hdeclared : ∀ x, id ∈ (s'.scope x).declared ↔ x = space)
    (hmodule : s'.tables.isModule id = s.tables.isModule id) : s'.classify id = some space := by
  have hnames := hdeclared .name
  have htypes := hdeclared .type
  rw [scope_name] at hnames
  rw [scope_type] at htypes
  have hnone : s.tables.isModule id = false := by
    unfold Tables.isModule
    rw [hunused.childless]
    rfl
  cases space <;> simp [classify, Scope.wasDeclared, hnames, htypes, hmodule, hnone]

end Session

/-! ### Names that nodes introduce for themselves -/

/-- The session once a node has been bound under a name of its own. -/
def boundOwn (s : Session) (space : Namespace) (owner : NodeId) (l : LocalName) : Session :=
  (s.withBinding space owner l.binding).withPath l.node l.meaning.path

/-- The action by which a node introduces a name for itself. -/
def bindOwn (space : Namespace) (node : NodeId) (name : String) (locus : Span) (shadow : Bool)
    (complaint : Binding → Binding → ResolveError) : Resolution Unit := do
  let path := CanonicalPath.single node name
  if ← makeBinding space ⟨path, node, locus⟩ shadow complaint then
    setPath node path

section Own

variable {f : Frame} {outer : List Frame} {space : Namespace} {node : NodeId} {name : String}
  {locus : Span}

theorem tables_boundOwn (s : Session) (space : Namespace) (owner : NodeId) (l : LocalName) :
    (boundOwn s space owner l).tables =
      { s.tables with paths := s.tables.paths.set l.node l.meaning.path } := by
  unfold boundOwn Session.withPath
  rw [Session.tables_withTables, Session.withBinding, Session.tables_withScope]

theorem scope_boundOwn (s : Session) (space : Namespace) (owner : NodeId) (l : LocalName)
    (x : Namespace) :
    (boundOwn s space owner l).scope x = (s.withBinding space owner l.binding).scope x := by
  unfold boundOwn Session.withPath
  rw [Session.scope_withTables]

/-- What is known about other declarations stays known. -/
private theorem knows_boundOwn (hunused : s.Unused node) (owner : NodeId) {m : Meaning}
    (h : s.Offers m) :
    (boundOwn s space owner (.own space node name locus)).classify m.decl = s.classify m.decl ∧
      (boundOwn s space owner (.own space node name locus)).tables.paths.get? m.decl =
        some m.path := by
  have hne : m.decl ≠ node := fun heq => h.not_unused (heq ▸ hunused)
  refine ⟨Session.classify_congr (fun x => ?_) ?_, ?_⟩
  · rw [scope_boundOwn]
    exact Session.mem_declared_withBinding_of_ne hne x
  · rw [tables_boundOwn]
    rfl
  · rw [tables_boundOwn]
    exact (Register.get?_set_ne hne _).trans h.named

/-- The node itself is known under its name from then on. -/
theorem knows_own (hunused : s.Unused node) (owner : NodeId) :
    (boundOwn s space owner (.own space node name locus)).Knows
      (LocalName.own space node name locus).meaning := by
  refine ⟨Session.classify_of_declared hunused (fun x => ?_) ?_, ?_⟩
  · rw [scope_boundOwn, Session.declared_withBinding]
    by_cases hx : x = space
    · rw [if_pos hx]
      exact ⟨fun _ => hx, fun _ => List.mem_cons_self⟩
    · rw [if_neg hx]
      exact ⟨fun hin => absurd hin (hunused.undeclared x), fun heq => absurd heq hx⟩
  · rw [tables_boundOwn]
    rfl
  · rw [tables_boundOwn]
    exact Register.get?_set_self _ _ _

/-- A name that is new in the innermost rib, or may be repeated there, is bound in it. -/
theorem runs_bindOwn {owner : NodeId} (hhead : (s.scope space).opened.head? = some owner)
    (hunused : s.Unused node) {shadow : Bool}
    (hnew : shadow = true ∨ (s.scope space).bindingIn? owner (.single node name) = none)
    (complaint : Binding → Binding → ResolveError) :
    Runs (bindOwn space node name locus shadow complaint) s ()
      (boundOwn s space owner (.own space node name locus)) := by
  have hpathless : (s.withBinding space owner
      (LocalName.own space node name locus).binding).tables.paths.get? node = none := by
    rw [Session.withBinding, Session.tables_withScope]
    exact hunused.pathless
  exact (runs_makeBinding_added hhead hnew complaint).bind (runs_setPath hpathless _)

/-- A name that the innermost rib holds is reported. -/
theorem runs_bindOwn_refused {owner : NodeId} {earlier : Binding}
    (hhead : (s.scope space).opened.head? = some owner)
    (hheld : (s.scope space).bindingIn? owner (.single node name) = some earlier)
    (complaint : Binding → Binding → ResolveError) :
    Runs (bindOwn space node name locus false complaint) s ()
      (s.reporting (complaint ⟨.single node name, node, locus⟩ earlier)) :=
  (runs_makeBinding_refused hhead hheld complaint).bind (Runs.pure _ _)

theorem grows_boundOwn {owner : NodeId} (hhead : (s.scope space).opened.head? = some owner)
    (hrib : ((s.scope space).rib? owner).isSome) (hunused : s.Unused node) :
    s.Grows [node] (boundOwn s space owner (.own space node name locus)) := by
  have hmem : node ∈ [node] := List.mem_singleton_self node
  have hpathless : (s.withBinding space owner
      (LocalName.own space node name locus).binding).tables.paths.get? node = none := by
    rw [Session.withBinding, Session.tables_withScope]
    exact hunused.pathless
  exact (Session.Grows.withBinding hhead hrib fun _ => hmem).trans
    (Session.Grows.withPath hmem hpathless _)

theorem Ready.runs_bindOwn (hready : Ready base env [node] s) (hframes : env.frames = f :: outer)
    {shadow : Bool} (hnew : shadow = true ∨ env.findInnermost? space name = none)
    (complaint : Binding → Binding → ResolveError) :
    Runs (bindOwn space node name locus shadow complaint) s ()
      (boundOwn s space f.owner (.own space node name locus)) := by
  refine NameResolution.runs_bindOwn (hready.stands.head?_opened hframes space)
    (hready.unused node List.mem_cons_self) (hnew.imp_right fun hfind => ?_) complaint
  rw [hready.stands.bindingIn?_innermost hframes space node name, hfind]
  rfl

private theorem agrees_bindOwn_added (hready : Ready base env [node] s)
    (hframes : env.frames = f :: outer) {shadow : Bool}
    (hnew : shadow = true ∨ env.findInnermost? space name = none)
    (complaint : Binding → Binding → ResolveError) :
    Agrees base env [node] s (bindOwn space node name locus shadow complaint)
      (pure (env.bind space (.own space node name locus))) id (fun _ _ _ => True) := by
  let l := LocalName.own space node name locus
  have hmem : node ∈ [node] := List.mem_singleton_self node
  have hunused := hready.unused node hmem
  have hrun : Runs (bindOwn space node name locus shadow complaint) s ()
      (boundOwn s space f.owner l) := hready.runs_bindOwn hframes hnew complaint
  have hgrows : s.Grows [node] (boundOwn s space f.owner l) :=
    grows_boundOwn (hready.stands.head?_opened hframes space)
      (hready.stands.isSome_rib?_innermost hframes space) hunused
  have hknows : ∀ m, s.Knows m → (boundOwn s space f.owner l).Knows m := fun m hm => by
    obtain ⟨hclass, hnamed⟩ := knows_boundOwn hunused f.owner hm.offers
    exact ⟨hclass.trans hm.classified, hnamed⟩
  have hoffers : ∀ m, s.Offers m → (boundOwn s space f.owner l).Offers m := fun m hm => by
    obtain ⟨hclass, hnamed⟩ := knows_boundOwn hunused f.owner hm
    exact hm.congr hclass (hnamed.trans hm.named.symm) (by rw [tables_boundOwn]) hgrows.builtins
  have htables : SameDeclarations s.tables (boundOwn s space f.owner l).tables := by
    rw [tables_boundOwn]
    exact ⟨rfl, rfl, rfl, rfl, rfl⟩
  have hstands := hready.stands.bind hframes (scope_boundOwn s space f.owner l)
    hgrows.builtins hgrows.root hgrows.modules htables hknows hoffers
    (knows_own hunused f.owner) (hready.enclosed.mem_extent (by simp [hframes]) hmem)
    (fun _ m hm heq => (hready.stands.offers m hm).not_unused (heq ▸ hunused)) fun _ => rfl
  refine ⟨(), _, hrun, trivial, hstands, env.extents_bind space l, hgrows, htables, ?_, hknows,
    hoffers, List.nil_subperm, .nil base _⟩
  have herrors : (boundOwn s space f.owner l).errors = s.errors := Session.errors_withScope _ _ _
  unfold Session.ledger
  rw [tables_boundOwn, herrors]
  rfl

/-- A name that the innermost frame has already is held by the innermost rib. -/
theorem Stands.exists_held (hstands : Stands base env s) {i : NodeId} {earlier : LocalName}
    (hfind : env.findInnermost? space name = some earlier) :
    ∃ owner, (s.scope space).opened.head? = some owner ∧
      (s.scope space).bindingIn? owner (.single i name) = some earlier.binding := by
  obtain ⟨f, hf, -⟩ := Option.bind_eq_some_iff.mp hfind
  obtain ⟨outer, hframes⟩ := List.head?_eq_some_iff.mp hf
  refine ⟨f.owner, hstands.head?_opened hframes space, ?_⟩
  rw [hstands.bindingIn?_innermost hframes space i name, hfind]
  rfl

/-- A name that the innermost frame has already is reported and not bound. -/
private theorem agrees_refused {act : Resolution Unit} {earlier : LocalName}
    {complaint : Binding → Binding → ResolveError} {l : LocalName}
    (hstands : Stands base env s) (hfind : env.findInnermost? space l.name = some earlier)
    (hact : ∀ owner, (s.scope space).opened.head? = some owner →
      (s.scope space).bindingIn? owner l.binding.path = some earlier.binding →
      Runs act s () (s.reporting (complaint l.binding earlier.binding))) :
    Agrees base env ids s act (env.readNew space l complaint) id (fun _ _ _ => True) := by
  have hread : env.readNew space l complaint =
      (do Reading.note (.error (complaint l.binding earlier.binding)); return env) := by
    unfold Env.readNew
    rw [hfind]
  obtain ⟨owner, hhead, hheld⟩ := hstands.exists_held (i := l.node) hfind
  obtain ⟨_, s', hrun, -, hstands', -, hstep⟩ := Agrees.note
    (.error (complaint l.binding earlier.binding)) hstands (hact owner hhead hheld) (by simp)
  rw [hread]
  exact ⟨(), s', hrun, trivial, hstands', rfl, hstep.mono List.nil_subperm⟩

/-- A node introduces a name for itself in the innermost frame. -/
theorem agrees_bindNew (hready : Ready base env [node] s) (hframes : env.frames ≠ [])
    (complaint : Binding → Binding → ResolveError) :
    Agrees base env [node] s (bindOwn space node name locus false complaint)
      (env.readNew space (.own space node name locus) complaint) id (fun _ _ _ => True) := by
  obtain ⟨f, outer, hframes⟩ := List.exists_cons_of_ne_nil hframes
  cases hfind : env.findInnermost? space name with
  | none =>
      have hread : env.readNew space (.own space node name locus) complaint =
          pure (env.bind space (.own space node name locus)) := by
        unfold Env.readNew
        simp only [LocalName.own, hfind]
      rw [hread]
      exact agrees_bindOwn_added hready hframes (Or.inr hfind) complaint
  | some earlier =>
      exact agrees_refused hready.stands hfind fun owner hhead hheld =>
        runs_bindOwn_refused hhead hheld complaint

/-- A node introduces a name for itself that may repeat one of the innermost frame. -/
theorem agrees_bindLatest (hready : Ready base env [node] s) (hframes : env.frames ≠ [])
    (complaint : Binding → Binding → ResolveError) :
    Agrees base env [node] s (bindOwn space node name locus true complaint)
      (pure (env.bind space (.own space node name locus))) id (fun _ _ _ => True) := by
  obtain ⟨f, outer, hframes⟩ := List.exists_cons_of_ne_nil hframes
  exact agrees_bindOwn_added hready hframes (Or.inl rfl) complaint

end Own

/-! ### `Self` -/

section Self

/-- The session once `Self` stands for something in the rib of a node. -/
def boundSelf (s : Session) (owner : NodeId) (l : LocalName) : Session :=
  s.withBinding .type owner l.binding

theorem declared_boundSelf (s : Session) (owner : NodeId) (l : LocalName) :
    (boundSelf s owner l).types.declared = l.meaning.decl :: s.types.declared := rfl

/-- What is in a namespace already stays there. -/
theorem classify_boundSelf {owner id : NodeId} {l : LocalName} {space : Namespace}
    (h : s.classify id = some space) : (boundSelf s owner l).classify id = some space := by
  by_cases hname : (s.names.wasDeclared id || s.tables.isModule id) = true
  · have hspace : space = .name := by
      rw [Session.classify, if_pos hname] at h
      exact (Option.some.inj h).symm
    subst hspace
    exact if_pos hname
  · rw [Session.classify, if_neg hname] at h
    by_cases htype : s.types.wasDeclared id = true
    · rw [if_pos htype] at h
      have htype' : (boundSelf s owner l).types.wasDeclared id = true := by
        unfold Scope.wasDeclared at htype ⊢
        rw [declared_boundSelf]
        simpa using Or.inr (of_decide_eq_true htype)
      rw [← h]
      exact (if_neg hname).trans (if_pos htype')
    · rw [if_neg htype] at h
      cases h

/-- What was in no namespace becomes a type if `Self` stands for it. -/
theorem classify_boundSelf_of_none {owner id : NodeId} {l : LocalName}
    (h : s.classify id = none) :
    (boundSelf s owner l).classify id = if id = l.meaning.decl then some .type else none := by
  have hname : ¬ (s.names.wasDeclared id || s.tables.isModule id) = true := fun hname => by
    rw [Session.classify, if_pos hname] at h
    cases h
  have htype : id ∉ s.types.declared := fun hin => by
    have htrue : s.types.wasDeclared id = true := decide_eq_true hin
    rw [Session.classify, if_neg hname, if_pos htrue] at h
    cases h
  refine (if_neg hname).trans ?_
  unfold Scope.wasDeclared
  rw [declared_boundSelf]
  simp [htype]

private theorem knows_boundSelf {owner : NodeId} {l : LocalName} {m : Meaning} (h : s.Knows m) :
    (boundSelf s owner l).Knows m :=
  ⟨classify_boundSelf h.classified, h.named⟩

private theorem offers_boundSelf {owner : NodeId} {l : LocalName} {m : Meaning} (h : s.Offers m) :
    (boundSelf s owner l).Offers m := by
  refine ⟨?_, h.named⟩
  rcases h.classified with hclass | ⟨hclass, hspace⟩
  · exact Or.inl (classify_boundSelf hclass)
  · rw [classify_boundSelf_of_none hclass, hspace.1]
    split
    · exact Or.inl rfl
    · exact Or.inr ⟨rfl, rfl, hspace.2⟩

/-- What `Self` stands for is a type from then on, if it was in no namespace. -/
private theorem knows_self {owner : NodeId} {l : LocalName} (h : s.Offers l.meaning) :
    (boundSelf s owner l).Knows l.meaning := by
  refine ⟨?_, h.named⟩
  rcases h.classified with hclass | ⟨hclass, hspace⟩
  · exact classify_boundSelf hclass
  · rw [classify_boundSelf_of_none hclass, if_pos rfl, hspace.1]

/-- If `Self` is new in the innermost frame, it is bound in its rib. -/
theorem Stands.runs_bindSelf {f : Frame} {outer : List Frame} {owner : NodeId} {m : Meaning}
    {locus : Span} (hstands : Stands base env s) (hframes : env.frames = f :: outer)
    (hfind : env.findInnermost? .type "Self" = none) :
    Runs (bindSelf owner (some m.decl) locus) s ()
      (boundSelf s f.owner ⟨owner, "Self", locus, m⟩) := by
  have hnone : (s.scope .type).bindingIn? f.owner (.single owner "Self") = none :=
    (hstands.bindingIn?_innermost hframes .type owner "Self").trans (by rw [hfind]; rfl)
  exact (runs_makeBinding_added (hstands.head?_opened hframes .type) (Or.inr hnone)
    redefinition).discard

/-- Binding `Self` to what a type stands for, if it stands for one declaration. -/
theorem agrees_bindSelf (hstands : Stands base env s) (hframes : env.frames ≠ []) {owner : NodeId}
    (henclosed : env.Encloses [owner]) {target : Option Meaning}
    (htarget : ∀ m ∈ target, s.Offers m) (locus : Span) :
    Agrees base env [] s (bindSelf owner (target.map Meaning.decl) locus)
      (env.readSelf owner target locus) id (fun _ _ _ => True) := by
  cases target with
  | none => exact Agrees.pure hstands rfl trivial
  | some m =>
      have hm := htarget m rfl
      let l : LocalName := ⟨owner, "Self", locus, m⟩
      cases hfind : env.findInnermost? .type "Self" with
      | some earlier =>
          refine agrees_refused (l := l) hstands hfind fun o hhead hheld => ?_
          exact (runs_makeBinding_refused hhead hheld redefinition).discard
      | none =>
          obtain ⟨f, outer, hframes⟩ := List.exists_cons_of_ne_nil hframes
          have hhead := hstands.head?_opened hframes .type
          have hrib := hstands.isSome_rib?_innermost hframes .type
          have hrun : Runs (bindSelf owner (some m.decl) locus) s () (boundSelf s f.owner l) :=
            hstands.runs_bindSelf hframes hfind
          have hgrows : s.Grows [] (boundSelf s f.owner l) :=
            Session.Grows.withBinding hhead hrib fun hunused => absurd hunused hm.not_unused
          have hstands' : Stands base (env.bind .type l) (boundSelf s f.owner l) :=
            hstands.bind hframes (fun _ => rfl) rfl rfl rfl (.refl s.tables)
              (fun _ h => knows_boundSelf h) (fun _ h => offers_boundSelf h)
              (knows_self hm) (henclosed.mem_extent (by simp [hframes]) List.mem_cons_self)
              (fun hname => absurd rfl hname) fun hname => absurd rfl hname
          have hread : env.readSelf owner (some m) locus = pure (env.bind .type l) := by
            change env.readNew .type l redefinition = _
            unfold Env.readNew
            simp only [l, hfind]
          rw [hread]
          exact ⟨(), _, hrun, trivial, hstands', env.extents_bind .type l, hgrows, .refl s.tables,
            rfl, fun _ h => knows_boundSelf h, fun _ h => offers_boundSelf h, List.nil_subperm,
            .nil base _⟩

end Self

end NameResolution
