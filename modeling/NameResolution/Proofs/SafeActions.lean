import NameResolution.Proofs.Coverage

/-!
# NameResolution.Proofs.SafeActions

**Safe actions.** An action is safe if it keeps everything covered or ends with one of the
two violations that come from the identities in a tree: no stack is ever popped wrongly,
and no canonical path that is asked for is missing. `SafeFrom` says so of one session and
`Safe` of every one in which a module and ribs are open, together with what holds of the
answer. There is one rule for each of the few actions (`IsSafe.actions`), so that both
passes are safe as soon as the paths, types, expressions and blocks are.
-/

namespace NameResolution

open Resolution

/-- The violations that come from the identities in a tree. -/
def Violation.OfIdentities : Violation → Prop
  | .canonicalPathConflict _ _ _ => True
  | .unclassifiedDeclaration _ => True
  | _ => False

/-- From this session the action succeeds, keeping everything covered, with an answer as described,
or it ends with a violation that comes from the identities in the tree. -/
def Resolution.SafeFrom (s : Session) (act : Resolution α) (post : α → Session → Prop) : Prop :=
  (∃ a s', Runs act s a s' ∧ s.Continues s' ∧ s'.Covered [] ∧ post a s') ∨
    ∃ v s', act.exec s = (.error v, s') ∧ v.OfIdentities

/-- The action is safe from every session in which everything is covered and something is open. -/
def Resolution.Safe (named : NodeId → Prop) (act : Resolution α) (post : α → Session → Prop) :
    Prop :=
  ∀ s : Session, s.Sound named → SafeFrom s act post

namespace Resolution

variable {α β : Type} {act : Resolution α} {s s' : Session} {post : α → Session → Prop}

/-! ### One action after the other -/

namespace SafeFrom

theorem of_runs {a : α} (hrun : Runs act s a s') (hcontinues : s.Continues s')
    (hcovered : s'.Covered []) (hpost : post a s') : SafeFrom s act post :=
  Or.inl ⟨a, s', hrun, hcontinues, hcovered, hpost⟩

/-- An action that only reads succeeds. -/
theorem still {a : α} (hrun : Runs act s a s) (hcovered : s.Covered []) (hpost : post a s) :
    SafeFrom s act post :=
  of_runs hrun (.refl s) hcovered hpost

/-- What is known of an action that is known to succeed. -/
theorem runs {a : α} (h : SafeFrom s act post) (hrun : Runs act s a s') :
    s.Continues s' ∧ s'.Covered [] ∧ post a s' := by
  rcases h with ⟨a₁, s₁, hrun₁, hcontinues, hcovered, hpost⟩ | ⟨v, s₁, herror, -⟩
  · obtain ⟨rfl, rfl⟩ := hrun.eq hrun₁
    exact ⟨hcontinues, hcovered, hpost⟩
  · unfold Runs at hrun
    rw [hrun] at herror
    cases herror

theorem weaken {post' : α → Session → Prop} (h : SafeFrom s act post)
    (himp : ∀ a s', s.Continues s' → post a s' → post' a s') : SafeFrom s act post' := by
  rcases h with ⟨a, s', hrun, hcontinues, hcovered, hpost⟩ | herror
  · exact of_runs hrun hcontinues hcovered (himp a s' hcontinues hpost)
  · exact Or.inr herror

/-- Actions after one that always succeeds, and after which paths may be due. -/
theorem runs_bind {next : α → Resolution β} {post' : β → Session → Prop} {a : α} {s₁ : Session}
    (hrun : Runs act s a s₁) (hcontinues : s.Continues s₁) (h : SafeFrom s₁ (next a) post') :
    SafeFrom s (act >>= next) post' := by
  rcases h with ⟨b, s₂, hrun₂, hcontinues₂, hcovered, hpost⟩ | ⟨v, s₂, herror, hv⟩
  · exact of_runs (hrun.bind hrun₂) (hcontinues.trans hcontinues₂) hcovered hpost
  · refine Or.inr ⟨v, s₂, ?_, hv⟩
    unfold Runs at hrun
    rw [exec_bind, hrun]
    exact herror

theorem bind {next : α → Resolution β} {post' : β → Session → Prop} (h : SafeFrom s act post)
    (hnext : ∀ a s₁, s.Continues s₁ → s₁.Covered [] → post a s₁ → SafeFrom s₁ (next a) post') :
    SafeFrom s (act >>= next) post' := by
  rcases h with ⟨a, s₁, hrun, hcontinues, hcovered, hpost⟩ | ⟨v, s₁, herror, hv⟩
  · exact runs_bind hrun hcontinues (hnext a s₁ hcontinues hcovered hpost)
  · refine Or.inr ⟨v, s₁, ?_, hv⟩
    rw [exec_bind, herror]

end SafeFrom

namespace Safe

variable {named : NodeId → Prop}

theorem pure {a : α} (hpost : ∀ s : Session, post a s) :
    Safe named (Pure.pure a : Resolution α) post := by
  intro s hs
  exact .still (Runs.pure a s) hs.toCovered (hpost s)

/-- What is known of the first answer is of use for the second action. -/
theorem bind_known {next : α → Resolution β} {post' : β → Session → Prop}
    (h : Safe named act post)
    (hnext : ∀ a s₁, s₁.Sound named → post a s₁ → SafeFrom s₁ (next a) post') :
    Safe named (act >>= next) post' := by
  intro s hs
  exact (h s hs).bind fun a s₁ hcontinues hcovered hpost =>
    hnext a s₁ (hcontinues.sound hs hcovered) hpost

theorem bind {next : α → Resolution β} {post' : β → Session → Prop} (h : Safe named act post)
    (hnext : ∀ a, Safe named (next a) post') : Safe named (act >>= next) post' :=
  h.bind_known fun a s₁ hs₁ _ => hnext a s₁ hs₁

theorem weaken {post' : α → Session → Prop} (h : Safe named act post)
    (himp : ∀ a s, post a s → post' a s) : Safe named act post' := by
  intro s hs
  exact (h s hs).weaken fun a s' _ => himp a s'

/-- Nothing more is asked of the answer. -/
theorem any (h : Safe named act post) : Safe named act fun _ _ => True :=
  h.weaken fun _ _ _ => trivial

theorem get_bind {f : Session → Resolution α}
    (h : ∀ s : Session, s.Sound named → SafeFrom s (f s) post) :
    Safe named (MonadState.get >>= f) post := by
  intro s hs
  exact .runs_bind rfl (.refl s) (h s hs)

end Safe

/-! ### Reporting and recording -/

/-- Other tables may be changed as long as canonical paths and containers stay. -/
theorem SafeFrom.updateTables {f : Tables → Tables} (h : s.Covered [])
    (hpaths : (f s.tables).paths = s.tables.paths)
    (hcontainers : (f s.tables).containers = s.tables.containers) :
    SafeFrom s (Resolution.updateTables f) fun _ _ => True := by
  have hcontinues : s.Continues (s.withTables (f s.tables)) := .withTables hpaths
  exact .of_runs (runs_updateTables f s) hcontinues (h.withTables hcontinues.named hcontainers)
    trivial

theorem SafeFrom.report (h : s.Covered []) (e : ResolveError) :
    SafeFrom s (Resolution.report e) fun _ _ => True :=
  .of_runs (runs_report e s) ⟨.reporting s e, rfl, fun _ hid => hid⟩
    (h.congr (fun _ => by rw [Session.scope_reporting])
      (fun _ _ hr => Or.inl (by rwa [Session.scope_reporting] at hr)) rfl) trivial

/-- The canonical path that is due is entered, unless there is another one. -/
theorem SafeFrom.setPath {id : NodeId} (h : s.Covered [id]) (path : CanonicalPath) :
    SafeFrom s (Resolution.setPath id path) fun _ s' => s'.IsNamed id := by
  cases hget : s.tables.paths.get? id with
  | none =>
      have hself : (s.withPath id path).IsNamed id := by
        unfold Session.IsNamed Session.withPath
        rw [Session.tables_withTables, Register.get?_set, if_pos rfl]
        rfl
      have hnamed : ∀ x, s.IsNamed x → (s.withPath id path).IsNamed x := by
        intro x hx
        by_cases hsame : x = id
        · rw [hsame]
          exact hself
        · unfold Session.IsNamed Session.withPath
          rw [Session.tables_withTables, Register.get?_set, if_neg hsame]
          exact hx
      exact .of_runs (runs_setPath hget path) ⟨.withTables s _, rfl, hnamed⟩
        (Session.Covered.settled (h.withTables hnamed rfl) hself) hself
  | some existing =>
      have hid : s.IsNamed id := by
        unfold Session.IsNamed
        rw [hget]
        rfl
      have hset : s.tables.setPath id path = if existing.SameText path then .ok s.tables
          else .error (.canonicalPathConflict id existing.text path.text) := by
        unfold Tables.setPath
        rw [hget]
      by_cases hsame : existing.SameText path
      · rw [if_pos hsame] at hset
        exact .still (Runs.get_bind (Runs.ofExcept_bind hset (Runs.set_bind (Runs.pure _ _))))
          (h.settled hid) hid
      · rw [if_neg hsame] at hset
        refine Or.inr ⟨.canonicalPathConflict id existing.text path.text, s, ?_, trivial⟩
        unfold Resolution.setPath
        rw [exec_bind, exec_get]
        dsimp only
        rw [hset]
        rfl

/-! ### Bindings -/

/-- Where a rib is open, a binding is made or refused. The path of what it stands for is due. -/
theorem exists_makeBinding {space : Namespace} (hopened : (s.scope space).opened ≠ [])
    (hcovered : s.Covered []) (b : Binding) (shadow : Bool)
    (complaint : Binding → Binding → ResolveError) :
    ∃ made s', Runs (makeBinding space b shadow complaint) s made s' ∧ s.Continues s' ∧
      s'.Covered [b.id] ∧ (made = false → s'.Covered []) := by
  obtain ⟨owner, hhead⟩ : ∃ owner, (s.scope space).opened.head? = some owner :=
    Option.ne_none_iff_exists'.mp (by simpa using hopened)
  have hadded : s.Continues (s.withBinding space owner b) := by
    refine ⟨.withBinding s space owner b, s.builtins_withScope _ _, fun id hid => ?_⟩
    unfold Session.IsNamed Session.withBinding
    rwa [Session.tables_withScope]
  by_cases hnew : shadow = true ∨ (s.scope space).bindingIn? owner b.path = none
  · exact ⟨true, _, runs_makeBinding_added hhead hnew complaint, hadded,
      hcovered.withBinding space owner b, fun h => nomatch h⟩
  · obtain ⟨hshadow, hfound⟩ := not_or.mp hnew
    obtain ⟨earlier, hearlier⟩ := Option.ne_none_iff_exists'.mp hfound
    rw [Bool.not_eq_true] at hshadow
    subst hshadow
    obtain ⟨hcontinues, hstill, -⟩ :=
      (SafeFrom.report hcovered (complaint b earlier)).runs (runs_report _ s)
    exact ⟨false, _, runs_makeBinding_refused hhead hearlier complaint, hcontinues,
      hstill.settle fun _ h => absurd h List.not_mem_nil, fun _ => hstill⟩

/-- Everything is covered as soon as the path of what was bound has been entered. -/
theorem SafeFrom.bindNamed {next : Resolution Unit} {space : Namespace}
    {post : Unit → Session → Prop} (hopened : (s.scope space).opened ≠ [])
    (hcovered : s.Covered []) (b : Binding) (shadow : Bool)
    (complaint : Binding → Binding → ResolveError) (path : CanonicalPath)
    (hrefused : ∀ s₁, s.Continues s₁ → post () s₁)
    (hnext : ∀ s₁, s.Continues s₁ → s₁.Covered [] → s₁.IsNamed b.id → SafeFrom s₁ next post) :
    SafeFrom s (makeBinding space b shadow complaint >>= fun made =>
      if made then Resolution.setPath b.id path >>= fun _ => next else Pure.pure ()) post := by
  obtain ⟨made, s₁, hrun, hcontinues, hdue, hfalse⟩ :=
    exists_makeBinding hopened hcovered b shadow complaint
  refine .runs_bind hrun hcontinues ?_
  cases made with
  | false => exact .still (Runs.pure () s₁) (hfalse rfl) (hrefused s₁ hcontinues)
  | true =>
      refine (SafeFrom.setPath hdue path).bind fun _ s₂ hcontinues₂ hcovered₂ hnamed => ?_
      exact hnext s₂ (hcontinues.trans hcontinues₂) hcovered₂ hnamed

/-- `Self` may be bound to what has a canonical path. -/
theorem SafeFrom.bindSelf {target : Option NodeId} (hopened : (s.scope .type).opened ≠ [])
    (hcovered : s.Covered []) (htarget : s.NamesOnly target) (owner : NodeId) (locus : Span) :
    SafeFrom s (NameResolution.bindSelf owner target locus) fun _ _ => True := by
  cases target with
  | none => exact .still (Runs.pure () s) hcovered trivial
  | some decl =>
      obtain ⟨made, s₁, hrun, hcontinues, hdue, -⟩ := exists_makeBinding hopened hcovered
        ⟨.single owner "Self", decl, locus⟩ false redefinition
      exact .of_runs hrun.discard hcontinues
        (hdue.settled (hcontinues.named decl (htarget decl rfl))) trivial

/-! ### Declarations -/

theorem SafeFrom.currentModule (hopened : s.modules.opened ≠ []) (hcovered : s.Covered []) :
    SafeFrom s Resolution.currentModule fun _ _ => True := by
  obtain ⟨here, hhere⟩ := Option.ne_none_iff_exists'.mp
    (show s.modules.opened.head? ≠ none by simpa using hopened)
  exact .still (runs_currentModule hhere) hcovered trivial

theorem SafeFrom.rootModule (hopened : s.modules.opened ≠ []) (hcovered : s.Covered []) :
    SafeFrom s Resolution.rootModule fun _ _ => True := by
  obtain ⟨root, hroot⟩ := Option.ne_none_iff_exists'.mp
    (show s.modules.opened.getLast? ≠ none by simpa using hopened)
  exact .still (runs_rootModule hroot) hcovered trivial

theorem addChild_paths (t : Tables) (parent : NodeId) (child : Child) :
    (t.addChild parent child).paths = t.paths := by
  unfold Tables.addChild
  split <;> rfl

theorem addChild_containers (t : Tables) (parent : NodeId) (child : Child) :
    (t.addChild parent child).containers = t.containers := by
  unfold Tables.addChild
  split <;> rfl

/-- A declaration has a canonical path in the end, whether its name was bound or refused. -/
theorem SafeFrom.declare {space : Namespace} (hopened : (s.scope space).opened ≠ [])
    (hmodules : s.modules.opened ≠ []) (hcovered : s.Covered []) (id : NodeId) (name : Ident)
    (place : Place) (vis : Visibility) (container : Option NodeId) :
    SafeFrom s (NameResolution.declare space id name place vis container)
      fun _ s' => s'.IsNamed id := by
  -- Once the binding has been made, the path is due until it is entered.
  have hdescribe : ∀ (inner : Place) {s₁ : Session}, s₁.modules.opened ≠ [] → s₁.Covered [id] →
      SafeFrom s₁ (do
        let here ← Resolution.currentModule
        Resolution.updateTables fun t =>
          { t with visibilities := t.visibilities.set id ⟨vis, here, name.span⟩ }
        Resolution.setPath id inner.path
        return inner) fun _ s' => s'.IsNamed id := by
    intro inner s₁ hmodules hdue
    obtain ⟨here, hhere⟩ := Option.ne_none_iff_exists'.mp
      (show s₁.modules.opened.head? ≠ none by simpa using hmodules)
    refine .runs_bind (runs_currentModule hhere) (.refl s₁) ?_
    refine .runs_bind (runs_updateTables _ s₁) (.withTables rfl) ?_
    refine SafeFrom.bind (.setPath ?_ inner.path) fun _ s₂ _ hcovered₂ hnamed => ?_
    · exact hdue.withTables (fun _ h => h) rfl
    · exact .still (Runs.pure inner s₂) hcovered₂ hnamed
  obtain ⟨made, s₁, hrun, hcontinues, hdue, -⟩ := exists_makeBinding hopened hcovered
    ⟨(place.extend (.single id name.name)).key, id, name.span⟩ false redefinition
  have hmodules₁ : s₁.modules.opened ≠ [] := by
    rw [hcontinues.sameStacks.modules]
    exact hmodules
  refine .runs_bind hrun hcontinues ?_
  cases made with
  | false => exact hdescribe _ hmodules₁ hdue
  | true =>
      cases container with
      | none => exact hdescribe _ hmodules₁ hdue
      | some parent =>
          have hchild := Session.Continues.withTables
            (addChild_paths s₁.tables parent ⟨name.name, id⟩)
          refine .runs_bind (runs_updateTables _ s₁) hchild (hdescribe _ hmodules₁ ?_)
          exact hdue.withTables hchild.named (addChild_containers _ _ _)

/-- A node that has a canonical path becomes a container. -/
theorem SafeFrom.markContainer {id : NodeId} (hcovered : s.Covered []) (hid : s.IsNamed id)
    (kind : ContainerKind) :
    SafeFrom s (NameResolution.markContainer id kind) fun _ _ => True :=
  .of_runs (runs_updateTables _ s) (.withTables rfl) (hcovered.withContainer (Or.inl hid) kind)
    trivial

/-! ### Frames -/

/-- The closing step is taken in any case, and it has to succeed after a success. -/
theorem SafeFrom.between {opening : Session → Session}
    {closing : Session → Except Violation Unit × Session} {post' : α → Session → Prop}
    (h : SafeFrom (opening s) act post)
    (hclose : ∀ a s₁, (opening s).Continues s₁ → s₁.Covered [] → post a s₁ →
      ∃ s₂, closing s₁ = (.ok (), s₂) ∧ s.Continues s₂ ∧ s₂.Covered [] ∧ post' a s₂) :
    SafeFrom s (Resolution.between opening closing act) post' := by
  rcases h with ⟨a, s₁, hrun, hcontinues, hcovered, hdone⟩ | ⟨v, s₁, herror, hv⟩
  · obtain ⟨s₂, hclosed, hcontinues₂, hcovered₂, hdone₂⟩ := hclose a s₁ hcontinues hcovered hdone
    exact .of_runs (hrun.between hclosed) hcontinues₂ hcovered₂ hdone₂
  · refine Or.inr ⟨v, (closing s₁).2, ?_, hv⟩
    rw [exec_between, herror]
    rfl

/-- A frame is closed under the name it was opened with. -/
theorem SafeFrom.inFrame {owner : NodeId} {post' : α → Session → Prop}
    (h : SafeFrom (s.openFrame owner) act post)
    (hpost : ∀ a s₁, post a s₁ → post' a s₁.withoutFrame) :
    SafeFrom s (Resolution.inFrame owner act) post' := by
  refine SafeFrom.between h fun a s₁ hcontinues hcovered hdone => ?_
  have hopened : ∀ space, (s₁.scope space).opened = owner :: (s.scope space).opened := by
    intro space
    rw [hcontinues.sameStacks.opened space, Session.scope_openFrame, Scope.opened_push]
  exact ⟨s₁.withoutFrame, Session.closeFrame_eq fun space => by rw [hopened space]; rfl,
    ⟨hcontinues.sameStacks.withoutFrame, hcontinues.builtins, hcontinues.named⟩,
    hcovered.withoutFrame, hpost a s₁ hdone⟩

theorem SafeFrom.inModule {module : NodeId} {post' : α → Session → Prop}
    (h : SafeFrom (s.openModule module) act post)
    (hpost : ∀ a s₁, post a s₁ → post' a s₁.withoutModule) :
    SafeFrom s (Resolution.inModule module act) post' := by
  refine SafeFrom.between h fun a s₁ hcontinues hcovered hdone => ?_
  have hopened : ∀ space, (s₁.scope space).opened = module :: (s.scope space).opened := by
    intro space
    rw [hcontinues.sameStacks.opened space, Session.scope_openModule, Scope.opened_push]
  have hmodules : s₁.modules.opened = module :: s.modules.opened :=
    congrArg ModuleStack.opened hcontinues.sameStacks.modules
  exact ⟨s₁.withoutModule,
    Session.closeModule_eq (fun space => by rw [hopened space]; rfl) (by rw [hmodules]; rfl),
    ⟨hcontinues.sameStacks.withoutModule, hcontinues.builtins, hcontinues.named⟩,
    hcovered.withoutModule, hpost a s₁ hdone⟩

/-! ### All actions of the passes -/

/-- The action is safe, whatever it answers. -/
def IsSafe (named : NodeId → Prop) {α : Type} (act : Resolution α) : Prop :=
  Safe named act fun _ _ => True

variable {named : NodeId → Prop}

/-- Noting what a segment or a path was resolved to. -/
theorem SafeFrom.setResolved (h : s.Covered []) (space : Namespace) (use decl : NodeId) :
    SafeFrom s (Resolution.updateTables (·.setResolved space use decl)) fun _ _ => True := by
  refine .updateTables h ?_ ?_ <;> cases space <;> rfl

theorem SafeFrom.bindTo (h : s.Covered []) (seg : PathSegment) (space : Namespace)
    (decl here : NodeId) : SafeFrom s (seg.bindTo space decl here) fun _ _ => True := by
  unfold PathSegment.bindTo bindSegment
  refine .updateTables h ?_ ?_ <;> dsimp only <;> split <;> cases space <;> rfl

/-- A node becomes a container once it has a canonical path, and what comes next may rely on
that. -/
theorem Safe.declareContainer {next : Place → Resolution Unit} {post : Unit → Session → Prop}
    (space : Namespace) (id : NodeId) (name : Ident) (place : Place) (vis : Visibility)
    (container : Option NodeId) (kind : ContainerKind)
    (hnext : ∀ inner s, s.Sound named → s.IsNamed id → SafeFrom s (next inner) post) :
    Safe named (NameResolution.declare space id name place vis container >>= fun inner =>
      NameResolution.markContainer id kind >>= fun _ => next inner) post := by
  intro s hs
  refine SafeFrom.bind
    (.declare (hs.opened space) hs.modules hs.toCovered id name place vis container)
    fun inner s₁ hcontinues₁ hcovered₁ hid => ?_
  refine SafeFrom.bind (.markContainer hcovered₁ hid kind) fun _ s₂ hcontinues₂ hcovered₂ _ => ?_
  exact hnext inner s₂ ((hcontinues₁.trans hcontinues₂).sound hs hcovered₂)
    (hcontinues₂.named id hid)

/-- Whatever the tree looks like, the actions of the passes are safe. -/
theorem IsSafe.actions : ActionRules (@IsSafe named) where
  pure _ := Safe.pure fun _ => trivial
  bind h hnext := Safe.bind h hnext
  get := fun s hs => .still (exec_get s) hs.toCovered trivial
  unclassified id := fun s _ => Or.inr ⟨.unclassifiedDeclaration id, s, rfl, trivial⟩
  report e := fun _ hs => .report hs.toCovered e
  currentModule := fun _ hs => .currentModule hs.modules hs.toCovered
  rootModule := fun _ hs => .rootModule hs.modules hs.toCovered
  bindTo seg space decl here := fun _ hs => .bindTo hs.toCovered seg space decl here
  setParent _ _ _ := fun _ hs => .updateTables hs.toCovered rfl rfl
  addNested _ _ := fun _ hs => .updateTables hs.toCovered rfl rfl
  setPath _ path := fun _ hs =>
    (SafeFrom.setPath (hs.settle fun _ h => absurd h List.not_mem_nil) path).weaken
      fun _ _ _ _ => trivial
  inFrame owner h := fun _ hs => .inFrame (h _ (hs.openFrame owner)) fun _ _ h => h
  inModule module h := fun _ hs => .inModule (h _ (hs.openModule module)) fun _ _ h => h
  declare space id name place vis container := fun _ hs =>
    (SafeFrom.declare (hs.opened space) hs.modules hs.toCovered id name place vis container).weaken
      fun _ _ _ _ => trivial
  declareContainer space id name place vis container kind h :=
    .declareContainer space id name place vis container kind fun inner s hs _ => h inner s hs
  bindNamed space b shadow complaint path h := fun _ hs =>
    .bindNamed (hs.opened space) hs.toCovered b shadow complaint path (fun _ _ => trivial)
      fun s₁ hcontinues hcovered _ => h s₁ (hcontinues.sound hs hcovered)

end Resolution

end NameResolution
