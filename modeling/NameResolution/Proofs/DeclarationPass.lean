import NameResolution.Proofs.Registration

/-!
# NameResolution.Proofs.DeclarationPass

**The first pass is followed over the tree.** `Registers ids l l' act a s` says that an
action which works on the nodes `ids` succeeds and makes exactly the attempts `l'`, after
the attempts `l` have been made. `Registers.bind` and `Registers.members` compose it, and
`Item.declare_registers` is the induction over the tree.
-/

namespace NameResolution

open Resolution

variable {α β : Type} {s s' : Session} {ids ids₁ ids₂ : List NodeId}
  {l l₁ l₂ : List Attempt} {here id : NodeId}

namespace Session

theorem Bound.withTables (h : s.Bound l) {t : Tables}
    (hchildren : t.childEntries = s.tables.childEntries)
    (hpaths : ∀ id path, s.tables.paths.get? id = some path → t.paths.get? id = some path)
    (hseen : t.visibilities = s.tables.visibilities) (hunresolved : t.Unresolved) :
    (s.withTables t).Bound l :=
  h.congr rfl (fun space module key => by rw [scope_withTables])
    (fun space => by rw [scope_withTables]) rfl (fun _ => Or.inr) hchildren hpaths hseen
    hunresolved

/-- Whatever leaves the containers alone and makes modules the parents at most. -/
theorem Contained.congr (h : s.Contained l) (hroot : s'.root = s.root)
    (hcontainers : s'.tables.containers = s.tables.containers)
    (hparents : ∀ id module, s'.tables.parents.get? id = some module →
      s.tables.isModule module = true) : s'.Contained l where
  containers := by rw [hcontainers]; exact h.containers
  contained := by rw [hcontainers, hroot]; exact h.contained
  parents id module hget := by
    have hm := hparents id module hget
    unfold Tables.isModule at hm ⊢
    rw [hcontainers]
    exact hm

end Session

/-- An action on the nodes `ids` succeeds and makes exactly the attempts `l'` after `l`. -/
def Registers (ids : List NodeId) (l l' : List Attempt) (act : Resolution α) (a : α)
    (s : Session) : Prop :=
  ∃ s', Runs act s a s' ∧ s.Grows ids s' ∧ s'.Registered (l ++ l')

namespace Registers

variable {act : Resolution α} {a : α} {b : β}

theorem pure (h : s.Registered l) : Registers [] l [] (Pure.pure a) a s :=
  ⟨s, Runs.pure a s, Session.Grows.refl _ s, by rwa [List.append_nil]⟩

theorem bind {next : α → Resolution β} (h₁ : Registers ids₁ l l₁ act a s)
    (h₂ : ∀ s', s.Grows ids₁ s' → s'.Registered (l ++ l₁) →
      Registers ids₂ (l ++ l₁) l₂ (next a) b s') :
    Registers (ids₁ ++ ids₂) l (l₁ ++ l₂) (act >>= next) b s := by
  obtain ⟨s₁, hrun₁, hgrows₁, hreg₁⟩ := h₁
  obtain ⟨s₂, hrun₂, hgrows₂, hreg₂⟩ := h₂ s₁ hgrows₁ hreg₁
  exact ⟨s₂, hrun₁.bind hrun₂, hgrows₁.append hgrows₂, by rwa [← List.append_assoc]⟩

theorem mono (h : Registers ids₁ l l₁ act a s) (hids : ids₁ ⊆ ids₂) :
    Registers ids₂ l l₁ act a s := by
  obtain ⟨s', hrun, hgrows, hreg⟩ := h
  exact ⟨s', hrun, hgrows.mono hids, hreg⟩

theorem discard (h : Registers ids l l₁ act a s) :
    Registers ids l l₁ (Functor.discard act) () s := by
  obtain ⟨s', hrun, hgrows, hreg⟩ := h
  exact ⟨s', hrun.discard, hgrows, hreg⟩

/-- There is only one run, and it does what is said. -/
theorem of_runs {a' : α} (h : Registers ids l l₁ act a s) (hrun : Runs act s a' s') :
    s.Grows ids s' ∧ s'.Registered (l ++ l₁) := by
  obtain ⟨s₁, hregisters, hgrows, hreg⟩ := h
  obtain ⟨-, rfl⟩ := hrun.eq hregisters
  exact ⟨hgrows, hreg⟩

/-- The module around is known to what follows. -/
theorem currentModule_bind {next : NodeId → Resolution β} (hin : s.Inside here)
    (h : Registers ids l l₁ (next here) b s) : Registers ids l l₁ (currentModule >>= next) b s := by
  obtain ⟨s', hrun, hgrows, hreg⟩ := h
  exact ⟨s', (runs_currentModule hin.stack).bind hrun, hgrows, hreg⟩

/-- Members that make one attempt each, one after the other. -/
theorem members {f : α → Resolution Unit} {attempt : α → Attempt} {idOf : α → NodeId}
    (hstep : ∀ x s l, s.Inside here → s.Registered l → s.Awaits [idOf x] →
      Registers [idOf x] l [attempt x] (f x) () s) :
    ∀ (xs : List α) (s : Session) (l : List Attempt), s.Inside here → s.Registered l →
      s.Awaits (xs.map idOf) → Registers (xs.map idOf) l (xs.map attempt) (xs.forM f) () s
  | [], _, _, _, hreg, _ => pure hreg
  | x :: xs, s, l, hin, hreg, hawaits => by
      have hawaits : s.Awaits ([idOf x] ++ xs.map idOf) := hawaits
      refine (hstep x s l hin hreg hawaits.left).bind fun s' hgrows hreg' => ?_
      exact members hstep xs s' _ (hin.grows hgrows) hreg' (hawaits.right hgrows)

end Registers

/-! ### Single steps -/

theorem setParent_registers (hreg : s.Registered l) (hin : s.Inside here) (id : NodeId) :
    Registers [] l [] (setParent id here) () s := by
  refine ⟨_, runs_updateTables _ s, Session.Grows.withTables (.refl _ _) (.refl _ _), ?_⟩
  rw [List.append_nil]
  refine ⟨hreg.toBound.withTables rfl (fun _ _ h => h) rfl hreg.unresolved,
    hreg.toContained.congr rfl rfl fun key module hget => ?_⟩
  change (s.tables.parents.set id here).get? key = some module at hget
  rw [Register.get?_set] at hget
  split at hget
  · cases hget
    exact hin.isModule
  · exact hreg.parents key module hget

theorem placeInModule_registers (hreg : s.Registered l) (hin : s.Inside here) (id : NodeId) :
    Registers [] l [] (placeInModule id) () s :=
  Registers.currentModule_bind hin (setParent_registers hreg hin id)

/-- Declaring something that is no container. -/
theorem declare_registers (hin : s.Inside here) (hreg : s.Registered l) (hawaits : s.Awaits [id])
    (space : Namespace) (name : Ident) (place : Place) (vis : Visibility)
    (container : Option NodeId) :
    Registers [id] l [place.attempt here space id name vis container none]
      (declare space id name place vis container)
      (place.attempt here space id name vis container none).inner s := by
  have hunused := hawaits.unused id (List.mem_singleton_self id)
  obtain ⟨s', hrun, h⟩ :=
    declare_attempts space name place vis container none hin hreg.toBound hunused
  exact ⟨s', hrun, h.grows, h.bound,
    hreg.toContained.leaf rfl h.grows.root h.containers h.parents⟩

/-- Declaring a container, which is then marked as such. -/
theorem declare_container_registers (hin : s.Inside here)
    (hreg : s.Registered l) (hawaits : s.Awaits (id :: ids)) (space : Namespace) (name : Ident)
    (place : Place) (vis : Visibility) (container : Option NodeId) (kind : ContainerKind)
    {next : Place → Resolution Unit}
    (hnext : ∀ s', s.Grows [id] s' → s'.tables.containers.get? id = some kind →
      s'.Registered (l ++ [place.attempt here space id name vis container (some kind)]) →
      Registers ids₂ (l ++ [place.attempt here space id name vis container (some kind)]) l₂
        (next (place.attempt here space id name vis container (some kind)).inner) () s') :
    Registers (id :: ids₂) l
      (place.attempt here space id name vis container (some kind) :: l₂)
      (do
        let inner ← declare space id name place vis container
        markContainer id kind
        next inner) () s := by
  have hunused := hawaits.unused id List.mem_cons_self
  obtain ⟨s₁, hrun₁, hgrows₁, hbound, hcontainers, hparents⟩ :=
    declare_attempts space name place vis container (some kind) hin hreg.toBound hunused
  have hfresh : s₁.tables.containers.get? id = none := by
    rw [hcontainers]
    exact hunused.childless
  let s₂ := s₁.withTables { s₁.tables with containers := s₁.tables.containers.set id kind }
  have hrun₂ : Runs (markContainer id kind) s₁ () s₂ := runs_updateTables _ s₁
  have hgrows₂ : s.Grows [id] s₂ :=
    hgrows₁.trans (Session.Grows.withContainer (List.mem_singleton_self id) hfresh kind)
  -- Between the two steps the attempt has been made, but what it contains is not known yet.
  have hreg₂ : s₂.Registered
      (l ++ [place.attempt here space id name vis container (some kind)]) := by
    refine ⟨hbound.withTables rfl (fun _ _ h => h) rfl hbound.unresolved, ?_⟩
    refine hreg.toContained.container rfl hunused.childless hgrows₁.root ?_ hparents
    change s₁.tables.containers.set id kind = _
    rw [hcontainers]
    rfl
  obtain ⟨s₃, hrun₃, hgrows₃, hreg₃⟩ :=
    hnext s₂ hgrows₂ (Register.get?_set_self _ _ _) hreg₂
  refine ⟨s₃, hrun₁.bind (hrun₂.bind hrun₃), hgrows₂.append hgrows₃, ?_⟩
  rwa [List.append_cons]

/-- A header that could not be read is reported, which is no duplicate. -/
theorem unreadable_registers (hreg : s.Registered l) (seg : PathSegment) :
    Registers [] l [] (report seg.unreadable) () s := by
  refine ⟨_, runs_report _ s, Session.Grows.reporting _ s _, ?_⟩
  rw [List.append_nil]
  refine ⟨hreg.toBound.congr rfl (fun space _ _ => by rw [Session.scope_reporting])
    (fun space => by rw [Session.scope_reporting]) ?_ (fun e he => ?_) rfl
    (fun _ _ h => h) rfl hreg.unresolved, hreg.toContained.congr rfl rfl hreg.parents⟩
  · rw [Session.errors_reporting, Collector.reported_push, List.filter_append]
    exact List.append_nil _
  · rw [Session.errors_reporting, Collector.reported_push] at he
    rcases List.mem_append.mp he with he | he
    · exact Or.inr he
    · rw [List.mem_singleton.mp he]
      exact Or.inl rfl

/-- The node of an implementation gets a path without an attempt of its own. -/
theorem setPath_registers (hreg : s.Registered l) (hunused : s.Unused id) (path : CanonicalPath) :
    Registers [id] l [] (setPath id path) () s := by
  have hgrows := Session.Grows.withPath (List.mem_singleton_self id) hunused.pathless path
  refine ⟨_, runs_setPath hunused.pathless path, hgrows, ?_⟩
  rw [List.append_nil]
  exact ⟨hreg.toBound.withTables rfl hgrows.paths rfl hreg.unresolved,
    hreg.toContained.congr rfl rfl hreg.parents⟩

/-! ### Members -/

theorem Variant.declare_registers (hin : s.Inside here) (hreg : s.Registered l) (v : Variant)
    (hawaits : s.Awaits [v.node.id]) (owner : NodeId) (vis : Visibility) (place : Place) :
    Registers [v.node.id] l [v.attempt here owner vis place] (v.declare owner vis place) () s := by
  have hdeclare := NameResolution.declare_registers hin hreg hawaits .type v.name place vis
    (some owner)
  exact hdeclare.discard.bind fun s' hgrows hreg' =>
    placeInModule_registers hreg' (hin.grows hgrows) v.node.id

theorem ImplItem.declare_registers (hin : s.Inside here) (hreg : s.Registered l) (i : ImplItem)
    (hawaits : s.Awaits [i.node.id]) (place : Place) :
    Registers [i.node.id] l [i.attempt here place] (i.declare place) () s := by
  have hdeclare := NameResolution.declare_registers hin hreg hawaits i.kind.declares.1
    i.kind.declares.2 place i.vis none
  exact hdeclare.discard.bind fun s' hgrows hreg' =>
    placeInModule_registers hreg' (hin.grows hgrows) i.node.id

theorem TraitItem.declare_registers (hin : s.Inside here) (hreg : s.Registered l) (i : TraitItem)
    (hawaits : s.Awaits [i.node.id]) (owner : NodeId) (vis : Visibility) (place : Place) :
    Registers [i.node.id] l [i.attempt here owner vis place] (i.declare owner vis place) () s := by
  have hdeclare := NameResolution.declare_registers hin hreg hawaits i.kind.declares.1
    i.kind.declares.2 place vis (some owner)
  exact hdeclare.discard.bind fun s' hgrows hreg' =>
    placeInModule_registers hreg' (hin.grows hgrows) i.node.id

theorem ForeignItem.declare_registers (hin : s.Inside here) (hreg : s.Registered l)
    (i : ForeignItem) (hawaits : s.Awaits [i.node.id]) (place : Place) :
    Registers [i.node.id] l [i.attempt here place] (i.declare place) () s := by
  have hdeclare := NameResolution.declare_registers hin hreg hawaits .name i.kind.name place i.vis
    (some here)
  exact Registers.currentModule_bind hin (hdeclare.discard.bind fun s' hgrows hreg' =>
    setParent_registers hreg' (hin.grows hgrows) i.node.id)

/-! ### Implementations -/

theorem InherentImpl.declare_registers (hin : s.Inside here) (hreg : s.Registered l)
    (i : InherentImpl) (node : Node) (hawaits : s.Awaits (node.id :: i.items.map (·.node.id)))
    (vis : Visibility) (place : Place) :
    Registers (node.id :: i.items.map (·.node.id)) l
      ((ItemKind.inherentImpl i).attempts node vis here place l) (i.declare node.id place) ()
      s := by
  unfold InherentImpl.declare
  simp only [ItemKind.attempts]
  cases i.selfTy.headerPath i.generics.isEmpty with
  | error malformed => exact (unreadable_registers hreg malformed).mono (List.nil_subset _)
  | ok selfTy =>
      have hawaits : s.Awaits ([node.id] ++ i.items.map (·.node.id)) := hawaits
      have hpath := setPath_registers hreg (hawaits.unused node.id List.mem_cons_self)
        (place.extend selfTy).path
      refine hpath.bind fun s' hgrows hreg' => ?_
      exact Registers.members
        (fun x s l hin hreg hawaits => x.declare_registers hin hreg hawaits (place.extend selfTy))
        i.items s' _ (hin.grows hgrows) hreg' (hawaits.right hgrows)

/-- Binding a projection that is new. -/
private theorem projection_registers (hin : s.Inside here) (hreg : s.Registered l) (node : Node)
    (hunused : s.Unused node.id) (place : Place) (projection : CanonicalPath)
    (hnew : (place.projectionAttempt here node projection).earlier? l = none) :
    ∃ s₁ s', Runs (bindNew .name (place.projectionAttempt here node projection).binding) s true s₁ ∧
      Runs (setPath node.id (place.path ++ projection)) s₁ () s' ∧ s.Grows [node.id] s' ∧
      s'.Registered (l ++ [place.projectionAttempt here node projection]) := by
  let a := place.projectionAttempt here node projection
  have hvacant : (s.scope .name).bindingIn? here a.key = none := by
    rw [hreg.ribs .name here a.key hin.notPrelude]
    exact Option.map_eq_none_iff.mpr hnew
  let s₁ := s.withBinding .name here a.binding
  have htables : s₁.tables = s.tables := Session.tables_withScope _ _ _
  have hbind : Runs (bindNew .name a.binding) s true s₁ :=
    runs_makeBinding_added (hin.frame .name) (Or.inr hvacant) redefinition
  have hpathless : s₁.tables.paths.get? a.id = none := by
    rw [htables]
    exact hunused.pathless
  have hgrows₁ : s.Grows [a.id] s₁ :=
    Session.Grows.withBinding (hin.frame .name) (hin.rib .name) fun _ => List.mem_singleton_self _
  have hgrows := hgrows₁.trans
    (Session.Grows.withPath (List.mem_singleton_self a.id) hpathless a.path)
  refine ⟨s₁, s₁.withPath a.id a.path, hbind, runs_setPath hpathless a.path, hgrows, ?_, ?_⟩
  · refine hreg.toBound.accept hin hnew (fun space => ?_) (Session.builtins_withScope _ _ _)
      (Session.errors_withScope _ _ _) ?_ (Register.get?_set_self _ _ _) hgrows.paths ?_ ?_
    · rw [Session.withPath, Session.scope_withTables]
      rfl
    · change s₁.tables.childEntries = s.tables.childEntries ++ []
      rw [htables, List.append_nil]
    · change s₁.tables.visibilities.entries = s.tables.visibilities.entries
      rw [htables]
    · exact hreg.unresolved
  · refine hreg.toContained.leaf rfl (Session.root_withScope _ _ _) ?_ ?_
    · change s₁.tables.containers = s.tables.containers
      rw [htables]
    · change s₁.tables.parents = s.tables.parents
      rw [htables]

/-- Binding a projection that is taken. -/
private theorem projection_registers_refused (hin : s.Inside here) (hreg : s.Registered l)
    (node : Node) (place : Place) (projection : CanonicalPath) {first : Attempt}
    (htaken : (place.projectionAttempt here node projection).earlier? l = some first) :
    ∃ s', Runs (bindNew .name (place.projectionAttempt here node projection).binding) s false s' ∧
      s.Grows [node.id] s' ∧
      s'.Registered (l ++ [place.projectionAttempt here node projection]) := by
  let a := place.projectionAttempt here node projection
  have hheld : (s.scope .name).bindingIn? here a.key = some first.binding := by
    rw [hreg.ribs .name here a.key hin.notPrelude]
    exact congrArg (Option.map Attempt.binding) htaken
  have htext : first.key.text = a.key.text := (isFor_of_firstFor htaken).2.2.text_eq
  refine ⟨_, runs_makeBinding_refused (hin.frame .name) hheld redefinition,
    Session.Grows.reporting _ s _, ?_, ?_⟩
  · refine hreg.toBound.refuse htaken (fun space => by rw [Session.scope_reporting]) rfl ?_ rfl
      (fun hvis => ?_) (fun _ _ h => h) rfl hreg.unresolved
    · change s.errors.push (.duplicateDefinition first.key.text a.span first.span) = _
      rw [htext]
    · cases hvis
  · exact hreg.toContained.leaf rfl rfl rfl rfl

theorem TraitImpl.declare_eq (i : TraitImpl) (here : NodeId) (node : Node) (place : Place) :
    i.declare node place =
      (match i.projection node.id with
      | .error malformed => report malformed.unreadable
      | .ok projection => do
        if ← bindNew .name (place.projectionAttempt here node projection).binding then
          setPath node.id (place.path ++ projection)
          i.items.forM (ImplItem.declare (place.extend projection))) := rfl

theorem TraitImpl.declare_registers (hin : s.Inside here) (hreg : s.Registered l) (i : TraitImpl)
    (node : Node) (hawaits : s.Awaits (node.id :: i.items.map (·.node.id))) (vis : Visibility)
    (place : Place) :
    Registers (node.id :: i.items.map (·.node.id)) l
      ((ItemKind.traitImpl i).attempts node vis here place l) (i.declare node place) () s := by
  have hawaits : s.Awaits ([node.id] ++ i.items.map (·.node.id)) := hawaits
  rw [i.declare_eq here]
  simp only [ItemKind.attempts]
  cases i.projection node.id with
  | error malformed => exact (unreadable_registers hreg malformed).mono (List.nil_subset _)
  | ok projection =>
      cases hearlier : (place.projectionAttempt here node projection).earlier? l with
      | some first =>
          obtain ⟨s', hrun, hgrows, hreg'⟩ :=
            projection_registers_refused hin hreg node place projection hearlier
          simp only [hearlier]
          exact ⟨s', hrun.bind (Runs.pure () s'), hgrows.mono (by simp), hreg'⟩
      | none =>
          obtain ⟨s₁, s₂, hrun₁, hrun₂, hgrows, hreg'⟩ := projection_registers hin hreg node
            (hawaits.unused _ List.mem_cons_self) place projection hearlier
          obtain ⟨s₃, hrun₃, hgrows₃, hreg₃⟩ := Registers.members
            (fun x s l hin hreg hawaits =>
              x.declare_registers hin hreg hawaits (place.extend projection))
            i.items s₂ _ (hin.grows hgrows) hreg' (hawaits.right hgrows)
          simp only [hearlier]
          refine ⟨s₃, hrun₁.bind (hrun₂.bind hrun₃), hgrows.append hgrows₃, ?_⟩
          rwa [List.append_cons]

/-! ### Modules -/

namespace Session

theorem Awaits.openModule (h : s.Awaits ids) (module : NodeId) :
    (s.openModule module).Awaits ids where
  nodup := h.nodup
  unused id hid := (h.unused id hid).congr
    (fun space => by rw [scope_openModule, Scope.declared_push]) rfl rfl
  notPrelude := h.notPrelude

theorem Registered.openModule (h : s.Registered l) (module : NodeId) :
    (s.openModule module).Registered l :=
  ⟨h.toBound.congr rfl (fun space _ _ => by rw [scope_openModule, Scope.bindingIn?_push])
    (fun space => by rw [scope_openModule, Scope.declared_push]) rfl (fun _ => Or.inr) rfl
    (fun _ _ h => h) rfl h.unresolved, h.toContained.congr rfl rfl h.parents⟩

theorem Registered.withoutModule (h : s.Registered l) : s.withoutModule.Registered l :=
  ⟨h.toBound.congr rfl (fun space _ _ => by rw [scope_withoutModule]; rfl)
    (fun space => by rw [scope_withoutModule]) rfl (fun _ => Or.inr) rfl
    (fun _ _ h => h) rfl h.unresolved,
    h.toContained.congr rfl rfl h.parents⟩

theorem Registered.withoutFrame (h : s.Registered l) : s.withoutFrame.Registered l :=
  ⟨h.toBound.congr rfl (fun space _ _ => by rw [scope_withoutFrame]; rfl)
    (fun space => by rw [scope_withoutFrame]) rfl (fun _ => Or.inr) rfl
    (fun _ _ h => h) rfl h.unresolved,
    h.toContained.congr rfl rfl h.parents⟩

/-- A module that has just been entered. -/
theorem Inside.openModule {module : NodeId} (hmodule : s.tables.isModule module = true)
    (hne : module ≠ s.builtins.prelude) : (s.openModule module).Inside module where
  frame space := by rw [scope_openModule]; rfl
  rib space := by
    rw [scope_openModule]
    exact Scope.isSome_rib?_push (Or.inl rfl)
  stack := rfl
  isModule := hmodule
  notPrelude := hne

end Session

/-- What is attempted inside a module stays when the module is left. -/
theorem Registers.inModule {module : NodeId} {act : Resolution α} {a : α}
    (hmodule : s.tables.isModule module = true) (hne : module ≠ s.builtins.prelude)
    (hreg : s.Registered l)
    (h : (s.openModule module).Inside module → (s.openModule module).Registered l →
      Registers ids l l₁ act a (s.openModule module)) :
    Registers (module :: ids) l l₁ (Resolution.inModule module act) a s := by
  have hin := Session.Inside.openModule hmodule hne
  obtain ⟨s', hrun, hgrows, hreg'⟩ := h hin (hreg.openModule module)
  have hin' := hin.grows hgrows
  exact ⟨s'.withoutModule, hrun.inModule hin'.frame hin'.stack, hgrows.inModule,
    hreg'.withoutModule⟩

theorem addNested_registers (hreg : s.Registered l) (parent module : NodeId) :
    Registers [] l [] (updateTables (·.addNested parent module)) () s := by
  refine ⟨_, runs_updateTables _ s, Session.Grows.withTables (.refl _ _) (.refl _ _), ?_⟩
  rw [List.append_nil]
  exact ⟨hreg.toBound.withTables rfl (fun _ _ h => h) rfl hreg.unresolved,
    hreg.toContained.congr rfl rfl hreg.parents⟩

/-! ### The whole tree -/

/-- What an item that is no module declares. -/
private theorem declareFlat_registers {kind : ItemKind}
    (hflat : ∀ name items, kind ≠ .module name items) (hin : s.Inside here) (hreg : s.Registered l)
    (node : Node) (hawaits : s.Awaits (node.id :: kind.memberIds)) (vis : Visibility)
    (place : Place) :
    Registers (node.id :: kind.memberIds) l (kind.attempts node vis here place l)
      (kind.declare node vis here place) () s := by
  cases kind with
  | module name items => exact absurd rfl (hflat name items)
  | enum e =>
      refine declare_container_registers hin hreg hawaits .type e.name place vis (some here) .enum
        fun s' hgrows _ hreg' => ?_
      exact Registers.members
        (fun x s l hin hreg hawaits => x.declare_registers hin hreg hawaits node.id vis _)
        e.variants s' _ (hin.grows hgrows) hreg' (Session.Awaits.right hawaits hgrows)
  | trait t =>
      refine declare_container_registers hin hreg hawaits .type t.name place vis (some here) .trait
        fun s' hgrows _ hreg' => ?_
      exact Registers.members
        (fun x s l hin hreg hawaits => x.declare_registers hin hreg hawaits node.id vis _)
        t.items s' _ (hin.grows hgrows) hreg' (Session.Awaits.right hawaits hgrows)
  | inherentImpl i => exact i.declare_registers hin hreg node hawaits vis place
  | traitImpl i => exact i.declare_registers hin hreg node hawaits vis place
  | foreign b =>
      have hawaits : s.Awaits ([node.id] ++ b.items.map (·.node.id)) := hawaits
      have hmembers := Registers.members
        (fun x s l hin hreg hawaits => x.declare_registers hin hreg hawaits place)
        b.items s _ hin hreg (hawaits.right (Session.Grows.refl _ s))
      exact hmembers.mono (List.subset_cons_self _ _)
  | _ => exact (declare_registers hin hreg hawaits _ _ place vis (some here)).discard

/-- What a module declares, given what the items inside it do. -/
private theorem declare_module_registers {items : List Item} (hin : s.Inside here)
    (hreg : s.Registered l) (node : Node) (hawaits : s.Awaits (node.id :: itemsDeclaredIds items))
    (vis : Visibility) (place : Place) (name : Ident)
    (hitems : ∀ {s : Session} {l : List Attempt} (place : Place), s.Inside node.id →
      s.Registered l → s.Awaits (itemsDeclaredIds items) →
      Registers (itemsDeclaredIds items) l (itemsAttempts node.id place l items)
        (declareItems place items) () s) :
    Registers (node.id :: itemsDeclaredIds items) l
      ((ItemKind.module name items).attempts node vis here place l)
      ((ItemKind.module name items).declare node vis here place) () s := by
  -- The node is worked on twice, when it is declared and when its rib is opened.
  have hinner : Registers (node.id :: node.id :: itemsDeclaredIds items) l
      ((ItemKind.module name items).attempts node vis here place l)
      ((ItemKind.module name items).declare node vis here place) () s := by
    refine declare_container_registers hin hreg hawaits .name name place vis (some here) .module
      fun s₁ hgrows₁ hmarked hreg₁ => ?_
    have hawaits₁ : s₁.Awaits (itemsDeclaredIds items) := Session.Awaits.right hawaits hgrows₁
    have hne : node.id ≠ s₁.builtins.prelude := fun heq =>
      hawaits.notPrelude (by rw [← hgrows₁.builtins, ← heq]; exact List.mem_cons_self)
    have hmodule : s₁.tables.isModule node.id = true := by
      unfold Tables.isModule
      rw [hmarked]
      rfl
    refine (addNested_registers hreg₁ here node.id).bind fun s₂ hgrows₂ hreg₂ => ?_
    rw [List.append_nil] at hreg₂ ⊢
    refine Registers.inModule (hgrows₂.isModule hmodule) (hgrows₂.builtins ▸ hne) hreg₂
      fun hin₃ hreg₃ => ?_
    have hawaits₂ : s₂.Awaits (itemsDeclaredIds items) := Session.Awaits.right hawaits₁ hgrows₂
    exact hitems (.ofModule _) hin₃ hreg₃ (hawaits₂.openModule node.id)
  exact hinner.mono (by simp)

mutual

/-- Registering an item succeeds and makes exactly the attempts of the item. -/
theorem Item.declare_registers : ∀ (item : Item) {s : Session} {l : List Attempt} {here : NodeId}
    (place : Place), s.Inside here → s.Registered l → s.Awaits item.declaredIds →
      Registers item.declaredIds l (item.attempts here place l) (item.declare place) () s
  | ⟨node, vis, kind⟩, s, l, here, place, hin, hreg, hawaits => by
      have hkind : Registers (Item.declaredIds ⟨node, vis, kind⟩) l
          (kind.attempts node vis here place l) (kind.declare node vis here place) () s := by
        cases kind with
        | module name items =>
            exact declare_module_registers hin hreg node hawaits vis place name
              fun place => declareItems_registers items place
        | _ =>
            refine declareFlat_registers (by simp) hin hreg node ?_ vis place
            exact hawaits
      have hparent : Registers _ l _
          (kind.declare node vis here place >>= fun _ => setParent node.id here) () s :=
        hkind.bind fun s' hgrows hreg' => setParent_registers hreg' (hin.grows hgrows) node.id
      rw [List.append_nil, List.append_nil] at hparent
      exact Registers.currentModule_bind hin hparent

theorem declareItems_registers : ∀ (items : List Item) {s : Session} {l : List Attempt}
    {here : NodeId} (place : Place), s.Inside here → s.Registered l →
      s.Awaits (itemsDeclaredIds items) →
      Registers (itemsDeclaredIds items) l (itemsAttempts here place l items)
        (declareItems place items) () s
  | [], _, _, _, _, _, hreg, _ => Registers.pure hreg
  | item :: rest, s, l, here, place, hin, hreg, hawaits => by
      simp only [itemsDeclaredIds] at hawaits ⊢
      have hitem := Item.declare_registers item place hin hreg hawaits.left
      refine hitem.bind fun s' hgrows hreg' => ?_
      exact declareItems_registers rest place (hin.grows hgrows) hreg' (hawaits.right hgrows)

end

end NameResolution
