import NameResolution.Proofs.StackBalance

/-!
# NameResolution.Proofs.Coverage

**Whatever can be found has a canonical path.** `Session.Covered` says so of the ribs, of
the lists of what was declared and of the containers, whatever the identities in the tree
are like. A name is bound before it gets its path, so in between a path is *due*.

Canonical paths are never taken back (`Session.Continues`), so what has been found keeps
its path for the rest of the run, whichever node it shares its identity with.
-/

namespace NameResolution

namespace Session

/-- The node has a canonical path. -/
def IsNamed (s : Session) (id : NodeId) : Prop := (s.tables.paths.get? id).isSome

/-- What an answer names, if it names anything, has a canonical path. -/
def NamesOnly (s : Session) (answer : Option NodeId) : Prop := ∀ id, answer = some id → s.IsNamed id

theorem namesOnly_none (s : Session) : s.NamesOnly none := fun _ h => nomatch h

/-- Whatever can be found has a canonical path, apart from nodes whose path is due. -/
structure Covered (due : List NodeId) (s : Session) : Prop where
  declared : ∀ space, ∀ id ∈ (s.scope space).declared, s.IsNamed id ∨ id ∈ due
  bound : ∀ space, ∀ r ∈ (s.scope space).ribs, ∀ b ∈ r.bindings, s.IsNamed b.id ∨ b.id ∈ due
  containers : ∀ id, s.tables.isContainer id → s.IsNamed id ∨ id ∈ due

/-- What an action leaves as it was: the stacks and the built-in types, and the canonical paths
that there are. -/
structure Continues (s s' : Session) : Prop where
  sameStacks : s.SameStacks s'
  builtins : s'.builtins = s.builtins
  named : ∀ id, s.IsNamed id → s'.IsNamed id

/-- Everything that can be found is covered, and so are the built-in types and some further nodes.
A module and, in both namespaces, a rib is open. -/
structure Sound (named : NodeId → Prop) (s : Session) : Prop extends s.Covered [] where
  builtins : ∀ id ∈ s.builtins.types, s.IsNamed id
  named : ∀ id, named id → s.IsNamed id
  modules : s.modules.opened ≠ []
  opened : ∀ space, (s.scope space).opened ≠ []

namespace Continues

variable {s s₁ s₂ : Session}

theorem refl (s : Session) : s.Continues s := ⟨.refl s, rfl, fun _ h => h⟩

theorem trans (h₁ : s.Continues s₁) (h₂ : s₁.Continues s₂) : s.Continues s₂ where
  sameStacks := h₁.sameStacks.trans h₂.sameStacks
  builtins := h₂.builtins.trans h₁.builtins
  named id h := h₂.named id (h₁.named id h)

/-- Other tables are changed than that of canonical paths. -/
theorem withTables {t : Tables} (h : t.paths = s.tables.paths) : s.Continues (s.withTables t) where
  sameStacks := .withTables s t
  builtins := rfl
  named id hid := by
    unfold IsNamed
    rw [tables_withTables, h]
    exact hid

theorem sound {named : NodeId → Prop} (h : s.Continues s₁) (hs : s.Sound named)
    (hcovered : s₁.Covered []) : s₁.Sound named where
  toCovered := hcovered
  builtins id hid := by
    rw [h.builtins] at hid
    exact h.named id (hs.builtins id hid)
  named id hid := h.named id (hs.named id hid)
  modules := by
    rw [h.sameStacks.modules]
    exact hs.modules
  opened space := by
    rw [h.sameStacks.opened space]
    exact hs.opened space

end Continues

namespace Covered

variable {due due' : List NodeId} {s : Session}

/-- What was due has been settled. -/
theorem settle (h : s.Covered due) (hdue : ∀ id ∈ due, s.IsNamed id ∨ id ∈ due') :
    s.Covered due' where
  declared space id hid := (h.declared space id hid).elim Or.inl (hdue id)
  bound space r hr b hb := (h.bound space r hr b hb).elim Or.inl (hdue b.id)
  containers id hid := (h.containers id hid).elim Or.inl (hdue id)

theorem settled {id : NodeId} (h : s.Covered [id]) (hid : s.IsNamed id) : s.Covered [] := by
  refine h.settle fun x hx => Or.inl ?_
  rw [List.mem_singleton.mp hx]
  exact hid

/-- Nothing changes but tables that have nothing to do with what can be found. -/
theorem withTables {t : Tables} (h : s.Covered due)
    (hnamed : ∀ id, s.IsNamed id → (s.withTables t).IsNamed id)
    (hcontainers : t.containers = s.tables.containers) : (s.withTables t).Covered due where
  declared space id hid := by
    rw [scope_withTables] at hid
    exact (h.declared space id hid).imp_left (hnamed id)
  bound space r hr b hb := by
    rw [scope_withTables] at hr
    exact (h.bound space r hr b hb).imp_left (hnamed b.id)
  containers id hid := by
    refine (h.containers id ?_).imp_left (hnamed id)
    rw [tables_withTables] at hid
    unfold Tables.isContainer at hid ⊢
    rwa [hcontainers] at hid

/-- A node with a canonical path may become a container. -/
theorem withContainer {id : NodeId} (h : s.Covered due) (hid : s.IsNamed id ∨ id ∈ due)
    (kind : ContainerKind) :
    (s.withTables { s.tables with containers := s.tables.containers.set id kind }).Covered due where
  declared space x hx := by
    rw [scope_withTables] at hx
    exact h.declared space x hx
  bound space r hr b hb := by
    rw [scope_withTables] at hr
    exact h.bound space r hr b hb
  containers x hx := by
    by_cases hsame : x = id
    · rw [hsame]
      exact hid
    · refine h.containers x ?_
      unfold Tables.isContainer at hx ⊢
      rwa [tables_withTables, Register.get?_set, if_neg hsame] at hx

/-- Changing the stacks makes no difference to what can be found. -/
theorem congr {s' : Session} (h : s.Covered due)
    (hdeclared : ∀ space, (s'.scope space).declared = (s.scope space).declared)
    (hribs : ∀ space, ∀ r ∈ (s'.scope space).ribs, r ∈ (s.scope space).ribs ∨ r.bindings = [])
    (htables : s'.tables = s.tables) : s'.Covered due where
  declared space id hid := by
    unfold IsNamed
    rw [htables]
    exact h.declared space id (by rwa [hdeclared space] at hid)
  bound space r hr b hb := by
    unfold IsNamed
    rw [htables]
    rcases hribs space r hr with hr | hempty
    · exact h.bound space r hr b hb
    · rw [hempty] at hb
      exact absurd hb List.not_mem_nil
  containers id hid := by
    unfold IsNamed
    rw [htables] at hid ⊢
    exact h.containers id hid

theorem openFrame (h : s.Covered due) (owner : NodeId) : (s.openFrame owner).Covered due := by
  refine h.congr (fun space => ?_) (fun space r hr => ?_) rfl
  · rw [scope_openFrame, Scope.declared_push]
  · rw [scope_openFrame] at hr
    exact Scope.mem_ribs_push r hr

theorem openModule (h : s.Covered due) (module : NodeId) : (s.openModule module).Covered due :=
  (h.openFrame module).congr (fun _ => rfl) (fun _ _ hr => Or.inl hr) rfl

theorem withoutFrame (h : s.Covered due) : s.withoutFrame.Covered due := by
  refine h.congr (fun space => ?_) (fun space r hr => ?_) rfl
  · rw [scope_withoutFrame]
  · rw [scope_withoutFrame] at hr
    exact Or.inl hr

theorem withoutModule (h : s.Covered due) : s.withoutModule.Covered due :=
  h.withoutFrame.congr (fun _ => rfl) (fun _ _ hr => Or.inl hr) rfl

/-- The canonical path of what a binding stands for is due. -/
theorem withBinding (h : s.Covered due) (space : Namespace) (owner : NodeId) (b : Binding) :
    (s.withBinding space owner b).Covered (b.id :: due) := by
  have hnamed : ∀ id, (s.withBinding space owner b).IsNamed id = s.IsNamed id := by
    intro id
    unfold IsNamed Session.withBinding
    rw [tables_withScope]
  refine ⟨fun x id hid => ?_, fun x r hr y hy => ?_, fun id hid => ?_⟩
  · rw [hnamed]
    rw [declared_withBinding] at hid
    split at hid
    · rcases List.mem_cons.mp hid with rfl | hid
      · exact Or.inr List.mem_cons_self
      · exact (h.declared x id hid).imp_right (List.mem_cons_of_mem _)
    · exact (h.declared x id hid).imp_right (List.mem_cons_of_mem _)
  · rw [hnamed]
    unfold Session.withBinding at hr
    rw [scope_withScope] at hr
    split at hr
    · rcases Scope.mem_ribs_bindIn hr hy with rfl | ⟨old, hold, hy⟩
      · exact Or.inr List.mem_cons_self
      · exact (h.bound space old hold y hy).imp_right (List.mem_cons_of_mem _)
    · exact (h.bound x r hr y hy).imp_right (List.mem_cons_of_mem _)
  · rw [hnamed]
    unfold Session.withBinding at hid
    rw [tables_withScope] at hid
    exact (h.containers id hid).imp_right (List.mem_cons_of_mem _)

/-- What a path can be resolved to has a canonical path. -/
theorem classify (h : s.Covered []) {id : NodeId} {space : Namespace}
    (hid : s.classify id = some space) : s.IsNamed id := by
  have hnone : ∀ {p : Prop}, p ∨ id ∈ ([] : List NodeId) → p := fun h =>
    h.resolve_right List.not_mem_nil
  unfold Session.classify at hid
  split at hid
  · next hname =>
      rcases Bool.or_eq_true_iff.mp hname with hdeclared | hmodule
      · exact hnone (h.declared .name id (of_decide_eq_true hdeclared))
      · refine hnone (h.containers id ?_)
        have hkind : s.tables.containers.get? id = some .module := by
          simpa [Tables.isModule] using hmodule
        unfold Tables.isContainer
        rw [hkind]
        rfl
  · split at hid
    · next htype => exact hnone (h.declared .type id (of_decide_eq_true htype))
    · cases hid

end Covered

namespace Sound

variable {named : NodeId → Prop} {s : Session}

theorem openFrame (h : s.Sound named) (owner : NodeId) : (s.openFrame owner).Sound named where
  toCovered := h.toCovered.openFrame owner
  builtins := h.builtins
  named := h.named
  modules := h.modules
  opened space := by
    rw [scope_openFrame, Scope.opened_push]
    exact List.cons_ne_nil _ _

theorem openModule (h : s.Sound named) (module : NodeId) : (s.openModule module).Sound named where
  toCovered := h.toCovered.openModule module
  builtins := h.builtins
  named := h.named
  modules := List.cons_ne_nil _ _
  opened space := by
    rw [scope_openModule, Scope.opened_push]
    exact List.cons_ne_nil _ _

end Sound

end Session

end NameResolution
