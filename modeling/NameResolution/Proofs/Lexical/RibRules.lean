import NameResolution.Proofs.Lexical.LocalRibs

/-!
# NameResolution.Proofs.Lexical.RibRules

**What actions bind.** `Leaves` says of an action that it introduces given names in the
frame around it, and which frames and blocks inside it are left behind, in every session
in which its nodes are still to be worked on (`Session.Fits`). It has one rule for each way
in which actions are put together, and one for each that introduces a name.

Nothing that a name stands for matters to this, with one exception: what `Self` is
introduced for, if for anything, is what a type has been resolved to.
-/

namespace NameResolution

open Resolution

/-- The nodes are still to be worked on, nothing being known about the fresh ones, and `top` is the
innermost rib. -/
structure Session.Fits (fresh : NodeId → Prop) (top : NodeId) (ids : List NodeId) (s : Session) :
    Prop where
  innermost : ∀ space, (s.scope space).opened.head? = some top
  rib : ∀ space, ((s.scope space).rib? top).isSome
  nodup : ids.Nodup
  closed : ∀ id ∈ ids, ∀ space, id ∉ (s.scope space).opened
  unused : ∀ id ∈ ids, fresh id → s.Unused id
  vacant : ∀ id ∈ ids, s.Vacant id

namespace Session.Fits

variable {s s' : Session} {fresh : NodeId → Prop} {top owner : NodeId} {ids ids₁ ids₂ : List NodeId}

theorem mono (h : s.Fits fresh top ids₂) (hids : List.Subperm ids₁ ids₂) :
    s.Fits fresh top ids₁ where
  innermost := h.innermost
  rib := h.rib
  nodup := by
    obtain ⟨l, hperm, hsub⟩ := hids
    exact hperm.nodup_iff.mp (h.nodup.sublist hsub)
  closed id hid := h.closed id (hids.subset hid)
  unused id hid := h.unused id (hids.subset hid)
  vacant id hid := h.vacant id (hids.subset hid)

theorem left (h : s.Fits fresh top (ids₁ ++ ids₂)) : s.Fits fresh top ids₁ :=
  h.mono (List.sublist_append_left _ _).subperm

theorem apart (h : s.Fits fresh top (ids₁ ++ ids₂)) : ids₁.Disjoint ids₂ :=
  fun id h₁ h₂ => (List.nodup_append.mp h.nodup).2.2 id h₁ id h₂ rfl

theorem not_innermost (h : s.Fits fresh top ids) {id : NodeId} (hid : id ∈ ids)
    (space : Namespace) : (s.scope space).opened.head? ≠ some id :=
  fun hhead => h.closed id hid space (List.mem_of_head? hhead)

theorem top_not_mem (h : s.Fits fresh top ids) : top ∉ ids :=
  fun hin => h.not_innermost hin .name (h.innermost .name)

/-- If all of the nodes are fresh, nothing is known about any of them. -/
theorem all_fresh (h : s.Fits fresh top ids) (hfresh : ∀ id ∈ ids, fresh id) :
    s.Fits (fun _ => True) top ids :=
  { h with unused := fun id hid _ => h.unused id hid (hfresh id hid) }

/-- What another part has not worked on is still to be worked on. -/
theorem right (h : s.Fits fresh top (ids₁ ++ ids₂)) (hgrows : s.Grows ids₁ s') :
    s'.Fits fresh top ids₂ where
  innermost space := (congrArg List.head? (hgrows.opened space)).trans (h.innermost space)
  rib space := hgrows.ribs space top (h.rib space)
  nodup := (List.nodup_append.mp h.nodup).2.1
  closed id hid space := by
    rw [hgrows.opened]
    exact h.closed id (List.mem_append_right _ hid) space
  unused id hid hfresh := hgrows.unused id (fun hin => h.apart hin hid)
    (h.unused id (List.mem_append_right _ hid) hfresh)
  vacant id hid := hgrows.vacant (fun hin => h.apart hin hid)
    (h.not_innermost (List.mem_append_right _ hid)) (h.vacant id (List.mem_append_right _ hid))

/-- Inside the frame of a node, the rib of the node is the innermost one. -/
theorem enter (h : s.Fits fresh top (owner :: ids)) : (s.openFrame owner).Fits fresh owner ids where
  innermost space := by
    rw [scope_openFrame, Scope.opened_push]
    rfl
  rib space := by
    rw [scope_openFrame]
    exact Scope.isSome_rib?_push (Or.inl rfl)
  nodup := (List.nodup_cons.mp h.nodup).2
  closed id hid space := by
    rw [scope_openFrame, Scope.opened_push, List.mem_cons, not_or]
    exact ⟨fun heq => (List.nodup_cons.mp h.nodup).1 (heq ▸ hid),
      h.closed id (List.mem_cons_of_mem _ hid) space⟩
  unused id hid hfresh := (h.unused id (List.mem_cons_of_mem _ hid) hfresh).congr
    (fun space => by rw [scope_openFrame, Scope.declared_push]) rfl rfl
  vacant id hid space key := by
    rw [scope_openFrame, Scope.bindingIn?_push]
    exact h.vacant id (List.mem_cons_of_mem _ hid) space key

end Session.Fits

/-- In a session that fits, an action introduces `own` in the innermost rib. It leaves the frames
and some of the blocks inside behind. -/
def Leaves (fresh : NodeId → Prop) (top : NodeId) (shadow : Bool) (s : Session) (ids : List NodeId)
    (own : List Introduction) (frames : List LocalFrame) (blocks : List Block)
    (act : Resolution α) : Prop :=
  s.Fits fresh top ids → ∀ a s', Runs act s a s' →
    ∃ opened : List Block, opened.Sublist blocks ∧ s.Binds top shadow ids own frames opened s'

/-- An action on nodes that nothing is known about opens no frames but those of blocks. -/
abbrev Fills (top : NodeId) (shadow : Bool) (s : Session) (ids : List NodeId)
    (own : List Introduction) (blocks : List Block) (act : Resolution α) : Prop :=
  Leaves (fun _ => True) top shadow s ids own [] blocks act

namespace Leaves

variable {α β : Type} {s : Session} {fresh : NodeId → Prop} {top : NodeId} {shadow : Bool}
  {ids ids₁ ids₂ : List NodeId} {own own₁ own₂ : List Introduction}
  {frames frames₁ frames₂ : List LocalFrame} {blocks blocks₁ blocks₂ : List Block}
  {act : Resolution α}

theorem of_fills (h : Fills top shadow s ids own blocks act) (hfresh : ∀ id ∈ ids, fresh id) :
    Leaves fresh top shadow s ids own [] blocks act := fun hfits => h (hfits.all_fresh hfresh)

/-- Two parts, one after the other. The names that are introduced come before the frames inside. -/
theorem bind_ordered {next : α → Resolution β}
    (h₁ : Leaves fresh top shadow s ids₁ own₁ frames₁ blocks₁ act)
    (h₂ : ∀ a s₁, Runs act s a s₁ →
      Leaves fresh top shadow s₁ ids₂ own₂ frames₂ blocks₂ (next a))
    (horder : frames₁ = [] ∨ own₂ = []) :
    Leaves fresh top shadow s (ids₁ ++ ids₂) (own₁ ++ own₂) (frames₁ ++ frames₂)
      (blocks₁ ++ blocks₂) (act >>= next) := by
  intro hfits b s₂ hrun
  obtain ⟨a, s₁, hrun₁, hrun₂⟩ := hrun.bind_inv
  obtain ⟨opened₁, hsub₁, hbinds₁⟩ := h₁ hfits.left a s₁ hrun₁
  obtain ⟨opened₂, hsub₂, hbinds₂⟩ := h₂ a s₁ hrun₁ (hfits.right hbinds₁.grows) b s₂ hrun₂
  exact ⟨opened₁ ++ opened₂, hsub₁.append hsub₂, hbinds₁.append hbinds₂ hfits.apart
    (fun _ hid => hfits.left.not_innermost hid) horder⟩

/-- What comes first opens no frames. -/
theorem bind {next : α → Resolution β} (h₁ : Leaves fresh top shadow s ids₁ own₁ [] blocks₁ act)
    (h₂ : ∀ a s₁, Runs act s a s₁ →
      Leaves fresh top shadow s₁ ids₂ own₂ frames blocks₂ (next a)) :
    Leaves fresh top shadow s (ids₁ ++ ids₂) (own₁ ++ own₂) frames (blocks₁ ++ blocks₂)
      (act >>= next) := h₁.bind_ordered h₂ (Or.inl rfl)

/-- What comes first comes to no block. -/
theorem bind_own {next : α → Resolution β} (h₁ : Leaves fresh top shadow s ids₁ own₁ [] [] act)
    (h₂ : ∀ a s₁, Leaves fresh top shadow s₁ ids₂ own₂ frames blocks (next a)) :
    Leaves fresh top shadow s (ids₁ ++ ids₂) (own₁ ++ own₂) frames blocks (act >>= next) :=
  bind h₁ fun a s₁ _ => h₂ a s₁

/-- An action that only enters findings comes to no block. -/
theorem quiet (h : Quiet act) : Leaves fresh top shadow s ids [] [] blocks act := by
  intro hfits a s' hrun
  obtain ⟨l, rfl, hreported⟩ := h a s s' hrun
  exact ⟨[], List.nil_sublist _,
    .still (grows_withLedger ids s l) (scope_withLedger s l) hreported⟩

theorem pure (a : α) : Leaves fresh top shadow s ids [] [] blocks (Pure.pure a) :=
  quiet (Quiet.steps.pure a)

/-- It does not matter in which order the nodes are listed. -/
theorem mono (h : Leaves fresh top shadow s ids₁ own frames blocks act)
    (hids : List.Subperm ids₁ ids₂) : Leaves fresh top shadow s ids₂ own frames blocks act := by
  intro hfits a s' hrun
  obtain ⟨opened, hsub, hbinds⟩ := h (hfits.mono hids) a s' hrun
  exact ⟨opened, hsub, hbinds.weaken hids.subset⟩

/-- The node of a part itself need not be worked on. -/
theorem skip {id : NodeId} (h : Leaves fresh top shadow s ids own frames blocks act) :
    Leaves fresh top shadow s (id :: ids) own frames blocks act :=
  h.mono (List.sublist_cons_self _ _).subperm

/-- What comes first introduces nothing. -/
theorem seq {next : α → Resolution β} (h₁ : Leaves fresh top shadow s ids₁ [] [] blocks₁ act)
    (h₂ : ∀ a s₁, Leaves fresh top shadow s₁ ids₂ own frames blocks₂ (next a)) :
    Leaves fresh top shadow s (ids₁ ++ ids₂) own frames (blocks₁ ++ blocks₂) (act >>= next) :=
  bind h₁ fun a s₁ _ => h₂ a s₁

/-- What comes first introduces nothing, and what comes last comes to no block. -/
theorem seq_own {next : α → Resolution β} (h₁ : Leaves fresh top shadow s ids₁ [] [] blocks act)
    (h₂ : ∀ a s₁, Leaves fresh top shadow s₁ ids₂ own frames [] (next a)) :
    Leaves fresh top shadow s (ids₁ ++ ids₂) own frames blocks (act >>= next) := by
  have hseq := seq h₁ h₂
  rwa [List.append_nil] at hseq

/-- What comes last introduces nothing. -/
theorem andThen {next : α → Resolution β} (h₁ : Leaves fresh top shadow s ids₁ own [] blocks₁ act)
    (h₂ : ∀ a s₁, Leaves fresh top shadow s₁ ids₂ [] frames blocks₂ (next a)) :
    Leaves fresh top shadow s (ids₁ ++ ids₂) own frames (blocks₁ ++ blocks₂) (act >>= next) := by
  have hbind := bind h₁ fun a s₁ _ => h₂ a s₁
  rwa [List.append_nil] at hbind

/-- What comes first only enters findings. -/
theorem quiet_bind {next : α → Resolution β} (hact : Quiet act)
    (h : ∀ a s₁, Leaves fresh top shadow s₁ ids own frames blocks (next a)) :
    Leaves fresh top shadow s ids own frames blocks (act >>= next) := by
  have hquiet : Leaves fresh top shadow s [] [] [] [] act := quiet hact
  exact hquiet.seq h

/-- What comes last only enters findings. -/
theorem bind_quiet {next : α → Resolution β}
    (h : Leaves fresh top shadow s ids own [] blocks act) (hnext : ∀ a, Quiet (next a)) :
    Leaves fresh top shadow s ids own [] blocks (act >>= next) := by
  have hquiet : ∀ a s₁, Leaves fresh top shadow s₁ [] [] [] [] (next a) := fun a _ =>
    quiet (hnext a)
  have hthen := h.andThen hquiet
  rwa [List.append_nil, List.append_nil] at hthen

theorem map (h : Leaves fresh top shadow s ids own [] blocks act) (f : α → β) :
    Leaves fresh top shadow s ids own [] blocks (act >>= fun a => Pure.pure (f a)) :=
  h.bind_quiet fun a => Quiet.steps.pure (f a)

theorem discard (h : Leaves fresh top shadow s ids own [] blocks act) :
    Leaves fresh top shadow s ids own [] blocks (Functor.discard act) := h.map fun _ => ()

/-- A part with a frame of its own introduces nothing in the frame around it. -/
theorem inFrame {owner : NodeId}
    (h : Leaves fresh owner false (s.openFrame owner) ids own frames blocks act) :
    Leaves fresh top shadow s (owner :: ids) [] (⟨owner, own⟩ :: frames) blocks
      (inFrame owner act) := by
  intro hfits a s' hrun
  obtain ⟨s₁, hrun₁, rfl⟩ := hrun.inFrame_inv
  obtain ⟨opened, hsub, hbinds⟩ := h hfits.enter a s₁ hrun₁
  exact ⟨opened, hsub, hbinds.inFrame hfits.top_not_mem (hfits.vacant owner List.mem_cons_self)⟩

theorem inBlock {b : Block}
    (h : Leaves fresh b.node.id true (s.openFrame b.node.id) ids b.introductions [] blocks act) :
    Leaves fresh top shadow s (b.node.id :: ids) [] [] (b :: blocks)
      (Resolution.inFrame b.node.id act) := by
  intro hfits a s' hrun
  obtain ⟨s₁, hrun₁, rfl⟩ := hrun.inFrame_inv
  obtain ⟨opened, hsub, hbinds⟩ := h hfits.enter a s₁ hrun₁
  exact ⟨b :: opened, hsub.cons_cons b,
    hbinds.inBlock hfits.top_not_mem (hfits.vacant b.node.id List.mem_cons_self)⟩

/-! #### Introducing a name -/

/-- A node introduces a name for itself. -/
theorem introduce {b : Binder} {locus : Span} {complaint : Binding → Binding → ResolveError}
    (hcomplaint : complaint (Introduction.own b locus).binding =
      (Introduction.own b locus).redefinition) :
    Fills top shadow s [b.id] [.own b locus] []
      (bindOwn b.space b.id b.name locus shadow complaint) := by
  intro hfits a s' hrun
  have hmem : b.id ∈ [b.id] := List.mem_singleton_self b.id
  have hunused := hfits.unused b.id hmem trivial
  have hhead := hfits.innermost b.space
  have hcongr := s.bindingIn?_single b.space top b.id b.name
  refine ⟨[], List.nil_sublist _, ?_⟩
  by_cases hnew : shadow = true ∨ s.contents top b.space b.name = none
  · have hrun' : Runs (bindOwn b.space b.id b.name locus shadow complaint) s () _ :=
      runs_bindOwn hhead hunused (hcongr ▸ hnew) complaint
    rw [← (hrun.eq hrun').2]
    have hgrows : s.Grows [b.id] (boundOwn s b.space top (.own b.space b.id b.name locus)) :=
      grows_boundOwn hhead (hfits.rib b.space) hunused
    refine .accepted hgrows (scope_boundOwn s b.space top _) (hfits.rib b.space) hnew
      ⟨hmem, ?_⟩ (congrArg Collector.reported (Session.errors_withScope _ _ _))
    rw [tables_boundOwn]
    exact Register.get?_set_self _ _ _
  · rw [not_or] at hnew
    obtain ⟨earlier, hheld⟩ := Option.ne_none_iff_exists'.mp hnew.2
    have hfalse : shadow = false := by simpa using hnew.1
    subst hfalse
    have hrun' : Runs (bindOwn b.space b.id b.name locus false complaint) s () _ :=
      runs_bindOwn_refused hhead (hcongr.trans hheld) complaint
    rw [← (hrun.eq hrun').2]
    change s.Binds top false _ _ _ _ (s.reporting (complaint (Introduction.own b locus).binding _))
    rw [hcomplaint]
    exact .refused hheld ⟨hmem, hunused⟩

/-- `Self` is introduced if there is a declaration that it stands for. -/
theorem bindSelf {owner : NodeId} {target : Option NodeId} {locus : Span}
    (htarget : ∀ decl ∈ target, ¬ s.Unused decl) :
    Leaves fresh top false s [] (selfIntroductions owner target locus) [] []
      (NameResolution.bindSelf owner target locus) := by
  cases target with
  | none => exact pure ()
  | some decl =>
      intro hfits a s' hrun
      have hhead := hfits.innermost .type
      have hrib := hfits.rib .type
      have hcongr := s.bindingIn?_single .type top owner "Self"
      refine ⟨[], List.nil_sublist _, ?_⟩
      cases hheld : s.contents top .type "Self" with
      | none =>
          have hrun' : Runs (NameResolution.bindSelf owner (some decl) locus) s () _ :=
            (runs_makeBinding_added hhead (Or.inr (hcongr.trans hheld)) redefinition).discard
          rw [← (hrun.eq hrun').2]
          exact .accepted (.withBinding hhead hrib fun hunused => absurd hunused (htarget decl rfl))
            (fun _ => rfl) hrib (Or.inr hheld) trivial
            (congrArg Collector.reported (Session.errors_withScope _ _ _))
      | some earlier =>
          have hrun' : Runs (NameResolution.bindSelf owner (some decl) locus) s () _ :=
            (runs_makeBinding_refused hhead (hcongr.trans hheld) redefinition).discard
          rw [← (hrun.eq hrun').2]
          exact .refused hheld trivial

end Leaves

end NameResolution
