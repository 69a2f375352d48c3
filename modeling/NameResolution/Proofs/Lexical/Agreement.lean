import NameResolution.Proofs.Lexical.Standing

/-!
# NameResolution.Proofs.Lexical.Agreement

**An action agrees with a reading** (`Agrees`) if it succeeds, its answer is what the
reading says, the session afterwards stands for the environment afterwards, and the
findings are what has been entered. Agreement is compositional: `Agrees.bind` follows the
environment from one part to the next, `Agrees.inFrame` opens and closes a frame, and
every other action of the second pass has one rule.
-/

namespace NameResolution

open Resolution
open Session (SameDeclarations)

/-- An action on the nodes `ids` does what a reading in an environment says. The answer is related
to the value that is read, which also says what the environment is afterwards. -/
def Agrees (base : Session) (env : Env) (ids : List NodeId) (s : Session) (act : Resolution α)
    (r : Reading β) (after : β → Env) (R : α → β → Session → Prop) : Prop :=
  ∃ a s', Runs act s a s' ∧ R a r.value s' ∧ Stands base (after r.value) s' ∧
    (after r.value).extents = env.extents ∧ Step base ids r.findings s s'

/-! ### Readiness -/

/-- The same ribs are open after a step as before it. -/
theorem Stands.owners_eq {base s s' : Session} {env env' : Env} {ids : List NodeId}
    {l : List Finding} (h : Stands base env s) (hstep : Step base ids l s s')
    (h' : Stands base env' s') :
    env'.owners base = env.owners base := by
  rw [← h'.opened .name, hstep.grows.opened, h.opened]

namespace Ready

variable {base s s' : Session} {env env' : Env} {ids ids₁ ids₂ : List NodeId} {l : List Finding}

theorem mono (h : Ready base env ids₂ s) (hids : List.Subperm ids₁ ids₂) :
    Ready base env ids₁ s where
  stands := h.stands
  nodup := by
    obtain ⟨l, hperm, hsub⟩ := hids
    exact hperm.nodup_iff.mp (h.nodup.sublist hsub)
  apart id hid := h.apart id (hids.subset hid)
  enclosed := h.enclosed.mono hids.subset
  unused id hid := h.unused id (hids.subset hid)
  vacant id hid := h.vacant id (hids.subset hid)

theorem left (h : Ready base env (ids₁ ++ ids₂) s) : Ready base env ids₁ s :=
  h.mono (List.sublist_append_left _ _).subperm

/-- The nodes that another part has not worked on are still to be worked on. -/
theorem right (h : Ready base env (ids₁ ++ ids₂) s) (hstep : Step base ids₁ l s s')
    (hextents : env'.extents = env.extents) (hstands : Stands base env' s') :
    Ready base env' ids₂ s' := by
  have houtside : ∀ id ∈ ids₂, id ∉ ids₁ := fun id hid hin =>
    (List.nodup_append.mp h.nodup).2.2 id hin id hid rfl
  have howners := h.stands.owners_eq hstep hstands
  refine ⟨hstands, (List.nodup_append.mp h.nodup).2.1, fun id hid => ?_,
    (h.enclosed.mono (List.subset_append_right _ _)).congr hextents, fun id hid => ?_,
    fun id hid => ?_⟩
  · rw [howners]
    exact h.apart id (List.mem_append_right _ hid)
  · exact hstep.grows.unused id (houtside id hid) (h.unused id (List.mem_append_right _ hid))
  · refine hstep.grows.vacant (houtside id hid) (fun space hhead => ?_)
      (h.vacant id (List.mem_append_right _ hid))
    rw [h.stands.opened] at hhead
    exact h.apart id (List.mem_append_right _ hid) (List.mem_of_head? hhead)

end Ready

/-! ### Composition -/

namespace Agrees

variable {base s : Session} {env env₁ : Env} {ids ids₁ ids₂ : List NodeId} {α β γ δ : Type}
  {act : Resolution α} {r : Reading β} {after : β → Env} {R : α → β → Session → Prop}

/-- An action can only come out as it does. -/
theorem of_runs {a : α} {s' : Session} (h : Agrees base env ids s act r after R)
    (hrun : Runs act s a s') :
    R a r.value s' ∧ Stands base (after r.value) s' ∧ (after r.value).extents = env.extents ∧
      Step base ids r.findings s s' := by
  obtain ⟨a', s'', hrun', h⟩ := h
  obtain ⟨rfl, rfl⟩ := hrun.eq hrun'
  exact h

theorem pure {a : α} {b : β} (hstands : Stands base (after b) s)
    (hextents : (after b).extents = env.extents) (hR : R a b s) :
    Agrees base env ids s (Pure.pure a) (Pure.pure b) after R :=
  ⟨a, s, Runs.pure a s, hR, hstands, hextents, .refl base ids s⟩

/-- Two parts, one after the other, the second one in the environment that the first one has
made. -/
theorem seq {next : α → Resolution γ} {next' : β → Reading δ} {after' : δ → Env}
    {R' : γ → δ → Session → Prop} (h₁ : Agrees base env ids₁ s act r after R)
    (h₂ : ∀ a s', R a r.value s' → Step base ids₁ r.findings s s' →
      (after r.value).extents = env.extents → Stands base (after r.value) s' →
      Agrees base (after r.value) ids₂ s' (next a) (next' r.value) after' R') :
    Agrees base env (ids₁ ++ ids₂) s (act >>= next) (r >>= next') after' R' := by
  obtain ⟨a, s₁, hrun₁, hR, hstands₁, hextents₁, hstep₁⟩ := h₁
  obtain ⟨c, s₂, hrun₂, hR', hstands₂, hextents₂, hstep₂⟩ := h₂ a s₁ hR hstep₁ hextents₁ hstands₁
  exact ⟨c, s₂, hrun₁.bind hrun₂, hR', hstands₂, hextents₂.trans hextents₁, hstep₁.append hstep₂⟩

/-- Two parts whose nodes are still to be worked on. -/
theorem bind {next : α → Resolution γ} {next' : β → Reading δ} {after' : δ → Env}
    {R' : γ → δ → Session → Prop} (hready : Ready base env (ids₁ ++ ids₂) s)
    (h₁ : Agrees base env ids₁ s act r after R)
    (h₂ : ∀ a s', R a r.value s' → Ready base (after r.value) ids₂ s' →
      Agrees base (after r.value) ids₂ s' (next a) (next' r.value) after' R') :
    Agrees base env (ids₁ ++ ids₂) s (act >>= next) (r >>= next') after' R' :=
  h₁.seq fun a s' hR hstep hextents hstands =>
    h₂ a s' hR (hready.right hstep hextents hstands)

/-- A part that all the nodes belong to. What follows may still ask what has become of them. -/
theorem bind_all {next : α → Resolution γ} {next' : β → Reading δ} {after' : δ → Env}
    {R' : γ → δ → Session → Prop} (hready : Ready base env ids s)
    (h₁ : Agrees base env ids s act r after R)
    (h₂ : ∀ a s', R a r.value s' → Ready base (after r.value) [] s' →
      Agrees base (after r.value) [] s' (next a) (next' r.value) after' R') :
    Agrees base env ids s (act >>= next) (r >>= next') after' R' := by
  rw [← List.append_nil ids] at hready ⊢
  exact bind hready (List.append_nil ids ▸ h₁) h₂

theorem mono (h : Agrees base env ids₁ s act r after R) (hids : List.Subperm ids₁ ids₂) :
    Agrees base env ids₂ s act r after R := by
  obtain ⟨a, s', hrun, hR, hstands, hextents, hstep⟩ := h
  exact ⟨a, s', hrun, hR, hstands, hextents, hstep.mono hids⟩

/-- What is known of the answer can be put differently, in view of what has been done. -/
theorem imp {R' : α → β → Session → Prop} (h : Agrees base env ids s act r after R)
    (hR : ∀ a s', Step base ids r.findings s s' → R a r.value s' → R' a r.value s') :
    Agrees base env ids s act r after R' := by
  obtain ⟨a, s', hrun, hRa, hstands, hextents, hstep⟩ := h
  exact ⟨a, s', hrun, hR a s' hstep hRa, hstands, hextents, hstep⟩

/-- What is read from the session is known to what follows. -/
theorem get_bind {next : Session → Resolution α} (h : Agrees base env ids s (next s) r after R) :
    Agrees base env ids s (get >>= next) r after R := by
  obtain ⟨a, s', hrun, h⟩ := h
  exact ⟨a, s', hrun.get_bind, h⟩

/-- What is looked up without changing the session is known to what follows. -/
theorem runs_bind {act₀ : Resolution γ} {c : γ} {next : γ → Resolution α}
    (hrun : Runs act₀ s c s) (h : Agrees base env ids s (next c) r after R) :
    Agrees base env ids s (act₀ >>= next) r after R := by
  obtain ⟨a, s', hrun', h⟩ := h
  exact ⟨a, s', hrun.bind hrun', h⟩

/-- The value that is read is passed on as something else, the answer as it is. -/
theorem mapRead {g : β → δ} {after' : δ → Env} {R' : α → δ → Session → Prop}
    (h : Agrees base env ids s act r after R) (hafter : after' (g r.value) = after r.value)
    (hR : ∀ a s', R a r.value s' → R' a (g r.value) s') :
    Agrees base env ids s act (r >>= fun b => Pure.pure (g b)) after' R' := by
  obtain ⟨a, s', hrun, hRa, hstands, hextents, hstep⟩ := h
  refine ⟨a, s', hrun, hR a s' hRa, ?_, ?_, ?_⟩
  · simpa only [Reading.value_bind, Reading.value_pure, hafter] using hstands
  · simpa only [Reading.value_bind, Reading.value_pure, hafter] using hextents
  · simpa only [Reading.findings_bind, Reading.findings_pure, List.append_nil] using hstep

/-- The answer and the value are passed on. -/
theorem map {f : α → γ} {g : β → δ} {after' : δ → Env} {R' : γ → δ → Session → Prop}
    (h : Agrees base env ids s act r after R) (hafter : after' (g r.value) = after r.value)
    (hR : ∀ a s', R a r.value s' → R' (f a) (g r.value) s') :
    Agrees base env ids s (act >>= fun a => Pure.pure (f a)) (r >>= fun b => Pure.pure (g b)) after'
      R' := by
  obtain ⟨a, s', hrun, hRa, h⟩ := h.mapRead hafter hR
  exact ⟨f a, s', hrun.bind (Runs.pure _ _), hRa, h⟩

/-- What is known afterwards is at least that the other nodes are as unused as they were. -/
theorem spares (h : Agrees base env ids s act r after R) :
    Agrees base env ids s act r after fun _ _ s' => s.Spares ids s' :=
  h.imp fun _ _ hstep _ => hstep.grows.unused

/-- The frames that are open belong to the same constructs afterwards. -/
theorem keepsExtents (h : Agrees base env ids s act r after R) :
    Agrees base env ids s act r after
      fun a b s' => R a b s' ∧ (after b).extents = env.extents := by
  obtain ⟨a, s', hrun, hRa, hstands, hextents, hstep⟩ := h
  exact ⟨a, s', hrun, ⟨hRa, hextents⟩, hstands, hextents, hstep⟩

theorem discard {env' : Env} (h : Agrees base env ids s act r (fun _ => env') R) :
    Agrees base env ids s (Functor.discard act) (Functor.discard r) (fun _ => env')
      (fun _ _ _ => True) :=
  h.map rfl fun _ _ _ => trivial

end Agrees

/-! ### Entering findings -/

/-- The session with other tables of uses and other errors. -/
def Session.withLedger (s : Session) (l : Ledger) : Session :=
  { s with
    tables := { s.tables with
      names := l.names, types := l.types, qualified := l.qualified, useSites := l.useSites }
    errors := { s.errors with reported := l.reported } }

section Noting

variable {base s : Session} {env : Env} {ids : List NodeId}

@[simp] theorem scope_withLedger (s : Session) (l : Ledger) (space : Namespace) :
    (s.withLedger l).scope space = s.scope space := by
  cases space <;> rfl

theorem grows_withLedger (ids : List NodeId) (s : Session) (l : Ledger) :
    s.Grows ids (s.withLedger l) :=
  .sameScopes (scope_withLedger s l) rfl rfl rfl rfl rfl (.refl ids _) (.refl ids _)

theorem Stands.withLedger (h : Stands base env s) (l : Ledger) :
    Stands base env (s.withLedger l) where
  builtins := h.builtins
  root := h.root
  tables :=
    { parents := h.tables.parents
      nested := h.tables.nested
      childEntries := h.tables.childEntries
      containers := h.tables.containers
      visibilities := h.tables.visibilities }
  modules := h.modules
  outermost := h.outermost
  areModules := h.areModules
  opened space := by rw [scope_withLedger, h.opened]
  nodup := h.nodup
  ribs space owner ho := by rw [scope_withLedger]; exact h.ribs space owner ho
  frames f hf space i name := by rw [scope_withLedger]; exact h.frames f hf space i name
  members owner ho space key := by rw [scope_withLedger]; exact h.members owner ho space key
  locals f hf space l hl := (h.locals f hf space l hl).congr rfl rfl
  introduced := h.introduced
  fresh := h.fresh
  own := h.own
  knows m hm := (h.knows m hm).congr rfl rfl
  offers m hm := (h.offers m hm).congr rfl rfl rfl rfl

/-- It does not matter what has been entered in the tables. -/
theorem Ready.withLedger (h : Ready base env ids s) (l : Ledger) :
    Ready base env ids (s.withLedger l) where
  stands := h.stands.withLedger l
  nodup := h.nodup
  apart := h.apart
  enclosed := h.enclosed
  unused id hid := (h.unused id hid).congr (fun space => by rw [scope_withLedger]) rfl rfl
  vacant id hid space key := by
    rw [scope_withLedger]
    exact h.vacant id hid space key

/-- An action that enters one finding. -/
theorem Agrees.note {act : Resolution Unit} (f : Finding) (hstands : Stands base env s)
    (hrun : Runs act s () (s.withLedger (s.ledger.note base f)))
    (hvisit : ∀ path prefer env outcome, f ≠ .visit path prefer env outcome) :
    Agrees base env f.use?.toList s act (Reading.note f) (fun _ => env) (fun _ _ _ => True) := by
  refine ⟨(), _, hrun, trivial, hstands.withLedger _, rfl, grows_withLedger _ s _,
    ⟨rfl, rfl, rfl, rfl, rfl⟩, rfl, fun m hm => hm.congr rfl rfl,
    fun m hm => hm.congr rfl rfl rfl rfl, ?_, ?_⟩
  · change List.Subperm ([f].filterMap Finding.use?) f.use?.toList
    rw [List.filterMap_cons]
    cases f.use? <;> exact List.Subperm.refl _
  · intro path prefer env outcome hmem
    exact absurd (List.mem_singleton.mp hmem).symm (hvisit path prefer env outcome)

theorem agrees_report (hstands : Stands base env s) (e : ResolveError) :
    Agrees base env [] s (report e) (Reading.note (.error e)) (fun _ => env) (fun _ _ _ => True) :=
  Agrees.note (.error e) hstands (runs_report e s) (by simp)

/-- Stopping with an error answers nothing. -/
theorem agrees_stopWith {R : Option α → Option β → Session → Prop} (hstands : Stands base env s)
    (e : ResolveError) (hR : ∀ s', R none none s') :
    Agrees base env [] s (stopWith e : Resolution (Option α)) (Reading.stopWith e)
      (fun _ => env) R := by
  obtain ⟨_, s', hrun, -, hstands', hextents, hstep⟩ := agrees_report hstands e
  exact ⟨none, s', hrun.bind (Runs.pure none s'), hR s', hstands', hextents, hstep⟩

theorem agrees_setResolved (hstands : Stands base env s) (space : Namespace) (use decl : NodeId) :
    Agrees base env [use] s (updateTables (·.setResolved space use decl))
      (Reading.note (.resolved space use decl)) (fun _ => env) (fun _ _ _ => True) := by
  refine Agrees.note (.resolved space use decl) hstands ?_ (by simp)
  cases space <;> exact runs_updateTables _ s

theorem agrees_setQualified (hstands : Stands base env s) (use : NodeId) (path : CanonicalPath) :
    Agrees base env [use] s
      (updateTables fun t => { t with qualified := t.qualified.set use path })
      (Reading.note (.qualified use path)) (fun _ => env) (fun _ _ _ => True) :=
  Agrees.note (.qualified use path) hstands (runs_updateTables _ s) (by simp)

/-- What a segment is resolved to is entered, and the segment is a use site if that has a
visibility. -/
private theorem runs_bindTo (s : Session) (seg : PathSegment) (space : Namespace)
    (decl here : NodeId) :
    Runs (seg.bindTo space decl here) s () (s.withTables
      (match (s.tables.setResolved space seg.node.id decl).visibilities.get? decl with
      | none => s.tables.setResolved space seg.node.id decl
      | some _ => (s.tables.setResolved space seg.node.id decl).addUseSite
          ⟨seg.node.id, decl, here, seg.ident.text, seg.node.span⟩)) := rfl

/-- Resolving a segment, which is a use site if its declaration has a visibility. -/
theorem agrees_bindTo (hstands : Stands base env s) (seg : PathSegment) (space : Namespace)
    (decl : NodeId) :
    Agrees base env [seg.node.id] s (seg.bindTo space decl (env.here base))
      (seg.readTo base env space decl) (fun _ => env) (fun _ _ _ => True) := by
  refine Agrees.note (.segment space seg.node seg.ident.text decl (env.here base)) hstands ?_
    (by simp)
  have hvis : (s.tables.setResolved space seg.node.id decl).visibilities =
      base.tables.visibilities := by
    cases space <;> exact hstands.tables.visibilities
  have hrun := runs_bindTo s seg space decl (env.here base)
  rw [hvis] at hrun
  cases hget : base.tables.visibilities.get? decl with
  | none =>
      simp only [hget] at hrun
      simp only [Ledger.note, hget]
      cases space <;> exact hrun
  | some _ =>
      simp only [hget] at hrun
      simp only [Ledger.note, hget]
      cases space <;> exact hrun

end Noting

end NameResolution
