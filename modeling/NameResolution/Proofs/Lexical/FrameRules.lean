import NameResolution.Proofs.Lexical.Agreement

/-!
# NameResolution.Proofs.Lexical.FrameRules

**Frames are opened, searched and closed** in the ribs of a session as they are in an
environment:

* searching the open ribs finds what the environment has (`Stands.findLexical?`);
* a frame that is opened is empty, and closing it restores the environment around it
  (`Agrees.inFrame`).
-/

namespace NameResolution

open Resolution
open Session (SameDeclarations)

variable {base s s' : Session} {env : Env} {ids : List NodeId} {α β : Type}

/-! ### Searching -/

/-- A local name that is found is spelled in the given way. -/
theorem Frame.of_find? {f : Frame} {space : Namespace} {name : String} {l : LocalName}
    (h : f.find? space name = some l) : l ∈ f.locals space ∧ l.name = name := by
  have hspelled := List.find?_some h
  exact ⟨List.mem_of_find?_eq_some h, of_decide_eq_true hspelled⟩

/-- What a name stands for in an environment belongs to a construct around, or to a module or the
prelude. -/
theorem Env.find?_inv {space : Namespace} {name : String} {m : Meaning}
    (h : env.find? base space name = some m) :
    (∃ f ∈ env.frames, ∃ l, f.find? space name = some l ∧ l.meaning = m) ∨
      ∃ owner ∈ env.modules ++ [base.builtins.prelude],
        findMember? base space owner name = some m := by
  rcases Option.or_eq_some_iff.mp h with hlocal | ⟨-, hm⟩
  · obtain ⟨l, hl, rfl⟩ := Option.map_eq_some_iff.mp hlocal
    obtain ⟨f, hf, hl⟩ := List.exists_of_findSome?_eq_some hl
    exact Or.inl ⟨f, hf, l, hl, rfl⟩
  · exact Or.inr (List.exists_of_findSome?_eq_some hm)

/-- What is found in either namespace is found in one of them. -/
theorem Env.exists_find?_of_resolve {prefer : Namespace} {name : String} {space : Namespace}
    {m : Meaning} (h : env.resolve base prefer name = some (space, m)) :
    ∃ space', env.find? base space' name = some m := by
  rcases Option.or_eq_some_iff.mp h with h | ⟨-, h⟩
  · obtain ⟨m', hfound, heq⟩ := Option.map_eq_some_iff.mp h
    cases heq
    exact ⟨prefer, hfound⟩
  · obtain ⟨m', hfound, heq⟩ := Option.map_eq_some_iff.mp h
    cases heq
    exact ⟨prefer.other, hfound⟩

namespace Stands

theorem bindingIn?_member (h : Stands base env s) {owner : NodeId}
    (ho : owner ∈ env.modules ++ [base.builtins.prelude]) (space : Namespace) (i : NodeId)
    (name : String) :
    ((s.scope space).bindingIn? owner (.single i name)).map Binding.id =
      (Env.findMember? base space owner name).map Meaning.decl := by
  rw [h.members owner ho, Scope.bindingIn?_congr (q := .single owner name) _ _ (by simp)]
  unfold Env.findMember?
  rw [Option.map_map]
  rfl

/-- Searching the ribs of frames finds what the frames have. -/
theorem findSome?_frames (h : Stands base env s) (space : Namespace) (i : NodeId) (name : String) :
    ∀ frames : List Frame, frames ⊆ env.frames →
      ((frames.map Frame.owner).findSome? fun owner =>
        (s.scope space).bindingIn? owner (.single i name)) =
      (frames.findSome? (·.find? space name)).map LocalName.binding
  | [], _ => rfl
  | f :: rest, hsub => by
      rw [List.map_cons, List.findSome?_cons, List.findSome?_cons,
        h.frames f (hsub List.mem_cons_self)]
      cases f.find? space name with
      | none =>
          exact findSome?_frames h space i name rest fun _ hf => hsub (List.mem_cons_of_mem _ hf)
      | some l => rfl

/-- Searching the ribs of modules and the prelude finds what the first pass has left there. -/
theorem findSome?_members (h : Stands base env s) (space : Namespace) (i : NodeId) (name : String) :
    ∀ owners : List NodeId, owners ⊆ env.modules ++ [base.builtins.prelude] →
      (owners.findSome? fun owner =>
        (s.scope space).bindingIn? owner (.single i name)).map Binding.id =
      (owners.findSome? (Env.findMember? base space · name)).map Meaning.decl
  | [], _ => rfl
  | o :: rest, hsub => by
      have ho := h.bindingIn?_member (hsub List.mem_cons_self) space i name
      rw [List.findSome?_cons, List.findSome?_cons]
      cases hfound : (s.scope space).bindingIn? o (.single i name) with
      | none =>
          rw [hfound] at ho
          rw [Option.map_eq_none_iff.mp ho.symm]
          exact findSome?_members h space i name rest fun _ hp => hsub (List.mem_cons_of_mem _ hp)
      | some b =>
          rw [hfound] at ho
          obtain ⟨m, hm, -⟩ := Option.map_eq_some_iff.mp ho.symm
          rw [hm] at ho ⊢
          exact ho

/-- Reading a name in the open ribs finds what the environment has under it. -/
theorem lookup? (h : Stands base env s) (space : Namespace) (i : NodeId) (name : String) :
    (s.scope space).lookup? (.single i name) = (env.find? base space name).map Meaning.decl := by
  unfold Scope.lookup?
  rw [Scope.findBinding?_eq_findSome?, h.opened, Env.owners, List.append_assoc,
    List.findSome?_append, h.findSome?_frames space i name env.frames fun _ hf => hf]
  unfold Env.find?
  -- The frames come first, and the modules and the prelude only if no frame has the name.
  cases env.frames.findSome? (·.find? space name) with
  | some l => rfl
  | none => exact h.findSome?_members space i name _ fun _ ho => ho

/-- Trying one namespace after the other. -/
theorem findLexical? (h : Stands base env s) (prefer : Namespace) (i : NodeId) (name : String) :
    s.findLexical? prefer (.single i name) =
      (env.resolve base prefer name).map fun found => (found.1, found.2.decl) := by
  unfold Session.findLexical? Env.resolve
  rw [h.lookup?, h.lookup?]
  cases env.find? base prefer name with
  | some m => rfl
  | none => cases env.find? base prefer.other name <;> rfl

/-- Everything that a name can stand for is known. -/
theorem knows_find? (h : Stands base env s) (hbase : base.Settled) {space : Namespace}
    {name : String} {m : Meaning} (hfind : env.find? base space name = some m) : s.Knows m := by
  rcases Env.find?_inv hfind with ⟨f, hf, l, hl, rfl⟩ | ⟨owner, -, hmember⟩
  · exact h.locals f hf space l (Frame.of_find? hl).1
  · obtain ⟨b, hb, rfl⟩ := Option.map_eq_some_iff.mp hmember
    exact h.knows _ (hbase.bindingsKnown space owner _ b hb)

theorem knows_resolve (h : Stands base env s) (hbase : base.Settled) {prefer space : Namespace}
    {name : String} {m : Meaning} (hfind : env.resolve base prefer name = some (space, m)) :
    s.Knows m := by
  obtain ⟨_, hfound⟩ := Env.exists_find?_of_resolve hfind
  exact h.knows_find? hbase hfound

end Stands

/-! ### Opening and closing -/

/-- A node whose rib holds nothing opens an empty frame. -/
theorem Stands.enter {owner : NodeId} (h : Stands base env s) (howner : owner ∉ env.owners base)
    (hvacant : s.Vacant owner) (extent : List NodeId) :
    Stands base (env.enter owner extent) (s.openFrame owner) where
  builtins := h.builtins
  root := h.root
  tables := h.tables
  modules := h.modules
  outermost := h.outermost
  areModules := h.areModules
  opened space := by
    rw [Session.scope_openFrame, Scope.opened_push, h.opened]
    rfl
  nodup := List.nodup_cons.mpr ⟨howner, h.nodup⟩
  ribs space o ho := by
    rw [Session.scope_openFrame]
    exact Scope.isSome_rib?_push ((List.mem_cons.mp ho).imp_right (h.ribs space o))
  frames f hf space i name := by
    rw [Session.scope_openFrame, Scope.bindingIn?_push]
    rcases List.mem_cons.mp hf with rfl | hf
    · rw [hvacant]
      cases space <;> rfl
    · exact h.frames f hf space i name
  members o ho space key := by
    rw [Session.scope_openFrame, Scope.bindingIn?_push]
    exact h.members o ho space key
  locals f hf space l hl := by
    rcases List.mem_cons.mp hf with rfl | hf
    · cases space <;> cases hl
    · exact (h.locals f hf space l hl).congr rfl rfl
  introduced f hf space l hl := by
    rcases List.mem_cons.mp hf with rfl | hf
    · cases space <;> cases hl
    · exact h.introduced f hf space l hl
  fresh f hf space l hl := by
    rcases List.mem_cons.mp hf with rfl | hf
    · cases space <;> cases hl
    · exact h.fresh f hf space l hl
  own f hf space l hl := by
    rcases List.mem_cons.mp hf with rfl | hf
    · cases space <;> cases hl
    · exact h.own f hf space l hl
  knows m hm := (h.knows m hm).congr rfl rfl
  offers m hm := (h.offers m hm).congr rfl rfl rfl rfl

/-- A node that is ready to be worked on can open its frame. -/
theorem Ready.enter {owner : NodeId} {extent : List NodeId} (h : Ready base env (owner :: ids) s)
    (hextent : owner :: ids ⊆ extent) :
    Ready base (env.enter owner extent) ids (s.openFrame owner) where
  stands := h.stands.enter (h.apart owner List.mem_cons_self) (h.vacant owner List.mem_cons_self)
    extent
  nodup := (List.nodup_cons.mp h.nodup).2
  apart := apart_cons h.nodup h.apart
  enclosed := (h.enclosed.enter owner hextent).mono (List.subset_cons_self _ _)
  unused id hid := (h.unused id (List.mem_cons_of_mem _ hid)).congr
    (fun space => by rw [Session.scope_openFrame, Scope.declared_push]) rfl rfl
  vacant id hid space key := by
    rw [Session.scope_openFrame, Scope.bindingIn?_push]
    exact h.vacant id (List.mem_cons_of_mem _ hid) space key

section Closing

variable {owner : NodeId} {l : List Finding}

/-- The ribs that are open around a node are left alone by what is done inside its own. -/
theorem Stands.kept {s₀ : Session} (hapart : ∀ id ∈ owner :: ids, id ∉ env.owners base)
    {space : Namespace} (hpush : s₀.scope space = (s.scope space).push owner)
    (hstep : Step base ids l s₀ s') {o : NodeId} (ho : o ∈ env.owners base)
    (key : CanonicalPath) :
    (s'.scope space).bindingIn? o key = (s.scope space).bindingIn? o key := by
  -- Inside, the rib of `owner` was innermost, and only that and those of `ids` can have changed.
  have hout : o ∉ ids := fun hin => hapart o (List.mem_cons_of_mem _ hin) ho
  have hne : o ≠ owner := fun heq => hapart owner List.mem_cons_self (heq ▸ ho)
  have hhead : (s₀.scope space).opened.head? ≠ some o := by
    rw [hpush, Scope.opened_push]
    simpa using hne.symm
  rw [hstep.grows.bindings space o key hout hhead, hpush, Scope.bindingIn?_push]

/-- Once the innermost frame is closed, the session stands again for the environment around it. -/
theorem Stands.leave (h : Stands base env s) (hapart : ∀ id ∈ owner :: ids, id ∉ env.owners base)
    (hstep : Step base ids l (s.openFrame owner) s') : Stands base env s'.withoutFrame where
  builtins := hstep.grows.builtins.trans h.builtins
  root := hstep.grows.root.trans h.root
  tables := h.tables.trans hstep.tables
  modules := by
    change s'.modules.opened = env.modules
    rw [hstep.grows.modules]
    exact h.modules
  outermost := h.outermost
  areModules := h.areModules
  opened space := by
    rw [Session.scope_withoutFrame]
    change (s'.scope space).opened.tail = env.owners base
    rw [hstep.grows.opened, Session.scope_openFrame, Scope.opened_push, List.tail_cons, h.opened]
  nodup := h.nodup
  ribs space o ho := by
    rw [Session.scope_withoutFrame]
    refine hstep.grows.ribs space o ?_
    rw [Session.scope_openFrame]
    exact Scope.isSome_rib?_push (Or.inr (h.ribs space o ho))
  frames f hf space i name := by
    have hown : f.owner ∈ env.owners base :=
      List.mem_append_left _ (List.mem_append_left _ (List.mem_map_of_mem hf))
    rw [Session.scope_withoutFrame]
    exact (Stands.kept hapart (Session.scope_openFrame _ _ _) hstep hown _).trans
      (h.frames f hf space i name)
  members o ho space key := by
    have hown : o ∈ env.owners base := by
      unfold Env.owners
      rw [List.append_assoc]
      exact List.mem_append_right _ ho
    rw [Session.scope_withoutFrame]
    exact (Stands.kept hapart (Session.scope_openFrame _ _ _) hstep hown key).trans
      (h.members o ho space key)
  locals f hf space l hl :=
    (hstep.knows l.meaning ((h.locals f hf space l hl).congr rfl rfl)).congr rfl rfl
  introduced := h.introduced
  fresh := h.fresh
  own := h.own
  knows m hm := (hstep.knows m ((h.knows m hm).congr rfl rfl)).congr rfl rfl
  offers m hm := (hstep.offers m ((h.offers m hm).congr rfl rfl rfl rfl)).congr rfl rfl rfl rfl

/-- What was done in a frame of its own, seen from around it. -/
theorem Step.inFrame (hstep : Step base ids l (s.openFrame owner) s') :
    Step base (owner :: ids) l s s'.withoutFrame where
  grows := hstep.grows.inFrame
  tables := hstep.tables
  ledger := hstep.ledger
  knows m hm := (hstep.knows m (hm.congr rfl rfl)).congr rfl rfl
  offers m hm := (hstep.offers m (hm.congr rfl rfl rfl rfl)).congr rfl rfl rfl rfl
  uses := hstep.uses.trans (List.sublist_cons_self _ _).subperm
  traced path prefer env' outcome hv :=
    (hstep.traced path prefer env' outcome hv).mono (List.sublist_cons_self _ _).subperm

/-- An action in a frame of its own. Nothing of the frame is left afterwards, and what is known of
the answer is said of the session without it. -/
theorem Agrees.inFrame_with {extent : List NodeId} {act : Resolution α} {r : Reading β}
    {after : β → Env} {R R' : α → β → Session → Prop} (hstands : Stands base env s)
    (hapart : ∀ id ∈ owner :: ids, id ∉ env.owners base)
    (h : Agrees base (env.enter owner extent) ids (s.openFrame owner) act r after R)
    (hR : ∀ a s₁, R a r.value s₁ → R' a r.value s₁.withoutFrame) :
    Agrees base env (owner :: ids) s (Resolution.inFrame owner act) r (fun _ => env) R' := by
  obtain ⟨a, s₁, hrun, hRa, -, -, hstep⟩ := h
  have hopened : ∀ space, (s₁.scope space).opened.head? = some owner := fun space => by
    rw [hstep.grows.opened, Session.scope_openFrame]
    rfl
  exact ⟨a, s₁.withoutFrame, hrun.inFrame hopened, hR a s₁ hRa, hstands.leave hapart hstep, rfl,
    hstep.inFrame⟩

theorem Agrees.inFrame {extent : List NodeId} {act : Resolution α} {r : Reading β}
    {after : β → Env} {R : α → β → Session → Prop} (hstands : Stands base env s)
    (hapart : ∀ id ∈ owner :: ids, id ∉ env.owners base)
    (h : Agrees base (env.enter owner extent) ids (s.openFrame owner) act r after R) :
    Agrees base env (owner :: ids) s (Resolution.inFrame owner act) r (fun _ => env)
      (fun _ _ _ => True) :=
  Agrees.inFrame_with hstands hapart h fun _ _ _ => trivial

/-- The node that opens a frame is left as unused as it was. -/
theorem Agrees.inFrame_spares {extent used : List NodeId} {act : Resolution α} {r : Reading β}
    {after : β → Env} (hstands : Stands base env s)
    (hapart : ∀ id ∈ owner :: ids, id ∉ env.owners base)
    (h : Agrees base (env.enter owner extent) ids (s.openFrame owner) act r after
      fun _ _ s₁ => (s.openFrame owner).Spares used s₁) :
    Agrees base env (owner :: ids) s (Resolution.inFrame owner act) r (fun _ => env)
      (fun _ _ s' => s.Spares used s') :=
  Agrees.inFrame_with hstands hapart h fun _ _ hspares => hspares.inFrame

end Closing

end NameResolution
