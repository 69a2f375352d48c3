import NameResolution.Proofs.LocalFrames
import NameResolution.Proofs.Lexical.Binding
import NameResolution.Proofs.Lexical.Quiet

/-!
# NameResolution.Proofs.Lexical.LocalRibs

**What is bound in the ribs of frames.** `Session.Binds` says all about the symbol tables
after a part of the second pass: which names the part has introduced in the frame around it,
what the ribs of the frames inside it hold, and what was reported of names that were
introduced again. The relation goes along with sequencing (`Session.Binds.append`), because
parts that come one after the other are made of different nodes, and a frame that is left
is summed up by what was introduced in it (`Session.Binds.inFrame`,
`Session.Binds.inBlock`).
-/

namespace NameResolution

open Resolution

/-! ### Introductions -/

namespace Introduction

/-- A name is looked up by its text alone, in whichever rib it is. -/
theorem sameText_single (i : Introduction) {owner : NodeId} {name : String} :
    i.binding.path.SameText (.single owner name) ↔ i.name = name := by
  cases i <;> exact CanonicalPath.single_sameText_single

@[simp] theorem isRedefinition_redefinition (i : Introduction) (earlier : Binding) :
    (i.redefinition earlier).isRedefinition = true := by
  cases i with
  | own b locus =>
      obtain ⟨kind, id, name⟩ := b
      cases kind <;> rfl
  | selfName owner decl locus => rfl

end Introduction

/-! ### Contents of a rib -/

/-- What is bound to the names in a rib. -/
def Contents := Namespace → String → Option Binding

namespace Contents

/-- What is introduced first under each name. -/
def first (l : List Introduction) : Contents := fun space name =>
  (l.find? (·.names space name)).map Introduction.binding

/-- Introduce one more name. Unless shadowing is allowed, it is refused if there is one already. -/
def introduce (shadow : Bool) (c : Contents) (i : Introduction) : Contents :=
  if shadow = true ∨ c i.space i.name = none then
    fun space name => if i.names space name then some i.binding else c space name
  else c

/-- Introduce names one after the other. -/
def introduceAll (shadow : Bool) (c : Contents) (l : List Introduction) : Contents :=
  l.foldl (introduce shadow) c

/-- Each introduction with the binding because of which it is refused, if it is. -/
def outcomes (shadow : Bool) (c : Contents) :
    List Introduction → List (Introduction × Option Binding)
  | [] => []
  | i :: rest =>
    (i, if shadow then none else c i.space i.name) :: (c.introduce shadow i).outcomes shadow rest

/-- What is reported of the names that are refused. -/
def reports (shadow : Bool) (c : Contents) (l : List Introduction) : List ResolveError :=
  (c.outcomes shadow l).filterMap fun (i, earlier) => earlier.map i.redefinition

variable {shadow : Bool} {c : Contents}

theorem introduce_of_new {i : Introduction} (h : shadow = true ∨ c i.space i.name = none)
    (space : Namespace) (name : String) :
    c.introduce shadow i space name =
      if i.names space name then some i.binding else c space name := by
  have hintroduce : c.introduce shadow i =
      fun space name => if i.names space name then some i.binding else c space name := if_pos h
  exact congrFun (congrFun hintroduce space) name

theorem introduce_of_held {i : Introduction} {earlier : Binding}
    (h : c i.space i.name = some earlier) : c.introduce false i = c :=
  if_neg fun hnew => hnew.elim Bool.false_ne_true fun hnone => nomatch h.symm.trans hnone

theorem introduceAll_append (l₁ l₂ : List Introduction) :
    c.introduceAll shadow (l₁ ++ l₂) = (c.introduceAll shadow l₁).introduceAll shadow l₂ :=
  List.foldl_append

theorem outcomes_append : ∀ (l₁ l₂ : List Introduction) (c : Contents),
    c.outcomes shadow (l₁ ++ l₂) =
      c.outcomes shadow l₁ ++ (c.introduceAll shadow l₁).outcomes shadow l₂
  | [], _, _ => rfl
  | i :: l₁, l₂, c => congrArg ((i, _) :: ·) (outcomes_append l₁ l₂ (c.introduce shadow i))

theorem outcomes_singleton (i : Introduction) :
    c.outcomes shadow [i] = [(i, if shadow then none else c i.space i.name)] := rfl

theorem reports_append (l₁ l₂ : List Introduction) :
    c.reports shadow (l₁ ++ l₂) =
      c.reports shadow l₁ ++ (c.introduceAll shadow l₁).reports shadow l₂ := by
  unfold reports
  rw [outcomes_append, List.filterMap_append]

/-! What is refused is what comes after the first of its name. -/

theorem introduce_first (before : List Introduction) (i : Introduction) :
    (first before).introduce false i = first (before ++ [i]) := by
  funext space name
  unfold introduce first
  rw [List.find?_append]
  by_cases hnames : i.names space name = true
  · have hsame : i.space = space ∧ i.name = name := of_decide_eq_true hnames
    obtain ⟨rfl, rfl⟩ := hsame
    cases hfind : before.find? (·.names i.space i.name) <;> simp [hfind, hnames]
  · cases hfind : before.find? (·.names i.space i.name) <;> simp [hnames]

theorem introduceAll_first : ∀ (l before : List Introduction),
    (first before).introduceAll false l = first (before ++ l)
  | [], before => by rw [List.append_nil]; rfl
  | i :: l, before => by
      change ((first before).introduce false i).introduceAll false l = _
      rw [introduce_first, introduceAll_first l, List.append_assoc]
      rfl

theorem outcomes_first : ∀ (l before : List Introduction),
    (first before).outcomes false l =
      (Introduction.withEarlier before l).map fun (i, earlier) =>
        (i, earlier.map Introduction.binding)
  | [], _ => rfl
  | i :: l, before => by
      have hrest := outcomes_first l (before ++ [i])
      rw [← introduce_first] at hrest
      exact congrArg _ hrest

/-! Where shadowing is allowed, nothing is refused, and the last of each name counts. -/

theorem introduce_latest (before : List Introduction) (i : Introduction) :
    (first before.reverse).introduce true i = first (before ++ [i]).reverse := by
  funext space name
  unfold introduce first
  rw [List.reverse_append, List.reverse_singleton, List.singleton_append, List.find?_cons]
  cases hnames : i.names space name <;> simp [hnames]

theorem introduceAll_latest : ∀ (l before : List Introduction),
    (first before.reverse).introduceAll true l = first (before ++ l).reverse
  | [], before => by rw [List.append_nil]; rfl
  | i :: l, before => by
      change ((first before.reverse).introduce true i).introduceAll true l = _
      rw [introduce_latest, introduceAll_latest l, List.append_assoc]
      rfl

theorem reports_latest : ∀ (l : List Introduction) (c : Contents), c.reports true l = []
  | [], _ => rfl
  | i :: l, c => reports_latest l (c.introduce true i)

end Contents

namespace Session

/-- What the rib of a node holds. -/
def contents (s : Session) (owner : NodeId) : Contents := fun space name =>
  (s.scope space).bindingIn? owner (.single owner name)

theorem bindingIn?_single (s : Session) (space : Namespace) (owner id : NodeId) (name : String) :
    (s.scope space).bindingIn? owner (.single id name) = s.contents owner space name :=
  Scope.bindingIn?_congr _ _ (by simp)

@[simp] theorem contents_openFrame (s : Session) (opened owner : NodeId) :
    (s.openFrame opened).contents owner = s.contents owner := by
  funext space name
  unfold contents
  rw [scope_openFrame, Scope.bindingIn?_push]

@[simp] theorem contents_openModule (s : Session) (opened owner : NodeId) :
    (s.openModule opened).contents owner = s.contents owner := by
  funext space name
  unfold contents
  rw [scope_openModule, Scope.bindingIn?_push]

/-- The rib of a frame that has just been opened is empty. -/
theorem Vacant.contents_openFrame {s : Session} {owner : NodeId} (h : s.Vacant owner) :
    (s.openFrame owner).contents owner = .first [] := by
  funext space name
  rw [Session.contents_openFrame]
  exact h space _

@[simp] theorem contents_withoutFrame (s : Session) (owner : NodeId) :
    s.withoutFrame.contents owner = s.contents owner := by
  funext space name
  unfold contents
  rw [scope_withoutFrame]
  rfl

@[simp] theorem contents_withoutModule (s : Session) (owner : NodeId) :
    s.withoutModule.contents owner = s.contents owner := by
  funext space name
  unfold contents
  rw [scope_withoutModule]
  rfl

end Session

/-! ### Frames that have been left -/

/-- A node that has introduced its name has its canonical path, and one whose name was refused is as
unused as before. -/
def Introduction.Settled (ids : List NodeId) (refused : Bool) (s : Session) : Introduction → Prop
  | own b _ => b.id ∈ ids ∧
      if refused then s.Unused b.id else s.tables.paths.get? b.id = some b.path
  | selfName _ _ _ => True

/-- The rib of a frame holds the first of each name, and nothing that was refused is named. -/
structure LocalFrame.Sealed (f : LocalFrame) (ids : List NodeId) (s : Session) : Prop where
  owner : f.owner ∈ ids
  contents : s.contents f.owner = .first f.introductions
  settled : ∀ p ∈ f.outcomes, p.1.Settled ids p.2.isSome s

/-- The rib of a block holds the last of each name. -/
structure Block.Sealed (b : Block) (ids : List NodeId) (s : Session) : Prop where
  owner : b.node.id ∈ ids
  contents : s.contents b.node.id = .first b.introductions.reverse

section Later

variable {s s' : Session} {ids ids' : List NodeId}

theorem Introduction.Settled.weaken {i : Introduction} {refused : Bool}
    (h : i.Settled ids refused s) (hids : ids ⊆ ids') : i.Settled ids' refused s := by
  cases i with
  | own b locus => exact ⟨hids h.1, h.2⟩
  | selfName owner decl locus => trivial

/-- Later parts work on other nodes. -/
theorem Introduction.Settled.mono {i : Introduction} {refused : Bool}
    (h : i.Settled ids refused s) (hgrows : s.Grows ids' s') (hapart : ids.Disjoint ids') :
    i.Settled ids refused s' := by
  cases i with
  | own b locus =>
      refine ⟨h.1, ?_⟩
      cases refused with
      | true => exact hgrows.unused b.id (fun hin => hapart h.1 hin) h.2
      | false => exact hgrows.paths b.id b.path h.2
  | selfName owner decl locus => trivial

/-- The rib of a node that is neither worked on nor open stays as it is. -/
theorem Session.Grows.contents (h : s.Grows ids' s') {owner : NodeId} (hout : owner ∉ ids')
    (hclosed : ∀ space, (s.scope space).opened.head? ≠ some owner) :
    s'.contents owner = s.contents owner := by
  funext space name
  exact h.bindings space owner _ hout (hclosed space)

theorem LocalFrame.Sealed.weaken {f : LocalFrame} (h : f.Sealed ids s) (hids : ids ⊆ ids') :
    f.Sealed ids' s :=
  ⟨hids h.owner, h.contents, fun p hp => (h.settled p hp).weaken hids⟩

theorem Block.Sealed.weaken {b : Block} (h : b.Sealed ids s) (hids : ids ⊆ ids') :
    b.Sealed ids' s := ⟨hids h.owner, h.contents⟩

/-- It does not matter which ribs are open. -/
theorem LocalFrame.Sealed.congr {f : LocalFrame} (h : f.Sealed ids s)
    (hcontents : ∀ owner, s'.contents owner = s.contents owner)
    (hunused : ∀ id, s.Unused id → s'.Unused id) (hpaths : s'.tables.paths = s.tables.paths) :
    f.Sealed ids s' where
  owner := h.owner
  contents := (hcontents f.owner).trans h.contents
  settled p hp := by
    have hsettled := h.settled p hp
    cases hintro : p.1 with
    | own b locus =>
        rw [hintro] at hsettled
        refine ⟨hsettled.1, ?_⟩
        cases hrefused : p.2.isSome with
        | true => exact hunused b.id (by simpa [hrefused] using hsettled.2)
        | false => simpa [hrefused, hpaths] using hsettled.2
    | selfName owner decl locus => trivial

theorem LocalFrame.Sealed.withoutFrame {f : LocalFrame} (h : f.Sealed ids s) :
    f.Sealed ids s.withoutFrame :=
  h.congr (Session.contents_withoutFrame s) (fun _ hunused => hunused.congr
    (fun space => by rw [Session.scope_withoutFrame]) rfl rfl) rfl

theorem LocalFrame.Sealed.withoutModule {f : LocalFrame} (h : f.Sealed ids s) :
    f.Sealed ids s.withoutModule :=
  h.congr (Session.contents_withoutModule s) (fun _ hunused => hunused.congr
    (fun space => by rw [Session.scope_withoutModule]) rfl rfl) rfl

theorem Block.Sealed.withoutFrame {b : Block} (h : b.Sealed ids s) :
    b.Sealed ids s.withoutFrame :=
  ⟨h.owner, (Session.contents_withoutFrame s _).trans h.contents⟩

theorem Block.Sealed.withoutModule {b : Block} (h : b.Sealed ids s) :
    b.Sealed ids s.withoutModule :=
  ⟨h.owner, (Session.contents_withoutModule s _).trans h.contents⟩

variable (hgrows : s.Grows ids' s') (hapart : ids.Disjoint ids')
  (hclosed : ∀ id ∈ ids, ∀ space, (s.scope space).opened.head? ≠ some id)

include hgrows hapart hclosed

theorem LocalFrame.Sealed.mono {f : LocalFrame} (h : f.Sealed ids s) : f.Sealed ids s' where
  owner := h.owner
  contents := (hgrows.contents (fun hin => hapart h.owner hin) (hclosed _ h.owner)).trans h.contents
  settled p hp := (h.settled p hp).mono hgrows hapart

theorem Block.Sealed.mono {b : Block} (h : b.Sealed ids s) : b.Sealed ids s' where
  owner := h.owner
  contents := (hgrows.contents (fun hin => hapart h.owner hin) (hclosed _ h.owner)).trans h.contents

end Later

/-! ### What a part has bound -/

/-- What a part that works on the nodes `ids` has bound. It has introduced `own` in the rib of
`top`, which is the innermost one, and left some frames and blocks inside it. -/
structure Session.Binds (top : NodeId) (shadow : Bool) (ids : List NodeId)
    (own : List Introduction) (frames : List LocalFrame) (blocks : List Block) (s s' : Session) :
    Prop where
  grows : s.Grows ids s'
  /-- A rib that is new is that of a module, of a frame or of a block. -/
  ribs : ∀ space id, ((s'.scope space).rib? id).isSome → ((s.scope space).rib? id).isSome ∨
    s'.tables.isModule id = true ∨ id ∈ frames.map LocalFrame.owner ∨ id ∈ blocks.map (·.node.id)
  contents : s'.contents top = (s.contents top).introduceAll shadow own
  settled : ∀ p ∈ (s.contents top).outcomes shadow own, p.1.Settled ids p.2.isSome s'
  reported : s'.ledger.redefinitions = s.ledger.redefinitions ++
    ((s.contents top).reports shadow own ++ frames.flatMap LocalFrame.reports)
  frames : ∀ f ∈ frames, f.Sealed ids s'
  blocks : ∀ b ∈ blocks, b.Sealed ids s'

namespace Session.Binds

variable {s s₁ s₂ : Session} {top owner : NodeId} {shadow : Bool} {ids ids₁ ids₂ : List NodeId}
  {own own₁ own₂ : List Introduction} {frames frames₁ frames₂ : List LocalFrame}
  {blocks blocks₁ blocks₂ : List Block}

theorem weaken (h : s.Binds top shadow ids₁ own frames blocks s₁) (hids : ids₁ ⊆ ids₂) :
    s.Binds top shadow ids₂ own frames blocks s₁ where
  grows := h.grows.mono hids
  ribs := h.ribs
  contents := h.contents
  settled p hp := (h.settled p hp).weaken hids
  reported := h.reported
  frames f hf := (h.frames f hf).weaken hids
  blocks b hb := (h.blocks b hb).weaken hids

/-- Whatever changes neither the symbol tables nor what is reported of names. -/
theorem still (hgrows : s.Grows ids s₁) (hscope : ∀ space, s₁.scope space = s.scope space)
    (hreported : s₁.ledger.redefinitions = s.ledger.redefinitions) :
    s.Binds top shadow ids [] [] [] s₁ where
  grows := hgrows
  ribs space id hid := Or.inl (by rwa [hscope] at hid)
  contents := by
    funext space name
    unfold Session.contents
    rw [hscope]
    rfl
  settled _ hp := nomatch hp
  reported := by
    rw [hreported]
    exact (List.append_nil _).symm
  frames _ hf := nomatch hf
  blocks _ hb := nomatch hb

/-- Two parts, one after the other. The names that are introduced come before the frames inside. -/
theorem append (h₁ : s.Binds top shadow ids₁ own₁ frames₁ blocks₁ s₁)
    (h₂ : s₁.Binds top shadow ids₂ own₂ frames₂ blocks₂ s₂) (hapart : ids₁.Disjoint ids₂)
    (hclosed : ∀ id ∈ ids₁, ∀ space, (s.scope space).opened.head? ≠ some id)
    (horder : frames₁ = [] ∨ own₂ = []) :
    s.Binds top shadow (ids₁ ++ ids₂) (own₁ ++ own₂) (frames₁ ++ frames₂) (blocks₁ ++ blocks₂)
      s₂ := by
  have hleft : ids₁ ⊆ ids₁ ++ ids₂ := List.subset_append_left _ _
  have hright : ids₂ ⊆ ids₁ ++ ids₂ := List.subset_append_right _ _
  have hclosed₁ : ∀ id ∈ ids₁, ∀ space, (s₁.scope space).opened.head? ≠ some id :=
    fun id hid space => by
      rw [h₁.grows.opened]
      exact hclosed id hid space
  refine ⟨h₁.grows.append h₂.grows, fun space id hid => ?_, ?_, fun p hp => ?_, ?_, fun f hf => ?_,
    fun b hb => ?_⟩
  · rw [List.map_append, List.map_append, List.mem_append, List.mem_append]
    rcases h₂.ribs space id hid with hold | hmodule | hframe | hblock
    · rcases h₁.ribs space id hold with hold | hmodule | hframe | hblock
      · exact Or.inl hold
      · exact Or.inr (Or.inl (h₂.grows.isModule hmodule))
      · exact Or.inr (Or.inr (Or.inl (Or.inl hframe)))
      · exact Or.inr (Or.inr (Or.inr (Or.inl hblock)))
    · exact Or.inr (Or.inl hmodule)
    · exact Or.inr (Or.inr (Or.inl (Or.inr hframe)))
    · exact Or.inr (Or.inr (Or.inr (Or.inr hblock)))
  · rw [h₂.contents, h₁.contents, Contents.introduceAll_append]
  · rw [Contents.outcomes_append, ← h₁.contents, List.mem_append] at hp
    rcases hp with hp | hp
    · exact ((h₁.settled p hp).mono h₂.grows hapart).weaken hleft
    · exact (h₂.settled p hp).weaken hright
  · rw [h₂.reported, h₁.reported, Contents.reports_append, ← h₁.contents, List.flatMap_append]
    rcases horder with rfl | rfl
    · simp
    · simp [Contents.reports, Contents.outcomes]
  · rcases List.mem_append.mp hf with hf | hf
    · exact ((h₁.frames f hf).mono h₂.grows hapart hclosed₁).weaken hleft
    · exact (h₂.frames f hf).weaken hright
  · rcases List.mem_append.mp hb with hb | hb
    · exact ((h₁.blocks b hb).mono h₂.grows hapart hclosed₁).weaken hleft
    · exact (h₂.blocks b hb).weaken hright

/-! #### One name -/

section Introducing

variable {i : Introduction} {earlier : Binding}

/-- A name that is new in the rib, or may be repeated there, is bound. -/
theorem accepted (hgrows : s.Grows ids s₁)
    (hscope : ∀ x, s₁.scope x = (s.withBinding i.space top i.binding).scope x)
    (hrib : ((s.scope i.space).rib? top).isSome)
    (hnew : shadow = true ∨ s.contents top i.space i.name = none)
    (hsettled : i.Settled ids false s₁) (hreported : s₁.errors.reported = s.errors.reported) :
    s.Binds top shadow ids [i] [] [] s₁ := by
  have houtcomes : (s.contents top).outcomes shadow [i] = [(i, none)] := by
    rw [Contents.outcomes_singleton]
    rcases hnew with rfl | hnone
    · rfl
    · rw [hnone, ite_self]
  refine ⟨hgrows, fun x id hid => Or.inl ?_, ?_, fun p hp => ?_, ?_,
    List.forall_mem_nil _, List.forall_mem_nil _⟩
  · rwa [hscope, isSome_rib?_withBinding] at hid
  · funext x name
    change (s₁.scope x).bindingIn? top _ = (s.contents top).introduce shadow i x name
    rw [Contents.introduce_of_new hnew, hscope, bindingIn?_withBinding hrib]
    by_cases hnames : i.space = x ∧ i.name = name
    · rw [if_pos ⟨hnames.1.symm, rfl, i.sameText_single.mpr hnames.2⟩,
        if_pos (show i.names x name = true from decide_eq_true hnames)]
    · have hother : ¬ (x = i.space ∧ top = top ∧ i.binding.path.SameText (.single top name)) :=
        fun hboth => hnames ⟨hboth.1.symm, i.sameText_single.mp hboth.2.2⟩
      have hrefused : ¬ i.names x name = true := fun htrue => hnames (of_decide_eq_true htrue)
      rw [if_neg hother, if_neg hrefused]
      rfl
  · rw [houtcomes, List.mem_singleton] at hp
    rw [hp]
    exact hsettled
  · unfold Contents.reports
    rw [houtcomes]
    change s₁.errors.reported.filter _ = _
    rw [hreported]
    exact (List.append_nil _).symm

/-- A name that the rib has already is reported and changes nothing. -/
theorem refused (hheld : s.contents top i.space i.name = some earlier)
    (hsettled : i.Settled ids true s) :
    s.Binds top false ids [i] [] [] (s.reporting (i.redefinition earlier)) := by
  have houtcomes : (s.contents top).outcomes false [i] = [(i, some earlier)] := by
    rw [Contents.outcomes_singleton, hheld]
    rfl
  refine ⟨.reporting ids s _, fun x id hid => Or.inl (by rwa [scope_reporting] at hid), ?_,
    fun p hp => ?_, ?_, List.forall_mem_nil _, List.forall_mem_nil _⟩
  · change s.contents top = (s.contents top).introduce false i
    rw [Contents.introduce_of_held hheld]
  · rw [houtcomes, List.mem_singleton] at hp
    rw [hp]
    have hgrows : s.Grows [] (s.reporting (i.redefinition earlier)) := .reporting [] s _
    exact hsettled.mono hgrows (List.disjoint_nil_right ids)
  · unfold Contents.reports
    rw [houtcomes]
    change (s.errors.reported ++ [i.redefinition earlier]).filter _ = _
    rw [List.filter_append]
    simp [Ledger.redefinitions, Session.ledger]

end Introducing

/-! #### Leaving a frame -/

section Leaving

variable {inner : Bool} (h : (s.openFrame owner).Binds owner inner ids own frames blocks s₁)

include h

/-- A frame is left after a part, once it is clear what the frame is. -/
private theorem leave (htop : top ∉ owner :: ids)
    (howner : owner ∈ frames₁.map LocalFrame.owner ∨ owner ∈ blocks₁.map (·.node.id))
    (hframes : frames ⊆ frames₁) (hblocks : blocks ⊆ blocks₁)
    (hreported : ((s.openFrame owner).contents owner).reports inner own ++
      frames.flatMap LocalFrame.reports = frames₁.flatMap LocalFrame.reports)
    (hsealedFrames : ∀ f ∈ frames₁, f.Sealed (owner :: ids) s₁)
    (hsealedBlocks : ∀ b ∈ blocks₁, b.Sealed (owner :: ids) s₁) :
    s.Binds top shadow (owner :: ids) [] frames₁ blocks₁ s₁.withoutFrame where
  grows := h.grows.inFrame
  ribs space id hid := by
    rw [scope_withoutFrame] at hid
    rcases h.ribs space id hid with hopened | hmodule | hframe | hblock
    · rw [scope_openFrame, Scope.rib?_push] at hopened
      by_cases hown : id = owner
      · exact Or.inr (Or.inr (hown ▸ howner))
      · rw [if_neg hown, Option.or_none] at hopened
        exact Or.inl hopened
    · exact Or.inr (Or.inl hmodule)
    · exact Or.inr (Or.inr (Or.inl (List.map_subset _ hframes hframe)))
    · exact Or.inr (Or.inr (Or.inr (List.map_subset _ hblocks hblock)))
  contents := by
    have hne : owner ≠ top := fun heq => htop (heq ▸ List.mem_cons_self)
    rw [contents_withoutFrame, h.grows.contents (fun hin => htop (List.mem_cons_of_mem _ hin))
      (by simpa using hne), contents_openFrame]
    rfl
  settled _ hp := nomatch hp
  reported := h.reported.trans (congrArg _ hreported)
  frames f hf := (hsealedFrames f hf).withoutFrame
  blocks b hb := (hsealedBlocks b hb).withoutFrame

end Leaving

/-- All of what is introduced in a frame is introduced in its rib, which is empty before. -/
theorem inFrame (h : (s.openFrame owner).Binds owner false ids own frames blocks s₁)
    (htop : top ∉ owner :: ids) (hvacant : s.Vacant owner) :
    s.Binds top shadow (owner :: ids) [] (⟨owner, own⟩ :: frames) blocks s₁.withoutFrame := by
  have hempty := hvacant.contents_openFrame
  have houtcomes : ((s.openFrame owner).contents owner).outcomes false own =
      (LocalFrame.mk owner own).outcomes.map fun (i, earlier) =>
        (i, earlier.map Introduction.binding) := by
    rw [hempty]
    exact Contents.outcomes_first own []
  have hsealed : (LocalFrame.mk owner own).Sealed (owner :: ids) s₁ := by
    refine ⟨List.mem_cons_self, ?_, fun p hp => ?_⟩
    · rw [h.contents, hempty, Contents.introduceAll_first]
      rfl
    · have hsettled := h.settled (p.1, p.2.map Introduction.binding)
        (houtcomes ▸ List.mem_map.mpr ⟨p, hp, rfl⟩)
      rw [Option.isSome_map] at hsettled
      exact hsettled.weaken (List.subset_cons_self _ _)
  refine h.leave htop (Or.inl List.mem_cons_self) (List.subset_cons_self _ _)
    (List.Subset.refl _) ?_ (fun f hf => ?_)
    fun b hb => (h.blocks b hb).weaken (List.subset_cons_self _ _)
  · unfold Contents.reports
    rw [houtcomes, List.filterMap_map, List.flatMap_cons]
    refine congrArg (· ++ _) (List.filterMap_congr fun p _ => ?_)
    obtain ⟨i, earlier⟩ := p
    cases earlier <;> rfl
  · rcases List.mem_cons.mp hf with rfl | hf
    · exact hsealed
    · exact (h.frames f hf).weaken (List.subset_cons_self _ _)

/-- In a block nothing is refused. -/
theorem inBlock {b : Block}
    (h : (s.openFrame b.node.id).Binds b.node.id true ids b.introductions [] blocks s₁)
    (htop : top ∉ b.node.id :: ids) (hvacant : s.Vacant b.node.id) :
    s.Binds top shadow (b.node.id :: ids) [] [] (b :: blocks) s₁.withoutFrame := by
  have hempty := hvacant.contents_openFrame
  refine h.leave htop (Or.inr List.mem_cons_self) (List.Subset.refl _)
    (List.subset_cons_self _ _) ?_ (fun _ hf => nomatch hf) fun b' hb' => ?_
  · rw [Contents.reports_latest]
    rfl
  · rcases List.mem_cons.mp hb' with rfl | hb'
    · refine ⟨List.mem_cons_self, ?_⟩
      rw [h.contents, hempty]
      exact Contents.introduceAll_latest _ []
    · exact (h.blocks b' hb').weaken (List.subset_cons_self _ _)

/-- A module has a rib of its own, in which the second pass introduces nothing. -/
theorem inModule {module : NodeId}
    (h : (s.openModule module).Binds module shadow ids [] frames blocks s₁)
    (htop : top ∉ module :: ids) (hmodule : s.tables.isModule module = true) :
    s.Binds top shadow (module :: ids) [] frames blocks s₁.withoutModule where
  grows := h.grows.inModule
  ribs space id hid := by
    rw [scope_withoutModule] at hid
    rcases h.ribs space id hid with hopened | hlater
    · rw [scope_openModule, Scope.rib?_push] at hopened
      by_cases hown : id = module
      · exact Or.inr (Or.inl (h.grows.isModule (hown ▸ hmodule)))
      · rw [if_neg hown, Option.or_none] at hopened
        exact Or.inl hopened
    · exact Or.inr hlater
  contents := by
    have hne : module ≠ top := fun heq => htop (heq ▸ List.mem_cons_self)
    rw [contents_withoutModule, h.grows.contents (fun hin => htop (List.mem_cons_of_mem _ hin))
      (by simpa using hne), contents_openModule]
    rfl
  settled _ hp := nomatch hp
  reported := h.reported
  frames f hf := ((h.frames f hf).weaken (List.subset_cons_self _ _)).withoutModule
  blocks b hb := ((h.blocks b hb).weaken (List.subset_cons_self _ _)).withoutModule

end Session.Binds

end NameResolution
