import Mathlib
import NameResolution.Proofs.Completion
import NameResolution.Proofs.Lexical.Parts

/-!
# NameResolution.Proofs.SelfType

**What `Self` stands for.** Inside an implementation `Self` stands for the declaration that
the implemented type names, and inside a trait for the trait. It is introduced after the
generic parameters, in the same frame, and that frame is around everything that comes after
it (`Item.isPart_members`). So the name is found wherever it comes first in a path there
(`Crate.self_resolves`).

Nothing is introduced for a type that names no single declaration, such as a tuple, and
that is not reported. `Self` then stands for nothing (`Crate.self_unbound`).
-/

namespace NameResolution

/-! ### Where `Self` is introduced -/

/-- What can be seen once the generic parameters of an item have been read. -/
def Item.headEnv (base : Session) (modules : List NodeId) (item : Item) : Env :=
  match item.generics? with
  | none => .inside modules
  | some g => (g.read base ((Env.inside modules).enter item.node.id item.nodeIds)).value

/-- What `Self` is introduced for: the declaration that the type of an implementation names, if it
names just one, or a trait itself. -/
def Item.selfMeaning? (base : Session) (modules : List NodeId) (item : Item) : Option Meaning :=
  match item.kind with
  | .inherentImpl i => (i.selfTy.read base (item.headEnv base modules)).value.decl
  | .traitImpl i => (i.selfTy.read base (item.headEnv base modules)).value.decl
  | .trait _ => some (base.meaning item.node.id)
  | _ => none

/-- The sites of an item after the point where `Self` is introduced: the members, and the
supertraits of a trait. -/
def Item.memberSites (item : Item) : List Site :=
  match item.kind with
  | .inherentImpl i => i.items.flatMap ImplItem.sites
  | .traitImpl i => i.items.flatMap ImplItem.sites
  | .trait t => boundsSites t.supertraits ++ t.items.flatMap TraitItem.sites
  | _ => []

/-- Read the members of an implementation, or the supertraits and the members of a trait. -/
def Item.readMembers (base : Session) (env : Env) (item : Item) : Reading Unit :=
  match item.kind with
  | .inherentImpl i => i.items.forM (ImplItem.read base env)
  | .traitImpl i => i.items.forM (ImplItem.read base env)
  | .trait t => do
    readBounds base env t.supertraits
    t.items.forM (TraitItem.read base env)
  | _ => pure ()

section Members

variable (base : Session) (modules : List NodeId)

/-- The frames that members are read in are around every path in them. -/
theorem Item.visits_members (env : Env) (item : Item) :
    Visits base env.frames (item.readMembers base env)
      (item.memberSites.map (.mk env.modules)) := by
  have hvisits := base.visits env.frames
  have himpl : ∀ items : List ImplItem, Visits base env.frames
      (items.forM (ImplItem.read base env))
      ((items.flatMap ImplItem.sites).map (.mk env.modules)) :=
    .members (hvisits.implItem (List.suffix_refl _))
  obtain ⟨node, vis, kind⟩ := item
  cases kind with
  | inherentImpl i => exact himpl i.items
  | traitImpl i => exact himpl i.items
  | trait t =>
      have hbounds := hvisits.bounds (List.suffix_refl _) t.supertraits
      have hitems := Visits.members (hvisits.traitItem (List.suffix_refl _)) t.items
      unfold memberSites
      rw [List.map_append]
      exact hbounds.bind hitems
  | _ => exact .pure () []

/-- What comes after the type of an implementation. -/
theorem isPart_implBody (env : Env) (owner : NodeId) (selfTy : Ty) (items : List ImplItem)
    (hnodup : (siteIds ((selfTy.sites ++ items.flatMap ImplItem.sites).map
      (.mk env.modules))).Nodup) :
    (items.forM (ImplItem.read base
      (env.readSelf owner (selfTy.read base env).value.decl selfTy.node.span).value)).IsPart
        ((items.flatMap ImplItem.sites).map (.mk env.modules))
        (do
          let t ← selfTy.read base env
          let env ← env.readSelf owner t.decl selfTy.node.span
          items.forM (ImplItem.read base env))
        ((selfTy.sites ++ items.flatMap ImplItem.sites).map (.mk env.modules)) := by
  have hty := (base.visits []).ty (Env.nil_suffix env) selfTy
  have hself := (base.visits []).selfName env owner (selfTy.read base env).value.decl
    selfTy.node.span
  rw [List.map_append] at hnodup ⊢
  have hafter := Reading.IsPart.right (fun (t : TypeMeaning) => do
    let env ← env.readSelf owner t.decl selfTy.node.span
    items.forM (ImplItem.read base env)) hty hnodup
  have hmembers := Reading.IsPart.right (fun env => items.forM (ImplItem.read base env)) hself
    (hafter.nodup hnodup)
  exact hmembers.trans hafter

/-- What is visited at the sites of the members is visited while the members are read, after `Self`
has been introduced. -/
theorem Item.isPart_members (item : Item) {m : Meaning}
    (hself : item.selfMeaning? base modules = some m)
    (hnodup : (siteIds (item.sites modules)).Nodup) :
    ∃ locus, (item.readMembers base
      ((item.headEnv base modules).readSelf item.node.id (some m) locus).value).IsPart
        (item.memberSites.map (.mk modules)) (item.read base modules) (item.sites modules) := by
  obtain ⟨node, vis, kind⟩ := item
  let head := Item.headEnv base modules ⟨node, vis, kind⟩
  cases kind with
  | inherentImpl i =>
      have hhead : head.modules = modules := congrArg Env.modules (i.generics.outside_read base _)
      let body : Env → Reading Unit := fun env => do
        let t ← i.selfTy.read base env
        let env ← env.readSelf node.id t.decl i.selfTy.node.span
        i.items.forM (ImplItem.read base env)
      have hafter : (body head).IsPart _ (i.read base (.inside modules) node.id) _ :=
        isPart_withGenerics base modules body node.id _ i.generics hnodup
      have hbody := isPart_implBody base head node.id i.selfTy i.items
      rw [hhead] at hbody
      refine ⟨i.selfTy.node.span, ?_⟩
      rw [← hself]
      exact (hbody (hafter.nodup hnodup)).trans hafter
  | traitImpl i =>
      have hhead : head.modules = modules := congrArg Env.modules (i.generics.outside_read base _)
      let body : Env → Reading Unit := fun env => do
        let t ← i.selfTy.read base env
        let env ← env.readSelf node.id t.decl i.selfTy.node.span
        i.items.forM (ImplItem.read base env)
      let whole : Env → Reading Unit := fun env => do
        discard (i.traitPath.read base env .type)
        body env
      have hafter : (whole head).IsPart _ (i.read base (.inside modules) node.id) _ :=
        isPart_withGenerics base modules whole node.id _ i.generics hnodup
      have hpath := ((base.visits []).followPath (Env.nil_suffix head) .type i.traitPath).discard
      have hbody := isPart_implBody base head node.id i.selfTy i.items
      rw [hhead] at hpath hbody
      have hnodup' := hafter.nodup hnodup
      rw [List.map_append] at hafter hnodup'
      have hnext := Reading.IsPart.right (fun _ => body head) hpath hnodup'
      refine ⟨i.selfTy.node.span, ?_⟩
      rw [← hself]
      exact ((hbody (hnext.nodup hnodup')).trans hnext).trans hafter
  | trait t =>
      let members : Env → Reading Unit := fun env => do
        readBounds base env t.supertraits
        t.items.forM (TraitItem.read base env)
      let whole : Env → Reading Unit := fun env => do
        let env ← env.readSelf node.id (some (base.meaning node.id)) node.span
        members env
      have hafter : (whole head).IsPart _ (t.read base (.inside modules) node) _ :=
        isPart_withGenerics base modules whole node.id _ t.generics hnodup
      have hname := (base.visits []).selfName head node.id (some (base.meaning node.id)) node.span
      have hnext := Reading.IsPart.right members hname (hafter.nodup hnodup)
      refine ⟨node.span, ?_⟩
      rw [← hself]
      exact hnext.trans hafter
  | _ => cases hself

end Members

/-! ### The frame that has `Self` -/

/-- The only frame is that of some node, and the types in it are called like parameters. -/
def Env.OnlyParams (owner : NodeId) (params : List GenericParam) (env : Env) : Prop :=
  ∃ f, env.frames = [f] ∧ f.owner = owner ∧
    ∀ name, (f.find? .type name).isSome = true → ∃ p ∈ params, p.name.name = name

section Params

variable {base : Session} {owner : NodeId} {params : List GenericParam} {env : Env}

/-- Only a parameter adds a type. -/
theorem Env.OnlyParams.readNew (h : env.OnlyParams owner params) (space : Namespace) (l : LocalName)
    (complaint : Binding → Binding → ResolveError)
    (hl : space = .type → ∃ p ∈ params, p.name.name = l.name) :
    (env.readNew space l complaint).value.OnlyParams owner params := by
  obtain ⟨f, hframes, howner, htypes⟩ := h
  unfold Env.readNew
  split
  · exact ⟨f, hframes, howner, htypes⟩
  · refine ⟨f.add space l, ?_, (f.owner_add space l).trans howner, fun name hname => ?_⟩
    · exact congrArg Env.frames (Env.bind_eq hframes space l)
    · rw [Frame.find?_add] at hname
      split at hname
      · next hsame => exact hsame.2 ▸ hl hsame.1.symm
      · exact htypes name hname

theorem GenericParam.onlyParams_read (h : env.OnlyParams owner params) {p : GenericParam}
    (hp : p ∈ params) : (p.read base env).value.OnlyParams owner params := by
  unfold GenericParam.read
  split
  · exact h.readNew _ _ _ fun _ => ⟨p, hp, rfl⟩
  · exact h.readNew _ _ _ fun hspace => nomatch hspace
  · exact h

theorem onlyParams_foldlM : ∀ (l : List GenericParam) {env : Env}, env.OnlyParams owner params →
    l ⊆ params → (l.foldlM (GenericParam.read base) env).value.OnlyParams owner params
  | [], _, h, _ => h
  | p :: l, env, h, hl => by
      rw [List.foldlM_cons, Reading.value_bind]
      exact onlyParams_foldlM l (GenericParam.onlyParams_read h (hl List.mem_cons_self))
        fun q hq => hl (List.mem_cons_of_mem p hq)

/-- Where the members of an item are read there is one frame, which has the parameters. -/
theorem Item.onlyParams_headEnv (modules : List NodeId) {item : Item} {g : Generics}
    (hg : item.generics? = some g) :
    (item.headEnv base modules).OnlyParams item.node.id g.params := by
  unfold Item.headEnv
  rw [hg]
  exact onlyParams_foldlM g.params ⟨_, rfl, rfl, fun name hname => nomatch hname⟩
    (List.Subset.refl _)

/-- Once `Self` has been introduced, the frame has the name. It stands for what it was introduced
for unless a parameter is called the same. -/
theorem Env.OnlyParams.readSelf (h : env.OnlyParams owner params) (m : Meaning) (locus : Span) :
    ∃ f l, (env.readSelf owner (some m) locus).value.frames = [f] ∧ f.owner = owner ∧
      f.find? .type "Self" = some l ∧ ((∀ p ∈ params, p.name.name ≠ "Self") → l.meaning = m) := by
  obtain ⟨f, hframes, howner, htypes⟩ := h
  unfold Env.readSelf
  change ∃ f l, (env.readNew .type ⟨owner, "Self", locus, m⟩ _).value.frames = [f] ∧ _
  cases hfind : env.findInnermost? .type "Self" with
  | some earlier =>
      have hvalue : (env.readNew .type ⟨owner, "Self", locus, m⟩
          Resolution.redefinition).value = env := by
        unfold Env.readNew
        rw [hfind]
        rfl
      have hf : f.find? .type "Self" = some earlier := by
        unfold Env.findInnermost? at hfind
        rwa [hframes] at hfind
      rw [hvalue]
      refine ⟨f, earlier, hframes, howner, hf, fun hnone => ?_⟩
      obtain ⟨p, hp, hname⟩ := htypes "Self" (by rw [hf]; rfl)
      exact absurd hname (hnone p hp)
  | none =>
      let own : LocalName := ⟨owner, "Self", locus, m⟩
      have hvalue : (env.readNew .type own Resolution.redefinition).value = env.bind .type own := by
        unfold Env.readNew
        rw [hfind]
        rfl
      rw [hvalue, Env.bind_eq hframes]
      refine ⟨f.add .type own, own, rfl, (f.owner_add .type own).trans howner, ?_, fun _ => rfl⟩
      rw [Frame.find?_add, if_pos ⟨rfl, rfl⟩]

end Params

/-! ### Looking it up -/

namespace Env

variable {base : Session} {env : Env} {f : Frame} {l : LocalName} {prefer : Namespace}
  {name : String}

/-- A type that some frame has is found, be it as another type. -/
theorem isSome_find?_of_mem (hf : f ∈ env.frames) (hl : f.find? .type name = some l) :
    (env.find? base .type name).isSome = true := by
  have hlocal : (env.frames.findSome? (·.find? .type name)).isSome = true :=
    List.findSome?_isSome_iff.mpr ⟨f, hf, by rw [hl]; rfl⟩
  obtain ⟨l', hl'⟩ := Option.isSome_iff_exists.mp hlocal
  unfold find?
  rw [hl']
  rfl

/-- A type of the outermost frame is found if no other frame has one of the name. -/
theorem find?_of_outermost (hsuffix : [f] <:+ env.frames) (hl : f.find? .type name = some l)
    (hnodup : (env.frames.map Frame.owner).Nodup)
    (hothers : ∀ g ∈ env.frames, g.owner ≠ f.owner → g.find? .type name = none) :
    env.find? base .type name = some l.meaning := by
  obtain ⟨inner, hframes⟩ := hsuffix
  rw [← hframes, List.map_append] at hnodup
  have hinner : inner.findSome? (·.find? .type name) = none :=
    List.findSome?_eq_none_iff.mpr fun g hg => by
      refine hothers g (hframes ▸ List.mem_append_left _ hg) fun heq => ?_
      exact (List.nodup_append.mp hnodup).2.2 _ (List.mem_map_of_mem hg) _
        (List.mem_singleton_self _) heq
  unfold find?
  rw [← hframes, List.findSome?_append, hinner]
  simp [hl]

/-- A type is what a name stands for, if it is not used where a value of the name comes first. -/
theorem resolve_of_type {m : Meaning} (h : env.find? base .type name = some m)
    (hvalues : prefer = .name → env.find? base .name name = none) :
    env.resolve base prefer name = some (.type, m) := by
  unfold resolve
  cases prefer with
  | name => simp [hvalues rfl, h, Namespace.other]
  | type => simp [h]

theorem isSome_resolve (h : (env.find? base .type name).isSome = true) :
    (env.resolve base prefer name).isSome = true := by
  obtain ⟨m, hm⟩ := Option.isSome_iff_exists.mp h
  unfold resolve
  cases prefer <;> simp [hm, Namespace.other]

end Env

/-! ### The first segment of a path -/

section First

variable {base : Session} {env : Env} {prefer : Namespace} {seg : PathSegment} {name : String}

/-- A plain name that comes first and can be found is resolved: to a child of the module if the path
goes on and there is one to pick, and otherwise to what was found. -/
theorem readName_found (seg : PathSegment) (single isLast : Bool) {spot : Spot}
    {space : Namespace} {m : Meaning} (hfirst : spot.reached = none)
    (hfound : env.resolve base prefer name = some (space, m)) :
    ∃ space', .segment space' seg.node seg.ident.text
        ((if single then none else base.pickChild? prefer isLast
          (base.tables.childrenNamed spot.scope name)).getD m.decl)
        (env.here base) ∈ (readName base env prefer single spot seg name isLast).findings := by
  unfold readName
  dsimp only
  split
  · next child hchild =>
    rw [hchild]
    exact ⟨_, List.mem_singleton_self _⟩
  · next hnone =>
    rw [hnone, hfirst, if_neg (by simp), hfound]
    exact ⟨space, List.mem_singleton_self _⟩

theorem PathSegment.read_found (single isLast : Bool) {spot : Spot} {space : Namespace}
    {m : Meaning} (hident : seg.ident = .ident name) (hfirst : spot.reached = none)
    (hfound : env.resolve base prefer name = some (space, m)) :
    ∃ space', .segment space' seg.node seg.ident.text
        ((if single then none else base.pickChild? prefer isLast
          (base.tables.childrenNamed spot.scope name)).getD m.decl)
        (env.here base) ∈ (seg.read base env prefer single spot isLast).findings := by
  obtain ⟨node, ident, generics⟩ := seg
  cases hident
  obtain ⟨space', hmem⟩ :=
    readName_found ⟨node, .ident name, generics⟩ single isLast hfirst hfound
  refine ⟨space', ?_⟩
  have hopen : spot.isDeferred base = false := by
    unfold Spot.isDeferred
    rw [hfirst]
  unfold PathSegment.read
  rw [hopen]
  cases generics with
  | none => exact hmem
  | some args => exact List.mem_append_right _ hmem

/-- The first segment of a path is resolved if the environment has something under its name. -/
theorem Path.read_first {p : Path} {rest : List PathSegment} {space : Namespace} {m : Meaning}
    (hsegments : p.segments = seg :: rest) (hident : seg.ident = .ident name)
    (hfound : env.resolve base prefer name = some (space, m)) :
    ∃ space', .segment space' seg.node seg.ident.text
        ((if rest = [] then none
          else base.pickChild? prefer false
            (base.tables.childrenNamed (env.here base) name)).getD m.decl)
        (env.here base) ∈ (p.read base env prefer).findings := by
  obtain ⟨node, segments⟩ := p
  change segments = seg :: rest at hsegments
  subst hsegments
  have hreceiver : env.receiver? base prefer (seg :: rest) = none := by
    by_contra hsome
    obtain ⟨found, hfound⟩ := Option.ne_none_iff_exists'.mp hsome
    have hself := (env.receiver?_eq_some base hfound).2
    have hsingle := (env.receiver?_eq_some base hfound).1
    cases hsingle
    rw [hident] at hself
    cases hself
  let start : Spot := ⟨env.here base, none⟩
  have hstart : start.reached = none := rfl
  obtain ⟨space', hmem⟩ :=
    seg.read_found ((seg :: rest).length == 1) rest.isEmpty hident hstart hfound
  refine ⟨space', List.mem_append_left _ ?_⟩
  refine (readWhole_of_no_receiver base env node hreceiver _).2 ?_
  rw [readSegments_cons]
  refine List.mem_append_left _ ?_
  cases rest with
  | nil => exact hmem
  | cons next rest => exact hmem

end First

/-! ### Whole crates -/

/-- A path that is visited starts with a segment `Self`. -/
structure Crate.StartsWithSelf (c : Crate) (settings : Settings) (p : Path) (seg : PathSegment)
    (prefer : Namespace) (env : Env) : Prop where
  visited : ∃ outcome, .visit p prefer env outcome ∈ (c.read (c.registered settings)).findings
  first : p.segments.head? = some seg
  ident : seg.ident = .ident "Self"

/-- A path is one of the members of an item in which `Self` has been introduced for something. -/
def Crate.InMembersOf (c : Crate) (settings : Settings) (p : Path) (item : Item) (m : Meaning) :
    Prop :=
  ∃ modules gates, (modules, item) ∈ c.placedItems ∧
    item.selfMeaning? (c.registered settings) modules = some m ∧ .path p gates ∈ item.memberSites

/-- Nothing else that is called `Self` comes before what an item has introduced. -/
structure Item.OwnsSelf (base : Session) (item : Item) (p : Path) (prefer : Namespace)
    (env : Env) : Prop where
  /-- Neither a generic parameter of the item nor a type inside of it has the name. -/
  params : ∀ g, item.generics? = some g → ∀ q ∈ g.params, q.name.name ≠ "Self"
  types : ∀ f ∈ env.frames, f.owner ≠ item.node.id → f.find? .type "Self" = none
  /-- An expression prefers values, -/
  values : prefer = .name → env.find? base .name "Self" = none
  /-- and a path of more than one segment the children of its module. -/
  children : p.segments.length ≠ 1 → base.tables.childrenNamed (env.here base) "Self" = []

namespace Crate.SecondPass

variable {c : Crate} {settings : Settings} {s : Session} (hwf : c.WellFormed)
  (hs : c.SecondPass (c.registered settings) s) {p : Path} {seg : PathSegment}
  {prefer : Namespace} {env : Env} {item : Item} {m : Meaning}

include hwf

/-- The frame that has `Self` is around every path of the members. -/
theorem frame_of_members (hmembers : c.InMembersOf settings p item m) {outcome : Option Meaning}
    (hvisit : .visit p prefer env outcome ∈ (c.read (c.registered settings)).findings) :
    ∃ f l, [f] <:+ env.frames ∧ f.owner = item.node.id ∧ f.find? .type "Self" = some l ∧
      ((∀ g, item.generics? = some g → ∀ q ∈ g.params, q.name.name ≠ "Self") →
        l.meaning = m) := by
  obtain ⟨modules, gates, hplaced, hself, hsite⟩ := hmembers
  have hnodup : (siteIds c.sites).Nodup := c.nodup_sites hwf
  have hitem :=
    isPart_itemsPlaced (c.registered settings) [c.node.id] c.items hplaced hnodup
  obtain ⟨locus, hpart⟩ :=
    item.isPart_members (c.registered settings) modules hself (hitem.nodup hnodup)
  have hid : p.node.id ∈ siteIds (item.memberSites.map (.mk modules)) :=
    List.mem_map.mpr ⟨⟨modules, .path p gates⟩, List.mem_map_of_mem hsite, rfl⟩
  have hin := (hpart.trans hitem).visits p prefer env outcome hvisit hid
  obtain ⟨g, hg⟩ : ∃ g, item.generics? = some g := by
    obtain ⟨node, vis, kind⟩ := item
    cases kind with
    | inherentImpl i => exact ⟨_, rfl⟩
    | traitImpl i => exact ⟨_, rfl⟩
    | trait t => exact ⟨_, rfl⟩
    | _ => cases hself
  obtain ⟨f, l, hframes, howner, hl, hmeaning⟩ :=
    (item.onlyParams_headEnv modules hg).readSelf m locus
  have hsuffix := (item.visits_members (c.registered settings) _).visits p prefer env outcome hin
  exact ⟨f, l, hframes ▸ hsuffix.1, howner, hl, fun hparams => hmeaning (hparams g hg)⟩

/-- In the members `Self` is found. -/
theorem isSome_resolve_self (hmembers : c.InMembersOf settings p item m) {outcome : Option Meaning}
    (hvisit : .visit p prefer env outcome ∈ (c.read (c.registered settings)).findings) :
    (env.resolve (c.registered settings) prefer "Self").isSome = true := by
  obtain ⟨f, l, hsuffix, -, hl, -⟩ := frame_of_members hwf hmembers hvisit
  have hf : f ∈ env.frames := hsuffix.subset (List.mem_singleton_self f)
  exact Env.isSome_resolve (Env.isSome_find?_of_mem hf hl)

include hs

/-- In the members `Self` is found as what has been introduced under the name, unless something else
hides it. -/
theorem find?_self (hmembers : c.InMembersOf settings p item m) {outcome : Option Meaning}
    (hvisit : .visit p prefer env outcome ∈ (c.read (c.registered settings)).findings)
    (hown : item.OwnsSelf (c.registered settings) p prefer env) :
    env.find? (c.registered settings) .type "Self" = some m := by
  obtain ⟨f, l, hsuffix, howner, hl, hmeaning⟩ := frame_of_members hwf hmembers hvisit
  obtain ⟨s', hready⟩ := (hs.traced _ _ _ _ hvisit).ready
  have hnodup : (env.frames.map Frame.owner).Nodup := by
    have howners := hready.stands.nodup
    unfold Env.owners at howners
    rw [List.append_assoc] at howners
    exact (List.nodup_append.mp howners).1
  rw [← hmeaning hown.params]
  exact Env.find?_of_outermost hsuffix hl hnodup fun g hg hne => hown.types g hg (howner ▸ hne)

/-- In the members a segment `Self` that comes first is resolved, and to what has been introduced
under the name unless something else hides it. -/
theorem resolved?_self (hmembers : c.InMembersOf settings p item m)
    (hstarts : c.StartsWithSelf settings p seg prefer env) :
    ∃ decl, s.tables.resolved? seg.node.id = some decl ∧
      (item.OwnsSelf (c.registered settings) p prefer env → decl = m.decl) := by
  obtain ⟨⟨outcome, hvisit⟩, hfirst, hident⟩ := hstarts
  have htrace := hs.traced _ _ _ _ hvisit
  obtain ⟨rest, hsegments⟩ := List.head?_eq_some_iff.mp hfirst
  obtain ⟨⟨space, found⟩, hfound⟩ :=
    Option.isSome_iff_exists.mp (isSome_resolve_self hwf hmembers hvisit)
  obtain ⟨space', hmem⟩ := Path.read_first hsegments hident hfound
  refine ⟨_, hs.resolved?_of_found hwf (c.firstPass hwf settings)
    (htrace.findings_subset hmem) rfl, fun hown => ?_⟩
  have hresolve := Env.resolve_of_type (find?_self hwf hs hmembers hvisit hown) hown.values
  rw [hfound] at hresolve
  cases hresolve
  by_cases hrest : rest = []
  · rw [if_pos hrest]
    rfl
  · have hnone := hown.children (by rw [hsegments]; simpa using hrest)
    rw [if_neg hrest, hnone]
    rfl

end Crate.SecondPass

/-- **`Self` stands for what it was introduced for.** In a well-formed crate, a path that starts
with `Self` has that segment resolved wherever it is among the members of a trait, or of an
implementation whose type names a single declaration: to the trait or to that declaration, unless
something else of the name comes before it. Whatever error there is about an unknown `Self` is about
the first segment of a path that is not among such members. -/
theorem Crate.self_resolves {c : Crate} (hwf : c.WellFormed) (settings : Settings) :
    ∃ r, c.resolve settings = .ok r ∧
      (∀ p seg prefer env item m, c.StartsWithSelf settings p seg prefer env →
        c.InMembersOf settings p item m →
        ∃ decl, r.declarationOf? seg.node.id = some decl ∧
          (item.OwnsSelf (c.registered settings) p prefer env → decl = m.decl)) ∧
      ∀ span, .failedToResolvePath "Self" span ∈ r.errors →
        ∃ p seg prefer env, c.StartsWithSelf settings p seg prefer env ∧ seg.node.span = span ∧
          ∀ item m, ¬ c.InMembersOf settings p item m := by
  have hbase := c.firstPass hwf settings
  obtain ⟨s, r, h⟩ := c.exists_outcome hwf settings
  refine ⟨r, h.resolve, fun p seg prefer env item m hstarts hmembers => ?_, fun span herror => ?_⟩
  · unfold ResolvedCrate.declarationOf?
    rw [h.tables]
    exact h.secondPass.resolved?_self hwf hmembers hstarts
  · -- The error is none of the first pass and none about privacy, so a name has failed.
    have hfound : .error (.failedToResolvePath "Self" span) ∈
        (c.read (c.registered settings)).findings := by
      rcases h.reported _ herror with hin | hin
      · rw [h.secondPass.reported] at hin
        rcases List.mem_append.mp hin with hin | hin
        · exact nomatch hbase.unchecked _ hin
        · obtain ⟨f, hf, he⟩ := List.mem_filterMap.mp hin
          cases f <;> cases he
          exact hf
      · obtain ⟨use, -, huse⟩ := List.mem_filterMap.mp hin
        unfold Tables.privateUse? at huse
        split at huse
        · cases huse
        · split at huse <;> cases huse
    obtain ⟨p, prefer, env, outcome, seg, rest, hvisit, hsegments, hident, hspan, hnone⟩ :=
      (c.visits (c.registered settings)).failures "Self" span hfound
    refine ⟨p, seg, prefer, env, ⟨⟨outcome, hvisit⟩, by rw [hsegments]; rfl, hident⟩, hspan,
      fun item m hmembers => ?_⟩
    have hsome := Crate.SecondPass.isSome_resolve_self hwf hmembers hvisit
    rw [hnone] at hsome
    cases hsome

/-- A struct `S`, an implementation of it with a constant of type `Self`, and a trait `T` with
another one. -/
def Crate.withSelf : Crate where
  node := ⟨⟨0⟩, ⟨0, 40⟩⟩
  items :=
    let node (id offset : Nat) : Node := ⟨⟨id⟩, ⟨offset, 1⟩⟩
    let ty (id offset : Nat) (text : String) : Ty :=
      .path (node id offset)
        ⟨node (id + 1) offset, [⟨node (id + 2) offset, .ident text, none⟩]⟩
    let const (id offset : Nat) : ConstDecl := ⟨⟨"C", ⟨offset, 1⟩⟩, ty id (offset + 2) "Self", none⟩
    [⟨node 1 0, .everywhere, .struct ⟨⟨"S", ⟨2, 1⟩⟩, .none, []⟩⟩,
      ⟨node 2 4, .ownModule, .inherentImpl ⟨.none, ty 3 6 "S",
        [⟨node 6 8, .ownModule, .const (const 7 10)⟩]⟩⟩,
      ⟨node 10 14, .ownModule, .trait ⟨⟨"T", ⟨16, 1⟩⟩, .none, [],
        [⟨node 11 18, .const (const 12 20)⟩]⟩⟩]
  idBound := ⟨15⟩

/-- The constant of the implementation is of the type of the struct, the other one of that of the
trait. -/
theorem Crate.self_resolves_withSelf :
    withSelf.WellFormed ∧ ∃ r, withSelf.resolve {} = .ok r ∧
      r.declarationOf? ⟨9⟩ = some ⟨1⟩ ∧ r.declarationOf? ⟨14⟩ = some ⟨10⟩ := by
  have hwf : withSelf.WellFormed := by decide
  obtain ⟨r, hr, hself, -⟩ := self_resolves hwf {}
  let path (id offset : Nat) : Path :=
    ⟨⟨⟨id⟩, ⟨offset, 1⟩⟩, [⟨⟨⟨id + 1⟩, ⟨offset, 1⟩⟩, .ident "Self", none⟩]⟩
  let inImpl : Env := ⟨[⟨⟨2⟩, [⟨2⟩, ⟨3⟩, ⟨4⟩, ⟨5⟩, ⟨6⟩, ⟨7⟩, ⟨8⟩, ⟨9⟩], [],
    [⟨⟨2⟩, "Self", ⟨6, 1⟩, ⟨⟨1⟩, .type, .single ⟨1⟩ "S"⟩⟩]⟩], [⟨0⟩]⟩
  let inTrait : Env := ⟨[⟨⟨10⟩, [⟨10⟩, ⟨11⟩, ⟨12⟩, ⟨13⟩, ⟨14⟩], [],
    [⟨⟨10⟩, "Self", ⟨14, 1⟩, ⟨⟨10⟩, .type, .single ⟨10⟩ "T"⟩⟩]⟩], [⟨0⟩]⟩
  have hvisits : [5, 8].map ((withSelf.read (withSelf.registered {})).findings[·]?) =
      [some (.visit (path 8 12) .type inImpl (some ⟨⟨1⟩, .type, .single ⟨1⟩ "S"⟩)),
        some (.visit (path 13 22) .type inTrait (some ⟨⟨10⟩, .type, .single ⟨10⟩ "T"⟩))] := by
    cbv
  obtain ⟨himpl, hlater⟩ := List.cons.inj hvisits
  obtain ⟨htrait, -⟩ := List.cons.inj hlater
  have htarget : (withSelf.items[1].selfMeaning? (withSelf.registered {}) [⟨0⟩]).map
      Meaning.decl = some ⟨1⟩ := by decide +kernel
  obtain ⟨m, hm, hdecl⟩ := Option.map_eq_some_iff.mp htarget
  obtain ⟨_, hstruct, hisStruct⟩ := hself (path 8 12) _ .type inImpl withSelf.items[1] m
    ⟨⟨_, List.mem_of_getElem? himpl⟩, rfl, rfl⟩
    ⟨[⟨0⟩], [], .tail _ (.head _), hm, .tail _ (.head _)⟩
  obtain ⟨_, hown, hisTrait⟩ := hself (path 13 22) _ .type inTrait withSelf.items[2] _
    ⟨⟨_, List.mem_of_getElem? htrait⟩, rfl, rfl⟩
    ⟨[⟨0⟩], [], .tail _ (.tail _ (.head _)), rfl, .tail _ (.head _)⟩
  have hunhidden : ∀ (item : Item) (p : Path) (env : Env), item.generics? = some .none →
      env.frames.map Frame.owner = [item.node.id] → p.segments.length = 1 →
      item.OwnsSelf (withSelf.registered {}) p .type env := by
    intro item p env hnone howners hsingle
    refine ⟨fun g hg q hq => ?_, fun f hf hne => ?_, fun hname => ?_,
      fun hlen => absurd hsingle hlen⟩
    · rw [hnone] at hg
      cases hg
      cases hq
    · have hin : f.owner ∈ env.frames.map Frame.owner := List.mem_map_of_mem hf
      rw [howners] at hin
      exact absurd (List.mem_singleton.mp hin) hne
    · cases hname
  rw [hisStruct (hunhidden _ _ _ rfl rfl rfl), hdecl] at hstruct
  rw [hisTrait (hunhidden _ _ _ rfl rfl rfl)] at hown
  exact ⟨hwf, r, hr, hstruct, hown⟩

/-- A struct `S`, a trait `T`, and an implementation of the trait for `(S, S)` with a type that is
said to be `Self`. -/
def Crate.withTupleImpl : Crate where
  node := ⟨⟨0⟩, ⟨38, 1⟩⟩
  items :=
    let node (id offset : Nat) : Node := ⟨⟨id⟩, ⟨offset, 1⟩⟩
    let path (id offset : Nat) (text : String) : Path :=
      ⟨node (id + 1) (offset + 2), [⟨node id offset, .ident text, none⟩]⟩
    let ty (id offset : Nat) (text : String) : Ty :=
      .path (node (id + 2) (offset + 4)) (path id offset text)
    [⟨node 1 2, .ownModule, .struct ⟨⟨"S", ⟨0, 1⟩⟩, .none, []⟩⟩,
      ⟨node 2 6, .ownModule, .trait ⟨⟨"T", ⟨4, 1⟩⟩, .none, [], []⟩⟩,
      ⟨node 16 36, .ownModule, .traitImpl ⟨.none, path 3 8 "T",
        .tuple (node 11 24) [ty 5 12 "S", ty 8 18 "S"],
        [⟨node 15 34, .ownModule, .typeAlias ⟨⟨"Own", ⟨32, 1⟩⟩, .none, ty 12 26 "Self"⟩⟩]⟩⟩]
  idBound := ⟨17⟩

/-- Nothing is wrong with the type of the implementation. Still, `Self` is unknown inside of it, and
that is the only error. -/
theorem Crate.self_unbound :
    withTupleImpl.WellFormed ∧ ∃ modules item i, (modules, item) ∈ withTupleImpl.placedItems ∧
      item.kind = .traitImpl i ∧
      (i.selfTy.read (withTupleImpl.registered {})
        (item.headEnv (withTupleImpl.registered {}) modules)).findings.filterMap
          Finding.error? = [] ∧
      ∃ p gates seg r, .path p gates ∈ item.memberSites ∧ p.segments = [seg] ∧
        seg.ident = .ident "Self" ∧ withTupleImpl.resolve {} = .ok r ∧
        r.errors = [.failedToResolvePath "Self" seg.node.span] ∧
        r.declarationOf? seg.node.id = none := by
  have hwf : withTupleImpl.WellFormed := by decide
  obtain ⟨_, r, h⟩ := exists_outcome hwf {}
  have hrun : (withTupleImpl.resolve {}).toOption.map (fun r =>
      (r.errors, r.declarationOf? ⟨12⟩)) = some ([.failedToResolvePath "Self" ⟨26, 1⟩], none) := by
    decide +kernel
  rw [h.resolve] at hrun
  obtain ⟨herrors, hnone⟩ := Prod.ext_iff.mp (Option.some.inj hrun)
  refine ⟨hwf, [⟨0⟩], withTupleImpl.items[2], _, .tail _ (.tail _ (.head _)), rfl, ?_, _, [], _, r,
    .tail _ (.head _), rfl, rfl, h.resolve, herrors, hnone⟩
  decide +kernel

end NameResolution
