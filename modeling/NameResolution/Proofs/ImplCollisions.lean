import NameResolution.Proofs.Projections
import NameResolution.Proofs.TypeShapes

/-!
# NameResolution.Proofs.ImplCollisions

**When an implementation of a trait is refused as a duplicate** (`Crate.impls_collide_iff`). The
header of an implementation is attempted like a name. An attempt fails if one before it was about
the same text, so there are three things to know:

* the text of a header says what the type and the trait look like
  (`TraitImpl.IsPlain.sameText_iff`);
* nothing but a header has such a text, since names are words (`Crate.isOf_of_sameText`);
* items are attempted in the order in which they are written (`Crate.Stands.mem_iff`).
-/

namespace NameResolution

open Resolution

/-! ### What items attempt themselves -/

/-- An attempt of an item itself is about one of its names, or about its header. -/
inductive Attempt.IsOf (a : Attempt) (item : Item) : Prop
  | name {name : Ident} (hmem : name ∈ item.kind.names)
      (hlast : a.key.texts.getLast? = some name.name)
  | header {i : TraitImpl} {projection : CanonicalPath} (hkind : item.kind = .traitImpl i)
      (hprojection : i.projection item.node.id = .ok projection)
      (hkey : a.key.SameText projection) (hid : a.id = item.node.id)

theorem Place.attempt_isOf {place : Place} {here : NodeId} {space : Namespace} {id : NodeId}
    {name : Ident} {vis : Visibility} {container : Option NodeId} {kind : Option ContainerKind}
    {item : Item} (hmem : name ∈ item.kind.names) :
    (place.attempt here space id name vis container kind).IsOf item :=
  .name hmem (by simp [Place.attempt])

/-- Whatever an item that is no module attempts directly inside a module is about that item. -/
theorem ItemKind.attempts_isOf {node : Node} {vis : Visibility} {kind : ItemKind} {here : NodeId}
    {path : CanonicalPath} {before : List Attempt}
    (hflat : ∀ name items, kind ≠ .module name items) :
    ∀ a ∈ kind.attempts node vis here (.ofModule path) before, a.IsOf ⟨node, vis, kind⟩ := by
  intro a ha
  have hown := ItemKind.attempts_own hflat a ha
  cases hown with
  | leaf space id name itemVis hname himpl => exact Place.attempt_isOf hname
  | container name k hname hkind himpl => exact Place.attempt_isOf hname
  | member owner k space id name hname hkind himpl howner => exact Place.attempt_isOf hname
  | implItem i inner hname hitems hmem => exact Place.attempt_isOf hname
  | header i projection hkind hprojection =>
      refine .header hkind hprojection ?_ rfl
      simp [Place.projectionAttempt, Place.ofModule, CanonicalPath.SameText]

theorem itemsAttempts_isOf (items : List Item) {here : NodeId} {outer : List NodeId}
    {path : CanonicalPath} {before : List Attempt} :
    ∀ a ∈ itemsAttempts here (.ofModule path) before items,
      ∃ around maker, (a.module :: around, maker) ∈ itemsPlaced (here :: outer) items ∧
        a.IsOf maker := by
  induction items using items_induction generalizing here outer path before with
  | nil =>
      intro a ha
      cases ha
  | module node vis name items rest ihInside ih =>
      intro a ha
      rcases List.mem_append.mp ha with ha | ha
      · rcases List.mem_cons.mp ha with rfl | ha
        · exact ⟨outer, _, List.mem_cons_self, Place.attempt_isOf List.mem_cons_self⟩
        · obtain ⟨around, maker, hplaced, hof⟩ := ihInside a ha
          exact ⟨around, maker, List.mem_cons_of_mem _ (List.mem_append_left _ hplaced), hof⟩
      · obtain ⟨around, maker, hplaced, hof⟩ := ih a ha
        exact ⟨around, maker, List.mem_append_right _ hplaced, hof⟩
  | flat node vis kind rest hflat ih =>
      intro a ha
      rw [itemsPlaced, Item.placed_flat hflat]
      rcases List.mem_append.mp ha with ha | ha
      · refine ⟨outer, ⟨node, vis, kind⟩, ?_, ItemKind.attempts_isOf hflat a ha⟩
        rw [(ItemKind.attempts_here hflat ha).1]
        exact List.mem_cons_self
      · obtain ⟨around, maker, hplaced, hof⟩ := ih a ha
        exact ⟨around, maker, List.mem_append_right _ hplaced, hof⟩

/-- Every attempt is made by an item that is placed in the module of the attempt. -/
theorem Crate.exists_isOf {c : Crate} {settings : Settings} {a : Attempt}
    (ha : a ∈ c.attempts settings) :
    ∃ around maker, (a.module :: around, maker) ∈ c.placedItems ∧ a.IsOf maker :=
  itemsAttempts_isOf c.items a ha

/-! ### Items and attempts are in the same order -/

/-- Two members of a list without repetitions are in one order only. -/
theorem not_sublist_swap {α : Type} {l : List α} (hnodup : l.Nodup) {x y : α}
    (h : List.Sublist [x, y] l) (h' : List.Sublist [y, x] l) : False := by
  induction l with
  | nil => cases h
  | cons z l ih =>
    obtain ⟨hz, hnodup⟩ := List.nodup_cons.mp hnodup
    cases h with
    | cons _ h =>
      cases h' with
      | cons _ h' => exact ih hnodup h h'
      | cons_cons _ h' => exact hz (h.subset (List.mem_cons_of_mem _ List.mem_cons_self))
    | cons_cons _ h =>
      cases h' with
      | cons _ h' => exact hz (h'.subset (List.mem_cons_of_mem _ List.mem_cons_self))
      | cons_cons _ h' => exact hz (h.subset List.mem_cons_self)

/-- What comes before something in one list does so in any other one in which the order of
identities is the same. -/
theorem mem_before_of_sublist {α β γ : Type} {f : α → γ} {g : β → γ} {order : List γ}
    (hnodup : order.Nodup) {xs xs' : List α} {x y : α} {us us' : List β} {u v : β}
    (h : List.Sublist ((xs ++ x :: xs').map f) order)
    (h' : List.Sublist ((us ++ u :: us').map g) order) (hxu : f x = g u) (hy : y ∈ xs)
    (hv : v ∈ us ++ u :: us') (hyv : f y = g v) : v ∈ us := by
  have hpair : List.Sublist [f y, f x] order :=
    (((List.singleton_sublist.mpr hy).append
      (List.singleton_sublist.mpr List.mem_cons_self)).map f).trans h
  rcases List.mem_append.mp hv with hv | hv
  · exact hv
  rcases List.mem_cons.mp hv with rfl | hv
  · rw [hyv, ← hxu] at hpair
    exact (not_sublist_swap hnodup hpair hpair).elim
  · have hswap : List.Sublist [g u, g v] order :=
      ((((List.singleton_sublist.mpr hv).cons_cons u).trans
        (List.sublist_append_right us _)).map g).trans h'
    rw [← hxu, ← hyv] at hswap
    exact (not_sublist_swap hnodup hpair hswap).elim

/-- Items are placed in the order in which their nodes are worked on. -/
theorem itemsPlaced_ids (items : List Item) (modules : List NodeId) :
    List.Sublist ((itemsPlaced modules items).map (·.2.node.id)) (itemsDeclaredIds items) := by
  induction items using items_induction generalizing modules with
  | nil => exact .slnil
  | module node vis name items rest ihInside ih =>
      rw [itemsPlaced, List.map_append, itemsDeclaredIds]
      exact ((ihInside (node.id :: modules)).cons_cons node.id).append (ih modules)
  | flat node vis kind rest hflat ih =>
      rw [itemsPlaced, List.map_append, itemsDeclaredIds, Item.placed_flat hflat,
        Item.declaredIds_flat hflat]
      exact ((List.nil_sublist _).cons_cons node.id).append (ih modules)

/-! ### What becomes of an attempt -/

/-- An attempt is accepted exactly if nothing before it has taken its name. -/
theorem mem_accepted_iff {before after : List Attempt} {a : Attempt}
    (hnodup : ((before ++ a :: after).map Attempt.id).Nodup) :
    a ∈ accepted (before ++ a :: after) ↔ a.earlier? before = none := by
  refine ⟨Attempt.earlier?_of_accepted hnodup, fun hfree => ?_⟩
  unfold accepted
  rw [acceptedAfter_append, List.nil_append, acceptedAfter, hfree]
  exact List.mem_append_right _ List.mem_cons_self

/-- An attempt whose name is taken is reported. -/
theorem mem_duplicateReports {before after : List Attempt} {a first : Attempt}
    (hearlier : a.earlier? before = some first) :
    .duplicateDefinition a.key.text a.span first.span ∈
      duplicateReports (before ++ a :: after) := by
  unfold duplicateReports
  rw [reportsAfter_append, List.nil_append, reportsAfter, hearlier]
  exact List.mem_append_right _ List.mem_cons_self

/-! ### Implementations of traits -/

/-- An implementation of a trait in a module repeats an item before it, which is in the same module
and is of the same trait for the same type. -/
def TraitImpl.Repeats (i : TraitImpl) (module : NodeId) (before : List (List NodeId × Item)) :
    Prop :=
  ∃ outer earlier j, (module :: outer, earlier) ∈ before ∧ earlier.kind = .traitImpl j ∧
    i.SameHeader j

namespace Crate

variable {c : Crate} {settings : Settings} {module : NodeId} {outer : List NodeId}
  {before after : List (List NodeId × Item)} {item : Item} {i : TraitImpl}

/-- The implementations of traits in a module have no parameters and are written plainly, and so
are the names that are declared in the module. -/
structure WritesPlainly (c : Crate) (module : NodeId) : Prop where
  impls : ∀ outer item i, (module :: outer, item) ∈ c.placedItems → item.kind = .traitImpl i →
    i.IsPlain
  names : ∀ outer item, (module :: outer, item) ∈ c.placedItems →
    ∀ name ∈ item.kind.names, isPlainName name.name

/-- The header of an implementation is attempted before its items. -/
theorem attempts_of_impl (settings : Settings) (hplaced : (module :: outer, item) ∈ c.placedItems)
    (hkind : item.kind = .traitImpl i) {projection : CanonicalPath}
    (hprojection : i.projection item.node.id = .ok projection) :
    ∃ path before after, c.attempts settings =
      before ++ (Place.ofModule path).projectionAttempt module item.node projection :: after := by
  obtain ⟨path, before, after, heq⟩ := c.attempts_of_placed settings hplaced
  obtain ⟨node, vis, kind⟩ := item
  cases hkind
  simp only [Item.attempts, ItemKind.attempts, hprojection] at heq
  rw [heq]
  refine ⟨path, before, ?_⟩
  split <;> exact ⟨_, List.append_assoc _ _ _⟩

theorem WellFormed.nodup_declaredIds (hwf : c.WellFormed) : (itemsDeclaredIds c.items).Nodup :=
  (List.nodup_append.mp (List.nodup_cons.mp hwf.nodup).2).1

/-- The text of a header is no name. -/
theorem not_sameText_of_isPlainName {name : String} (hname : isPlainName name)
    {key : CanonicalPath} (hlast : key.texts.getLast? = some name) (id : NodeId)
    (tr ty : CanonicalPath) : ¬key.SameText (.projection id tr ty) := by
  intro hsame
  change key.texts = [_] at hsame
  rw [hsame, List.getLast?_singleton, Option.some_inj] at hlast
  have hbracket := (isWord_of_isPlainName hname).2 '<' (by simp [← hlast])
  exact absurd hbracket (by decide)

/-- In a module that is written plainly, an attempt for the header of an implementation is made by
an implementation of the same trait for the same type. -/
theorem isOf_of_sameText (hplain : c.WritesPlainly module) (hi : i.IsPlain) {id : NodeId}
    {projection : CanonicalPath} (hprojection : i.projection id = .ok projection) {b : Attempt}
    {maker : Item} (hmaker : (module :: outer, maker) ∈ c.placedItems) (hof : b.IsOf maker)
    (hkey : b.key.SameText projection) :
    b.id = maker.node.id ∧ ∃ j, maker.kind = .traitImpl j ∧ i.SameHeader j := by
  cases hof with
  | name hmem hlast =>
    obtain ⟨ty, tr, heq, -⟩ := hi.exists_projection id
    cases hprojection.symm.trans heq
    exact (not_sameText_of_isPlainName (hplain.names _ _ hmaker _ hmem) hlast id tr ty hkey).elim
  | @header j projection' hkind hprojection' hkey' hid =>
    have hj := hplain.impls _ _ _ hmaker hkind
    exact ⟨hid, j, hkind, (hi.sameText_iff hj hprojection hprojection').mp (hkey.symm.trans hkey')⟩

/-- Where an implementation stands among the items and among the attempts: the items `before` come
before it, and the attempts `l` are made before `a`, which is about its header. -/
structure Stands (c : Crate) (settings : Settings) (module : NodeId)
    (before : List (List NodeId × Item)) (item : Item) (i : TraitImpl) (l : List Attempt)
    (a : Attempt) : Prop where
  placed : ∃ outer after, c.placedItems = before ++ (module :: outer, item) :: after
  attempted : ∃ l', c.attempts settings = l ++ a :: l'
  isPlain : i.IsPlain
  module : a.module = module
  space : a.space = .name
  id : a.id = item.node.id
  span : a.span = item.node.span
  key : ∃ projection, i.projection item.node.id = .ok projection ∧ a.key.SameText projection

theorem exists_stands (settings : Settings) (hplain : c.WritesPlainly module)
    (hplaced : c.placedItems = before ++ (module :: outer, item) :: after)
    (hkind : item.kind = .traitImpl i) : ∃ l a, c.Stands settings module before item i l a := by
  have hmem : (module :: outer, item) ∈ c.placedItems :=
    hplaced ▸ List.mem_append_right _ List.mem_cons_self
  have hi := hplain.impls _ _ _ hmem hkind
  obtain ⟨ty, tr, hprojection, -⟩ := hi.exists_projection item.node.id
  obtain ⟨path, l, l', heq⟩ := c.attempts_of_impl settings hmem hkind hprojection
  exact ⟨l, _, ⟨outer, after, hplaced⟩, ⟨l', heq⟩, hi, rfl, rfl, rfl, rfl, _, hprojection,
    by simp [Place.projectionAttempt, Place.ofModule, CanonicalPath.SameText]⟩

namespace Stands

variable {l : List Attempt} {a : Attempt}
  (h : c.Stands settings module before item i l a) (hwf : c.WellFormed)

include h

theorem mem_attempts : a ∈ c.attempts settings := by
  obtain ⟨l', hattempts⟩ := h.attempted
  exact hattempts ▸ List.mem_append_right _ List.mem_cons_self

include hwf

/-- What comes before an implementation is attempted before it, and nothing else is. -/
theorem mem_iff {b : Attempt} (hb : b ∈ c.attempts settings) {modules : List NodeId} {maker : Item}
    (hmaker : (modules, maker) ∈ c.placedItems) (hid : b.id = maker.node.id) :
    b ∈ l ↔ (modules, maker) ∈ before := by
  obtain ⟨outer, after, hplaced⟩ := h.placed
  obtain ⟨l', hattempts⟩ := h.attempted
  have hplacedIds : List.Sublist (c.placedItems.map (·.2.node.id)) (itemsDeclaredIds c.items) :=
    itemsPlaced_ids c.items _
  have hattemptIds : List.Sublist ((c.attempts settings).map Attempt.id)
      (itemsDeclaredIds c.items) := itemsAttempts_ids c.items
  rw [hplaced] at hplacedIds hmaker
  rw [hattempts] at hattemptIds hb
  exact ⟨fun hmem => mem_before_of_sublist hwf.nodup_declaredIds hattemptIds hplacedIds h.id hmem
      hmaker hid,
    fun hmem => mem_before_of_sublist hwf.nodup_declaredIds hplacedIds hattemptIds h.id.symm hmem
      hb hid.symm⟩

theorem mem_accepted_iff :
    a ∈ accepted (c.attempts settings) ↔ a.earlier? l = none := by
  obtain ⟨l', hattempts⟩ := h.attempted
  have hnodup := (List.nodup_cons.mp (c.nested hwf settings).nodup).2
  rw [hattempts] at hnodup ⊢
  exact NameResolution.mem_accepted_iff hnodup

variable (hplain : c.WritesPlainly module)

include hplain

/-- Whatever has taken the header is an earlier implementation of the same trait for the same
type. -/
theorem repeats_of_earlier {first : Attempt} (hfirst : a.earlier? l = some first) :
    i.Repeats module before := by
  obtain ⟨hmodule, -, hkey⟩ := isFor_of_firstFor hfirst
  obtain ⟨l', hattempts⟩ := h.attempted
  obtain ⟨projection, hprojection, hown⟩ := h.key
  have hmem := mem_of_firstFor hfirst
  have hin : first ∈ c.attempts settings := hattempts ▸ List.mem_append_left _ hmem
  obtain ⟨around, maker, hmaker, hof⟩ := exists_isOf hin
  rw [hmodule, h.module] at hmaker
  obtain ⟨hid, j, hkind, hsame⟩ := isOf_of_sameText hplain h.isPlain hprojection hmaker hof
    (hkey.trans hown)
  exact ⟨around, maker, j, (h.mem_iff hwf hin hmaker hid).mp hmem, hkind, hsame⟩

/-- An earlier implementation of the same trait for the same type has attempted the header. -/
theorem earlier_of_repeats (hrepeats : i.Repeats module before) : a.earlier? l ≠ none := by
  obtain ⟨around, earlier, j, hmem, hkind, hsame⟩ := hrepeats
  obtain ⟨outer, after, hplaced⟩ := h.placed
  obtain ⟨projection, hprojection, hown⟩ := h.key
  have hmaker : (module :: around, earlier) ∈ c.placedItems :=
    hplaced ▸ List.mem_append_left _ hmem
  obtain ⟨before', after', hplaced'⟩ := List.append_of_mem hmaker
  obtain ⟨l', b, hb⟩ := exists_stands settings hplain hplaced' hkind
  obtain ⟨projection', hprojection', hother⟩ := hb.key
  have htext := (h.isPlain.sameText_iff hb.isPlain hprojection hprojection').mpr hsame
  have hfor : b.isFor a.module a.space a.key = true :=
    Attempt.isFor_iff.mpr ⟨hb.module.trans h.module.symm, hb.space.trans h.space.symm,
      (hother.trans htext.symm).trans hown.symm⟩
  intro hfree
  exact List.find?_eq_none.mp hfree b ((h.mem_iff hwf hb.mem_attempts hmaker hb.id).mpr hmem) hfor

theorem earlier_iff : a.earlier? l = none ↔ ¬i.Repeats module before := by
  refine ⟨fun hfree hrepeats => h.earlier_of_repeats hwf hplain hrepeats hfree, fun hnew => ?_⟩
  exact Option.eq_none_iff_forall_ne_some.mpr fun first hfirst =>
    hnew (h.repeats_of_earlier hwf hplain hfirst)

end Stands

end Crate

/-! ### The crate -/

/-- A module binds an implementation to its header, and the implementation has a canonical path. -/
def Session.BindsImpl (s : Session) (module : NodeId) (item : Item) : Prop :=
  (∃ key b, (s.scope .name).bindingIn? module key = some b ∧ b.id = item.node.id) ∧
    (s.tables.paths.get? item.node.id).isSome

/-- An implementation is refused: nothing in its module is bound to it, and it is reported as a
duplicate. -/
def Session.RefusesImpl (s : Session) (module : NodeId) (item : Item) : Prop :=
  (∀ space key b, (s.scope space).bindingIn? module key = some b → b.id ≠ item.node.id) ∧
    ∃ name previous, .duplicateDefinition name item.node.span previous ∈ s.errors.reported

theorem Session.BindsImpl.not_refuses {s : Session} {module : NodeId} {item : Item}
    (h : s.BindsImpl module item) : ¬s.RefusesImpl module item := by
  obtain ⟨⟨key, b, hb, hid⟩, -⟩ := h
  exact fun hrefuses => hrefuses.1 .name key b hb hid

namespace Crate

variable {c : Crate} {settings : Settings} {s : Session} {module : NodeId}
  {before : List (List NodeId × Item)} {item : Item} {i : TraitImpl} {l : List Attempt}
  {a : Attempt}

namespace SecondPass

variable (hwf : c.WellFormed) (hs : c.SecondPass (c.registered settings) s)
  (h : c.Stands settings module before item i l a)

include hwf hs h

/-- An implementation whose header is free is bound to it. -/
theorem bindsImpl (hfree : a.earlier? l = none) : s.BindsImpl module item := by
  have ha := (h.mem_accepted_iff hwf).mpr hfree
  have hmodule := List.mem_cons.mpr (itemsAttempts_module c.items a h.mem_attempts)
  have hpath := hs.paths _ _ ((c.firstPass hwf settings).paths a h.mem_attempts (Or.inr ha))
  rw [h.id] at hpath
  refine ⟨⟨a.key, a.binding, ?_, h.id⟩, hpath ▸ rfl⟩
  rw [← h.module, hs.bindingIn?_eq_some_iff hwf hmodule]
  exact ⟨a, ha, ⟨rfl, h.space, CanonicalPath.sameText_refl _⟩, rfl⟩

/-- An implementation whose header is taken is refused. -/
theorem refusesImpl {first : Attempt} (htaken : a.earlier? l = some first) :
    s.RefusesImpl module item := by
  have hmodule := List.mem_cons.mpr (itemsAttempts_module c.items a h.mem_attempts)
  obtain ⟨l', hattempts⟩ := h.attempted
  constructor
  · intro space key b hb hid
    rw [← h.module, hs.bindingIn?_eq_some_iff hwf hmodule] at hb
    obtain ⟨a', ha', -, rfl⟩ := hb
    cases (c.nested hwf settings).eq_of_id (mem_of_mem_accepted ha') h.mem_attempts
      (hid.trans h.id.symm)
    rw [(h.mem_accepted_iff hwf).mp ha'] at htaken
    cases htaken
  · have hreport : .duplicateDefinition a.key.text a.span first.span ∈
        (c.registered settings).errors.reported.filter ResolveError.isDuplicate := by
      rw [(c.firstPass hwf settings).duplicates, hattempts]
      exact mem_duplicateReports htaken
    rw [hs.reported, ← h.span]
    exact ⟨_, _, List.mem_append_left _ (List.mem_of_mem_filter hreport)⟩

end SecondPass

/-- **Implementations of traits collide exactly if they look alike.** A well-formed crate is
resolved. Let the implementations of traits in a module have no generic parameters, and let them be
written plainly, as well as the names that are declared in the module. An implementation in the
module is refused as a duplicate exactly if there is an earlier one in the module whose type has the
same shape and whose trait has, and otherwise it is bound. -/
theorem impls_collide_iff (hwf : c.WellFormed) (settings : Settings) :
    ∃ s, Runs (c.run settings) (.start c settings) () s ∧ c.resolve settings = .ok s.finish ∧
      ∀ module, c.WritesPlainly module → ∀ before outer item after i,
        c.placedItems = before ++ (module :: outer, item) :: after → item.kind = .traitImpl i →
          (s.RefusesImpl module item ↔ i.Repeats module before) ∧
          (s.BindsImpl module item ↔ ¬i.Repeats module before) := by
  obtain ⟨s₂, s, hs, hrun, htables, hscopes, -, hreported⟩ := c.exists_run hwf settings
  refine ⟨s, hrun, resolve_of_runs hrun, fun module hplain before outer item after i hplaced
    hkind => ?_⟩
  obtain ⟨l, a, h⟩ := exists_stands settings hplain hplaced hkind
  cases hearlier : a.earlier? l with
  | none =>
    have hnew := (h.earlier_iff hwf hplain).mp hearlier
    have hbinds : s.BindsImpl module item := by
      unfold Session.BindsImpl
      simp only [hscopes, htables]
      exact hs.bindsImpl hwf h hearlier
    exact ⟨iff_of_false hbinds.not_refuses hnew, iff_of_true hbinds hnew⟩
  | some first =>
    have hrepeats := h.repeats_of_earlier hwf hplain hearlier
    obtain ⟨hunbound, name, previous, hreport⟩ := hs.refusesImpl hwf h hearlier
    have hrefuses : s.RefusesImpl module item := by
      refine ⟨fun space key b hb => hunbound space key b (hscopes space ▸ hb), name, previous, ?_⟩
      rw [hreported]
      exact List.mem_append_left _ hreport
    exact ⟨iff_of_true hrefuses hrepeats,
      iff_of_false (fun hbinds => hbinds.not_refuses hrefuses) (not_not.mpr hrepeats)⟩

/-- The bound `B`. -/
def boundOf (id offset : Nat) : TraitBound :=
  ⟨⟨⟨id⟩, ⟨offset, 1⟩⟩, plainPath (id + 1) (offset + 2) "B"⟩

/-- An implementation of the trait `Tr` for a type. -/
def implFor (id offset : Nat) (ty : Ty) : TraitImpl :=
  ⟨.none, plainPath (id + 1) (offset + 2) "Tr", ty, []⟩

/-- The trait object `dyn B` with its only bound. -/
def objectOfBound : Ty := .dynOne ⟨⟨6⟩, ⟨16, 1⟩⟩ (boundOf 7 18)

/-- The trait object `dyn B` with a list of bounds. -/
def objectOfBounds : Ty := .dyn ⟨⟨13⟩, ⟨36, 1⟩⟩ [.trait (boundOf 14 38)]

/-- The reference `&dyn B`. -/
def referenceToObject : Ty :=
  .reference ⟨⟨20⟩, ⟨56, 1⟩⟩ false (.dynOne ⟨⟨21⟩, ⟨58, 1⟩⟩ (boundOf 22 60))

/-- Implementations of `Tr` for `dyn B`, for `dyn B` again and for `&dyn B`. -/
def withTraitObjects : Crate where
  node := ⟨⟨0⟩, ⟨0, 80⟩⟩
  items :=
    [⟨⟨⟨1⟩, ⟨2, 1⟩⟩, .ownModule, .trait ⟨⟨"Tr", ⟨4, 1⟩⟩, .none, [], []⟩⟩,
      ⟨⟨⟨2⟩, ⟨6, 1⟩⟩, .ownModule, .trait ⟨⟨"B", ⟨8, 1⟩⟩, .none, [], []⟩⟩,
      ⟨⟨⟨3⟩, ⟨10, 1⟩⟩, .ownModule, .traitImpl (implFor 3 10 objectOfBound)⟩,
      ⟨⟨⟨10⟩, ⟨30, 1⟩⟩, .ownModule, .traitImpl (implFor 10 30 objectOfBounds)⟩,
      ⟨⟨⟨17⟩, ⟨50, 1⟩⟩, .ownModule, .traitImpl (implFor 17 50 referenceToObject)⟩]
  idBound := ⟨25⟩

/-- All of the items are in the crate root. -/
theorem mem_take_withTraitObjects {modules : List NodeId} {item : Item} {n : Nat}
    (h : (modules, item) ∈ withTraitObjects.placedItems.take n) :
    item ∈ withTraitObjects.items.take n := by
  have heq : withTraitObjects.placedItems = withTraitObjects.items.map ([⟨0⟩], ·) := rfl
  rw [heq, ← List.map_take] at h
  obtain ⟨item', hitem, heq⟩ := List.mem_map.mp h
  exact (Prod.mk.inj heq).2 ▸ hitem

theorem writesPlainly_withTraitObjects : withTraitObjects.WritesPlainly ⟨0⟩ where
  impls outer item i hplaced hkind := by
    have hitem := mem_take_withTraitObjects (n := 5) hplaced
    simp only [withTraitObjects, List.take_succ_cons, List.take_zero, List.mem_cons,
      List.not_mem_nil, or_false] at hitem
    rcases hitem with rfl | rfl | rfl | rfl | rfl <;> cases hkind <;> exact ⟨rfl, rfl, rfl⟩
  names outer item hplaced := by
    have hitem := mem_take_withTraitObjects (n := 5) hplaced
    simp only [withTraitObjects, List.take_succ_cons, List.take_zero, List.mem_cons,
      List.not_mem_nil, or_false] at hitem
    rcases hitem with rfl | rfl | rfl | rfl | rfl <;> simp [ItemKind.names, implFor] <;> rfl

/-- The second implementation is refused, and the third one is not. -/
theorem impls_collide_withTraitObjects :
    withTraitObjects.WellFormed ∧ withTraitObjects.WritesPlainly ⟨0⟩ ∧
      ∃ s : Session, withTraitObjects.resolve {} = .ok s.finish ∧
        s.RefusesImpl ⟨0⟩
          ⟨⟨⟨10⟩, ⟨30, 1⟩⟩, .ownModule, .traitImpl (implFor 10 30 objectOfBounds)⟩ ∧
        s.BindsImpl ⟨0⟩
          ⟨⟨⟨17⟩, ⟨50, 1⟩⟩, .ownModule, .traitImpl (implFor 17 50 referenceToObject)⟩ := by
  have hwf : withTraitObjects.WellFormed := by decide
  obtain ⟨s, -, hresolve, himpls⟩ := impls_collide_iff hwf {}
  have hall := himpls ⟨0⟩ writesPlainly_withTraitObjects
  refine ⟨hwf, writesPlainly_withTraitObjects, s, hresolve,
    (hall (withTraitObjects.placedItems.take 3) [] _ _ _ rfl rfl).1.mpr ?_,
    (hall (withTraitObjects.placedItems.take 4) [] _ _ _ rfl rfl).2.mpr ?_⟩
  · exact ⟨[], _, _, List.mem_of_getElem? (i := 2) rfl, rfl, rfl, rfl⟩
  · rintro ⟨outer, earlier, j, hmem, hkind, hself, -⟩
    have hitem := mem_take_withTraitObjects hmem
    simp only [withTraitObjects, List.take_succ_cons, List.take_zero, List.mem_cons,
      List.not_mem_nil, or_false] at hitem
    rcases hitem with rfl | rfl | rfl | rfl <;> cases hkind <;> cases hself

end Crate

end NameResolution
