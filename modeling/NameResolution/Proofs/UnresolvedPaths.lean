import NameResolution.Proofs.Completion
import NameResolution.Proofs.Lexical.PathSteps

/-!
# NameResolution.Proofs.UnresolvedPaths

**Why a path may be left unresolved although nothing is reported**
(`Crate.paths_accounted`). Every path of a crate is either resolved, or without segments,
or left to type checking because one of the segments before the last has no children to
name, or it stands behind a gate at which the second pass has turned back. What has been
resolved shows which gates these are: the type in the head of a qualified path may have no
form to go on with (`Ty.hasForm`), and the arguments of a keyword are never looked at.
-/

namespace NameResolution

/-! ### Types that a qualified path can go on from -/

/-- Whether a type stands for a declaration. -/
def Ty.namesOne (t : Tables) : Ty → Bool
  | .path _ p => (t.resolved? p.node.id).isSome
  | .dynOne _ bound => (t.resolved? bound.path.node.id).isSome
  | .tuple _ [] | .inferred _ | .never _ => true
  | .array _ elem _ => elem.namesOne t
  | .slice _ elem => elem.namesOne t
  | .reference _ _ inner => inner.namesOne t
  | .pointer _ _ inner => inner.namesOne t
  | .qualified _ _ | .tuple _ (_ :: _) | .dyn _ _ | .fnPointer _ _ _ => false

mutual

/-- Whether a type has a canonical form, be it that of a declaration. -/
def Ty.hasForm (t : Tables) : Ty → Bool
  | .path _ p => (t.resolved? p.node.id).isSome
  | .dynOne _ bound => (t.resolved? bound.path.node.id).isSome
  | .tuple _ [] | .inferred _ | .never _ => true
  | .qualified _ p => p.hasForm t
  | .array _ elem _ => elem.namesOne t
  | .slice _ elem => elem.hasForm t
  | .reference _ _ inner => inner.hasForm t
  | .pointer _ _ inner => inner.hasForm t
  | .tuple _ (_ :: _) | .dyn _ _ | .fnPointer _ _ _ => false

def QualifiedPath.hasForm (t : Tables) : QualifiedPath → Bool
  | ⟨_, head, _, _⟩ => head.hasForm t

/-- Whether the head of a qualified path has a canonical form. -/
def Qualifier.hasForm (t : Tables) : Qualifier → Bool
  | ⟨_, selfTy, none⟩ => selfTy.hasForm t
  | ⟨_, selfTy, some asTrait⟩ => selfTy.hasForm t && (t.resolved? asTrait.node.id).isSome

end

/-! ### Reasons -/

/-- The segment was resolved to something that has no children to name. -/
def PathSegment.Defers (t : Tables) (seg : PathSegment) : Prop :=
  ∃ decl, t.resolved? seg.node.id = some decl ∧ t.isContainer decl = false

/-- The second pass turns back at the gate. -/
def Gate.Closed (t : Tables) : Gate → Prop
  | .args before seg => (∀ name, seg.ident ≠ .ident name) ∨ ∃ s ∈ before, s.Defers t
  | .asTrait selfTy => selfTy.hasForm t = false
  | .tail head => head.hasForm t = false

/-- A path behind some gates is resolved, or there is a reason why it is not. -/
inductive Path.Accounted (t : Tables) (p : Path) (gates : List Gate) : Prop
  | resolved {decl : NodeId} (h : t.resolved? p.node.id = some decl)
  | empty (h : p.segments = [])
  | deferred {seg : PathSegment} (hseg : seg ∈ p.segments.dropLast) (h : seg.Defers t)
  | behind {gate : Gate} (hgate : gate ∈ gates) (h : gate.Closed t)

/-- If the site is a path, it is accounted for. -/
def Site.Accounted (t : Tables) : Site → Prop
  | .path p gates => p.Accounted t gates
  | .segment _ | .type _ => True

namespace Site.Accounted

variable {t : Tables} {s : Site} {gate : Gate}

/-- Another gate only adds a reason. -/
theorem behind (h : s.Accounted t) (gate : Gate) : (s.behind gate).Accounted t := by
  cases s with
  | path p gates =>
      cases h with
      | resolved h => exact Path.Accounted.resolved h
      | empty h => exact Path.Accounted.empty h
      | deferred hseg h => exact Path.Accounted.deferred hseg h
      | behind hgate h => exact Path.Accounted.behind (List.mem_cons_of_mem _ hgate) h
  | segment seg => trivial
  | type use => trivial

theorem of_closed (h : gate.Closed t) (s : Site) : (s.behind gate).Accounted t := by
  cases s with
  | path p gates => exact Path.Accounted.behind List.mem_cons_self h
  | segment seg => trivial
  | type use => trivial

end Site.Accounted

/-- All of the sites are accounted for. -/
def AllAccounted (t : Tables) (l : List Site) : Prop := ∀ s ∈ l, s.Accounted t

namespace AllAccounted

variable {t : Tables} {l l₁ l₂ : List Site} {gate : Gate}

theorem nil : AllAccounted t [] := fun _ hs => nomatch hs

theorem of_placed {modules : List NodeId}
    (h : ∀ x ∈ l.map (PlacedSite.mk modules), x.site.Accounted t) : AllAccounted t l :=
  fun s hs => h ⟨modules, s⟩ (List.mem_map_of_mem hs)

theorem append (h₁ : AllAccounted t l₁) (h₂ : AllAccounted t l₂) : AllAccounted t (l₁ ++ l₂) :=
  List.forall_mem_append.mpr ⟨h₁, h₂⟩

theorem behind (h : AllAccounted t l) (gate : Gate) : AllAccounted t (l.map (Site.behind gate)) :=
  List.forall_mem_map.mpr fun s hs => (h s hs).behind gate

theorem of_closed (h : gate.Closed t) (l : List Site) : AllAccounted t (l.map (Site.behind gate)) :=
  List.forall_mem_map.mpr fun s _ => .of_closed h s

/-- The arguments of a segment come before the segment itself. -/
theorem segment {seg : PathSegment}
    (h : AllAccounted t ((optionalSites GenericArgs.sites seg.generics).map (Site.behind gate))) :
    AllAccounted t (seg.sites gate) := by
  rw [seg.sites_eq]
  exact h.append fun s hs => by rw [List.mem_singleton.mp hs]; trivial

theorem closedSegment (h : gate.Closed t) (seg : PathSegment) : AllAccounted t (seg.sites gate) :=
  segment (of_closed h _)

theorem closedAppended (h : gate.Closed t) (segments : List PathSegment) :
    AllAccounted t (appendedSites gate segments) := by
  induction segments with
  | nil => exact nil
  | cons seg rest ih => exact (closedSegment h seg).append ih

/-- All that comes after a segment without children is left to type checking. -/
theorem closedSegments : ∀ (segments : List PathSegment) {before : List PathSegment},
    (∃ s ∈ before, s.Defers t) → AllAccounted t (segmentsSites before segments)
  | [], _, _ => nil
  | seg :: rest, before, h => by
      have hclosed : (Gate.args before seg).Closed t := Or.inr h
      obtain ⟨s, hs, hdefers⟩ := h
      exact (closedSegment hclosed seg).append
        (closedSegments rest ⟨s, List.mem_append_left _ hs, hdefers⟩)

end AllAccounted

section Forms

variable {base : Session} {t : Tables}

/-- A segment that is appended gives a canonical path unless it could not be read. -/
theorem PathSegment.readAppended_isSome {env : Env} {path : CanonicalPath} {seg : PathSegment}
    (h : Entered base t (seg.readAppended base env path).findings) :
    (seg.readAppended base env path).value.isSome := by
  rw [readAppended_eq] at h ⊢
  split at h
  · exact absurd (List.mem_singleton_self _) h.no_error
  · next hident =>
    rw [if_neg hident]
    rfl

theorem readAppendedSegments_isSome {env : Env} : ∀ (segments : List PathSegment)
    {path : CanonicalPath}, Entered base t (readAppendedSegments base env path segments).findings →
      (readAppendedSegments base env path segments).value.isSome
  | [], _, _ => rfl
  | seg :: rest, path, h => by
      rw [readAppendedSegments] at h ⊢
      obtain ⟨path', hpath⟩ := Option.isSome_iff_exists.mp (seg.readAppended_isSome h.left)
      rw [Reading.findings_bind, hpath] at h
      rw [Reading.value_bind, hpath]
      exact readAppendedSegments_isSome rest h.right

theorem Entered.path_isSome {env : Env} {prefer : Namespace} {p : Path}
    (h : Entered base t (p.read base env prefer).findings) :
    (p.read base env prefer).value.isSome = (t.resolved? p.node.id).isSome := by
  rw [h.path, Option.isSome_map]

/-- What a type is found to stand for. -/
structure Ty.Forms (t : Tables) (ty : Ty) (m : TypeMeaning) : Prop where
  decl : m.decl.isSome = ty.namesOne t
  form : m.headPath.isSome = ty.hasForm t

/-- A type around another has a form exactly if that one does. -/
theorem Ty.Forms.wrapped {ty : Ty} {m : TypeMeaning} (h : ty.Forms t m) (outer : Ty) (id : NodeId)
    (wrap : String → String) (hnames : outer.namesOne t = ty.namesOne t)
    (hform : outer.hasForm t = ty.hasForm t) : outer.Forms t (m.wrapped id wrap) where
  decl := h.decl.trans hnames.symm
  form := by
    rw [hform, ← h.form]
    cases hpath : m.path <;> simp [TypeMeaning.wrapped, TypeMeaning.headPath, hpath]

mutual

theorem Ty.forms_read {env : Env} : ∀ ty : Ty, Entered base t (ty.read base env).findings →
    ty.Forms t (ty.read base env).value
  | .path _ p, h => by
      rw [Ty.read] at h ⊢
      have hpath := h.left.path_isSome
      rw [Reading.value_bind]
      cases hvalue : (p.read base env .type).value <;> rw [hvalue] at hpath <;>
        exact ⟨hpath, hpath⟩
  | .qualified _ p, h => by
      rw [Ty.read] at h ⊢
      refine ⟨rfl, ?_⟩
      rw [Reading.value_bind]
      simpa [TypeMeaning.headPath, Ty.hasForm] using p.hasForm_read h.left
  | .tuple _ [], _ | .inferred _, _ | .never _, _ => ⟨rfl, rfl⟩
  | .tuple _ (_ :: _), _ => ⟨rfl, rfl⟩
  | .dyn _ _, _ => ⟨rfl, rfl⟩
  | .fnPointer _ _ none, _ => ⟨rfl, rfl⟩
  | .fnPointer _ _ (some _), _ => ⟨rfl, rfl⟩
  | .array _ elem size, h => by
      rw [Ty.read] at h ⊢
      have hdecl := (elem.forms_read h.left).decl
      refine ⟨hdecl, ?_⟩
      simpa [TypeMeaning.headPath, Ty.hasForm] using hdecl
  | .slice n elem, h => by
      rw [Ty.read] at h ⊢
      rw [Reading.value_bind, Reading.value_pure]
      exact (elem.forms_read h.left).wrapped (.slice n elem) n.id _ rfl rfl
  | .reference n mutable inner, h => by
      rw [Ty.read] at h ⊢
      rw [Reading.value_bind, Reading.value_pure]
      exact (inner.forms_read h.left).wrapped (.reference n mutable inner) n.id _ rfl rfl
  | .pointer n mutable inner, h => by
      rw [Ty.read] at h ⊢
      rw [Reading.value_bind, Reading.value_pure]
      exact (inner.forms_read h.left).wrapped (.pointer n mutable inner) n.id _ rfl rfl
  | .dynOne _ ⟨_, path⟩, h => by
      rw [Ty.read, TraitBound.read] at h ⊢
      have hpath := h.left.path_isSome
      refine ⟨hpath, ?_⟩
      simpa [TypeMeaning.headPath, Ty.hasForm] using hpath

theorem QualifiedPath.hasForm_read {env : Env} : ∀ p : QualifiedPath,
    Entered base t (p.read base env).findings → (p.read base env).value.isSome = p.hasForm t
  | ⟨_, head, associated, rest⟩, h => by
      rw [QualifiedPath.read] at h ⊢
      have hhead := head.hasForm_read h.left
      rw [Reading.value_bind]
      rw [Reading.findings_bind] at h
      have hrest := h.right
      cases hvalue : (head.read base env).value with
      | none =>
          rw [hvalue] at hhead
          exact hhead
      | some path =>
          rw [hvalue] at hhead hrest
          obtain ⟨path₁, hpath₁⟩ := Option.isSome_iff_exists.mp
            (associated.readAppended_isSome hrest.left)
          rw [Reading.findings_bind, hpath₁] at hrest
          obtain ⟨path₂, hpath₂⟩ := Option.isSome_iff_exists.mp
            (readAppendedSegments_isSome rest hrest.right.left)
          simp only [Reading.value_bind, hpath₁, hpath₂]
          exact hhead

theorem Qualifier.hasForm_read {env : Env} : ∀ q : Qualifier,
    Entered base t (q.read base env).findings → (q.read base env).value.isSome = q.hasForm t
  | ⟨node, selfTy, asTrait⟩, h => by
      rw [Qualifier.read] at h ⊢
      have hself := (selfTy.forms_read h.left).form
      rw [Reading.value_bind]
      rw [Reading.findings_bind] at h
      have hrest := h.right
      cases hvalue : (selfTy.read base env).value.headPath with
      | none =>
          rw [hvalue] at hself
          cases asTrait <;> simp [Qualifier.hasForm, ← hself]
      | some path =>
          rw [hvalue] at hself hrest
          cases asTrait with
          | none => exact hself
          | some traitPath =>
              have htrait := hrest.left.path_isSome
              simp only [Qualifier.hasForm, ← hself, ← htrait, Reading.value_bind]
              cases (traitPath.read base env .type).value <;> rfl

end

end Forms

/-! ### Paths -/

section Paths

variable {base : Session} {t : Tables} {env : Env}

/-- The segment that a path has come to last was resolved to what has been reached. -/
def Spot.Follows (t : Tables) (spot : Spot) (before : List PathSegment) : Prop :=
  ∀ m, spot.reached = some m →
    ∃ seg ∈ before, t.resolved? seg.node.id = some m.decl

/-- The arguments of a segment are accounted for once they have been read. -/
def ArgsAccounted (base : Session) (t : Tables) (env : Env) (seg : PathSegment) : Prop :=
  ∀ args, seg.generics = some args →
    Entered base t (args.read base env).findings → AllAccounted t args.sites

theorem ArgsAccounted.of_read {seg : PathSegment} (hargs : ArgsAccounted base t env seg)
    (h : Entered base t (readGenericArgs base env seg.generics).findings) (gate : Gate) :
    AllAccounted t (seg.sites gate) := by
  refine AllAccounted.segment (AllAccounted.behind ?_ gate)
  cases hgenerics : seg.generics with
  | none => exact .nil
  | some args =>
      rw [hgenerics] at h
      exact hargs args hgenerics h

/-- Following the segments of a path accounts for what is in their arguments, and if it leads to
nothing, that is because the path is left to type checking. -/
structure Walked (t : Tables) (reached : Option Meaning) (before segments : List PathSegment)
    (r : Reading (Option Meaning)) : Prop where
  sites : AllAccounted t (segmentsSites before segments)
  left : r.value = none →
    reached = none ∧ segments = [] ∨ ∃ seg ∈ (before ++ segments).dropLast, seg.Defers t

variable {prefer : Namespace} {single : Bool} {seg : PathSegment} {rest before : List PathSegment}

/-- Once a segment has been resolved, the path goes on from there. -/
theorem walked_steps {r : Reading (Option Spot)} (hsteps : seg.Steps base env r)
    (hsite : AllAccounted t (seg.sites (.args before seg)))
    (h : Entered base t (r >>= readOnward base env prefer single rest).findings)
    (hnext : ∀ spot : Spot, spot.reached.isSome → spot.Follows t (before ++ [seg]) →
      Entered base t (readSegments base env prefer single spot rest).findings →
      Walked t spot.reached (before ++ [seg]) rest (readSegments base env prefer single spot rest))
    (reached : Option Meaning) :
    Walked t reached before (seg :: rest) (r >>= readOnward base env prefer single rest) := by
  cases hsteps with
  | stop e _ => exact absurd List.mem_cons_self h.no_error
  | onto space m scope hscope =>
      have hresolved : t.resolved? seg.node.id = some m.decl :=
        h.found _ List.mem_cons_self _ _ rfl
      have hfollows : Spot.Follows t ⟨scope, some m⟩ (before ++ [seg]) := fun m' hm' => by
        cases hm'
        exact ⟨seg, by simp, hresolved⟩
      have hwalked := hnext ⟨scope, some m⟩ rfl hfollows h.right
      refine ⟨hsite.append hwalked.sites, fun hnone => Or.inr ?_⟩
      rcases hwalked.left hnone with ⟨hreached, -⟩ | hdefers
      · cases hreached
      · rwa [List.append_assoc] at hdefers

theorem walked (prefer : Namespace) (single : Bool) :
    ∀ (segments : List PathSegment) (spot : Spot) (before : List PathSegment),
      (∀ seg ∈ segments, ArgsAccounted base t env seg) → spot.Follows t before →
      Entered base t (readSegments base env prefer single spot segments).findings →
      Walked t spot.reached before segments (readSegments base env prefer single spot segments)
  | [], spot, before, _, _, _ => ⟨.nil, fun hnone => Or.inl ⟨hnone, rfl⟩⟩
  | seg :: rest, spot, before, hargs, hfollows, h => by
      obtain ⟨hseg, hrest⟩ := List.forall_mem_cons.mp hargs
      have hnext (spot : Spot) (_ : spot.reached.isSome) :=
        walked prefer single rest spot (before ++ [seg]) hrest
      rw [readSegments_cons] at h ⊢
      have hcomes := seg.comes base env prefer single spot rest.isEmpty
      generalize seg.read base env prefer single spot rest.isEmpty = r at hcomes h ⊢
      cases hcomes with
      | deferred hdeferred =>
          have hbefore : ∃ s ∈ before, s.Defers t := by
            unfold Spot.isDeferred at hdeferred
            split at hdeferred
            · cases hdeferred
            · next m hreached =>
              obtain ⟨s, hs, hresolved⟩ := hfollows m hreached
              refine ⟨s, hs, m.decl, hresolved, ?_⟩
              rw [h.containers]
              simpa using hdeferred
          refine ⟨.closedSegments (seg :: rest) hbefore, fun _ => Or.inr ?_⟩
          obtain ⟨s, hs, hdefers⟩ := hbefore
          refine ⟨s, ?_, hdefers⟩
          rw [List.dropLast_append_of_ne_nil (List.cons_ne_nil _ _)]
          exact List.mem_append_left _ hs
      | keyword hident hsteps =>
          have hclosed : (Gate.args before seg).Closed t := Or.inl hident
          exact walked_steps hsteps (.closedSegment hclosed seg) h hnext _
      | @name r name _ hsteps =>
          rw [Reading.findings_bind, Reading.findings_bind, List.append_assoc] at h
          have hwalked := walked_steps hsteps (ArgsAccounted.of_read hseg h.left _) h.right hnext
            spot.reached
          exact ⟨hwalked.sites, hwalked.left⟩

theorem accounted_path (p : Path) (hargs : ∀ seg ∈ p.segments, ArgsAccounted base t env seg)
    (h : Entered base t (p.read base env prefer).findings) : AllAccounted t p.sites := by
  obtain ⟨node, segments⟩ := p
  have hresolved := h.path
  rw [Path.read] at h hresolved
  replace h := h.left
  rw [Reading.value_bind] at hresolved
  -- It is enough to account for the arguments of the segments, and for the path.
  suffices hall : AllAccounted t (segmentsSites [] segments) ∧
      Path.Accounted t ⟨node, segments⟩ [] by
    rw [Path.sites]
    exact hall.1.append fun s hs => by
      rw [List.mem_singleton.mp hs]
      exact hall.2
  cases hreceiver : env.receiver? base prefer segments with
  | some found =>
      obtain ⟨seg, m⟩ := found
      unfold readWhole at hresolved
      rw [hreceiver] at hresolved
      obtain ⟨rfl, hself⟩ := env.receiver?_eq_some base hreceiver
      have hclosed : (Gate.args [] seg).Closed t := Or.inl fun name hident => by
        rw [hself] at hident
        cases hident
      exact ⟨(AllAccounted.closedSegment hclosed seg).append .nil, .resolved hresolved⟩
  | none =>
      have hwhole := readWhole_of_no_receiver base env node hreceiver
        (readSegments base env prefer (segments.length == 1) ⟨env.here base, none⟩ segments)
      have hwalked := walked prefer (segments.length == 1) segments ⟨env.here base, none⟩ [] hargs
        (fun m hm => nomatch hm) (h.mono hwhole.2)
      refine ⟨hwalked.sites, ?_⟩
      rw [hwhole.1] at hresolved
      cases hvalue : (readSegments base env prefer (segments.length == 1) ⟨env.here base, none⟩
          segments).value with
      | some m =>
          rw [hvalue] at hresolved
          exact .resolved hresolved
      | none =>
          rcases hwalked.left hvalue with ⟨-, hempty⟩ | ⟨seg, hseg, hdefers⟩
          · exact .empty hempty
          · exact .deferred hseg hdefers

theorem accounted_appended {gate : Gate} {path : CanonicalPath}
    (hargs : ArgsAccounted base t env seg)
    (h : Entered base t (seg.readAppended base env path).findings) :
    AllAccounted t (seg.sites gate) := by
  rw [PathSegment.readAppended_eq] at h
  split at h
  · exact absurd List.mem_cons_self h.no_error
  · exact hargs.of_read h.left gate

theorem accounted_appendedAll {gate : Gate} : ∀ (segments : List PathSegment)
    {path : CanonicalPath}, (∀ seg ∈ segments, ArgsAccounted base t env seg) →
      Entered base t (readAppendedSegments base env path segments).findings →
      AllAccounted t (appendedSites gate segments)
  | [], _, _, _ => .nil
  | seg :: rest, path, hargs, h => by
      obtain ⟨hseg, hrest⟩ := List.forall_mem_cons.mp hargs
      rw [readAppendedSegments] at h
      obtain ⟨path', hpath⟩ := Option.isSome_iff_exists.mp (seg.readAppended_isSome h.left)
      have hlater := h.right
      rw [hpath] at hlater
      exact (accounted_appended hseg h.left).append (accounted_appendedAll rest hrest hlater)

theorem accounted_head (q : Qualifier)
    (hself : Entered base t (q.selfTy.read base env).findings → AllAccounted t q.selfTy.sites)
    (htrait : ∀ asTrait, q.asTrait = some asTrait →
      Entered base t (asTrait.read base env .type).findings → AllAccounted t asTrait.sites)
    (h : Entered base t (q.read base env).findings) : AllAccounted t q.sites := by
  obtain ⟨node, selfTy, asTrait⟩ := q
  rw [Qualifier.read, Reading.findings_bind] at h
  have hform := (selfTy.forms_read h.left).form
  cases asTrait with
  | none => exact hself h.left
  | some traitPath =>
      refine (hself h.left).append ?_
      have hlater := h.right
      cases hvalue : (selfTy.read base env).value.headPath with
      | none =>
          rw [hvalue] at hform
          have hclosed : (Gate.asTrait selfTy).Closed t := hform.symm
          exact .of_closed hclosed _
      | some path =>
          rw [hvalue] at hlater
          exact (htrait traitPath rfl hlater.left).behind _

theorem accounted_qualified (p : QualifiedPath)
    (hhead : Entered base t (p.qualifier.read base env).findings →
      AllAccounted t p.qualifier.sites)
    (hargs : ∀ seg ∈ p.associated :: p.rest, ArgsAccounted base t env seg)
    (h : Entered base t (p.read base env).findings) : AllAccounted t p.sites := by
  obtain ⟨node, head, associated, rest⟩ := p
  obtain ⟨hassociated, hrest⟩ := List.forall_mem_cons.mp hargs
  rw [QualifiedPath.read, Reading.findings_bind] at h
  have hform := head.hasForm_read h.left
  refine AllAccounted.append (hhead h.left) ?_
  have hlater := h.right
  cases hvalue : (head.read base env).value with
  | none =>
      rw [hvalue] at hform
      have hclosed : (Gate.tail head).Closed t := hform.symm
      exact (AllAccounted.closedSegment hclosed _).append (.closedAppended hclosed rest)
  | some path =>
      rw [hvalue, Reading.findings_bind] at hlater
      obtain ⟨path', hpath⟩ :=
        Option.isSome_iff_exists.mp (associated.readAppended_isSome hlater.left)
      have htail := hlater.right
      rw [hpath] at htail
      exact (accounted_appended hassociated hlater.left).append
        (accounted_appendedAll rest hrest htail.left)

end Paths

/-- Whatever has been entered without an error accounts for the sites of the part it is about. -/
theorem Session.accounts (base : Session) (t : Tables) :
    Traversal base base [] fun {_} r _ l =>
      Entered base t r.findings → ∀ x ∈ l, x.site.Accounted t where
  pure _ _ := fun _ hx => nomatch hx
  bind h₁ h₂ h := List.forall_mem_append.mpr ⟨h₁ h.left, h₂ h.right⟩
  introduce _ _ _ _ _ _ := fun _ hx => nomatch hx
  builtin _ _ _ _ _ := fun x hx => by rw [List.mem_singleton.mp hx]; trivial
  path _ _ p _ hargs h := List.forall_mem_map.mpr <| accounted_path p
    (fun seg hseg args hgenerics h => .of_placed (hargs seg hseg args hgenerics h)) h
  qualified _ p _ hself htrait hargs h := List.forall_mem_map.mpr <| accounted_qualified p
    (accounted_head _ (fun h => .of_placed (hself h))
      fun asTrait heq h => .of_placed (htrait asTrait heq h))
    (fun seg hseg args hgenerics h => .of_placed (hargs seg hseg args hgenerics h)) h

/-! ### Whole crates -/

/-- **Every path is accounted for.** Whenever resolving a well-formed crate reports nothing, each
path of the crate is resolved, or without segments, or left to type checking, or stands behind a
gate at which the second pass has turned back. -/
theorem Crate.paths_accounted {c : Crate} (hwf : c.WellFormed) (settings : Settings) :
    ∃ r, c.resolve settings = .ok r ∧ (r.hasErrors = false →
      ∀ x ∈ c.sites, ∀ p gates, x.site = .path p gates → p.Accounted r.tables gates) := by
  have hbase := c.firstPass hwf settings
  obtain ⟨s, r, h⟩ := c.exists_outcome hwf settings
  refine ⟨r, h.resolve, fun hclean x hx p gates hsite => ?_⟩
  have hentered : Entered (c.registered settings) r.tables
      (c.read (c.registered settings)).findings :=
    h.tables ▸ h.secondPass.entered hwf hbase (h.clean hclean).2
  have haccounted :=
    ((c.registered settings).accounts r.tables).crate c hentered x hx
  rwa [hsite] at haccounted

/-- An alias for `S::Inner<U>`, where `S` is a struct and nothing is called `U`. -/
def Crate.withDeferredPath : Crate where
  node := ⟨⟨0⟩, ⟨0, 30⟩⟩
  items :=
    let node (id offset : Nat) : Node := ⟨⟨id⟩, ⟨offset, 1⟩⟩
    let argument : Ty := .path (node 2 18) ⟨node 3 18, [⟨node 4 18, .ident "U", none⟩]⟩
    [⟨node 1 0, .everywhere, .struct ⟨⟨"S", ⟨2, 1⟩⟩, .none, []⟩⟩,
      ⟨node 5 4, .ownModule, .typeAlias ⟨⟨"T", ⟨6, 1⟩⟩, .none,
        .path (node 6 10) ⟨node 7 10, [⟨node 8 10, .ident "S", none⟩,
          ⟨node 9 12, .ident "Inner", some ⟨[argument], ⟨17, 3⟩⟩⟩]⟩⟩⟩]
  idBound := ⟨10⟩

/-- Both paths are left alone, and that is accounted for. -/
theorem Crate.paths_accounted_withDeferredPath :
    withDeferredPath.WellFormed ∧ ∃ r, withDeferredPath.resolve {} = .ok r ∧
      r.hasErrors = false ∧ r.declarationOf? ⟨3⟩ = none ∧ r.declarationOf? ⟨7⟩ = none ∧
      ∀ x ∈ withDeferredPath.sites, ∀ p gates, x.site = .path p gates →
        p.Accounted r.tables gates := by
  have hwf : withDeferredPath.WellFormed := by decide
  obtain ⟨r, hr, h⟩ := paths_accounted hwf {}
  have hrun : (withDeferredPath.resolve {}).toOption.map (fun r =>
      (r.hasErrors, r.declarationOf? ⟨3⟩, r.declarationOf? ⟨7⟩)) = some (false, none, none) := by
    decide +kernel
  rw [hr] at hrun
  obtain ⟨hclean, hnone⟩ := Prod.ext_iff.mp (Option.some.inj hrun)
  obtain ⟨hargument, hpath⟩ := Prod.ext_iff.mp hnone
  exact ⟨hwf, r, hr, hclean, hargument, hpath, h hclean⟩

/-- An alias for `<(!,) as Missing>::X`, where nothing is called `Missing`. -/
def Crate.withUnseenTrait : Crate where
  node := ⟨⟨0⟩, ⟨0, 30⟩⟩
  items :=
    let node (id offset : Nat) : Node := ⟨⟨id⟩, ⟨offset, 1⟩⟩
    let head : Qualifier := ⟨node 5 8, .tuple (node 2 9) [.never (node 1 10)],
      some ⟨node 4 17, [⟨node 3 17, .ident "Missing", none⟩]⟩⟩
    [⟨node 9 0, .ownModule, .typeAlias ⟨⟨"T", ⟨5, 1⟩⟩, .none,
      .qualified (node 8 8) ⟨node 7 8, head, ⟨node 6 27, .ident "X", none⟩, []⟩⟩⟩]
  idBound := ⟨10⟩

/-- The path to the trait is neither resolved nor reported, and it is not inside the arguments of
any segment. -/
theorem Crate.paths_skipped :
    withUnseenTrait.WellFormed ∧ ∃ r, withUnseenTrait.resolve {} = .ok r ∧ r.hasErrors = false ∧
      (∀ a ∈ withUnseenTrait.attempts {}, a.name ≠ "Missing") ∧
      ∃ x ∈ withUnseenTrait.sites, ∃ p gates seg, x.site = .path p gates ∧ p.segments = [seg] ∧
        seg.ident = .ident "Missing" ∧ r.declarationOf? p.node.id = none ∧
        ∀ before seg, .args before seg ∉ gates := by
  have hwf : withUnseenTrait.WellFormed := by decide
  obtain ⟨_, r, h⟩ := exists_outcome hwf {}
  have hrun : (withUnseenTrait.resolve {}).toOption.map (fun r =>
      (r.hasErrors, r.declarationOf? ⟨4⟩)) = some (false, none) := by
    decide +kernel
  rw [h.resolve] at hrun
  obtain ⟨hclean, hnone⟩ := Prod.ext_iff.mp (Option.some.inj hrun)
  refine ⟨hwf, r, h.resolve, hclean, by decide, _, .tail _ (.tail _ (.head _)), _, _, _, rfl, rfl,
    rfl, hnone, fun before seg hin => ?_⟩
  cases List.mem_singleton.mp hin

end NameResolution
