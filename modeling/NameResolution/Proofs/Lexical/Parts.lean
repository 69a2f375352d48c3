import NameResolution.Proofs.SiteNodes
import NameResolution.Proofs.Lexical.Visits

/-!
# NameResolution.Proofs.Lexical.Parts

**Parts of what is read.** A path that is a site of some part is visited while that part is
read and at no other time, since no two sites share a node (`Reading.IsPart`). So the path
is visited while the item that has the site is read (`isPart_itemsPlaced`).
-/

namespace NameResolution

/-! ### Items at any depth -/

mutual

/-- An item and all items inside it, each with the modules around it. -/
def Item.placed (modules : List NodeId) : Item → List (List NodeId × Item)
  | ⟨node, vis, kind⟩ => (modules, ⟨node, vis, kind⟩) :: kind.placed modules node

def ItemKind.placed (modules : List NodeId) (node : Node) : ItemKind → List (List NodeId × Item)
  | .module _ items => itemsPlaced (node.id :: modules) items
  | _ => []

def itemsPlaced (modules : List NodeId) : List Item → List (List NodeId × Item)
  | [] => []
  | item :: rest => item.placed modules ++ itemsPlaced modules rest

end

theorem Item.placed_flat {node : Node} {vis : Visibility} {kind : ItemKind}
    (hflat : ∀ name items, kind ≠ .module name items) (modules : List NodeId) :
    Item.placed modules ⟨node, vis, kind⟩ = [(modules, ⟨node, vis, kind⟩)] := by
  cases kind with
  | module name items => exact absurd rfl (hflat name items)
  | _ => rfl

/-- All items of a crate, each with the modules around it, innermost first. -/
def Crate.placedItems (c : Crate) : List (List NodeId × Item) := itemsPlaced [c.node.id] c.items

/-! ### Parts -/

/-- The nodes of sites. -/
def siteIds (l : List PlacedSite) : List NodeId := l.map fun x => x.site.id

theorem siteIds_append (l₁ l₂ : List PlacedSite) :
    siteIds (l₁ ++ l₂) = siteIds l₁ ++ siteIds l₂ := List.map_append

/-- What is read of a part is read of the whole, where paths at its sites are visited nowhere
else. -/
structure Reading.IsPart {α β : Type} (part : Reading α) (l : List PlacedSite) (whole : Reading β)
    (sites : List PlacedSite) : Prop where
  sites : List.Sublist l sites
  findings : part.findings ⊆ whole.findings
  visits : ∀ p prefer env outcome, .visit p prefer env outcome ∈ whole.findings →
    p.node.id ∈ siteIds l → .visit p prefer env outcome ∈ part.findings

section Parts

variable {base : Session} {outer : List Frame} {α β γ : Type} {r : Reading α}
  {next : α → Reading β} {l l₁ l₂ : List PlacedSite}

/-- A path that is visited is at one of the sites. -/
theorem Visits.mem_siteIds (h : Visits base outer r l) {p : Path} {prefer : Namespace} {env : Env}
    {outcome : Option Meaning} (hf : .visit p prefer env outcome ∈ r.findings) :
    p.node.id ∈ siteIds l := by
  obtain ⟨-, x, hx, -, gates, hsite⟩ := h.visits p prefer env outcome hf
  refine List.mem_map.mpr ⟨x, hx, ?_⟩
  rw [hsite]
  rfl

namespace Reading.IsPart

theorem trans {part : Reading α} {mid : Reading β} {whole : Reading γ} (h₁ : part.IsPart l mid l₁)
    (h₂ : mid.IsPart l₁ whole l₂) : part.IsPart l whole l₂ where
  sites := h₁.sites.trans h₂.sites
  findings := List.Subset.trans h₁.findings h₂.findings
  visits p prefer env outcome hf hid :=
    h₁.visits p prefer env outcome (h₂.visits p prefer env outcome hf
      (h₁.sites.map _ |>.subset hid)) hid

/-- What is read first. -/
theorem left (hnext : Visits base outer (next r.value) l₂)
    (hnodup : (siteIds (l₁ ++ l₂)).Nodup) : r.IsPart l₁ (r >>= next) (l₁ ++ l₂) where
  sites := List.sublist_append_left l₁ l₂
  findings := List.subset_append_left _ _
  visits p prefer env outcome hf hid := by
    rw [siteIds_append] at hnodup
    rcases List.mem_append.mp hf with hf | hf
    · exact hf
    · exact absurd rfl ((List.nodup_append.mp hnodup).2.2 _ hid _ (hnext.mem_siteIds hf))

/-- What is read next. -/
theorem right (next : α → Reading β) (hr : Visits base outer r l₁)
    (hnodup : (siteIds (l₁ ++ l₂)).Nodup) :
    (next r.value).IsPart l₂ (r >>= next) (l₁ ++ l₂) where
  sites := List.sublist_append_right l₁ l₂
  findings := List.subset_append_right _ _
  visits p prefer env outcome hf hid := by
    rw [siteIds_append] at hnodup
    rcases List.mem_append.mp hf with hf | hf
    · exact absurd rfl ((List.nodup_append.mp hnodup).2.2 _ (hr.mem_siteIds hf) _ hid)
    · exact hf

/-- The sites of a part have nodes of their own if those of the whole do. -/
theorem nodup {part : Reading α} {whole : Reading β} (h : part.IsPart l whole l₁)
    (hnodup : (siteIds l₁).Nodup) : (siteIds l).Nodup :=
  hnodup.sublist (h.sites.map _)

end Reading.IsPart

end Parts

/-! ### Items are parts of the crate -/

section Placed

variable (base : Session) {placed : List NodeId} {item : Item}

/-- What comes after the generic parameters of an item. -/
theorem isPart_withGenerics (modules : List NodeId) (next : Env → Reading Unit) {l : List Site}
    (owner : NodeId) (extent : List NodeId) (g : Generics)
    (hnodup : (siteIds ((g.sites ++ l).map (.mk modules))).Nodup) :
    (next (g.read base ((Env.inside modules).enter owner extent)).value).IsPart
      (l.map (.mk modules)) (g.read base ((Env.inside modules).enter owner extent) >>= next)
      ((g.sites ++ l).map (.mk modules)) := by
  have hgenerics := (base.visits []).generics ((Env.inside modules).enter owner extent) g
    (Env.nil_suffix _)
  rw [List.map_append] at hnodup ⊢
  exact .right next hgenerics hnodup

/-- The first of some items. -/
theorem isPart_head (modules : List NodeId) (first : Item) (rest : List Item)
    (hnodup : (siteIds (itemsSites modules (first :: rest))).Nodup) :
    (first.read base modules).IsPart (first.sites modules) (readItems base modules (first :: rest))
      (itemsSites modules (first :: rest)) :=
  .left ((base.visits []).items modules rest fun _ _ => rfl) hnodup

/-- The items behind the first. -/
theorem isPart_tail (modules : List NodeId) (first : Item) (rest : List Item)
    (hnodup : (siteIds (itemsSites modules (first :: rest))).Nodup) :
    (readItems base modules rest).IsPart (itemsSites modules rest)
      (readItems base modules (first :: rest)) (itemsSites modules (first :: rest)) :=
  .right (fun _ => readItems base modules rest) ((base.visits []).item modules first fun _ _ => rfl)
    hnodup

theorem isPart_itemsPlaced (modules : List NodeId) (items : List Item)
    (hplaced : (placed, item) ∈ itemsPlaced modules items)
    (hnodup : (siteIds (itemsSites modules items)).Nodup) :
    (item.read base placed).IsPart (item.sites placed) (readItems base modules items)
      (itemsSites modules items) := by
  induction items using items_induction generalizing modules with
  | nil => cases hplaced
  | module node vis name items rest ihInside ih =>
      have hhead := isPart_head base modules ⟨node, vis, .module name items⟩ rest hnodup
      have htail := isPart_tail base modules ⟨node, vis, .module name items⟩ rest hnodup
      rcases List.mem_append.mp hplaced with hplaced | hplaced
      · rcases List.mem_cons.mp hplaced with heq | hplaced
        · cases heq
          exact hhead
        · exact (ihInside (node.id :: modules) hplaced (hhead.nodup hnodup)).trans hhead
      · exact (ih modules hplaced (htail.nodup hnodup)).trans htail
  | flat node vis kind rest hflat ih =>
      rw [itemsPlaced, Item.placed_flat hflat] at hplaced
      rcases List.mem_cons.mp hplaced with heq | hplaced
      · cases heq
        exact isPart_head base _ ⟨node, vis, kind⟩ rest hnodup
      · have htail := isPart_tail base modules ⟨node, vis, kind⟩ rest hnodup
        exact (ih modules hplaced (htail.nodup hnodup)).trans htail

end Placed

end NameResolution
