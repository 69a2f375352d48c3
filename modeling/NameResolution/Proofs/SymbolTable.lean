import NameResolution.Scope

/-!
# NameResolution.Proofs.SymbolTable

**What the operations of a symbol table do to its bindings.** A table is looked at
through one view, the binding that a name has in the rib of a given node
(`Scope.bindingIn?`), and each operation has one equation for it:

* opening and closing ribs leaves every binding where it is (`bindingIn?_push`);
* a binding that is made changes the one name in the one rib (`bindingIn?_bindIn`);
* reading is the first hit of the view along the open ribs (`findBinding?_eq_findSome?`).

`Scope.insert_cons` says when a binding is refused, which is decided by the view of the
innermost open rib alone.
-/

namespace NameResolution

namespace CanonicalPath

@[simp] theorem sameText_refl (p : CanonicalPath) : p.SameText p := rfl

theorem SameText.symm {p q : CanonicalPath} (h : p.SameText q) : q.SameText p := Eq.symm h

theorem SameText.trans {p q r : CanonicalPath} (h₁ : p.SameText q) (h₂ : q.SameText r) :
    p.SameText r := Eq.trans h₁ h₂

@[simp] theorem single_sameText_single {i j : NodeId} {a b : String} :
    (single i a).SameText (single j b) ↔ a = b := by
  simp [SameText]

/-- Names with the same segment texts are written alike. -/
theorem SameText.text_eq {p q : CanonicalPath} (h : p.SameText q) : p.text = q.text := by
  unfold text
  rw [h]

end CanonicalPath

/-! ### Ribs -/

namespace Rib

/-- A rib is read by the texts of a name alone. -/
theorem find?_congr (r : Rib) {p q : CanonicalPath} (h : p.SameText q) : r.find? p = r.find? q := by
  have hkeys : (fun b : Binding => decide (b.path.SameText p)) =
      fun b => decide (b.path.SameText q) := by
    funext b
    exact decide_eq_decide.mpr ⟨fun hb => hb.trans h, fun hb => hb.trans h.symm⟩
  unfold find?
  rw [hkeys]

@[simp] theorem owner_bind (r : Rib) (b : Binding) : (r.bind b).owner = r.owner := by
  unfold bind
  split <;> rfl

/-- Replacing every binding of a name leaves the other names as they are. -/
private theorem find?_map_replace (l : List Binding) (b : Binding) (key : CanonicalPath) :
    (l.map fun old => if old.path.SameText b.path then b else old).find?
        (fun c => decide (c.path.SameText key)) =
      if b.path.SameText key then
        (l.find? fun c => decide (c.path.SameText b.path)).map fun _ => b
      else l.find? fun c => decide (c.path.SameText key) := by
  induction l with
  | nil => split <;> rfl
  | cons old rest ih =>
      -- The old binding is replaced, or its name is not that of the new one.
      rw [List.map_cons, List.find?_cons, List.find?_cons, List.find?_cons, ih]
      by_cases hold : old.path.SameText b.path
      · by_cases hkey : b.path.SameText key
        · simp [hold, hkey]
        · have hne : ¬ old.path.SameText key := fun h => hkey (hold.symm.trans h)
          simp [hold, hkey, hne]
      · by_cases hkey : b.path.SameText key
        · have hne : ¬ old.path.SameText key := fun h => hold (h.trans hkey.symm)
          simp [hold, hkey, hne]
        · simp [hold, hkey]

/-- A binding that is made is the one its name has from then on; every other name keeps its
own. -/
theorem find?_bind (r : Rib) (b : Binding) (key : CanonicalPath) :
    (r.bind b).find? key = if b.path.SameText key then some b else r.find? key := by
  unfold bind
  cases hfound : r.find? b.path with
  | none =>
      -- A new name goes to the end of the rib, where it is found since nothing before it matches.
      by_cases hkey : b.path.SameText key
      · have habsent : r.find? key = none := by rw [← r.find?_congr hkey, hfound]
        unfold find? at habsent ⊢
        rw [List.find?_append, habsent]
        simp [hkey]
      · unfold find?
        rw [List.find?_append]
        simp [hkey]
  | some earlier =>
      unfold find? at hfound ⊢
      simp only [find?_map_replace, hfound, Option.map_some]

end Rib

/-! ### Tables -/

namespace Scope

/-- The binding that a name has in the rib of a node, whether that rib is open or not. -/
def bindingIn? (s : Scope) (owner : NodeId) (key : CanonicalPath) : Option Binding :=
  (s.rib? owner).bind (Rib.find? · key)

theorem bindingIn?_congr (s : Scope) (owner : NodeId) {p q : CanonicalPath} (h : p.SameText q) :
    s.bindingIn? owner p = s.bindingIn? owner q := by
  unfold bindingIn?
  cases s.rib? owner with
  | none => rfl
  | some r => exact r.find?_congr h

/-- Reading a name is the first hit along the open ribs. -/
theorem findBinding?_eq_findSome? (s : Scope) (key : CanonicalPath) :
    s.findBinding? key = s.opened.findSome? (s.bindingIn? · key) := rfl

/-! #### Opening and closing -/

@[simp] theorem opened_push (s : Scope) (owner : NodeId) :
    (s.push owner).opened = owner :: s.opened := rfl

@[simp] theorem declared_push (s : Scope) (owner : NodeId) :
    (s.push owner).declared = s.declared := rfl

/-- A rib is created empty, and only where there is none. -/
theorem rib?_push (s : Scope) (owner x : NodeId) :
    (s.push owner).rib? x =
      (s.rib? x).or (if x = owner then some (Rib.empty owner) else none) := by
  unfold rib? push
  cases howner : s.ribs.find? fun r => decide (r.owner = owner) with
  | some r =>
      by_cases hx : x = owner
      · subst hx
        simp [rib?, howner]
      · simp [rib?, howner, hx]
  | none =>
      by_cases hx : x = owner
      · subst hx
        simp [rib?, howner, Rib.empty]
      · have hne : owner ≠ x := fun h => hx h.symm
        simp [rib?, howner, Rib.empty, hx, hne]

@[simp] theorem bindingIn?_push (s : Scope) (owner x : NodeId) (key : CanonicalPath) :
    (s.push owner).bindingIn? x key = s.bindingIn? x key := by
  unfold bindingIn?
  rw [rib?_push]
  cases s.rib? x with
  | some r => rfl
  | none =>
      rw [Option.none_or]
      split <;> rfl

/-- Ribs never disappear, and an open one exists. -/
theorem isSome_rib?_push {s : Scope} {owner x : NodeId}
    (h : x = owner ∨ (s.rib? x).isSome) : ((s.push owner).rib? x).isSome := by
  rw [rib?_push]
  rcases h with rfl | h
  · simp
  · obtain ⟨r, hr⟩ := Option.isSome_iff_exists.mp h
    simp [hr]

/-- Closing a rib takes the innermost one off the stack, even if another one was expected. -/
theorem snd_pop (s : Scope) (owner : NodeId) :
    (s.pop owner).2 = { s with opened := s.opened.tail } := by
  obtain ⟨space, ribs, opened, declared⟩ := s
  cases opened <;> rfl

/-- Closing the innermost rib under the name of its owner succeeds. -/
theorem pop_cons {s : Scope} {owner : NodeId} {outer : List NodeId}
    (h : s.opened = owner :: outer) :
    s.pop owner = (.ok (), { s with opened := outer }) := by
  simp [pop, h]

/-! #### Binding -/

@[simp] theorem opened_bindIn (s : Scope) (owner : NodeId) (b : Binding) :
    (s.bindIn owner b).opened = s.opened := rfl

@[simp] theorem declared_bindIn (s : Scope) (owner : NodeId) (b : Binding) :
    (s.bindIn owner b).declared = b.id :: s.declared := rfl

private theorem find?_map_owner (l : List Rib) (owner x : NodeId) (b : Binding) :
    (l.map fun r => if r.owner = owner then r.bind b else r).find? (fun r => decide (r.owner = x)) =
      (l.find? fun r => decide (r.owner = x)).map
        fun r => if x = owner then r.bind b else r := by
  induction l with
  | nil => rfl
  | cons r rest ih =>
      have howner : (if r.owner = owner then r.bind b else r).owner = r.owner := by
        split <;> simp
      rw [List.map_cons, List.find?_cons, List.find?_cons, howner]
      by_cases hx : r.owner = x
      · simp [hx]
      · simp [hx, ih]

/-- A binding changes the rib it is made in and no other. -/
theorem rib?_bindIn (s : Scope) (owner x : NodeId) (b : Binding) :
    (s.bindIn owner b).rib? x = (s.rib? x).map fun r => if x = owner then r.bind b else r :=
  find?_map_owner s.ribs owner x b

@[simp] theorem isSome_rib?_bindIn (s : Scope) (owner x : NodeId) (b : Binding) :
    ((s.bindIn owner b).rib? x).isSome = (s.rib? x).isSome := by
  rw [rib?_bindIn, Option.isSome_map]

/-- In an existing rib, a binding changes the meaning of its own name and no other. -/
theorem bindingIn?_bindIn {s : Scope} {owner : NodeId} (h : (s.rib? owner).isSome) (x : NodeId)
    (b : Binding) (key : CanonicalPath) :
    (s.bindIn owner b).bindingIn? x key =
      if x = owner ∧ b.path.SameText key then some b else s.bindingIn? x key := by
  unfold bindingIn?
  rw [rib?_bindIn]
  by_cases hx : x = owner
  · subst hx
    obtain ⟨r, hr⟩ := Option.isSome_iff_exists.mp h
    simp [hr, Rib.find?_bind]
  · cases s.rib? x with
    | none => simp [hx]
    | some r => simp [hx]

/-- A binding is refused exactly when the innermost rib holds the name already and shadowing is
not allowed. -/
theorem insert_cons {s : Scope} {owner : NodeId} {outer : List NodeId}
    (h : s.opened = owner :: outer) (b : Binding) (shadow : Bool) :
    s.insert b shadow =
      match s.bindingIn? owner b.path, shadow with
      | some earlier, false => .ok (.duplicate earlier)
      | _, _ => .ok (.added (s.bindIn owner b)) := by
  obtain ⟨space, ribs, opened, declared⟩ := s
  cases h
  rfl

/-- A binding that is not refused is made in one of the ribs, the innermost one. -/
theorem eq_bindIn_of_insert {s sc : Scope} {b : Binding} {shadow : Bool}
    (h : s.insert b shadow = .ok (.added sc)) : ∃ owner, sc = s.bindIn owner b := by
  cases hopened : s.opened with
  | nil =>
      unfold insert at h
      rw [hopened] at h
      cases h
  | cons owner outer =>
      rw [insert_cons hopened] at h
      split at h
      · cases h
      · cases h
        exact ⟨owner, rfl⟩

end Scope

/-! ### What the ribs hold -/

/-- Opening a frame adds an empty rib at most. -/
theorem Scope.mem_ribs_push {sc : Scope} {owner : NodeId} : ∀ r ∈ (sc.push owner).ribs,
    r ∈ sc.ribs ∨ r.bindings = [] := by
  intro r hr
  unfold Scope.push at hr
  dsimp only at hr
  split at hr
  · exact Or.inl hr
  · rcases List.mem_append.mp hr with hr | hr
    · exact Or.inl hr
    · rw [List.mem_singleton.mp hr]
      exact Or.inr rfl

/-- Whatever a rib holds after a name was bound in it is new or has been there before. -/
theorem Rib.mem_bind {r : Rib} {b x : Binding} (h : x ∈ (r.bind b).bindings) :
    x = b ∨ x ∈ r.bindings := by
  unfold Rib.bind at h
  split at h
  · rcases List.mem_append.mp h with h | h
    · exact Or.inr h
    · exact Or.inl (List.mem_singleton.mp h)
  · obtain ⟨old, hold, rfl⟩ := List.mem_map.mp h
    split
    · exact Or.inl rfl
    · exact Or.inr hold

theorem Scope.mem_ribs_bindIn {sc : Scope} {owner : NodeId} {b x : Binding} {r : Rib}
    (hr : r ∈ (sc.bindIn owner b).ribs) (hx : x ∈ r.bindings) :
    x = b ∨ ∃ r ∈ sc.ribs, x ∈ r.bindings := by
  obtain ⟨old, hold, rfl⟩ := List.mem_map.mp hr
  split at hx
  · exact (Rib.mem_bind hx).imp_right fun hx => ⟨old, hold, hx⟩
  · exact Or.inr ⟨old, hold, hx⟩

/-- What a name is found to stand for is bound in some rib. -/
theorem Scope.mem_of_lookup? {sc : Scope} {key : CanonicalPath} {id : NodeId}
    (h : sc.lookup? key = some id) : ∃ r ∈ sc.ribs, ∃ b ∈ r.bindings, b.id = id := by
  obtain ⟨b, hb, rfl⟩ := Option.map_eq_some_iff.mp h
  obtain ⟨owner, -, hrib⟩ := List.exists_of_findSome?_eq_some hb
  obtain ⟨r, hr, hfind⟩ := Option.bind_eq_some_iff.mp hrib
  exact ⟨r, List.mem_of_find?_eq_some hr, b, List.mem_of_find?_eq_some hfind, rfl⟩

end NameResolution
