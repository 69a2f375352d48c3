import Mathlib.Data.List.Nodup
import Mathlib.Data.List.Perm.Subperm
import NameResolution.Tables

/-!
# NameResolution.Proofs.Chains

**Chains of modules.** A list of modules each of which lies directly in the next one, up
to one that lies in none, is a chain (`Chained`). There is one chain at most that starts
from a module, and it never comes back to where it has been. Such a chain is what
`Tables.enclosing` walks along (`Tables.enclosing_eq`).

The search for a module on such a chain is a loop without a bound (`Tables.Climbs`). Where
there is a chain, the loop ends, and it finds what is on the chain (`Tables.climbs_iff`).
-/

namespace NameResolution

/-! ### Lists of entries -/

section Lookup

variable {α β : Type} [BEq α] [LawfulBEq α] {l l' : List (α × β)} {a : α} {b : β}

/-- Dropping entries of other keys makes no difference. -/
theorem lookup_filter (p : α → Bool) (hp : p a = true) :
    ∀ l : List (α × β), (l.filter fun e => p e.1).lookup a = l.lookup a
  | [] => rfl
  | (k, v) :: l => by
      have ih := lookup_filter p hp l
      by_cases hk : a = k
      · subst hk
        rw [List.filter_cons, if_pos hp, List.lookup_cons, List.lookup_cons, beq_self_eq_true]
      · rw [List.filter_cons, List.lookup_cons, beq_false_of_ne hk]
        split
        · rw [List.lookup_cons, beq_false_of_ne hk]
          exact ih
        · exact ih

/-- If no key comes up twice, what is found is what is there. -/
theorem lookup_iff_mem (hnodup : (l.map Prod.fst).Nodup) :
    l.lookup a = some b ↔ (a, b) ∈ l := by
  induction l with
  | nil => simp
  | cons e l ih =>
      obtain ⟨k, v⟩ := e
      obtain ⟨hout, hrest⟩ := List.nodup_cons.mp hnodup
      rw [List.lookup_cons, List.mem_cons, Prod.mk.injEq]
      by_cases hk : a = k
      · subst hk
        have hnot : (a, b) ∉ l := fun hin => hout (List.mem_map.mpr ⟨(a, b), hin, rfl⟩)
        simp [hnot, eq_comm]
      · rw [beq_false_of_ne hk]
        simp [hk, ih hrest]

/-- If no key comes up twice, the order of the entries makes no difference. -/
theorem lookup_perm (hperm : l.Perm l') (hnodup : (l.map Prod.fst).Nodup) :
    l.lookup a = l'.lookup a := by
  have hnodup' := (hperm.map Prod.fst).nodup_iff.mp hnodup
  refine Option.ext fun b => ?_
  rw [lookup_iff_mem hnodup, lookup_iff_mem hnodup', hperm.mem_iff]

end Lookup

/-! ### Chains of parents -/

/-- Each module lies directly in the next one, and the last one in none. -/
inductive Chained (parent? : NodeId → Option NodeId) : List NodeId → Prop
  | root {m : NodeId} (h : parent? m = none) : Chained parent? [m]
  | step {m outer : NodeId} {rest : List NodeId} (h : parent? m = some outer)
      (hrest : Chained parent? (outer :: rest)) : Chained parent? (m :: outer :: rest)

namespace Chained

variable {parent? : NodeId → Option NodeId} {m : NodeId} {l l₁ l₂ : List NodeId}

/-- There is only one chain that starts from a module. -/
theorem unique (h₁ : Chained parent? (m :: l₁)) (h₂ : Chained parent? (m :: l₂)) : l₁ = l₂ := by
  induction l₁ generalizing m l₂ with
  | nil =>
      cases h₁ with
      | root h =>
          cases h₂ with
          | root _ => rfl
          | step h' _ => rw [h] at h'; cases h'
  | cons outer rest ih =>
      cases h₁ with
      | step h hrest =>
          cases h₂ with
          | root h' => rw [h] at h'; cases h'
          | step h' hrest' =>
              rw [h] at h'
              cases h'
              rw [ih hrest hrest']

theorem of_append (h : Chained parent? (l₁ ++ m :: l₂)) : Chained parent? (m :: l₂) := by
  induction l₁ with
  | nil => exact h
  | cons n l₁ ih =>
      refine ih ?_
      cases l₁ with
      | nil => cases h with | step _ hrest => exact hrest
      | cons n' l₁ => cases h with | step _ hrest => exact hrest

/-- A chain does not come back to where it has been, as it would never end. -/
theorem nodup (h : Chained parent? l) : l.Nodup := by
  induction h with
  | root _ => exact List.nodup_singleton _
  | @step m outer rest hparent hrest ih =>
      refine List.nodup_cons.mpr ⟨fun hin => ?_, ih⟩
      obtain ⟨before, after, hsplit⟩ := List.append_of_mem hin
      have hagain : Chained parent? (m :: after) := of_append (hsplit ▸ hrest)
      have hsame := congrArg List.length ((Chained.step hparent hrest).unique hagain)
      have hlength := congrArg List.length hsplit
      simp only [List.length_append, List.length_cons] at hsame hlength
      omega

/-- The parents of what is on a chain are on the chain. -/
theorem mem_of_parent {outer : NodeId} (h : Chained parent? l) (hm : m ∈ l)
    (hparent : parent? m = some outer) : outer ∈ l := by
  induction h with
  | root hnone =>
      rw [List.mem_singleton.mp hm, hnone] at hparent
      cases hparent
  | step hfirst hrest ih =>
      rcases List.mem_cons.mp hm with rfl | hm
      · rw [hfirst] at hparent
        cases hparent
        exact List.mem_cons_of_mem _ List.mem_cons_self
      · exact List.mem_cons_of_mem _ (ih hm)

/-- All of a chain but its end has parents. -/
theorem keys (h : Chained parent? l) : ∀ m ∈ l.dropLast, (parent? m).isSome := by
  induction h with
  | root _ => exact fun _ hm => nomatch hm
  | step h _ ih =>
      refine List.forall_mem_cons.mpr ⟨?_, ih⟩
      rw [h]
      rfl

/-- There is no endless way up from a chain. -/
theorem acc (h : Chained parent? l) :
    ∀ m ∈ l.head?, Acc (fun outer inner => parent? inner = some outer) m := by
  induction h with
  | root hnone =>
      intro m hm
      cases hm
      exact .intro _ fun outer houter => by rw [hnone] at houter; cases houter
  | step hparent hrest ih =>
      intro m hm
      cases hm
      exact .intro _ fun outer houter => by
        rw [hparent] at houter
        cases houter
        exact ih _ rfl

end Chained

/-- A chain of parents is what is found by walking along them. -/
theorem Tables.enclosing_eq {t : Tables} {m : NodeId} {rest : List NodeId}
    (h : Chained t.parents.get? (m :: rest)) : t.enclosing m = m :: rest := by
  have hwalk : ∀ (n : Nat) (rest : List NodeId) (m : NodeId), rest.length ≤ n →
      Chained t.parents.get? (m :: rest) → t.enclosingUpTo n m = m :: rest := by
    intro n
    induction n with
    | zero =>
        intro rest m hn _
        rw [List.length_eq_zero_iff.mp (Nat.le_zero.mp hn)]
        rfl
    | succ n ih =>
        intro rest m hn hchain
        cases hchain with
        | root hnone => rw [Tables.enclosingUpTo, hnone]
        | step hparent hrest =>
            rw [Tables.enclosingUpTo, hparent]
            exact congrArg (m :: ·) (ih _ _ (Nat.le_of_succ_le_succ hn) hrest)
  refine hwalk _ _ _ ?_ h
  -- The modules of the chain but the last one have entries of their own.
  have hsubset : (m :: rest).dropLast ⊆ t.parents.keys := fun id hid => by
    obtain ⟨e, he, hkey⟩ := List.lookup_isSome_iff.mp (h.keys id hid)
    rw [beq_iff_eq.mp hkey]
    exact List.mem_map_of_mem he
  have hnodup := h.nodup.sublist (List.dropLast_sublist _)
  have hlength := (List.subperm_of_subset hnodup hsubset).length_le
  rwa [List.length_dropLast, List.length_cons, Register.keys, List.length_map] at hlength

/-! ### The search for a module -/

/-- What the loop comes to, if it comes to an end, that starts from a node and goes on to the parent
of where it is until it finds a given one or there is no parent. -/
inductive Tables.Climbs (t : Tables) (ancestor : NodeId) : NodeId → Bool → Prop
  | found : t.Climbs ancestor ancestor true
  | top {id : NodeId} (hne : id ≠ ancestor) (hnone : t.parents.get? id = none) :
      t.Climbs ancestor id false
  | up {id parent : NodeId} {result : Bool} (hne : id ≠ ancestor)
      (hparent : t.parents.get? id = some parent) (h : t.Climbs ancestor parent result) :
      t.Climbs ancestor id result

/-- On a chain the loop comes to an end, and it has found what is on the chain. -/
theorem Tables.climbs_iff {t : Tables} {ancestor : NodeId} {l : List NodeId}
    (h : Chained t.parents.get? l) : ∀ id ∈ l.head?, ∀ result,
      t.Climbs ancestor id result ↔ decide (ancestor ∈ l) = result := by
  induction h with
  | @root m hnone =>
      intro id hid result
      cases hid
      simp only [List.mem_singleton]
      constructor
      · rintro (_ | ⟨hne, -⟩ | ⟨-, hparent, -⟩)
        · exact decide_eq_true rfl
        · exact decide_eq_false (Ne.symm hne)
        · rw [hnone] at hparent
          cases hparent
      · rintro rfl
        by_cases heq : ancestor = m
        · subst heq
          simpa using Climbs.found
        · simpa [heq] using Climbs.top (Ne.symm heq) hnone
  | @step m outer rest hparent hrest ih =>
      intro id hid result
      cases hid
      have hmem : decide (ancestor ∈ m :: outer :: rest) =
          (decide (ancestor = m) || decide (ancestor ∈ outer :: rest)) := by simp
      rw [hmem]
      by_cases heq : ancestor = m
      · -- The loop does not look at the parent of what it has found.
        rw [decide_eq_true heq, Bool.true_or]
        constructor
        · rintro (_ | ⟨hne, -⟩ | ⟨hne, -, -⟩)
          · rfl
          · exact absurd heq.symm hne
          · exact absurd heq.symm hne
        · rintro rfl
          exact heq ▸ .found
      · rw [decide_eq_false heq, Bool.false_or, ← ih outer rfl]
        constructor
        · rintro (_ | ⟨-, hnone⟩ | ⟨-, hparent', hclimbs⟩)
          · exact absurd rfl heq
          · rw [hnone] at hparent
            cases hparent
          · rw [hparent] at hparent'
            cases hparent'
            exact hclimbs
        · exact .up (Ne.symm heq) hparent

end NameResolution
