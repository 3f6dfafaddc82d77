/-
Lists that grow at their end, batch by batch.

Every entry has an origin, and a batch is what was added by one of them.  When the origins
came in an order, so did the entries (`Batches.pairwise`).
-/
import Mathlib.Data.List.Basic

namespace Summer

variable {α ω : Type} {origin : α → ω}

/-- `l'` is `l` with entries of one origin behind it. -/
def Adds (origin : α → ω) (o : ω) (l l' : List α) : Prop :=
  ∃ more, l' = l ++ more ∧ ∀ x ∈ more, origin x = o

/-- A list that these origins have filled, one after the other. -/
inductive Batches (origin : α → ω) : List ω → List α → Prop
  | nil : Batches origin [] []
  | snoc {os : List ω} {o : ω} {l l' : List α} :
      Batches origin os l → Adds origin o l l' → Batches origin (os ++ [o]) l'

namespace Adds

theorem refl (o : ω) (l : List α) : Adds origin o l l :=
  ⟨[], (List.append_nil l).symm, fun _ hx => absurd hx List.not_mem_nil⟩

theorem trans {o : ω} {l m n : List α} (h : Adds origin o l m) (h' : Adds origin o m n) :
    Adds origin o l n := by
  obtain ⟨more, rfl, hmore⟩ := h
  obtain ⟨more', rfl, hmore'⟩ := h'
  refine ⟨more ++ more', List.append_assoc .., ?_⟩
  intro x hx
  rcases List.mem_append.mp hx with hx | hx
  · exact hmore x hx
  · exact hmore' x hx

end Adds

namespace Batches

theorem single {o : ω} {l : List α} (h : ∀ x ∈ l, origin x = o) : Batches origin [o] l :=
  .snoc .nil ⟨l, rfl, h⟩

theorem origin_mem {os : List ω} {l : List α} (h : Batches origin os l) {x : α} (hx : x ∈ l) :
    origin x ∈ os := by
  induction h with
  | nil => exact absurd hx List.not_mem_nil
  | snoc _ hadds ih =>
    obtain ⟨more, rfl, hmore⟩ := hadds
    rw [List.mem_append, List.mem_singleton]
    rcases List.mem_append.mp hx with hx | hx
    · exact Or.inl (ih hx)
    · exact Or.inr (hmore x hx)

/-- The entries are in the order of their origins. -/
theorem pairwise {R : ω → ω → Prop} {os : List ω} {l : List α} (h : Batches origin os l)
    (hos : os.Pairwise R) (hrefl : ∀ o ∈ os, R o o) :
    l.Pairwise fun x y => R (origin x) (origin y) := by
  induction h with
  | nil => exact .nil
  | @snoc os o l l' h hadds ih =>
    obtain ⟨more, rfl, hmore⟩ := hadds
    obtain ⟨hos, _, hlast⟩ := List.pairwise_append.mp hos
    have hmem : ∀ o' ∈ os, o' ∈ os ++ [o] := fun o' ho' => List.mem_append_left _ ho'
    have hself : R o o := hrefl o (List.mem_append_right _ List.mem_cons_self)
    rw [List.pairwise_append]
    refine ⟨ih hos fun o' ho' => hrefl o' (hmem o' ho'), ?_, ?_⟩
    · apply List.pairwise_of_forall_mem_list
      intro x hx y hy
      rw [hmore x hx, hmore y hy]
      exact hself
    · intro x hx y hy
      rw [hmore y hy]
      exact hlast _ (h.origin_mem hx) o List.mem_cons_self

end Batches

end Summer
