/-
Matching the values of two partial functions along a list.

`g` asks for a value at some places of the list and `f` gives one at some places.  When
what `f` gives weighs at most what `g` asks for at the same place, and yet every value
asked for can be matched with one given that weighs as much, then `f` gives at every place
exactly the weight that `g` asks for.
-/
import Mathlib.Algebra.Order.BigOperators.Group.List
import Mathlib.Algebra.Order.Ring.Nat
import Mathlib.Data.List.Perm.Subperm

namespace Matching

variable {α β γ : Type*}

def weight (v : β → ℕ) : Option β → ℕ
  | none => 0
  | some b => v b

theorem sum_filterMap (f : α → Option β) (v : β → ℕ) (l : List α) :
    ((l.filterMap f).map v).sum = (l.map fun x => weight v (f x)).sum := by
  induction l with
  | nil => rfl
  | cons x rest ih =>
      rw [List.map_cons, List.sum_cons, ← ih, List.filterMap_cons]
      cases f x with
      | none => simp only [weight, Nat.zero_add]
      | some b => simp only [weight, List.map_cons, List.sum_cons]

theorem sum_le_of_forall₂ {R : γ → β → Prop} {v : β → ℕ} {w : γ → ℕ}
    (hR : ∀ c b, R c b → w c ≤ v b) {l : List γ} {m : List β} (h : List.Forall₂ R l m) :
    (l.map w).sum ≤ (m.map v).sum := by
  induction h with
  | nil => exact Nat.le_refl _
  | cons hcb _ ih =>
      rw [List.map_cons, List.map_cons, List.sum_cons, List.sum_cons]
      exact Nat.add_le_add (hR _ _ hcb) ih

theorem sum_le_of_subperm {v : β → ℕ} {l m : List β} (h : l.Subperm m) :
    (l.map v).sum ≤ (m.map v).sum := by
  obtain ⟨l', hperm, hsub⟩ := h
  rw [← (hperm.map v).sum_eq]
  exact (hsub.map v).sum_le_sum fun _ _ => Nat.zero_le _

/-- Terms that are smaller one by one and not smaller in sum are equal. -/
theorem eq_of_sum_le {a b : α → ℕ} {l : List α} (hle : ∀ x ∈ l, a x ≤ b x)
    (hsum : (l.map b).sum ≤ (l.map a).sum) : ∀ x ∈ l, a x = b x := by
  induction l with
  | nil => exact fun x hx => absurd hx List.not_mem_nil
  | cons y rest ih =>
      rw [List.map_cons, List.map_cons, List.sum_cons, List.sum_cons] at hsum
      have hy := hle y List.mem_cons_self
      have hrest : (rest.map a).sum ≤ (rest.map b).sum :=
        List.sum_le_sum fun x hx => hle x (List.mem_cons_of_mem _ hx)
      intro x hx
      rcases List.mem_cons.mp hx with rfl | hx
      · omega
      · exact ih (fun z hz => hle z (List.mem_cons_of_mem _ hz)) (by omega) x hx

theorem weight_eq_of_matched {f : α → Option β} {g : α → Option γ} {R : γ → β → Prop}
    {v : β → ℕ} {w : γ → ℕ} {l : List α} {kept : List β}
    (hle : ∀ x ∈ l, weight v (f x) ≤ weight w (g x)) (hR : ∀ c b, R c b → w c ≤ v b)
    (hkept : kept.Subperm (l.filterMap f)) (hmatch : List.Forall₂ R (l.filterMap g) kept) :
    ∀ x ∈ l, weight v (f x) = weight w (g x) := by
  apply eq_of_sum_le hle
  calc (l.map fun x => weight w (g x)).sum
      = ((l.filterMap g).map w).sum := (sum_filterMap g w l).symm
    _ ≤ (kept.map v).sum := sum_le_of_forall₂ hR hmatch
    _ ≤ ((l.filterMap f).map v).sum := sum_le_of_subperm hkept
    _ = (l.map fun x => weight v (f x)).sum := sum_filterMap f v l

/-- Values matched place by place. -/
theorem forall₂_filterMap {f : α → Option β} {g : α → Option γ} {R : γ → β → Prop} {l : List α}
    (h : ∀ x ∈ l, Option.Rel R (g x) (f x)) :
    List.Forall₂ R (l.filterMap g) (l.filterMap f) := by
  induction l with
  | nil => exact .nil
  | cons x rest ih =>
      have hrest := ih fun y hy => h y (List.mem_cons_of_mem _ hy)
      have hx := h x List.mem_cons_self
      rw [List.filterMap_cons, List.filterMap_cons]
      cases hg : g x with
      | none =>
          rw [hg] at hx
          cases hf : f x with
          | none => exact hrest
          | some b =>
              rw [hf] at hx
              cases hx
      | some c =>
          rw [hg] at hx
          cases hf : f x with
          | none =>
              rw [hf] at hx
              cases hx
          | some b =>
              rw [hf] at hx
              cases hx with
              | some hcb => exact .cons hcb hrest

end Matching
