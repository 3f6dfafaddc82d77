/-
Assignments to named slots.

A list of assignments is read one by one.  Each is for a slot, is passed over, or fails.  The
list succeeds exactly when each of its members is read, and of several for one slot the last
counts (`assignAll_ok_iff`).
-/
import Mathlib.Logic.Function.Basic
import Mathlib.Tactic.Tauto

namespace Assignments

variable {K A ε : Type} {V : K → Type}

abbrev Slots (V : K → Type) := (k : K) → Option (V k)

def empty : Slots V := fun _ => none

section
variable [DecidableEq K]

def put (slots : Slots V) : Option (Sigma V) → Slots V
  | some entry => Function.update slots entry.1 (some entry.2)
  | none => slots

def assign (read : A → Except ε (Option (Sigma V))) (slots : Slots V) (a : A) :
    Except ε (Slots V) :=
  (read a).map (put slots)

def assignAll (read : A → Except ε (Option (Sigma V))) (slots : Slots V) (l : List A) :
    Except ε (Slots V) :=
  l.foldlM (assign read) slots

end

/-- The last assignment of the list that is for this slot has this value. -/
def Last (read : A → Except ε (Option (Sigma V))) (l : List A) (k : K) (v : V k) : Prop :=
  ∃ pre a post, l = pre ++ a :: post ∧ read a = .ok (some ⟨k, v⟩) ∧
    ∀ b ∈ post, ∀ w, read b ≠ .ok (some ⟨k, w⟩)

variable {read : A → Except ε (Option (Sigma V))}

theorem Last.cons {l : List A} {k : K} {v : V k} (h : Last read l k v) (a : A) :
    Last read (a :: l) k v := by
  obtain ⟨pre, b, post, rfl, hb, hpost⟩ := h
  exact ⟨a :: pre, b, post, rfl, hb, hpost⟩

theorem last_cons_iff {a : A} {l : List A} {k : K} {v : V k} :
    Last read (a :: l) k v ↔ Last read l k v ∨
      (read a = .ok (some ⟨k, v⟩) ∧ ∀ b ∈ l, ∀ w, read b ≠ .ok (some ⟨k, w⟩)) := by
  constructor
  · intro h
    obtain ⟨pre, b, post, heq, hb, hpost⟩ := h
    cases pre with
    | nil =>
      cases heq
      exact Or.inr ⟨hb, hpost⟩
    | cons c pre =>
      cases heq
      exact Or.inl ⟨pre, b, post, rfl, hb, hpost⟩
  · intro h
    rcases h with h | ⟨ha, hrest⟩
    · exact h.cons a
    · exact ⟨[], a, l, rfl, ha, hrest⟩

variable [DecidableEq K]

theorem put_eq_some_iff {slots : Slots V} {entry : Option (Sigma V)} {k : K} {v : V k} :
    put slots entry k = some v ↔
      entry = some ⟨k, v⟩ ∨ ((∀ w, entry ≠ some ⟨k, w⟩) ∧ slots k = some v) := by
  cases entry with
  | none => simp [put]
  | some entry =>
    obtain ⟨k', v'⟩ := entry
    by_cases hk : k = k'
    · subst hk
      simp [put]
    · have hne : ∀ w : V k, (some ⟨k', v'⟩ : Option (Sigma V)) ≠ some ⟨k, w⟩ := by
        intro w heq
        exact hk (congrArg Sigma.fst (Option.some.inj heq)).symm
      simp only [put, Function.update_of_ne hk, hne, not_false_eq_true, implies_true, true_and,
        false_or, ne_eq]

/-- Every member is read, and a slot has its last value, or keeps the one it had. -/
theorem assignAll_ok_iff {slots out : Slots V} {l : List A} :
    assignAll read slots l = .ok out ↔ (∀ a ∈ l, ∃ entry, read a = .ok entry) ∧
      ∀ k v, out k = some v ↔ Last read l k v ∨
        ((∀ a ∈ l, ∀ w, read a ≠ .ok (some ⟨k, w⟩)) ∧ slots k = some v) := by
  induction l generalizing slots with
  | nil =>
    have hnone : ∀ k (v : V k), ¬ Last read [] k v := by
      intro k v h
      obtain ⟨pre, a, post, heq, _⟩ := h
      cases pre with
      | nil => cases heq
      | cons b pre => cases heq
    constructor
    · intro h
      cases h
      simp [hnone]
    · intro h
      have heq : out = slots := by
        funext k
        refine Option.ext fun v => ?_
        simpa [hnone] using h.2 k v
      rw [heq]
      rfl
  | cons a l ih =>
    have hcons : assignAll read slots (a :: l) =
        (assign read slots a).bind fun slots => assignAll read slots l := by
      rw [assignAll, List.foldlM_cons]
      rfl
    rw [hcons, List.forall_mem_cons]
    cases ha : read a with
    | error e => simp [assign, ha, Except.map, Except.bind]
    | ok entry =>
      have hfirst : assign read slots a = .ok (put slots entry) := by
        rw [assign, ha]
        rfl
      rw [hfirst]
      refine ih.trans (and_congr (by simp) (forall_congr' fun k => forall_congr' fun v => ?_))
      -- the first assignment is looked at only where no later one is for its slot
      rw [last_cons_iff, put_eq_some_iff, List.forall_mem_cons, ha]
      simp only [ne_eq, Except.ok.injEq]
      tauto

end Assignments
