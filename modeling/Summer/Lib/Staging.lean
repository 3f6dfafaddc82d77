/-
Items that are staged step by step and taken once.

Every step adds the items of its label to what is pending, and a step that takes adds a
copy of what is pending by then to what has been taken.  Items staged after the last such
step are never taken: a run with one taking step takes everything exactly when nothing is
staged after it (`taken_all_iff`).
-/
import Mathlib.Data.List.Perm.Basic
import Summer.Lib.Run

structure Staging {S L : Type*} (step : S → L → S → Prop) (α : Type*) where
  pending : S → List α
  taken : S → List α
  items : L → List α
  takes : L → Prop
  pending_step : ∀ {s l t}, step s l t → pending t = pending s ++ items l
  taken_take : ∀ {s l t}, step s l t → takes l → taken t = taken s ++ pending s
  taken_keep : ∀ {s l t}, step s l t → ¬ takes l → taken t = taken s
  items_take : ∀ {s l t}, step s l t → takes l → items l = []

namespace Staging

variable {S L α : Type*} {step : S → L → S → Prop} (G : Staging step α)

theorem pending_run {s t : S} {labels : List L} (h : Run step s labels t) :
    G.pending t = G.pending s ++ labels.flatMap G.items := by
  induction h with
  | nil s => rw [List.flatMap_nil, List.append_nil]
  | cons hstep _ ih => rw [ih, G.pending_step hstep, List.flatMap_cons, List.append_assoc]

theorem taken_run_keep {s t : S} {labels : List L} (h : Run step s labels t)
    (hkeep : ∀ l ∈ labels, ¬ G.takes l) : G.taken t = G.taken s := by
  induction h with
  | nil s => rfl
  | cons hstep _ ih =>
      rw [ih fun l hl => hkeep l (List.mem_cons_of_mem _ hl)]
      exact G.taken_keep hstep (hkeep _ List.mem_cons_self)

/-- What a run takes is what its taking step finds. -/
theorem taken_run {s t : S} {pre post : List L} {l : L} (h : Run step s (pre ++ l :: post) t)
    (hl : G.takes l) (hpre : ∀ k ∈ pre, ¬ G.takes k) (hpost : ∀ k ∈ post, ¬ G.takes k) :
    G.taken t = G.taken s ++ (G.pending s ++ pre.flatMap G.items) := by
  obtain ⟨u, v, hbefore, hstep, hafter⟩ := h.split
  rw [G.taken_run_keep hafter hpost, G.taken_take hstep hl, G.taken_run_keep hbefore hpre,
    G.pending_run hbefore]

/-- Everything pending or staged is taken, once, exactly when nothing is staged after the
step that takes. -/
theorem taken_all_iff {s t : S} {pre post : List L} {l : L}
    (h : Run step s (pre ++ l :: post) t) (hl : G.takes l) (hpre : ∀ k ∈ pre, ¬ G.takes k)
    (hpost : ∀ k ∈ post, ¬ G.takes k) :
    (G.taken t).Perm (G.taken s ++ (G.pending s ++ (pre ++ l :: post).flatMap G.items)) ↔
      ∀ k ∈ post, G.items k = [] := by
  obtain ⟨u, v, _, hstep, _⟩ := h.split
  rw [G.taken_run h hl hpre hpost, List.flatMap_append, List.flatMap_cons,
    G.items_take hstep hl, List.nil_append, ← List.flatMap_eq_nil_iff]
  constructor
  · intro hperm
    have hlen := hperm.length_eq
    simp only [List.length_append] at hlen
    exact List.length_eq_zero_iff.mp (by omega)
  · intro hnil
    rw [hnil, List.append_nil]

/-- The same, for a run in which at most one step takes. -/
theorem taken_all_iff_noneAfter {s t : S} {labels : List L} (h : Run step s labels t)
    (hone : ∀ pre l post, labels = pre ++ l :: post → G.takes l →
      (∀ k ∈ pre, ¬ G.takes k) ∧ ∀ k ∈ post, ¬ G.takes k) :
    ((∃ l ∈ labels, G.takes l) →
      (G.taken t).Perm (G.taken s ++ (G.pending s ++ labels.flatMap G.items))) ↔
      ∀ pre l post, labels = pre ++ l :: post → G.takes l → ∀ k ∈ post, G.items k = [] := by
  constructor
  · intro hall pre l post hsplit hl
    obtain ⟨hpre, hpost⟩ := hone pre l post hsplit hl
    have hperm := hall ⟨l, by rw [hsplit]; simp, hl⟩
    rw [hsplit] at h hperm
    exact (G.taken_all_iff h hl hpre hpost).mp hperm
  · intro hnone htakes
    obtain ⟨l, hmem, hl⟩ := htakes
    obtain ⟨pre, post, hsplit⟩ := List.append_of_mem hmem
    obtain ⟨hpre, hpost⟩ := hone pre l post hsplit hl
    have hafter := hnone pre l post hsplit hl
    rw [hsplit] at h ⊢
    exact (G.taken_all_iff h hl hpre hpost).mpr hafter

end Staging
