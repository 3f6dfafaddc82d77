/-
Runs of a labelled transition system.

A system is a relation `step : S → A → S → Prop`; `Run step s acts t` says that the
actions `acts`, taken in order, lead from `s` to `t`.  An invariant of every step is
an invariant of every run, and a run whose steps all meet a side condition is a run
of the guarded system.  A loss that grows exactly in the steps that break the condition
tells from its two ends whether a run is guarded (`guarded_iff_of_loss`).
-/
import Mathlib.Order.Basic

inductive Run {S A : Type*} (step : S → A → S → Prop) : S → List A → S → Prop
  | nil (s : S) : Run step s [] s
  | cons {s t u : S} {a : A} {acts : List A} :
      step s a t → Run step t acts u → Run step s (a :: acts) u

namespace Run

variable {S A : Type*} {step : S → A → S → Prop}

/-- The steps of `step` whose source state and action meet `cond`. -/
def Guarded (step : S → A → S → Prop) (cond : S → A → Prop) (s : S) (a : A) (t : S) : Prop :=
  step s a t ∧ cond s a

theorem single {s t : S} {a : A} (h : step s a t) : Run step s [a] t :=
  .cons h (.nil t)

theorem append {s t u : S} {as bs : List A} (h : Run step s as t) (h' : Run step t bs u) :
    Run step s (as ++ bs) u := by
  induction h with
  | nil s => exact h'
  | cons hstep _ ih => exact .cons hstep (ih h')

theorem snoc {s t u : S} {as : List A} {a : A} (h : Run step s as t) (h' : step t a u) :
    Run step s (as ++ [a]) u :=
  h.append (single h')

/-- A run passes through the step of each of its actions. -/
theorem split {s t : S} {as bs : List A} {a : A} (h : Run step s (as ++ a :: bs) t) :
    ∃ u v, Run step s as u ∧ step u a v ∧ Run step v bs t := by
  induction as generalizing s with
  | nil =>
      cases h with
      | cons hstep hrest => exact ⟨s, _, .nil s, hstep, hrest⟩
  | cons b rest ih =>
      cases h with
      | cons hstep hrest =>
          obtain ⟨u, v, hpre, ha, hpost⟩ := ih hrest
          exact ⟨u, v, .cons hstep hpre, ha, hpost⟩

theorem mono {step' : S → A → S → Prop} (hsub : ∀ s a t, step s a t → step' s a t)
    {s t : S} {acts : List A} (h : Run step s acts t) : Run step' s acts t := by
  induction h with
  | nil s => exact .nil s
  | cons hstep _ ih => exact .cons (hsub _ _ _ hstep) ih

theorem of_guarded {cond : S → A → Prop} {s t : S} {acts : List A}
    (h : Run (Guarded step cond) s acts t) : Run step s acts t :=
  h.mono fun _ _ _ hstep => hstep.1

/-- Where the condition is one on the actions, it is one on the run. -/
theorem guarded_iff_forall {cond : A → Prop} {s t : S} {acts : List A} (h : Run step s acts t) :
    Run (Guarded step fun _ => cond) s acts t ↔ ∀ a ∈ acts, cond a := by
  constructor
  · intro hguarded
    clear h
    induction hguarded with
    | nil s => exact fun _ ha => absurd ha List.not_mem_nil
    | cons hstep _ ih =>
        intro a ha
        rcases List.mem_cons.mp ha with rfl | ha
        · exact hstep.2
        · exact ih a ha
  · intro hall
    induction h with
    | nil s => exact .nil s
    | cons hstep _ ih =>
        exact .cons ⟨hstep, hall _ List.mem_cons_self⟩
          (ih fun a ha => hall a (List.mem_cons_of_mem _ ha))

/-- What every step keeps, every run keeps. -/
theorem invariant {I : S → Prop} (hstep : ∀ s a t, step s a t → I s → I t)
    {s t : S} {acts : List A} (h : Run step s acts t) (hs : I s) : I t := by
  induction h with
  | nil s => exact hs
  | cons h _ ih => exact ih (hstep _ _ _ h hs)

/-- What every step keeps of the state and the actions so far, every run keeps. -/
theorem trace_invariant {I : List A → S → Prop}
    (hstep : ∀ acts s a t, step s a t → I acts s → I (acts ++ [a]) t)
    {s t : S} {pre acts : List A} (h : Run step s acts t) (hs : I pre s) : I (pre ++ acts) t := by
  induction h generalizing pre with
  | nil s => rwa [List.append_nil]
  | cons h _ ih =>
    rw [List.append_cons]
    exact ih (hstep _ _ _ _ h hs)

/-- What relates the two ends of every step, and is reflexive and transitive, relates
the two ends of every run. -/
theorem rel {r : S → S → Prop} (hrefl : ∀ s, r s s) (htrans : ∀ s t u, r s t → r t u → r s u)
    (hstep : ∀ s a t, step s a t → r s t) {s t : S} {acts : List A}
    (h : Run step s acts t) : r s t := by
  induction h with
  | nil s => exact hrefl s
  | cons h _ ih => exact htrans _ _ _ (hstep _ _ _ h) ih

/-- A quantity that never shrinks, and stays the same exactly in the steps that meet the
condition, is the same at both ends of exactly the guarded runs. -/
theorem guarded_iff_of_loss {M : Type*} [PartialOrder M] (loss : S → M) {cond : S → A → Prop}
    (hmono : ∀ s a t, step s a t → loss s ≤ loss t)
    (hcond : ∀ s a t, step s a t → (loss t = loss s ↔ cond s a))
    {s t : S} {acts : List A} (h : Run step s acts t) :
    loss t = loss s ↔ Run (Guarded step cond) s acts t := by
  constructor
  · intro heq
    induction h with
    | nil s => exact .nil s
    | @cons s u t a acts hstep hrest ih =>
        have hgrow : loss u ≤ loss t :=
          hrest.rel (r := fun s t => loss s ≤ loss t) (fun _ => le_refl _)
            (fun _ _ _ => le_trans) hmono
        have hsame : loss u = loss s := le_antisymm (heq ▸ hgrow) (hmono _ _ _ hstep)
        exact .cons ⟨hstep, (hcond _ _ _ hstep).mp hsame⟩ (ih (heq.trans hsame.symm))
  · intro hguarded
    induction hguarded with
    | nil s => rfl
    | cons hstep hrest ih =>
        exact (ih hrest.of_guarded).trans ((hcond _ _ _ hstep.1).mpr hstep.2)

end Run
