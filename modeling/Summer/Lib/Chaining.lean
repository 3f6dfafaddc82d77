/-
Forward chaining by repeated passes over a shrinking list of rules.

A rule needs a finite set of keys and gives a finite set of keys.  It fires when
every key it needs is known, and firing it makes the keys it gives known.  `pass`
walks a list of rules once and fires what it can on the way, so a rule fired early
in a pass helps the rules after it in the same pass.  `rounds` repeats passes over
the rules left behind until a pass fires nothing.

The result does not depend on the order of the list.  The rules fired are the
derivable ones (`mem_rounds_fired`), a complete firing order exists exactly when
nothing is left (`rounds_left_eq_nil_iff_exists_order`), and when every key has a
single giver something is left exactly when a rule waits in a cycle or needs a key
that nobody gives (`rounds_left_eq_nil_iff`).
-/
import Mathlib.Data.Finset.Lattice.Lemmas
import Mathlib.Data.Fintype.Card
import Mathlib.Data.Set.Finite.List
import Mathlib.Logic.Relation
import Mathlib.Order.WellFounded

structure Rules (α κ : Type*) where
  needs : α → Finset κ
  gives : α → Finset κ

namespace Rules

variable {α κ : Type*} [DecidableEq κ] (R : Rules α κ)

def Ready (known : Finset κ) (a : α) : Prop := R.needs a ⊆ known

instance (known : Finset κ) (a : α) : Decidable (R.Ready known a) :=
  inferInstanceAs (Decidable (R.needs a ⊆ known))

def learn (known : Finset κ) (a : α) : Finset κ := known ∪ R.gives a

/-- The keys known once every rule of the list has fired. -/
def knows (known : Finset κ) (fired : List α) : Finset κ := fired.foldl R.learn known

/-- A legal firing order: each rule is ready when its turn comes. -/
def Fires : Finset κ → List α → Prop
  | _, [] => True
  | known, a :: rest => R.Ready known a ∧ Fires (R.learn known a) rest

/-- One pass: the rules fired, in order, and the rules left behind, in order. -/
def pass : Finset κ → List α → List α × List α
  | _, [] => ([], [])
  | known, a :: rest =>
    if R.Ready known a then
      let r := pass (R.learn known a) rest
      (a :: r.1, r.2)
    else
      let r := pass known rest
      (r.1, a :: r.2)

theorem knows_nil (known : Finset κ) : R.knows known [] = known := rfl

theorem knows_cons (known : Finset κ) (a : α) (rest : List α) :
    R.knows known (a :: rest) = R.knows (R.learn known a) rest := rfl

theorem knows_append (known : Finset κ) (l m : List α) :
    R.knows known (l ++ m) = R.knows (R.knows known l) m := by
  simp only [knows, List.foldl_append]

theorem mem_knows {known : Finset κ} {l : List α} {k : κ} :
    k ∈ R.knows known l ↔ k ∈ known ∨ ∃ a ∈ l, k ∈ R.gives a := by
  induction l generalizing known with
  | nil => simp [knows_nil]
  | cons a rest ih =>
      rw [knows_cons, ih]
      simp only [learn, Finset.mem_union, List.mem_cons, exists_eq_or_imp, or_assoc]

theorem knows_subset {known known' : Finset κ} {l m : List α}
    (hk : known ⊆ known') (hl : l ⊆ m) : R.knows known l ⊆ R.knows known' m := by
  intro k h
  rcases R.mem_knows.mp h with h | ⟨a, ha, hka⟩
  · exact R.mem_knows.mpr (Or.inl (hk h))
  · exact R.mem_knows.mpr (Or.inr ⟨a, hl ha, hka⟩)

omit [DecidableEq κ] in
theorem Ready.mono {R : Rules α κ} {known known' : Finset κ} {a : α}
    (h : R.Ready known a) (hk : known ⊆ known') : R.Ready known' a :=
  Finset.Subset.trans h hk

theorem fires_append {known : Finset κ} {l m : List α} :
    R.Fires known (l ++ m) ↔ R.Fires known l ∧ R.Fires (R.knows known l) m := by
  induction l generalizing known with
  | nil => simp [Fires, knows_nil]
  | cons a rest ih =>
      simp only [List.cons_append, Fires, ih, knows_cons, and_assoc]

/-- In a legal order each rule is ready once the rules before it have fired. -/
theorem fires_iff_split {known : Finset κ} {l : List α} :
    R.Fires known l ↔
      ∀ pre a post, l = pre ++ a :: post → R.Ready (R.knows known pre) a := by
  constructor
  · intro h pre a post hl
    subst hl
    exact ((R.fires_append).mp h).2.1
  · intro h
    induction l using List.reverseRecOn with
    | nil => trivial
    | append_singleton l a ih =>
        refine R.fires_append.mpr ⟨ih ?_, h l a [] rfl, trivial⟩
        intro pre b post hl
        exact h pre b (post ++ [a]) (by rw [hl, List.append_assoc, List.cons_append])

theorem Fires.ready {R : Rules α κ} {known : Finset κ} {l m : List α} {a : α}
    (h : R.Fires known (l ++ a :: m)) : R.Ready (R.knows known l) a :=
  ((R.fires_append).mp h).2.1

theorem Fires.mono {R : Rules α κ} {known known' : Finset κ} {l : List α}
    (h : R.Fires known l) (hk : known ⊆ known') : R.Fires known' l := by
  induction l generalizing known known' with
  | nil => trivial
  | cons a rest ih =>
      exact ⟨h.1.mono hk, ih h.2 (Finset.union_subset_union_left hk)⟩

/-- A legal order stays legal without the rules whose keys are known already. -/
theorem Fires.filter {R : Rules α κ} {known known' : Finset κ} {l : List α} (p : α → Bool)
    (h : R.Fires known l) (hk : known ⊆ known')
    (hp : ∀ a ∈ l, p a = false → R.gives a ⊆ known') : R.Fires known' (l.filter p) := by
  induction l generalizing known known' with
  | nil => trivial
  | cons a rest ih =>
      have hrest : ∀ b ∈ rest, p b = false → R.gives b ⊆ known' := fun b hb =>
        hp b (List.mem_cons_of_mem _ hb)
      cases hpa : p a with
      | false =>
          rw [List.filter_cons_of_neg (by rw [hpa]; exact Bool.false_ne_true)]
          exact ih h.2 (Finset.union_subset hk (hp a List.mem_cons_self hpa)) hrest
      | true =>
          rw [List.filter_cons_of_pos hpa]
          refine ⟨h.1.mono hk, ih h.2 (Finset.union_subset_union_left hk) fun b hb hpb => ?_⟩
          exact (hrest b hb hpb).trans Finset.subset_union_left

/-! ## One pass -/

theorem pass_perm (known : Finset κ) (l : List α) :
    ((R.pass known l).1 ++ (R.pass known l).2).Perm l := by
  induction l generalizing known with
  | nil => exact List.Perm.refl []
  | cons a rest ih =>
      by_cases h : R.Ready known a
      · simp only [pass, if_pos h, List.cons_append]
        exact (ih (R.learn known a)).cons a
      · simp only [pass, if_neg h]
        exact List.perm_middle.trans ((ih known).cons a)

theorem pass_fires (known : Finset κ) (l : List α) : R.Fires known (R.pass known l).1 := by
  induction l generalizing known with
  | nil => trivial
  | cons a rest ih =>
      by_cases h : R.Ready known a
      · simp only [pass, if_pos h]
        exact ⟨h, ih (R.learn known a)⟩
      · simp only [pass, if_neg h]
        exact ih known

/-- A pass that fires nothing had no ready rule in its list. -/
theorem pass_idle {known : Finset κ} {l : List α} (h : (R.pass known l).1 = []) :
    (R.pass known l).2 = l ∧ ∀ a ∈ l, ¬ R.Ready known a := by
  induction l with
  | nil => exact ⟨rfl, fun _ ha => absurd ha List.not_mem_nil⟩
  | cons a rest ih =>
      by_cases hr : R.Ready known a
      · simp only [pass, if_pos hr] at h
        exact absurd h (List.cons_ne_nil _ _)
      · simp only [pass, if_neg hr] at h ⊢
        obtain ⟨hrest, hidle⟩ := ih h
        refine ⟨by rw [hrest], fun b hb => ?_⟩
        rcases List.mem_cons.mp hb with rfl | hb
        · exact hr
        · exact hidle b hb

theorem pass_left_length (known : Finset κ) (l : List α) :
    (R.pass known l).1.length + (R.pass known l).2.length = l.length := by
  rw [← List.length_append]
  exact (R.pass_perm known l).length_eq

theorem pass_left_lt {known : Finset κ} {l : List α} (h : (R.pass known l).1 ≠ []) :
    (R.pass known l).2.length < l.length := by
  have hlen := R.pass_left_length known l
  have hpos := List.length_pos_iff.mpr h
  omega

/-- A legal order is fired whole by a single pass. -/
theorem pass_of_fires {known : Finset κ} {l : List α} (h : R.Fires known l) :
    R.pass known l = (l, []) := by
  induction l generalizing known with
  | nil => rfl
  | cons a rest ih => simp only [pass, if_pos h.1, ih h.2]

/-! ## Passes until nothing fires -/

def rounds (known : Finset κ) (l : List α) : List α × List α :=
  if _h : (R.pass known l).1 = [] then ([], l)
  else
    let r := rounds (R.knows known (R.pass known l).1) (R.pass known l).2
    ((R.pass known l).1 ++ r.1, r.2)
termination_by l.length
decreasing_by exact R.pass_left_lt _h

theorem rounds_idle {known : Finset κ} {l : List α} (h : (R.pass known l).1 = []) :
    R.rounds known l = ([], l) := by
  rw [rounds, dif_pos h]

theorem rounds_step {known : Finset κ} {l : List α} (h : (R.pass known l).1 ≠ []) :
    R.rounds known l =
      ((R.pass known l).1 ++ (R.rounds (R.knows known (R.pass known l).1) (R.pass known l).2).1,
        (R.rounds (R.knows known (R.pass known l).1) (R.pass known l).2).2) := by
  rw [rounds, dif_neg h]

/-- What holds of every list with nothing to fire, and passes from the rules left by
a pass to the list before it, holds of every run of rounds. -/
theorem rounds_induction {motive : Finset κ → List α → Prop}
    (idle : ∀ known l, (R.pass known l).1 = [] → motive known l)
    (step : ∀ known l, (R.pass known l).1 ≠ [] →
      motive (R.knows known (R.pass known l).1) (R.pass known l).2 → motive known l)
    (known : Finset κ) (l : List α) : motive known l := by
  by_cases h : (R.pass known l).1 = []
  · exact idle known l h
  · exact step known l h (rounds_induction idle step _ _)
termination_by l.length
decreasing_by exact R.pass_left_lt h

theorem rounds_perm (known : Finset κ) (l : List α) :
    ((R.rounds known l).1 ++ (R.rounds known l).2).Perm l := by
  induction known, l using R.rounds_induction with
  | idle known l h => rw [R.rounds_idle h]; exact List.Perm.refl l
  | step known l h ih =>
      rw [R.rounds_step h, List.append_assoc]
      exact (ih.append_left _).trans (R.pass_perm known l)

theorem rounds_fires (known : Finset κ) (l : List α) : R.Fires known (R.rounds known l).1 := by
  induction known, l using R.rounds_induction with
  | idle known l h => rw [R.rounds_idle h]; trivial
  | step known l h ih =>
      rw [R.rounds_step h]
      exact R.fires_append.mpr ⟨R.pass_fires known l, ih⟩

/-- Nothing that is left could still fire. -/
theorem rounds_stuck (known : Finset κ) (l : List α) :
    ∀ a ∈ (R.rounds known l).2, ¬ R.Ready (R.knows known (R.rounds known l).1) a := by
  induction known, l using R.rounds_induction with
  | idle known l h =>
      rw [R.rounds_idle h, knows_nil]
      exact (R.pass_idle h).2
  | step known l h ih =>
      rw [R.rounds_step h, knows_append]
      exact ih

theorem rounds_of_fires {known : Finset κ} {l : List α} (h : R.Fires known l) :
    R.rounds known l = (l, []) := by
  have hpass := R.pass_of_fires h
  by_cases hne : l = []
  · subst hne
    exact R.rounds_idle rfl
  · have hidle : R.rounds (R.knows known l) [] = ([], []) := R.rounds_idle rfl
    rw [R.rounds_step (by rw [hpass]; exact hne), hpass, hidle, List.append_nil]

theorem pass_append (known : Finset κ) (l m : List α) :
    R.pass known (l ++ m) =
      ((R.pass known l).1 ++ (R.pass (R.knows known (R.pass known l).1) m).1,
        (R.pass known l).2 ++ (R.pass (R.knows known (R.pass known l).1) m).2) := by
  induction l generalizing known with
  | nil => rfl
  | cons a rest ih =>
      by_cases h : R.Ready known a
      · simp only [List.cons_append, pass, if_pos h, ih, knows_cons]
      · simp only [List.cons_append, pass, if_neg h, ih]

/-- A legal order at the head of the list is fired first, and as it stands. -/
theorem rounds_append_of_fires {known : Finset κ} {l m : List α} (h : R.Fires known l) :
    ∃ more, (R.rounds known (l ++ m)).1 = l ++ more := by
  by_cases hidle : (R.pass known (l ++ m)).1 = []
  · refine ⟨[], ?_⟩
    rw [R.rounds_idle hidle]
    rw [pass_append, R.pass_of_fires h] at hidle
    have hl : l = [] := (List.append_eq_nil_iff.mp hidle).1
    rw [hl]
    rfl
  · rw [R.rounds_step hidle]
    simp only [pass_append, R.pass_of_fires h, List.append_assoc]
    exact ⟨_, rfl⟩

/-! ## Derivable keys -/

/-- The least set of keys that holds the known ones and is closed under the rules of
the list. -/
inductive Derives (known : Finset κ) (l : List α) : κ → Prop
  | known {k : κ} : k ∈ known → Derives known l k
  | fire {a : α} {k : κ} : a ∈ l → (∀ j ∈ R.needs a, Derives known l j) → k ∈ R.gives a →
      Derives known l k

def Derivable (known : Finset κ) (l : List α) (a : α) : Prop :=
  a ∈ l ∧ ∀ k ∈ R.needs a, R.Derives known l k

omit [DecidableEq κ] in
theorem Derives.mono {R : Rules α κ} {known known' : Finset κ} {l m : List α} {k : κ}
    (h : R.Derives known l k) (hk : known ⊆ known') (hl : l ⊆ m) : R.Derives known' m k := by
  induction h with
  | known hmem => exact .known (hk hmem)
  | fire ha _ hg ih => exact .fire (hl ha) ih hg

omit [DecidableEq κ] in
theorem Derivable.congr {R : Rules α κ} {known : Finset κ} {l m : List α} {a : α}
    (hl : l.Perm m) : R.Derivable known l a ↔ R.Derivable known m a := by
  constructor
  · rintro ⟨ha, hn⟩
    exact ⟨hl.mem_iff.mp ha,
      fun k hk => (hn k hk).mono (Finset.Subset.refl _) hl.subset⟩
  · rintro ⟨ha, hn⟩
    exact ⟨hl.mem_iff.mpr ha,
      fun k hk => (hn k hk).mono (Finset.Subset.refl _) hl.symm.subset⟩

/-- A legal order over rules of the list fires derivable rules only. -/
theorem derivable_of_fires {known : Finset κ} {l m : List α} (h : R.Fires known m)
    (hm : m ⊆ l) : ∀ a ∈ m, R.Derivable known l a := by
  induction m using List.reverseRecOn with
  | nil => exact fun _ ha => absurd ha List.not_mem_nil
  | append_singleton m b ih =>
      have hfires := R.fires_append.mp h
      have hprev := ih hfires.1 fun a ha => hm (List.mem_append_left _ ha)
      intro a ha
      rcases List.mem_append.mp ha with ha | ha
      · exact hprev a ha
      · obtain rfl : a = b := List.mem_singleton.mp ha
        refine ⟨hm (List.mem_append_right _ (List.mem_singleton.mpr rfl)), fun k hk => ?_⟩
        rcases R.mem_knows.mp (hfires.2.1 hk) with hk | ⟨c, hc, hkc⟩
        · exact .known hk
        · exact .fire (hprev c hc).1 (hprev c hc).2 hkc

omit [DecidableEq κ] in
/-- A set of keys closed under the rules of the list holds every derivable key. -/
theorem Derives.mem_of_closed {R : Rules α κ} {known S : Finset κ} {l : List α} {k : κ}
    (h : R.Derives known l k) (hk : known ⊆ S)
    (hclosed : ∀ a ∈ l, R.Ready S a → R.gives a ⊆ S) : k ∈ S := by
  induction h with
  | known hmem => exact hk hmem
  | fire ha _ hg ih => exact hclosed _ ha (fun j hj => ih j hj) hg

/-- The keys known after the rounds are the derivable ones. -/
theorem mem_knows_rounds {known : Finset κ} {l : List α} {k : κ} :
    k ∈ R.knows known (R.rounds known l).1 ↔ R.Derives known l k := by
  have hperm := R.rounds_perm known l
  constructor
  · intro h
    rcases R.mem_knows.mp h with h | ⟨a, ha, hka⟩
    · exact .known h
    · have hderivable := R.derivable_of_fires (R.rounds_fires known l)
        (fun b hb => hperm.subset (List.mem_append_left _ hb)) a ha
      exact .fire hderivable.1 hderivable.2 hka
  · intro h
    refine h.mem_of_closed (fun j hj => R.mem_knows.mpr (Or.inl hj)) ?_
    intro b hb hready
    rcases List.mem_append.mp (hperm.mem_iff.mpr hb) with hf | hleft
    · exact fun j hj => R.mem_knows.mpr (Or.inr ⟨b, hf, hj⟩)
    · exact absurd hready (R.rounds_stuck known l b hleft)

/-- The rules fired by the rounds are the derivable ones. -/
theorem mem_rounds_fired {known : Finset κ} {l : List α} {a : α} :
    a ∈ (R.rounds known l).1 ↔ R.Derivable known l a := by
  have hperm := R.rounds_perm known l
  constructor
  · intro ha
    exact R.derivable_of_fires (R.rounds_fires known l)
      (fun b hb => hperm.subset (List.mem_append_left _ hb)) a ha
  · intro h
    have hready : R.Ready (R.knows known (R.rounds known l).1) a := fun k hk =>
      R.mem_knows_rounds.mpr (h.2 k hk)
    rcases List.mem_append.mp (hperm.mem_iff.mpr h.1) with hf | hleft
    · exact hf
    · exact absurd hready (R.rounds_stuck known l a hleft)

theorem mem_rounds_left {known : Finset κ} {l : List α} {a : α} (ha : a ∈ l) :
    a ∈ (R.rounds known l).2 ↔ ¬ R.Derivable known l a := by
  rw [← R.mem_rounds_fired]
  constructor
  · intro hleft hf
    obtain ⟨p, s, hps⟩ := List.append_of_mem hf
    have hr : R.Ready (R.knows known p) a :=
      Fires.ready (hps ▸ R.rounds_fires known l)
    refine R.rounds_stuck known l a hleft (hr.mono ?_)
    exact R.knows_subset (Finset.Subset.refl _) (hps ▸ List.subset_append_left p (a :: s))
  · intro hf
    exact (List.mem_append.mp ((R.rounds_perm known l).mem_iff.mpr ha)).resolve_left hf

/-- Everything fires exactly when some legal order of the whole list exists. -/
theorem rounds_left_eq_nil_iff_exists_order {known : Finset κ} {l : List α} :
    (R.rounds known l).2 = [] ↔ ∃ m, m.Perm l ∧ R.Fires known m := by
  constructor
  · intro h
    have hperm := R.rounds_perm known l
    rw [h, List.append_nil] at hperm
    exact ⟨_, hperm, R.rounds_fires known l⟩
  · rintro ⟨m, hm, hf⟩
    refine List.eq_nil_iff_forall_not_mem.mpr fun a ha => ?_
    have hal : a ∈ l := (R.rounds_perm known l).subset (List.mem_append_right _ ha)
    exact (R.mem_rounds_left hal).mp ha
      (R.derivable_of_fires hf hm.subset a (hm.mem_iff.mpr hal))

/-! ## Why something is left -/

/-- `a` needs a key that is not known and that `b` gives. -/
def Waits (known : Finset κ) (l : List α) (a b : α) : Prop :=
  a ∈ l ∧ b ∈ l ∧ ∃ k ∈ R.needs a, k ∉ known ∧ k ∈ R.gives b

/-- `a` needs a key that is not known and that no rule of the list gives. -/
def Lacks (known : Finset κ) (l : List α) (a : α) : Prop :=
  ∃ k ∈ R.needs a, k ∉ known ∧ ∀ b ∈ l, k ∉ R.gives b

/-- No key has two givers in the list. -/
def OneGiver (l : List α) : Prop :=
  ∀ a ∈ l, ∀ b ∈ l, ∀ k ∈ R.gives a, k ∈ R.gives b → a = b

omit [DecidableEq κ] in
theorem not_lacks_of_derivable {known : Finset κ} {l : List α} {a : α}
    (h : R.Derivable known l a) : ¬ R.Lacks known l a := by
  rintro ⟨k, hk, hunknown, hnobody⟩
  cases h.2 k hk with
  | known hmem => exact hunknown hmem
  | fire hb _ hg => exact hnobody _ hb hg

omit [DecidableEq κ] in
/-- A derivable rule can only wait along a well-founded chain. -/
theorem acc_of_derives {known : Finset κ} {l : List α} (hone : R.OneGiver l) {k : κ}
    (h : R.Derives known l k) (hk : k ∉ known) :
    ∀ a ∈ l, k ∈ R.gives a → Acc (fun b a => R.Waits known l a b) a := by
  induction h with
  | known hmem => exact absurd hmem hk
  | @fire c k hc _ hg ih =>
      intro a ha hka
      obtain rfl : a = c := hone a ha c hc k hka hg
      refine Acc.intro a fun b hb => ?_
      obtain ⟨_, hbl, j, hj, hunknown, hgive⟩ := hb
      exact ih j hj hunknown b hbl hgive

omit [DecidableEq κ] in
theorem acc_of_derivable {known : Finset κ} {l : List α} (hone : R.OneGiver l) {a : α}
    (h : R.Derivable known l a) : Acc (fun b a => R.Waits known l a b) a := by
  refine Acc.intro a fun b hb => ?_
  obtain ⟨_, hbl, j, hj, hunknown, hgive⟩ := hb
  exact R.acc_of_derives hone (h.2 j hj) hunknown b hbl hgive

/-- A relation has no cycle through an accessible point. -/
theorem not_transGen_self_of_acc {r : α → α → Prop} {a : α}
    (h : Acc (fun b a => r a b) a) : ¬ Relation.TransGen r a a := by
  induction h with
  | intro a _ ih =>
      intro hcycle
      obtain ⟨b, hab, hba⟩ := Relation.TransGen.head'_iff.mp hcycle
      exact ih b hab (Relation.TransGen.tail' hba hab)

/-- A relation along which a rank drops has no cycle. -/
theorem not_transGen_self_of_rank {r : α → α → Prop} (rank : α → ℕ)
    (h : ∀ a b, r a b → rank b < rank a) (a : α) : ¬ Relation.TransGen r a a :=
  not_transGen_self_of_acc
    (Subrelation.accessible (fun {b a} hab => h a b hab) ((measure rank).wf.apply a))

/-- In a finite list where every member has a successor in the list, some member
reaches itself. -/
theorem exists_cycle {r : α → α → Prop} {l : List α} (hne : l ≠ [])
    (hnext : ∀ a ∈ l, ∃ b ∈ l, r a b) : ∃ a ∈ l, Relation.TransGen r a a := by
  by_contra hno
  simp only [not_exists, not_and] at hno
  let s : {a // a ∈ l} → {a // a ∈ l} → Prop := fun b a => Relation.TransGen r a.1 b.1
  have hfin : Finite {a // a ∈ l} := List.finite_toSet l
  have htrans : IsTrans _ s := ⟨fun _ _ _ hab hbc => hbc.trans hab⟩
  have hirrefl : Std.Irrefl s := ⟨fun a => hno a.1 a.2⟩
  have hwf : WellFounded s := Finite.wellFounded_of_trans_of_irrefl s
  obtain ⟨x, hx⟩ := List.exists_mem_of_ne_nil l hne
  obtain ⟨m, _, hm⟩ := hwf.has_min Set.univ ⟨⟨x, hx⟩, trivial⟩
  obtain ⟨b, hb, hmb⟩ := hnext m.1 m.2
  exact hm ⟨b, hb⟩ trivial (Relation.TransGen.single hmb)

/-- Nothing is left exactly when no rule waits in a cycle and none needs a key that
nobody gives. -/
theorem rounds_left_eq_nil_iff {known : Finset κ} {l : List α} (hone : R.OneGiver l) :
    (R.rounds known l).2 = [] ↔
      (∀ a ∈ l, ¬ Relation.TransGen (R.Waits known l) a a) ∧
        ∀ a ∈ l, ¬ R.Lacks known l a := by
  have hleft : ∀ a ∈ (R.rounds known l).2, a ∈ l := fun a ha =>
    (R.rounds_perm known l).subset (List.mem_append_right _ ha)
  constructor
  · intro h
    have hall : ∀ a ∈ l, R.Derivable known l a := by
      intro a ha
      by_contra hnot
      have hmem := (R.mem_rounds_left ha).mpr hnot
      rw [h] at hmem
      exact List.not_mem_nil hmem
    exact ⟨fun a ha => not_transGen_self_of_acc (R.acc_of_derivable hone (hall a ha)),
      fun a ha => R.not_lacks_of_derivable (hall a ha)⟩
  · rintro ⟨hcycle, hlacks⟩
    by_contra hne
    -- every rule left over waits for another one left over
    have hnext : ∀ a ∈ (R.rounds known l).2, ∃ b ∈ (R.rounds known l).2,
        R.Waits known l a b := by
      intro a ha
      obtain ⟨k, hk, hunknown⟩ := Finset.not_subset.mp (R.rounds_stuck known l a ha)
      have hk0 : k ∉ known := fun h => hunknown (R.mem_knows.mpr (Or.inl h))
      have hsome : ∃ b ∈ l, k ∈ R.gives b := by
        by_contra hnone
        simp only [not_exists, not_and] at hnone
        exact hlacks a (hleft a ha) ⟨k, hk, hk0, hnone⟩
      obtain ⟨b, hb, hgive⟩ := hsome
      have hbleft : b ∈ (R.rounds known l).2 :=
        (List.mem_append.mp ((R.rounds_perm known l).mem_iff.mpr hb)).resolve_left
          fun hf => hunknown (R.mem_knows.mpr (Or.inr ⟨b, hf, hgive⟩))
      exact ⟨b, hbleft, hleft a ha, hb, k, hk, hk0, hgive⟩
    obtain ⟨a, ha, hcyc⟩ := exists_cycle hne hnext
    exact hcycle a (hleft a ha) hcyc

end Rules
