/-
What a deterministic system remembers of its history.

The state after a list of actions is that of a fold, and a part of it is often of one of a few
kinds: a register, which keeps the last value written (`get_eq_iff`); a latch, which keeps the
first one (`latch_eq_some_iff`), or only that there was one (`flag_iff`); or a pile, which gathers
values until it is taken away (`pile_eq`).  For each the part is told from the actions, with
the place of the write.
-/
import Mathlib.Data.List.DropRight
import Mathlib.Data.List.Induction

namespace History

variable {S A V : Type*} {step : S → A → S} {s₀ : S}

/-- The state after these actions. -/
def run (step : S → A → S) (s₀ : S) (acts : List A) : S :=
  acts.foldl step s₀

theorem run_nil : run step s₀ [] = s₀ := rfl

theorem run_snoc (acts : List A) (a : A) :
    run step s₀ (acts ++ [a]) = step (run step s₀ acts) a := by
  rw [run, List.foldl_append]
  rfl

/-- The action `a`, after `pre`, is one of `acts`. -/
def At (acts pre : List A) (a : A) : Prop := ∃ post, acts = pre ++ a :: post

theorem not_at_nil {pre : List A} {a : A} : ¬ At [] pre a := by
  intro h
  obtain ⟨post, h⟩ := h
  exact List.append_ne_nil_of_right_ne_nil pre (List.cons_ne_nil a post) h.symm

theorem at_snoc_iff {acts pre : List A} {a b : A} :
    At (acts ++ [b]) pre a ↔ At acts pre a ∨ pre = acts ∧ a = b := by
  constructor
  · intro h
    obtain ⟨post, h⟩ := h
    rcases List.eq_nil_or_concat post with rfl | ⟨post', c, rfl⟩
    · obtain ⟨hpre, hab⟩ := List.append_inj' h rfl
      exact Or.inr ⟨hpre.symm, (List.cons.inj hab).1.symm⟩
    · rw [List.concat_eq_append, ← List.cons_append, ← List.append_assoc] at h
      exact Or.inl ⟨post', (List.append_inj' h rfl).1⟩
  · intro h
    rcases h with ⟨post, rfl⟩ | ⟨rfl, rfl⟩
    · exact ⟨post ++ [b], by rw [List.append_assoc, List.cons_append]⟩
    · exact ⟨[], rfl⟩

theorem At.mem {acts pre : List A} {a : A} (h : At acts pre a) : a ∈ acts := by
  obtain ⟨post, rfl⟩ := h
  exact List.mem_append_right _ List.mem_cons_self

theorem exists_at {acts : List A} {a : A} (h : a ∈ acts) : ∃ pre, At acts pre a := by
  obtain ⟨pre, post, rfl⟩ := List.append_of_mem h
  exact ⟨pre, post, rfl⟩

theorem At.of_lt {acts pre pre' : List A} {a b : A} (h : At acts pre a) (h' : At acts pre' b)
    (hlt : pre.length < pre'.length) : At pre' pre a := by
  obtain ⟨post, rfl⟩ := h
  obtain ⟨post', h'⟩ := h'
  have hpre : pre ++ [a] <+: pre ++ a :: post :=
    ⟨post, by rw [List.append_assoc, List.singleton_append]⟩
  have hpre' : pre' <+: pre ++ a :: post := ⟨b :: post', h'.symm⟩
  have hprefix : pre ++ [a] <+: pre' := by
    apply List.prefix_of_prefix_length_le hpre hpre'
    rw [List.length_append, List.length_singleton]
    omega
  obtain ⟨rest, hrest⟩ := hprefix
  exact ⟨rest, by rw [← hrest, List.append_assoc, List.singleton_append]⟩

theorem At.eq_of_length {acts pre pre' : List A} {a b : A} (h : At acts pre a)
    (h' : At acts pre' b) (hlength : pre.length = pre'.length) : pre = pre' ∧ a = b := by
  obtain ⟨post, rfl⟩ := h
  obtain ⟨post', h'⟩ := h'
  obtain ⟨hpre, hrest⟩ := List.append_inj h' hlength
  exact ⟨hpre, (List.cons.inj hrest).1⟩

/-- After `pre` and `a` comes no action of this kind. -/
def Last (kind : List A → A → Prop) (acts pre : List A) (a : A) : Prop :=
  At acts pre a ∧ ∀ pre' b, At acts pre' b → pre.length < pre'.length → ¬ kind pre' b

theorem At.length_lt {acts pre : List A} {a : A} (h : At acts pre a) :
    pre.length < acts.length := by
  obtain ⟨post, rfl⟩ := h
  rw [List.length_append, List.length_cons]
  omega

theorem last_snoc_iff {kind : List A → A → Prop} {acts pre : List A} {a b : A} :
    Last kind (acts ++ [b]) pre a ↔
      (Last kind acts pre a ∧ ¬ kind acts b) ∨ pre = acts ∧ a = b := by
  constructor
  · intro h
    obtain ⟨hat, hlast⟩ := h
    rcases at_snoc_iff.mp hat with hat | heq
    · refine Or.inl ⟨⟨hat, fun pre' c hc => hlast pre' c (at_snoc_iff.mpr (Or.inl hc))⟩, ?_⟩
      exact hlast acts b (at_snoc_iff.mpr (Or.inr ⟨rfl, rfl⟩)) hat.length_lt
    · exact Or.inr heq
  · intro h
    rcases h with ⟨⟨hat, hlast⟩, hb⟩ | ⟨rfl, rfl⟩
    · refine ⟨at_snoc_iff.mpr (Or.inl hat), fun pre' c hc hlt => ?_⟩
      rcases at_snoc_iff.mp hc with hc | ⟨rfl, rfl⟩
      · exact hlast pre' c hc hlt
      · exact hb
    · refine ⟨at_snoc_iff.mpr (Or.inr ⟨rfl, rfl⟩), fun pre' c hc hlt => ?_⟩
      rcases at_snoc_iff.mp hc with hc | ⟨rfl, _⟩
      · exact absurd hc.length_lt (Nat.not_lt.mpr (Nat.le_of_lt hlt))
      · exact absurd hlt (Nat.lt_irrefl _)

theorem not_last_nil {kind : List A → A → Prop} {pre : List A} {a : A} : ¬ Last kind [] pre a :=
  fun h => not_at_nil h.1

/-! ## Registers -/

/-- The action writes, in the state it finds. -/
def Writes (step : S → A → S) (s₀ : S) (write : S → A → Option V) (pre : List A) (a : A) : Prop :=
  (write (run step s₀ pre) a).isSome

/-- A register: its value is that of the last write, or the first value. -/
theorem get_eq_iff (get : S → V) (write : S → A → Option V)
    (hstep : ∀ acts a, get (step (run step s₀ acts) a) =
      (write (run step s₀ acts) a).getD (get (run step s₀ acts))) (acts : List A) (v : V) :
    get (run step s₀ acts) = v ↔
      ((∀ pre a, At acts pre a → write (run step s₀ pre) a = none) ∧ get s₀ = v) ∨
        ∃ pre a, Last (Writes step s₀ write) acts pre a ∧ write (run step s₀ pre) a = some v := by
  induction acts using List.reverseRecOn with
  | nil =>
    constructor
    · intro h
      exact Or.inl ⟨fun _ _ hat => absurd hat not_at_nil, h⟩
    · intro h
      rcases h with ⟨_, h⟩ | ⟨_, _, hlast, _⟩
      · exact h
      · exact absurd hlast not_last_nil
  | append_singleton acts b ih =>
    rw [run_snoc, hstep]
    cases hb : write (run step s₀ acts) b with
    | some w =>
      constructor
      · intro h
        exact Or.inr ⟨acts, b, last_snoc_iff.mpr (Or.inr ⟨rfl, rfl⟩), hb.trans (congrArg some h)⟩
      · intro h
        rcases h with ⟨hnone, _⟩ | ⟨pre, a, hlast, ha⟩
        · rw [hnone acts b (at_snoc_iff.mpr (Or.inr ⟨rfl, rfl⟩))] at hb
          cases hb
        · rcases last_snoc_iff.mp hlast with ⟨_, hno⟩ | ⟨rfl, rfl⟩
          · exact absurd (by rw [Writes, hb]; rfl) hno
          · exact Option.some.inj (hb.symm.trans ha)
    | none =>
      have hno : ¬ Writes step s₀ write acts b := by
        rw [Writes, hb]
        exact Bool.false_ne_true
      refine ih.trans (or_congr (and_congr_left fun _ => ?_) (exists_congr fun pre =>
        exists_congr fun a => ?_))
      · constructor
        · intro hnone pre a hat
          rcases at_snoc_iff.mp hat with hat | ⟨rfl, rfl⟩
          · exact hnone pre a hat
          · exact hb
        · exact fun hnone pre a hat => hnone pre a (at_snoc_iff.mpr (Or.inl hat))
      · constructor
        · exact fun h => ⟨last_snoc_iff.mpr (Or.inl ⟨h.1, hno⟩), h.2⟩
        · intro h
          rcases last_snoc_iff.mp h.1 with ⟨hlast, _⟩ | ⟨rfl, rfl⟩
          · exact ⟨hlast, h.2⟩
          · rw [hb] at h
            cases h.2

/-! ## Latches -/

/-- Before `a` comes no action of this kind. -/
def First (kind : List A → A → Prop) (acts pre : List A) (a : A) : Prop :=
  At acts pre a ∧ ∀ pre' b, At pre pre' b → ¬ kind pre' b

theorem At.trans {acts pre pre' : List A} {a b : A} (h : At acts pre a) (h' : At pre pre' b) :
    At acts pre' b := by
  obtain ⟨post, rfl⟩ := h
  obtain ⟨post', rfl⟩ := h'
  exact ⟨post' ++ a :: post, by rw [List.append_assoc, List.cons_append]⟩

/-- A latch that is empty at the start is empty until the first write. -/
theorem latch_eq_none_iff (get : S → Option V) (write : S → A → Option V)
    (hstep : ∀ acts a, get (step (run step s₀ acts) a) =
      (get (run step s₀ acts)).or (write (run step s₀ acts) a))
    (h₀ : get s₀ = none) (acts : List A) :
    get (run step s₀ acts) = none ↔ ∀ pre a, At acts pre a → ¬ Writes step s₀ write pre a := by
  induction acts using List.reverseRecOn with
  | nil => exact iff_of_true h₀ fun _ _ hat => absurd hat not_at_nil
  | append_singleton acts b ih =>
    rw [run_snoc, hstep, Option.or_eq_none_iff, ih]
    constructor
    · intro h pre a hat
      rcases at_snoc_iff.mp hat with hat | ⟨rfl, rfl⟩
      · exact h.1 pre a hat
      · rw [Writes, h.2]
        exact Bool.false_ne_true
    · intro h
      refine ⟨fun pre a hat => h pre a (at_snoc_iff.mpr (Or.inl hat)), ?_⟩
      exact Option.not_isSome_iff_eq_none.mp (h acts b (at_snoc_iff.mpr (Or.inr ⟨rfl, rfl⟩)))

/-- A latch that is empty at the start: its value is that of the first write. -/
theorem latch_eq_some_iff (get : S → Option V) (write : S → A → Option V)
    (hstep : ∀ acts a, get (step (run step s₀ acts) a) =
      (get (run step s₀ acts)).or (write (run step s₀ acts) a))
    (h₀ : get s₀ = none) (acts : List A) (v : V) :
    get (run step s₀ acts) = some v ↔
      ∃ pre a, First (Writes step s₀ write) acts pre a ∧ write (run step s₀ pre) a = some v := by
  induction acts using List.reverseRecOn with
  | nil =>
    rw [run_nil, h₀]
    exact iff_of_false (fun h => by cases h) fun h => by
      obtain ⟨_, _, hfirst, _⟩ := h
      exact not_at_nil hfirst.1
  | append_singleton acts b ih =>
    rw [run_snoc, hstep, Option.or_eq_some_iff, latch_eq_none_iff get write hstep h₀]
    refine (or_congr_left ih).trans ?_
    constructor
    · intro h
      rcases h with ⟨pre, a, hfirst, ha⟩ | ⟨hnone, hb⟩
      · exact ⟨pre, a, ⟨at_snoc_iff.mpr (Or.inl hfirst.1), hfirst.2⟩, ha⟩
      · exact ⟨acts, b, ⟨at_snoc_iff.mpr (Or.inr ⟨rfl, rfl⟩), hnone⟩, hb⟩
    · intro h
      obtain ⟨pre, a, ⟨hat, hnone⟩, ha⟩ := h
      rcases at_snoc_iff.mp hat with hat | ⟨rfl, rfl⟩
      · exact Or.inl ⟨pre, a, ⟨hat, hnone⟩, ha⟩
      · exact Or.inr ⟨hnone, ha⟩

/-- A flag that is down at the start is up once an action has raised it. -/
theorem flag_iff (get : S → Bool) (raises : A → Bool)
    (hstep : ∀ acts a, get (step (run step s₀ acts) a) = (get (run step s₀ acts) || raises a))
    (h₀ : get s₀ = false) (acts : List A) :
    get (run step s₀ acts) = true ↔ ∃ a ∈ acts, raises a = true := by
  induction acts using List.reverseRecOn with
  | nil =>
    rw [run_nil, h₀]
    exact iff_of_false Bool.false_ne_true fun h => by
      obtain ⟨_, hmem, _⟩ := h
      cases hmem
  | append_singleton acts b ih =>
    rw [run_snoc, hstep, Bool.or_eq_true, ih]
    simp only [List.mem_append, List.mem_singleton, or_and_right, exists_or, exists_eq_left]

/-! ## Piles -/

/-- A pile that is empty at the start: it holds, in order, what has been put on it since it was
last taken. -/
theorem pile_eq (get : S → List V) (put : A → List V) (take : A → Prop) [DecidablePred take]
    (hstep : ∀ acts a, get (step (run step s₀ acts) a) =
      if take a then [] else get (run step s₀ acts) ++ put a)
    (h₀ : get s₀ = []) (acts : List A) :
    get (run step s₀ acts) = (acts.rtakeWhile fun a => ¬ take a).flatMap put := by
  induction acts using List.reverseRecOn with
  | nil => exact h₀
  | append_singleton acts a ih =>
    rw [run_snoc, hstep, List.rtakeWhile_concat, ih]
    by_cases ha : take a
    · simp only [ha, if_true, not_true_eq_false, decide_false, Bool.false_eq_true, if_false,
        List.flatMap_nil]
    · simp only [ha, if_false, not_false_eq_true, decide_true, if_true, List.flatMap_append,
        List.flatMap_singleton]

end History
