/-
Calls that take effect at once.

The programs of `RwLock` are compared with an object whose operations act on all the values in
one step between call and return.  A program takes effect at one point, where it knows the
values it reads, has write guards for those it changes, and has the assignments still before it
(`Prog.Atomic`).  It is judged alone.  Beside any others its calls and returns are then those of
the object, in the same order (`Simulates.run`).
-/
import Summer.Lib.RwLock

namespace RwLock

variable {L T O R : Type} {V : L → Type}

/-- A call that has not taken effect yet, or has with this result. -/
inductive Status (O R : Type)
  | idle
  | called (op : O)
  | done (op : O) (result : R)

structure Object (V : L → Type) (T O R : Type) where
  value : (l : L) → V l
  status : T → Status O R

/-- What an operation returns, and the values it leaves. -/
abbrev Effect (V : L → Type) (O R : Type) := O → ((l : L) → V l) → R × ((l : L) → V l)

def Object.start (value : (l : L) → V l) : Object V T O R where
  value := value
  status := fun _ => .idle

inductive Object.Step [DecidableEq T] (effect : Effect V O R) :
    Object V T O R → Label T O R → Object V T O R → Prop
  | call {x : Object V T O R} {t : T} (op : O) (h : x.status t = .idle) :
      Object.Step effect x (.call t op)
        { x with status := Function.update x.status t (.called op) }
  | turn {x : Object V T O R} {t : T} {op : O} (h : x.status t = .called op) :
      Object.Step effect x (.turn t)
        { value := (effect op x.value).2,
          status := Function.update x.status t (.done op (effect op x.value).1) }
  | ret {x : Object V T O R} {t : T} {op : O} {result : R} (h : x.status t = .done op result) :
      Object.Step effect x (.ret t op result)
        { x with status := Function.update x.status t .idle }

def Label.visible : Label T O R → Bool
  | .turn _ => false
  | _ => true

/-- The calls and returns of a run. -/
def visible (acts : List (Label T O R)) : List (Label T O R) := acts.filter Label.visible

theorem visible_append (acts acts' : List (Label T O R)) :
    visible (acts ++ acts') = visible acts ++ visible acts' :=
  List.filter_append ..

theorem mem_iff_of_visible {acts acts' : List (Label T O R)} (h : visible acts' = visible acts)
    {a : Label T O R} (ha : a.visible = true) : a ∈ acts' ↔ a ∈ acts := by
  have hmem : ∀ l : List (Label T O R), a ∈ visible l ↔ a ∈ l := by
    intro l
    rw [visible, List.mem_filter, ha, and_iff_left rfl]
  rw [← hmem acts', h, hmem acts]

/-! ## Runs of the object -/

namespace Object

variable [DecidableEq T] {effect : Effect V O R}

theorem Step.value_eq {x x' : Object V T O R} {a : Label T O R} (h : Step effect x a x') :
    x'.value = x.value ∨ ∃ t op, x.status t = .called op ∧ x'.value = (effect op x.value).2 := by
  cases h with
  | call op h => exact Or.inl rfl
  | @turn t op h => exact Or.inr ⟨t, op, h, rfl⟩
  | ret h => exact Or.inl rfl

/-- The calls under way are of these operations. -/
def Calls (P : O → Prop) (x : Object V T O R) : Prop := ∀ t op, x.status t = .called op → P op

theorem Step.calls {P : O → Prop} {x x' : Object V T O R} {a : Label T O R}
    (h : Step effect x a x') (hx : x.Calls P) (ha : ∀ t op, a = .call t op → P op) :
    x'.Calls P := by
  have hupdate : ∀ (u : T) (st : Status O R), (∀ op, st = .called op → P op) →
      ∀ t op, Function.update x.status u st t = .called op → P op := by
    intro u st hst t op ht
    by_cases htu : t = u
    · subst htu
      rw [Function.update_self] at ht
      exact hst op ht
    · rw [Function.update_of_ne htu] at ht
      exact hx t op ht
  cases h with
  | @call u op h =>
    refine hupdate u _ fun op' hop => ?_
    cases hop
    exact ha u op rfl
  | @turn u op h => exact hupdate u _ fun op' hop => nomatch hop
  | @ret u op result h => exact hupdate u _ fun op' hop => nomatch hop

/-- What the operations that are called keep. -/
theorem keep_of_run (P : O → Prop) (keep : ((l : L) → V l) → Prop)
    (hkeep : ∀ op value, P op → keep value → keep (effect op value).2)
    {x x' : Object V T O R} {acts : List (Label T O R)} (h : Run (Step effect) x acts x')
    (hcalls : ∀ t op, .call t op ∈ acts → P op) (hx : x.Calls P) (hvalue : keep x.value) :
    x'.Calls P ∧ keep x'.value := by
  induction h with
  | nil x => exact ⟨hx, hvalue⟩
  | @cons x x₁ x' a acts hstep _ ih =>
    refine ih (fun t op ht => hcalls t op (List.mem_cons_of_mem _ ht))
      (hstep.calls hx fun t op ha => hcalls t op (ha ▸ List.mem_cons_self)) ?_
    rcases hstep.value_eq with heq | ⟨t, op, ht, heq⟩
    · rw [heq]
      exact hvalue
    · rw [heq]
      exact hkeep _ _ (hx t op ht) hvalue

/-- A result is new only if the operation has just taken effect. -/
theorem Step.done {x x' : Object V T O R} {a : Label T O R} (h : Step effect x a x') {t : T}
    {op : O} {result : R} (hdone : x'.status t = .done op result) :
    x.status t = .done op result ∨ result = (effect op x.value).1 ∧
      x'.value = (effect op x.value).2 := by
  cases h with
  | @call u op' h =>
    change Function.update x.status u (.called op') t = .done op result at hdone
    by_cases htu : t = u
    · subst htu
      rw [Function.update_self] at hdone
      cases hdone
    · rw [Function.update_of_ne htu] at hdone
      exact Or.inl hdone
  | @turn u op' h =>
    change Function.update x.status u (.done op' (effect op' x.value).1) t = .done op result
      at hdone
    by_cases htu : t = u
    · subst htu
      rw [Function.update_self, Status.done.injEq] at hdone
      obtain ⟨rfl, rfl⟩ := hdone
      exact Or.inr ⟨rfl, rfl⟩
    · rw [Function.update_of_ne htu] at hdone
      exact Or.inl hdone
  | @ret u op' result' h =>
    change Function.update x.status u .idle t = .done op result at hdone
    by_cases htu : t = u
    · subst htu
      rw [Function.update_self] at hdone
      cases hdone
    · rw [Function.update_of_ne htu] at hdone
      exact Or.inl hdone

/-- While the values meet `keep`, a thread that was idle is told only what `post` allows. -/
theorem post_of_ret (P : O → Prop) (keep : ((l : L) → V l) → Prop) (post : O → R → Prop)
    (hkeep : ∀ op value, P op → keep value → keep (effect op value).2)
    (hpost : ∀ op value, keep value → post op (effect op value).1)
    {x x' : Object V T O R} {acts : List (Label T O R)} (h : Run (Step effect) x acts x')
    (hcalls : ∀ t op, .call t op ∈ acts → P op) (hx : x.Calls P) (hvalue : keep x.value) {t : T}
    (hstatus : ∀ op result, x.status t = .done op result → post op result) {op : O} {result : R}
    (hret : .ret t op result ∈ acts) : post op result := by
  induction h with
  | nil x => exact absurd hret List.not_mem_nil
  | @cons x x₁ x' a acts hstep _ ih =>
    rcases List.mem_cons.mp hret with rfl | hret
    · cases hstep with
      | ret hdone => exact hstatus _ _ hdone
    · obtain ⟨hx₁, hvalue₁⟩ := keep_of_run P keep hkeep (.single hstep)
        (fun t op ha => hcalls t op (List.mem_singleton.mp ha ▸ List.mem_cons_self)) hx hvalue
      refine ih (fun t op ht => hcalls t op (List.mem_cons_of_mem _ ht)) hx₁ hvalue₁ ?_ hret
      intro op' result' hdone
      rcases hstep.done hdone with hdone | ⟨rfl, _⟩
      · exact hstatus _ _ hdone
      · exact hpost _ _ hvalue

/-- What an operation leaves behind when it returns so, and no other undoes, is there at the end
of a run with that return. -/
theorem keep_of_ret (P : O → Prop) (keep : ((l : L) → V l) → Prop) {op : O} {result : R}
    (hkeep : ∀ op value, P op → keep value → keep (effect op value).2)
    (heffect : ∀ value, (effect op value).1 = result → keep (effect op value).2)
    {x x' : Object V T O R} {acts : List (Label T O R)} (h : Run (Step effect) x acts x')
    (hcalls : ∀ t op, .call t op ∈ acts → P op) (hx : x.Calls P) {t : T}
    (hstatus : x.status t = .done op result → keep x.value) (hret : .ret t op result ∈ acts) :
    keep x'.value := by
  induction h with
  | nil x => exact absurd hret List.not_mem_nil
  | @cons x x₁ x' a acts hstep hrest ih =>
    have hfirst : ∀ t op, .call t op ∈ [a] → P op := fun t op ha =>
      hcalls t op (List.mem_singleton.mp ha ▸ List.mem_cons_self)
    have hlater : ∀ t op, .call t op ∈ acts → P op := fun t op ht =>
      hcalls t op (List.mem_cons_of_mem _ ht)
    have hx₁ : x₁.Calls P := hstep.calls hx fun t op ha => hfirst t op (ha ▸ List.mem_cons_self)
    rcases List.mem_cons.mp hret with rfl | hret
    · cases hstep with
      | ret hdone => exact (keep_of_run P keep hkeep hrest hlater hx₁ (hstatus hdone)).2
    · refine ih hlater hx₁ (fun hdone => ?_) hret
      rcases hstep.done hdone with hdone | ⟨hresult, heq⟩
      · exact (keep_of_run P keep hkeep (.single hstep) hfirst hx (hstatus hdone)).2
      · rw [heq]
        exact heffect _ hresult.symm

end Object

/-- Values that a thread knows or has still to assign. -/
abbrev Partial (V : L → Type) := (l : L) → Option (V l)

section
variable [DecidableEq L]

/-- The program assigns exactly these values, each before it drops the lock, and returns the
result. -/
def Prog.Owes (result : R) : Partial V → Prog V R → Prop
  | owed, .ret result' => result' = result ∧ ∀ l, owed l = none
  | owed, .read _ next => ∀ v, (next v).Owes result owed
  | owed, .write _ next => ∀ v, (next v).Owes result owed
  | owed, .assign l v next => owed l = some v ∧ next.Owes result (Function.update owed l none)
  | owed, .drop l next => owed l = none ∧ next.Owes result owed

/-- The operation can take effect here: its result and what it changes follow from the known
values, it changes what is behind write guards only, and the program carries it out. -/
def Prog.Effective (effect : Effect V O R) (op : O) (known : Partial V)
    (guards : L → Option Guard) (p : Prog V R) : Prop :=
  ∃ result owed, p.Owes result owed ∧ (∀ l v, owed l = some v → guards l = some .write) ∧
    ∀ value : (l : L) → V l, (∀ l v, known l = some v → value l = v) →
      effect op value = (result, fun l => (owed l).getD (value l))

/-- An operation that changes nothing takes effect where its result is known. -/
theorem Prog.Effective.unchanged {effect : Effect V O R} {op : O} {known : Partial V}
    {guards : L → Option Guard} {p : Prog V R} (result : R) (howes : p.Owes result fun _ => none)
    (heffect : ∀ value : (l : L) → V l, (∀ l v, known l = some v → value l = v) →
      effect op value = (result, value)) : p.Effective effect op known guards :=
  ⟨result, fun _ => none, howes, fun _ _ h => (nomatch h), heffect⟩

/-- An operation that changes one value takes effect where it has the write guard for it. -/
theorem Prog.Effective.changed {effect : Effect V O R} {op : O} {known : Partial V}
    {guards : L → Option Guard} {p : Prog V R} (result : R) (l : L) (v : V l)
    (hguard : guards l = some .write)
    (howes : p.Owes result (Function.update (fun _ => none) l (some v)))
    (heffect : ∀ value : (l : L) → V l, (∀ l v, known l = some v → value l = v) →
      effect op value = (result, Function.update value l v)) :
    p.Effective effect op known guards := by
  refine ⟨result, _, howes, fun k w hk => ?_, fun value hvalue => ?_⟩
  · by_cases hkl : k = l
    · rw [hkl, hguard]
    · rw [Function.update_of_ne hkl] at hk
      cases hk
  · rw [heffect value hvalue]
    refine Prod.ext rfl (funext fun k => ?_)
    by_cases hkl : k = l
    · subst hkl
      simp only [Function.update_self, Option.getD_some]
    · simp only [Function.update_of_ne hkl, Option.getD_none]

/-- The operation takes effect at one point of the program, whatever the locks show. -/
def Prog.Atomic (effect : Effect V O R) (op : O) :
    Partial V → (L → Option Guard) → Prog V R → Prop
  | known, guards, .ret result => (Prog.ret result).Effective effect op known guards
  | known, guards, .read l next =>
      (Prog.read l next).Effective effect op known guards ∨
        ∀ v, (next v).Atomic effect op (Function.update known l (some v))
          (Function.update guards l (some .read))
  | known, guards, .write l next =>
      (Prog.write l next).Effective effect op known guards ∨
        ∀ v, (next v).Atomic effect op (Function.update known l (some v))
          (Function.update guards l (some .write))
  | known, guards, .assign l v next => (Prog.assign l v next).Effective effect op known guards
  | known, guards, .drop l next =>
      (Prog.drop l next).Effective effect op known guards ∨
        next.Atomic effect op (Function.update known l none) (Function.update guards l none)

/-- A thread of the programs beside that of the object; `owed` is what has taken effect but is
not assigned yet. -/
inductive Beside (effect : Effect V O R) (value ideal : (l : L) → V l) :
    Option (Thread V O R) → Status O R → Partial V → Prop
  | idle : Beside effect value ideal none .idle fun _ => none
  | before {th : Thread V O R} (known : Partial V)
      (hatomic : th.rest.Atomic effect th.op known th.guards)
      (hknown : ∀ l v, known l = some v → th.guards l ≠ none ∧ value l = v) :
      Beside effect value ideal (some th) (.called th.op) fun _ => none
  | after {th : Thread V O R} {result : R} {owed : Partial V}
      (howes : th.rest.Owes result owed)
      (howed : ∀ l v, owed l = some v → th.guards l = some .write ∧ ideal l = v) :
      Beside effect value ideal (some th) (.done th.op result) owed

/-- The simulation: writers exclude others, every thread is beside its status, and the values
agree where nothing is owed. -/
structure Simulates (effect : Effect V O R) (s : State V T O R) (x : Object V T O R)
    (owed : T → Partial V) : Prop where
  exclusive : ∀ t u th uh l, s.thread t = some th → s.thread u = some uh →
    th.guards l = some .write → uh.guards l ≠ none → t = u
  beside : ∀ t, Beside effect s.value x.value (s.thread t) (x.status t) (owed t)
  value : ∀ l, (∀ t, owed t l = none) → x.value l = s.value l

variable {effect : Effect V O R}

/-! ## Guards and known values -/

theorem Simulates.start (value : (l : L) → V l) :
    Simulates effect (State.start value : State V T O R) (Object.start value)
      fun _ _ => none where
  exclusive := fun _ _ _ _ _ h => nomatch h
  beside := fun _ => .idle
  value := fun _ _ => rfl

theorem Simulates.status_idle {s : State V T O R} {x : Object V T O R} {owed : T → Partial V}
    (h : Simulates effect s x owed) {t : T} (ht : s.thread t = none) : x.status t = .idle := by
  have hbeside := h.beside t
  rw [ht] at hbeside
  generalize x.status t = st at hbeside
  generalize owed t = o at hbeside
  cases hbeside with
  | idle => rfl

/-- Other threads change nothing behind a guard. -/
theorem Beside.frame {value value' ideal ideal' : (l : L) → V l} {th : Option (Thread V O R)}
    {status : Status O R} {owed : Partial V} (h : Beside effect value ideal th status owed)
    (hkeep : ∀ x, th = some x → ∀ l, x.guards l ≠ none → value' l = value l ∧ ideal' l = ideal l) :
    Beside effect value' ideal' th status owed := by
  cases h with
  | idle => exact .idle
  | before known hatomic hknown =>
    refine .before known hatomic fun l v hl => ?_
    obtain ⟨hheld, hv⟩ := hknown l v hl
    exact ⟨hheld, ((hkeep _ rfl l hheld).1).trans hv⟩
  | after howes howed =>
    refine .after howes fun l v hl => ?_
    obtain ⟨hheld, hv⟩ := howed l v hl
    refine ⟨hheld, ((hkeep _ rfl l ?_).2).trans hv⟩
    rw [hheld]
    exact fun h => nomatch h

theorem Beside.owed_guard {value ideal : (l : L) → V l} {th : Option (Thread V O R)}
    {status : Status O R} {owed : Partial V} (h : Beside effect value ideal th status owed)
    {l : L} {v : V l} (hl : owed l = some v) :
    ∃ y, th = some y ∧ y.guards l = some .write := by
  cases h with
  | idle => cases hl
  | before known hatomic hknown => cases hl
  | @after y result owed howes howed => exact ⟨y, rfl, (howed l v hl).1⟩

/-- Guards of thread `t` that the other threads leave room for. -/
def State.Admits (s : State V T O R) (t : T) (guards : L → Option Guard) : Prop :=
  ∀ u uh l, u ≠ t → s.thread u = some uh →
    (guards l = some .write → uh.guards l = none) ∧ (uh.guards l = some .write → guards l = none)

theorem State.Admits.update {s : State V T O R} {t : T} {guards : L → Option Guard}
    (h : s.Admits t guards) (l : L) {guard : Option Guard}
    (hl : ∀ u uh, s.thread u = some uh → (guard = some .write → uh.guards l = none) ∧
      (uh.guards l = some .write → guard = none)) :
    s.Admits t (Function.update guards l guard) := by
  intro u uh k hut hu
  by_cases hkl : k = l
  · subst hkl
    rw [Function.update_self]
    exact hl u uh hu
  · rw [Function.update_of_ne hkl]
    exact h u uh k hut hu

theorem State.Admits.read {s : State V T O R} {t : T} {guards : L → Option Guard}
    (h : s.Admits t guards) {l : L} (hfree : s.Readable l) :
    s.Admits t (Function.update guards l (some .read)) := by
  refine h.update l fun u uh hu => ⟨fun hwrite => ?_, fun hwrite => absurd hwrite (hfree u uh hu)⟩
  cases hwrite

theorem State.Admits.write {s : State V T O R} {t : T} {guards : L → Option Guard}
    (h : s.Admits t guards) {l : L} (hfree : s.Free l) :
    s.Admits t (Function.update guards l (some .write)) := by
  refine h.update l fun u uh hu => ⟨fun _ => hfree u uh hu, fun hwrite => ?_⟩
  rw [hfree u uh hu] at hwrite
  cases hwrite

theorem State.Admits.drop {s : State V T O R} {t : T} {guards : L → Option Guard}
    (h : s.Admits t guards) (l : L) : s.Admits t (Function.update guards l none) :=
  h.update l fun _ _ _ => ⟨(fun hwrite => nomatch hwrite), fun _ => rfl⟩

theorem Simulates.admits {s : State V T O R} {x : Object V T O R} {owed : T → Partial V}
    (h : Simulates effect s x owed) {t : T} {th : Thread V O R} (ht : s.thread t = some th) :
    s.Admits t th.guards := by
  intro u uh l hut hu
  constructor
  · intro hwrite
    by_contra hheld
    exact hut (h.exclusive t u th uh l ht hu hwrite hheld).symm
  · intro hwrite
    by_contra hheld
    exact hut (h.exclusive u t uh th l hu ht hwrite hheld)

/-- What a thread has a guard for agrees, unless it owes it itself. -/
theorem Simulates.value_of_guard {s : State V T O R} {x : Object V T O R}
    {owed : T → Partial V} (h : Simulates effect s x owed) {t : T} {th : Thread V O R}
    (ht : s.thread t = some th) {l : L} (hheld : th.guards l ≠ none) (hl : owed t l = none) :
    x.value l = s.value l := by
  refine h.value l fun u => ?_
  by_contra howed
  obtain ⟨v, howed⟩ := Option.ne_none_iff_exists'.mp howed
  obtain ⟨uh, hu, hwrite⟩ := (h.beside u).owed_guard howed
  have hut := h.exclusive u t uh th l hu ht hwrite hheld
  rw [hut, hl] at howed
  cases howed

/-- From here on the operation does not take effect at once. -/
def Prog.Later (effect : Effect V O R) (op : O) (known : Partial V) (guards : L → Option Guard) :
    Prog V R → Prop
  | .ret _ | .assign _ _ _ => False
  | .read l next => ∀ v, (next v).Atomic effect op (Function.update known l (some v))
      (Function.update guards l (some .read))
  | .write l next => ∀ v, (next v).Atomic effect op (Function.update known l (some v))
      (Function.update guards l (some .write))
  | .drop l next =>
      next.Atomic effect op (Function.update known l none) (Function.update guards l none)

theorem Prog.Atomic.effective_or_later {op : O} {known : Partial V} {guards : L → Option Guard}
    {p : Prog V R} (h : p.Atomic effect op known guards) :
    p.Effective effect op known guards ∨ p.Later effect op known guards := by
  cases p with
  | ret result => exact Or.inl h
  | read l next => exact h
  | write l next => exact h
  | assign l v next => exact Or.inl h
  | drop l next => exact h

/-- What was known and what a guard shows is known afterwards. -/
theorem known_update {value : (l : L) → V l} {known : Partial V} {guards : L → Option Guard}
    (h : ∀ l v, known l = some v → guards l ≠ none ∧ value l = v) (l : L) (guard : Guard) (k : L)
    (v : V k) (hk : Function.update known l (some (value l)) k = some v) :
    Function.update guards l (some guard) k ≠ none ∧ value k = v := by
  by_cases hkl : k = l
  · subst hkl
    rw [Function.update_self, Option.some.injEq] at hk
    rw [Function.update_self]
    exact ⟨Option.some_ne_none guard, hk⟩
  · rw [Function.update_of_ne hkl] at hk ⊢
    exact h k v hk

variable [DecidableEq T]

/-! ## Steps -/

/-- Thread `t` moves: what it changes is behind its write guards, and the guards it holds
afterwards are compatible with those of the others. -/
theorem Simulates.move {s s' : State V T O R} {x x' : Object V T O R} {owed : T → Partial V}
    (h : Simulates effect s x owed) (t : T) (th : Option (Thread V O R)) (status : Status O R)
    {o : Partial V} (hthread : s'.thread = Function.update s.thread t th)
    (hstatus : x'.status = Function.update x.status t status)
    (hkeep : ∀ l, (∀ y, s.thread t = some y → y.guards l ≠ some .write) →
      s'.value l = s.value l ∧ x'.value l = x.value l)
    (hguards : ∀ y, th = some y → s.Admits t y.guards)
    (hbeside : Beside effect s'.value x'.value th status o)
    (hvalue : ∀ l, (∀ u, u ≠ t → owed u l = none) → o l = none → x'.value l = s'.value l) :
    Simulates effect s' x' (Function.update owed t o) where
  exclusive := by
    intro u v uh vh l hu hv hwrite hheld
    rw [hthread] at hu hv
    by_cases hut : u = t
    · by_cases hvt : v = t
      · rw [hut, hvt]
      · subst hut
        rw [Function.update_self] at hu
        rw [Function.update_of_ne hvt] at hv
        exact absurd ((hguards uh hu v vh l hvt hv).1 hwrite) hheld
    · rw [Function.update_of_ne hut] at hu
      by_cases hvt : v = t
      · subst hvt
        rw [Function.update_self] at hv
        exact absurd ((hguards vh hv u uh l hut hu).2 hwrite) hheld
      · rw [Function.update_of_ne hvt] at hv
        exact h.exclusive u v uh vh l hu hv hwrite hheld
  beside := by
    intro u
    rw [hthread, hstatus]
    by_cases hut : u = t
    · subst hut
      rw [Function.update_self, Function.update_self, Function.update_self]
      exact hbeside
    · rw [Function.update_of_ne hut, Function.update_of_ne hut, Function.update_of_ne hut]
      refine (h.beside u).frame fun uh hu l hheld => hkeep l fun y hy hwrite => ?_
      exact hut (h.exclusive t u y uh l hy hu hwrite hheld).symm
  value := by
    intro l hnone
    refine hvalue l (fun u hut => ?_) ?_
    · have := hnone u
      rwa [Function.update_of_ne hut] at this
    · have := hnone t
      rwa [Function.update_self] at this

/-- The operation of a call takes effect. -/
theorem Simulates.take_effect {s : State V T O R} {x : Object V T O R} {owed : T → Partial V}
    (h : Simulates effect s x owed) {t : T} {th : Thread V O R} (ht : s.thread t = some th)
    (hstatus : x.status t = .called th.op) (howed : owed t = fun _ => none) {known : Partial V}
    (hknown : ∀ l v, known l = some v → th.guards l ≠ none ∧ s.value l = v)
    (heffective : th.rest.Effective effect th.op known th.guards) :
    ∃ x' owed' result, Object.Step effect x (.turn t) x' ∧ Simulates effect s x' owed' ∧
      x'.status t = .done th.op result := by
  obtain ⟨result, o, howes, hwrite, heffect⟩ := heffective
  have heq := heffect x.value fun l v hl => by
    obtain ⟨hheld, hv⟩ := hknown l v hl
    rw [← hv]
    exact h.value_of_guard ht hheld (by rw [howed])
  refine ⟨_, Function.update owed t o, result, .turn hstatus, ?_, ?_⟩
  · refine h.move t (some th) (.done th.op result) ?_ ?_ ?_ ?_ ?_ ?_
    · rw [← ht, Function.update_eq_self]
    · rw [heq]
    · intro l hl
      refine ⟨rfl, ?_⟩
      have hnone : o l = none := by
        by_contra hne
        obtain ⟨v, hv⟩ := Option.ne_none_iff_exists'.mp hne
        exact hl th ht (hwrite l v hv)
      simp only [heq, hnone, Option.getD_none]
    · intro y hy
      cases hy
      exact h.admits ht
    · refine .after howes fun l v hl => ⟨hwrite l v hl, ?_⟩
      simp only [heq, hl, Option.getD_some]
    · intro l hothers hnone
      simp only [heq, hnone, Option.getD_none]
      refine h.value l fun u => ?_
      by_cases hut : u = t
      · rw [hut, howed]
      · exact hothers u hut
  · simp only [heq, Function.update_self]

/-- A step of a call that has not taken effect. -/
theorem Simulates.turn_before {program : O → Prog V R} {s s' : State V T O R}
    {x : Object V T O R} {owed : T → Partial V} (h : Simulates effect s x owed) {t : T}
    (hstep : Step program s (.turn t) s') {th : Thread V O R} (ht : s.thread t = some th)
    (hstatus : x.status t = .called th.op) (howed : owed t = fun _ => none) {known : Partial V}
    (hknown : ∀ l v, known l = some v → th.guards l ≠ none ∧ s.value l = v)
    (hlater : th.rest.Later effect th.op known th.guards) :
    Simulates effect s' x owed := by
  have hsame : Function.update owed t (fun _ => none) = owed := by
    rw [← howed, Function.update_eq_self]
  have hupdate : x.status = Function.update x.status t (.called th.op) := by
    rw [← hstatus, Function.update_eq_self]
  have hvalue : ∀ l, (∀ u, u ≠ t → owed u l = none) → (none : Option (V l)) = none →
      x.value l = s.value l := by
    intro l hothers _
    refine h.value l fun u => ?_
    by_cases hut : u = t
    · rw [hut, howed]
    · exact hothers u hut
  rw [← hsame]
  cases hstep with
  | @read _ op guards l next hrest hfree =>
    rw [ht, Option.some.injEq] at hrest
    subst hrest
    refine h.move t _ _ rfl hupdate (fun _ _ => ⟨rfl, rfl⟩) (fun y hy => ?_)
      (.before _ (hlater (s.value l)) (known_update hknown l .read)) hvalue
    cases hy
    exact (h.admits ht).read hfree
  | @write _ op guards l next hrest hfree =>
    rw [ht, Option.some.injEq] at hrest
    subst hrest
    refine h.move t _ _ rfl hupdate (fun _ _ => ⟨rfl, rfl⟩) (fun y hy => ?_)
      (.before _ (hlater (s.value l)) (known_update hknown l .write)) hvalue
    cases hy
    exact (h.admits ht).write hfree
  | @assign _ op guards l v next hrest hguard =>
    rw [ht, Option.some.injEq] at hrest
    subst hrest
    exact absurd hlater id
  | @drop _ op guards l next hrest =>
    rw [ht, Option.some.injEq] at hrest
    subst hrest
    refine h.move t _ _ rfl hupdate (fun _ _ => ⟨rfl, rfl⟩) (fun y hy => ?_)
      (.before _ hlater fun k w hk => ?_) hvalue
    · cases hy
      exact (h.admits ht).drop l
    · by_cases hkl : k = l
      · subst hkl
        rw [Function.update_self] at hk
        cases hk
      · rw [Function.update_of_ne hkl] at hk
        simp only [Function.update_of_ne hkl]
        exact hknown k w hk

/-- A step of a call that has taken effect. -/
theorem Simulates.turn_after {program : O → Prog V R} {s s' : State V T O R}
    {x : Object V T O R} {owed : T → Partial V} (h : Simulates effect s x owed) {t : T}
    (hstep : Step program s (.turn t) s') {th : Thread V O R} (ht : s.thread t = some th)
    {result : R} (hstatus : x.status t = .done th.op result)
    (howes : th.rest.Owes result (owed t))
    (howed : ∀ l v, owed t l = some v → th.guards l = some .write ∧ x.value l = v) :
    ∃ owed', Simulates effect s' x owed' := by
  have hupdate : x.status = Function.update x.status t (.done th.op result) := by
    rw [← hstatus, Function.update_eq_self]
  have hvalue : ∀ l, (∀ u, u ≠ t → owed u l = none) → owed t l = none →
      x.value l = s.value l := by
    intro l hothers hnone
    refine h.value l fun u => ?_
    by_cases hut : u = t
    · rw [hut, hnone]
    · exact hothers u hut
  cases hstep with
  | @read _ op guards l next hrest hfree =>
    rw [ht, Option.some.injEq] at hrest
    subst hrest
    refine ⟨_, h.move t _ _ rfl hupdate (fun _ _ => ⟨rfl, rfl⟩) (fun y hy => ?_)
      (.after (howes (s.value l)) fun k w hk => ?_) hvalue⟩
    · cases hy
      exact (h.admits ht).read hfree
    · obtain ⟨hwrite, hw⟩ := howed k w hk
      have hkl : k ≠ l := fun hkl => hfree t _ ht (hkl ▸ hwrite)
      simp only [Function.update_of_ne hkl]
      exact ⟨hwrite, hw⟩
  | @write _ op guards l next hrest hfree =>
    rw [ht, Option.some.injEq] at hrest
    subst hrest
    refine ⟨_, h.move t _ _ rfl hupdate (fun _ _ => ⟨rfl, rfl⟩) (fun y hy => ?_)
      (.after (howes (s.value l)) fun k w hk => ?_) hvalue⟩
    · cases hy
      exact (h.admits ht).write hfree
    · obtain ⟨hwrite, hw⟩ := howed k w hk
      have hkl : k ≠ l := by
        intro hkl
        rw [hkl, hfree t _ ht] at hwrite
        cases hwrite
      simp only [Function.update_of_ne hkl]
      exact ⟨hwrite, hw⟩
  | @assign _ op guards l v next hrest hguard =>
    rw [ht, Option.some.injEq] at hrest
    subst hrest
    obtain ⟨hl, howes⟩ := howes
    refine ⟨_, h.move t _ _ rfl hupdate (fun k hk => ?_) (fun y hy => ?_)
      (.after howes fun k w hk => ?_) fun k hothers hnone => ?_⟩
    · have hkl : k ≠ l := fun hkl => hk _ ht (hkl ▸ hguard)
      exact ⟨Function.update_of_ne hkl .., rfl⟩
    · have hadmits := h.admits ht
      cases hy
      exact hadmits
    · by_cases hkl : k = l
      · subst hkl
        rw [Function.update_self] at hk
        cases hk
      · rw [Function.update_of_ne hkl] at hk
        exact howed k w hk
    · show x.value k = Function.update s.value l v k
      by_cases hkl : k = l
      · subst hkl
        rw [Function.update_self]
        exact (howed k v hl).2
      · rw [Function.update_of_ne hkl]
        rw [Function.update_of_ne hkl] at hnone
        exact hvalue k hothers hnone
  | @drop _ op guards l next hrest =>
    rw [ht, Option.some.injEq] at hrest
    subst hrest
    obtain ⟨hl, howes⟩ := howes
    refine ⟨_, h.move t _ _ rfl hupdate (fun _ _ => ⟨rfl, rfl⟩) (fun y hy => ?_)
      (.after howes fun k w hk => ?_) hvalue⟩
    · cases hy
      exact (h.admits ht).drop l
    · have hkl : k ≠ l := by
        intro hkl
        subst hkl
        rw [hl] at hk
        cases hk
      simp only [Function.update_of_ne hkl]
      exact howed k w hk

theorem Simulates.turn {program : O → Prog V R} {s s' : State V T O R} {x : Object V T O R}
    {owed : T → Partial V} (h : Simulates effect s x owed) {t : T}
    (hstep : Step program s (.turn t) s') :
    ∃ acts x' owed', Run (Object.Step effect) x acts x' ∧ visible acts = [] ∧
      Simulates effect s' x' owed' := by
  obtain ⟨th, _, ht, _⟩ := hstep.of_turn
  have hafter : ∀ {x : Object V T O R} {owed : T → Partial V} {result : R},
      Simulates effect s x owed → x.status t = .done th.op result →
        ∃ owed', Simulates effect s' x owed' := by
    intro x owed result h hdone
    have hbeside := h.beside t
    rw [ht, hdone] at hbeside
    generalize ho : owed t = o at hbeside
    cases hbeside with
    | after howes howed =>
      subst ho
      exact h.turn_after hstep ht hdone howes howed
  have hbeside := h.beside t
  rw [ht] at hbeside
  generalize hst : x.status t = st at hbeside
  generalize ho : owed t = o at hbeside
  cases hbeside with
  | before known hatomic hknown =>
    rcases hatomic.effective_or_later with heffective | hlater
    · obtain ⟨x', owed', result, hstep', hsim, hdone⟩ :=
        h.take_effect ht hst ho hknown heffective
      obtain ⟨owed'', hsim'⟩ := hafter hsim hdone
      exact ⟨_, x', owed'', .single hstep', rfl, hsim'⟩
    · exact ⟨[], x, owed, .nil x, rfl, h.turn_before hstep ht hst ho hknown hlater⟩
  | after howes howed =>
    obtain ⟨owed', hsim⟩ := hafter h hst
    exact ⟨[], x, owed', .nil x, rfl, hsim⟩

theorem Simulates.call {program : O → Prog V R} {s s' : State V T O R} {x : Object V T O R}
    {owed : T → Partial V} (h : Simulates effect s x owed) {t : T} {op : O}
    (hprogram : (program op).Atomic effect op (fun _ => none) fun _ => none)
    (hstep : Step program s (.call t op) s') :
    ∃ x' owed', Object.Step effect x (.call t op) x' ∧ Simulates effect s' x' owed' := by
  cases hstep with
  | call _ hidle =>
    have hbeside := h.beside t
    rw [hidle] at hbeside
    generalize hst : x.status t = st at hbeside
    generalize ho : owed t = o at hbeside
    cases hbeside with
    | idle =>
      refine ⟨_, _, .call op hst, h.move t _ _ rfl rfl (fun _ _ => ⟨rfl, rfl⟩) (fun y hy => ?_)
        (.before (fun _ => none) hprogram fun l v hl => nomatch hl) fun l hothers _ => ?_⟩
      · cases hy
        exact fun u uh l _ _ => ⟨(fun hwrite => nomatch hwrite), fun _ => rfl⟩
      · refine h.value l fun u => ?_
        by_cases hut : u = t
        · rw [hut, ho]
        · exact hothers u hut

theorem Simulates.ret {program : O → Prog V R} {s s' : State V T O R} {x : Object V T O R}
    {owed : T → Partial V} (h : Simulates effect s x owed) {t : T} {op : O} {result : R}
    (hstep : Step program s (.ret t op result) s') :
    ∃ acts x' owed', Run (Object.Step effect) x acts x' ∧ visible acts = [.ret t op result] ∧
      Simulates effect s' x' owed' := by
  cases hstep with
  | @ret _ _ guards _ ht =>
    have hafter : ∀ {x : Object V T O R} {owed : T → Partial V} {result' : R},
        Simulates effect s x owed → x.status t = .done op result' →
          ∃ x' owed', Object.Step effect x (.ret t op result) x' ∧
            Simulates effect (s.put t none) x' owed' := by
      intro x owed result' h hdone
      have hbeside := h.beside t
      rw [ht, hdone] at hbeside
      generalize ho : owed t = o at hbeside
      cases hbeside with
      | after howes howed =>
        obtain ⟨rfl, hnone⟩ := howes
        refine ⟨_, _, .ret hdone, h.move t _ _ rfl rfl (fun _ _ => ⟨rfl, rfl⟩) (fun y hy => ?_)
          .idle fun l hothers _ => ?_⟩
        · cases hy
        · refine h.value l fun u => ?_
          by_cases hut : u = t
          · rw [hut, ho, hnone]
          · exact hothers u hut
    have hbeside := h.beside t
    rw [ht] at hbeside
    generalize hst : x.status t = st at hbeside
    generalize ho : owed t = o at hbeside
    cases hbeside with
    | before known hatomic hknown =>
      obtain ⟨x', owed', result', hstep', hsim, hdone⟩ := h.take_effect ht hst ho hknown hatomic
      obtain ⟨x'', owed'', hret, hsim'⟩ := hafter hsim hdone
      exact ⟨_, x'', owed'', .cons hstep' (.single hret), rfl, hsim'⟩
    | after howes howed =>
      obtain ⟨x', owed', hret, hsim⟩ := hafter h hst
      exact ⟨_, x', owed', .single hret, rfl, hsim⟩

/-- The calls and returns of a run are those of a run of the object, whose calls take effect at
once between the two. -/
theorem Simulates.run {program : O → Prog V R}
    (hprogram : ∀ op, (program op).Atomic effect op (fun _ => none) fun _ => none)
    {s s' : State V T O R} {x : Object V T O R} {owed : T → Partial V}
    {acts : List (Label T O R)} (h : Simulates effect s x owed)
    (hrun : Run (Step program) s acts s') :
    ∃ acts' x' owed', Run (Object.Step effect) x acts' x' ∧ visible acts' = visible acts ∧
      Simulates effect s' x' owed' := by
  induction hrun generalizing x owed with
  | nil s => exact ⟨[], x, owed, .nil x, rfl, h⟩
  | @cons s s₁ s' a acts hstep _ ih =>
    have hfirst : ∃ acts₁ x₁ owed₁, Run (Object.Step effect) x acts₁ x₁ ∧
        visible acts₁ = visible [a] ∧ Simulates effect s₁ x₁ owed₁ := by
      cases a with
      | call t op =>
        obtain ⟨x₁, owed₁, hcall, h₁⟩ := h.call (hprogram op) hstep
        exact ⟨_, x₁, owed₁, .single hcall, rfl, h₁⟩
      | turn t => exact h.turn hstep
      | ret t op result => exact h.ret hstep
    obtain ⟨acts₁, x₁, owed₁, hrun₁, hvisible₁, h₁⟩ := hfirst
    obtain ⟨acts₂, x₂, owed₂, hrun₂, hvisible₂, h₂⟩ := ih h₁
    refine ⟨acts₁ ++ acts₂, x₂, owed₂, hrun₁.append hrun₂, ?_, h₂⟩
    rw [visible_append, hvisible₁, hvisible₂, ← visible_append]
    rfl

end

end RwLock
