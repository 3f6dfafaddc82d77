/-
What is in the slots of the subscriber, from the history of the process.

The layers that are added to a builder get into the slot with the build of `LogPlugin` for this
builder and stay until the next build of `LogPlugin` for any; those that are added later, or to a
builder whose build panics, never get there, and where other code sets the dispatcher before the
first `App::new` there is no slot (`slots_iff`).  Each swap of the slots brings the level of `log`
in line with them (`level_of_slots`).
-/
import Summer.Log.Bootstrap

namespace Summer.Log

open History

variable {B L F : Type} {w : World L F}

/-! ## What a build makes -/

def LoggerConfig.logsToFile (config : LoggerConfig) : Bool :=
  config.fileAppender.any LoggerFileAppender.enable

/-- The file is written by a thread of its own. -/
def LoggerConfig.keepsGuard (config : LoggerConfig) : Bool :=
  config.fileAppender.any fun file => file.enable && file.nonBlocking

/-- The layers of a builder with those of its configuration. -/
def LoggerConfig.stack (config : LoggerConfig) (layers : List (Layer L)) : List (Layer L) :=
  layers ++ (if config.logsToFile then [.file] else []) ++ (if config.enable then [.stdout] else [])

theorem configSubscriber_eq (config : LoggerConfig) (layers : List (Layer L))
    (fileOpens guard : Bool) :
    config.configSubscriber layers fileOpens guard =
      if (config.logsToFile && !fileOpens) || (config.keepsGuard && guard) then none
      else some (config.stack layers, guard || config.keepsGuard) := by
  obtain ⟨enable, level, overrideFilter, fileAppender⟩ := config
  cases fileAppender with
  | none =>
    cases enable <;> cases guard <;>
      simp [LoggerConfig.configSubscriber, LoggerConfig.logsToFile, LoggerConfig.keepsGuard,
        LoggerConfig.stack]
  | some file =>
    obtain ⟨fileEnable, nonBlocking⟩ := file
    cases enable <;> cases guard <;> cases fileEnable <;> cases nonBlocking <;>
      cases fileOpens <;>
      simp [LoggerConfig.configSubscriber, LoggerConfig.logsToFile, LoggerConfig.keepsGuard,
        LoggerConfig.stack]

/-- A guard is kept only where there is a file. -/
theorem logsToFile_of_keepsGuard {config : LoggerConfig} (h : config.keepsGuard = true) :
    config.logsToFile = true := by
  unfold LoggerConfig.keepsGuard at h
  unfold LoggerConfig.logsToFile
  cases hfile : config.fileAppender with
  | none => rw [hfile] at h; cases h
  | some file =>
    rw [hfile] at h
    exact (Bool.and_eq_true_iff.mp h).1

namespace Process

/-- The filter of a build that completes: no panic, and the file, where there is one, opens. -/
def completes (w : World L F) (p : Process B L F) (fileOpens : Bool) (config : LoggerConfig) :
    Option F :=
  if (config.logsToFile && !fileOpens) || (config.keepsGuard && p.guard) then none
  else p.buildEnvFilter w config

/-- What is in the slots, where they are. -/
def slots (p : Process B L F) : Option (List (Layer L) × F) :=
  match p.dispatcher with
  | some (.bootstrap layers filter) => some (layers, filter)
  | _ => none

theorem slots_congr {p p' : Process B L F} (h : p.dispatcher = p'.dispatcher) :
    p.slots = p'.slots := by
  unfold slots
  rw [h]

/-- The logger and its level are set where the logger is free, the dispatcher where it is. -/
theorem install_eq (p : Process B L F) :
    p.install w =
      if p.installed then p
      else
        { p with
          installed := true
          dispatcher := p.dispatcher.or (some (.bootstrap [.placeholder] (p.initialFilter w)))
          logger := p.logger.or (some .bridge)
          maxLevel :=
            if p.logger.isSome then p.maxLevel
            else if p.dispatcher.isSome then .trace
            else w.current [.placeholder] (p.initialFilter w) } := by
  obtain ⟨rustLog, installed, dispatcher, logger, maxLevel, guard, pending⟩ := p
  cases installed with
  | true => rfl
  | false => cases dispatcher <;> cases logger <;> rfl

theorem install_guard_pending (p : Process B L F) :
    (p.install w).guard = p.guard ∧ (p.install w).pending = p.pending := by
  rw [install_eq]
  split <;> exact ⟨rfl, rfl⟩

theorem swap_eq (p : Process B L F) (layers : List (Layer L)) (filter : F) :
    p.swap w layers filter =
      match p.slots with
      | some _ =>
        { p with
          dispatcher := some (.bootstrap layers filter)
          maxLevel := w.current layers filter }
      | none => p := by
  obtain ⟨rustLog, installed, dispatcher, logger, maxLevel, guard, pending⟩ := p
  cases dispatcher with
  | none => rfl
  | some d => cases d <;> rfl

theorem slots_swap (p : Process B L F) (layers : List (Layer L)) (filter : F) :
    (p.swap w layers filter).slots = p.slots.map fun _ => (layers, filter) := by
  rw [swap_eq]
  cases hslots : p.slots with
  | none => exact hslots
  | some slots => rfl

section
variable [DecidableEq B]

/-- Whether it completes or not, a build takes the layers of its builder, and keeps a guard. -/
theorem build_eq (p : Process B L F) (builder : B) (fileOpens : Bool) (config : LoggerConfig) :
    p.build w builder fileOpens (some config) =
      let taken :=
        { p with
          pending := Function.update p.pending builder []
          guard := p.guard || (fileOpens && config.keepsGuard) }
      match p.completes w fileOpens config with
      | none => taken
      | some filter =>
        taken.swap w (config.stack ((p.pending builder).map .added) ++ [.error]) filter := by
  have hfile : config.keepsGuard = true → config.logsToFile = true := logsToFile_of_keepsGuard
  unfold build completes
  simp only [configSubscriber_eq]
  by_cases hpanics :
      ((config.logsToFile && !fileOpens) || (config.keepsGuard && p.guard)) = true
  · have hguard : (p.guard || (fileOpens && config.keepsGuard)) = p.guard := by
      revert hpanics hfile
      cases config.keepsGuard <;> cases config.logsToFile <;> cases fileOpens <;>
        cases p.guard <;> simp
    simp only [hpanics, if_true, hguard]
  · have hguard : (p.guard || config.keepsGuard) =
        (p.guard || (fileOpens && config.keepsGuard)) := by
      revert hpanics hfile
      cases config.keepsGuard <;> cases config.logsToFile <;> cases fileOpens <;>
        cases p.guard <;> simp
    cases p.buildEnvFilter w config <;>
      simp only [hpanics, if_false, hguard, Bool.false_eq_true]

/-- Beside the slots and the level, a build changes only what its builder stages and the guard. -/
theorem build_rest (p : Process B L F) (builder : B) (fileOpens : Bool) (config : LoggerConfig) :
    (p.build w builder fileOpens (some config)).installed = p.installed ∧
      (p.build w builder fileOpens (some config)).logger = p.logger ∧
      (p.build w builder fileOpens (some config)).guard =
        (p.guard || (fileOpens && config.keepsGuard)) ∧
      (p.build w builder fileOpens (some config)).pending =
        Function.update p.pending builder [] := by
  rw [build_eq]
  cases p.completes w fileOpens config with
  | none => exact ⟨rfl, rfl, rfl, rfl⟩
  | some filter =>
    simp only [swap_eq]
    split <;> exact ⟨rfl, rfl, rfl, rfl⟩

theorem build_slots (p : Process B L F) (builder : B) (fileOpens : Bool) (config : LoggerConfig) :
    (p.build w builder fileOpens (some config)).slots =
      match p.completes w fileOpens config with
      | none => p.slots
      | some filter => p.slots.map fun _ =>
          (config.stack ((p.pending builder).map .added) ++ [.error], filter) := by
  rw [build_eq]
  cases p.completes w fileOpens config with
  | none => exact slots_congr rfl
  | some filter => exact slots_swap _ _ _

/-- The level of `log` changes with the slots only. -/
theorem build_maxLevel (p : Process B L F) (builder : B) (fileOpens : Bool)
    (config : LoggerConfig) :
    (p.build w builder fileOpens (some config)).maxLevel =
      match p.completes w fileOpens config, p.slots with
      | some filter, some _ =>
        w.current (config.stack ((p.pending builder).map .added) ++ [.error]) filter
      | _, _ => p.maxLevel := by
  rw [build_eq]
  cases p.completes w fileOpens config with
  | none => rfl
  | some filter =>
    obtain ⟨rustLog, installed, dispatcher, logger, maxLevel, guard, pending⟩ := p
    cases dispatcher with
    | none => rfl
    | some d => cases d <;> rfl

end

end Process

/-! ## Who comes first -/

/-- Where the dispatcher is free, the action sets it. -/
def Settles : Act B L → Prop
  | .newApp _ => True
  | .setDispatcher => True
  | _ => False

/-- The first to come is an `App::new`. -/
def FirstApp (acts pre : List (Act B L)) (builder : B) : Prop :=
  First (fun _ => Settles) acts pre (.newApp builder)

def Ours (acts : List (Act B L)) : Prop := ∃ pre builder, FirstApp acts pre builder

/-- Whether the dispatcher is that of the bootstrap. -/
def Dispatcher.isOurs : Dispatcher L F → Bool
  | .bootstrap _ _ => true
  | .other => false

def Process.owner (p : Process B L F) : Option Bool := p.dispatcher.map Dispatcher.isOurs

def settled : Act B L → Option Bool
  | .newApp _ => some true
  | .setDispatcher => some false
  | _ => none

theorem settled_isSome_iff {a : Act B L} : (settled a).isSome ↔ Settles a := by
  cases a <;> simp [settled, Settles]

section
variable [DecidableEq B]

theorem build_owner (p : Process B L F) (builder : B) (fileOpens : Bool)
    (config : Option LoggerConfig) :
    (p.build w builder fileOpens config).owner = p.owner := by
  cases config with
  | none => rfl
  | some config =>
    rw [Process.build_eq]
    cases p.completes w fileOpens config with
    | none => rfl
    | some filter =>
      obtain ⟨rustLog, installed, dispatcher, logger, maxLevel, guard, pending⟩ := p
      cases dispatcher with
      | none => rfl
      | some d => cases d <;> rfl

theorem build_installed (p : Process B L F) (builder : B) (fileOpens : Bool)
    (config : Option LoggerConfig) :
    (p.build w builder fileOpens config).installed = p.installed := by
  cases config with
  | none => rfl
  | some config => exact (p.build_rest builder fileOpens config).1

/-- Once installed, there is a dispatcher. -/
theorem dispatcher_of_installed (acts : List (Act B L)) (h : (run w acts).installed = true) :
    (run w acts).dispatcher ≠ none := by
  induction acts using List.reverseRecOn with
  | nil => cases h
  | append_singleton acts a ih =>
    rw [run, run_snoc] at h ⊢
    change (step w (run w acts) a).installed = true at h
    change (step w (run w acts) a).dispatcher ≠ none
    cases a with
    | newApp builder =>
      by_cases hinstalled : (run w acts).installed = true
      · simp only [step, Process.install_eq, if_pos hinstalled]
        exact ih hinstalled
      · simp only [step, Process.install_eq, if_neg hinstalled]
        exact fun hnone => by cases (Option.or_eq_none_iff.mp hnone).2
    | addLayer builder layer => exact ih h
    | build builder fileOpens config =>
      have howner := build_owner (w := w) (run w acts) builder fileOpens config
      have hinstalled := build_installed (w := w) (run w acts) builder fileOpens config
      intro hnone
      change ((run w acts).build w builder fileOpens config).dispatcher = none at hnone
      rw [Process.owner, hnone, Option.map_none] at howner
      exact ih (hinstalled.symm.trans h) (Option.map_eq_none_iff.mp howner.symm)
    | setRustLog value => exact ih h
    | setDispatcher =>
      intro hnone
      exact ih h (Option.or_eq_none_iff.mp hnone).1
    | setLogger => exact ih h
    | setMaxLevel level => exact ih h

/-- The first `App::new` sets a dispatcher that is free, and no other one does. -/
theorem install_dispatcher (acts : List (Act B L)) :
    ((run w acts).install w).dispatcher = (run w acts).dispatcher.or
      (some (.bootstrap [.placeholder] ((run w acts).initialFilter w))) := by
  rw [Process.install_eq]
  by_cases hinstalled : (run w acts).installed = true
  · obtain ⟨d, hd⟩ := Option.ne_none_iff_exists'.mp (dispatcher_of_installed acts hinstalled)
    rw [if_pos hinstalled, hd, Option.some_or]
  · rw [if_neg hinstalled]

theorem owner_step (acts : List (Act B L)) (a : Act B L) :
    (step w (run w acts) a).owner = (run w acts).owner.or (settled a) := by
  cases a with
  | newApp builder =>
    simp only [step, Process.owner, install_dispatcher, settled]
    cases (run w acts).dispatcher <;> rfl
  | addLayer builder layer => exact Option.or_none.symm
  | build builder fileOpens config =>
    exact (build_owner (run w acts) builder fileOpens config).trans Option.or_none.symm
  | setRustLog value => exact Option.or_none.symm
  | setDispatcher =>
    simp only [step, Process.owner, settled]
    cases (run w acts).dispatcher <;> rfl
  | setLogger => exact Option.or_none.symm
  | setMaxLevel level => exact Option.or_none.symm

theorem dispatcher_eq_none_iff (acts : List (Act B L)) :
    (run w acts).dispatcher = none ↔ ∀ pre a, At acts pre a → ¬ Settles a := by
  have howner : (run w acts).dispatcher = none ↔ (run w acts).owner = none :=
    Option.map_eq_none_iff.symm
  rw [howner]
  refine (latch_eq_none_iff Process.owner (fun _ => settled) owner_step rfl acts).trans ?_
  simp only [Writes, settled_isSome_iff]

theorem ours_iff (acts : List (Act B L)) : (run w acts).owner = some true ↔ Ours acts := by
  refine (latch_eq_some_iff Process.owner (fun _ => settled) owner_step rfl acts true).trans ?_
  unfold First Writes
  simp only [settled_isSome_iff]
  constructor
  · intro h
    obtain ⟨pre, a, hfirst, ha⟩ := h
    cases a with
    | newApp builder => exact ⟨pre, builder, hfirst⟩
    | _ => cases ha
  · intro h
    obtain ⟨pre, builder, hfirst⟩ := h
    exact ⟨pre, .newApp builder, hfirst, rfl⟩

theorem slots_isSome_iff (acts : List (Act B L)) : (run w acts).slots.isSome ↔ Ours acts := by
  rw [← ours_iff (w := w), Process.slots, Process.owner]
  cases (run w acts).dispatcher with
  | none => simp
  | some d => cases d <;> simp [Dispatcher.isOurs]

theorem dispatcher_ne_none_of_settles {acts pre : List (Act B L)} {a : Act B L}
    (hat : At acts pre a) (h : Settles a) : (run w acts).dispatcher ≠ none := fun hnone =>
  (dispatcher_eq_none_iff acts).mp hnone pre a hat h

theorem Ours.of_at {acts pre : List (Act B L)} {a : Act B L} (h : Ours pre) (hat : At acts pre a) :
    (run w acts).dispatcher ≠ none := by
  obtain ⟨first, builder, hfirst, _⟩ := h
  exact dispatcher_ne_none_of_settles (hat.trans hfirst) trivial

/-! ## What a build finds -/

/-- A build of this kind keeps a guard, if none is kept yet. -/
def takesGuard : Act B L → Bool
  | .build _ fileOpens (some config) => fileOpens && config.keepsGuard
  | _ => false

def GuardTaken (acts : List (Act B L)) : Prop := ∃ a ∈ acts, takesGuard a = true

theorem guard_iff (acts : List (Act B L)) : (run w acts).guard = true ↔ GuardTaken acts := by
  refine flag_iff Process.guard takesGuard (fun acts a => ?_) rfl acts
  change (step w (run w acts) a).guard = ((run w acts).guard || takesGuard a)
  cases a with
  | newApp builder =>
    exact (run w acts).install_guard_pending.1.trans (Bool.or_false _).symm
  | build builder fileOpens config =>
    cases config with
    | none => exact (Bool.or_false _).symm
    | some config => exact ((run w acts).build_rest builder fileOpens config).2.2.1
  | _ => exact (Bool.or_false _).symm

/-- Takes the layers of this builder, to install them or for a new builder. -/
def Takes (builder : B) : Act B L → Prop
  | .newApp builder' => builder' = builder
  | .build builder' _ (some _) => builder' = builder
  | _ => False

instance (builder : B) (a : Act B L) : Decidable (Takes builder a) := by
  cases a with
  | newApp builder' => exact inferInstanceAs (Decidable (builder' = builder))
  | build builder' fileOpens config =>
    cases config with
    | none => exact instDecidableFalse
    | some config => exact inferInstanceAs (Decidable (builder' = builder))
  | _ => exact instDecidableFalse

def puts (builder : B) : Act B L → List L
  | .addLayer builder' layer => if builder' = builder then [layer] else []
  | _ => []

/-- The layers that are added to this builder and not taken yet, in their order. -/
def staged (builder : B) (acts : List (Act B L)) : List L :=
  (acts.rtakeWhile fun a => ¬ Takes builder a).flatMap (puts builder)

theorem pending_step (acts : List (Act B L)) (a : Act B L) (builder : B) :
    (step w (run w acts) a).pending builder =
      if Takes builder a then [] else (run w acts).pending builder ++ puts builder a := by
  have hother : ∀ builder' : B, builder' ≠ builder → ∀ layers : List L,
      Function.update (run w acts).pending builder' layers builder =
        (run w acts).pending builder := by
    intro builder' h layers
    rw [Function.update_of_ne (Ne.symm h)]
  cases a with
  | newApp builder' =>
    by_cases h : builder' = builder
    · simp only [step, Takes, h, if_true, Function.update_self]
    · simp only [step, Takes, h, if_false, hother builder' h, puts, List.append_nil]
  | addLayer builder' layer =>
    by_cases h : builder' = builder
    · simp only [step, Takes, puts, h, if_true, if_false, Function.update_self]
    · simp only [step, Takes, puts, h, if_false, hother builder' h, List.append_nil]
  | build builder' fileOpens config =>
    cases config with
    | none => exact (List.append_nil _).symm
    | some config =>
      have hpending := ((run w acts).build_rest (w := w) builder' fileOpens config).2.2.2
      by_cases h : builder' = builder
      · subst h
        simp only [step, Takes, hpending, if_true, Function.update_self]
      · simp only [step, Takes, hpending, h, if_false, hother builder' h, puts, List.append_nil]
  | setRustLog value => exact (List.append_nil _).symm
  | setDispatcher => exact (List.append_nil _).symm
  | setLogger => exact (List.append_nil _).symm
  | setMaxLevel level => exact (List.append_nil _).symm

theorem pending_eq (acts : List (Act B L)) (builder : B) :
    (run w acts).pending builder = staged builder acts :=
  pile_eq (fun p : Process B L F => p.pending builder) (puts builder) (Takes builder)
    (fun acts a => pending_step acts a builder) rfl acts

/-! ## What is in force -/

/-- A build completes with this filter: no panic, and the file, where there is one, opens. -/
structure Completes (w : World L F) (pre : List (Act B L)) (fileOpens : Bool)
    (config : LoggerConfig) (filter : F) : Prop where
  file : config.logsToFile = true → fileOpens = true
  guard : config.keepsGuard = true → ¬ GuardTaken pre
  filter : (run w pre).buildEnvFilter w config = some filter

theorem completes_iff {pre : List (Act B L)} {fileOpens : Bool} {config : LoggerConfig}
    {filter : F} :
    (run w pre).completes w fileOpens config = some filter ↔
      Completes w pre fileOpens config filter := by
  have hpanics : (((config.logsToFile && !fileOpens) ||
      (config.keepsGuard && (run w pre).guard)) = true) ↔
        config.logsToFile = true ∧ fileOpens = false ∨
          config.keepsGuard = true ∧ GuardTaken pre := by
    simp only [Bool.or_eq_true, Bool.and_eq_true, Bool.not_eq_true', guard_iff]
  unfold Process.completes
  constructor
  · intro h
    split_ifs at h with hno
    have hno := mt hpanics.mpr hno
    refine ⟨fun hfile => ?_, fun hguard htaken => hno (Or.inr ⟨hguard, htaken⟩), h⟩
    exact Bool.not_eq_false _ ▸ fun hopens => hno (Or.inl ⟨hfile, hopens⟩)
  · intro h
    rw [if_neg, h.filter]
    intro hyes
    rcases hpanics.mp hyes with ⟨hfile, hopens⟩ | ⟨hguard, htaken⟩
    · exact Bool.false_ne_true (hopens.symm.trans (h.file hfile))
    · exact h.guard hguard htaken

/-- The action swaps the slots of the bootstrap. -/
def Swaps (w : World L F) (pre : List (Act B L)) (a : Act B L) : Prop :=
  Ours pre ∧ ∃ builder fileOpens config filter,
    a = .build builder fileOpens (some config) ∧ Completes w pre fileOpens config filter

/-- What a build of this builder puts in the slot of the layers. -/
def stackOf (config : LoggerConfig) (builder : B) (pre : List (Act B L)) : List (Layer L) :=
  config.stack ((staged builder pre).map .added) ++ [.error]

/-- What the action puts in the slots. -/
def written (w : World L F) (p : Process B L F) : Act B L → Option (List (Layer L) × F)
  | .newApp _ =>
    match p.dispatcher with
    | none => some ([.placeholder], p.initialFilter w)
    | some _ => none
  | .build builder fileOpens (some config) =>
    match p.completes w fileOpens config with
    | none => none
    | some filter => p.slots.map fun _ =>
        (config.stack ((p.pending builder).map .added) ++ [.error], filter)
  | _ => none

theorem slots_step (acts : List (Act B L)) (a : Act B L) :
    (step w (run w acts) a).slots =
      ((written w (run w acts) a).map some).getD (run w acts).slots := by
  cases a with
  | newApp builder =>
    have hslots : (step w (run w acts) (.newApp builder)).slots =
        ({ run w acts with
          dispatcher := (run w acts).dispatcher.or
            (some (.bootstrap [.placeholder] ((run w acts).initialFilter w))) } :
          Process B L F).slots := Process.slots_congr (install_dispatcher acts)
    rw [hslots, written]
    cases hd : (run w acts).dispatcher with
    | none => rfl
    | some d => exact Process.slots_congr hd.symm
  | build builder fileOpens config =>
    cases config with
    | none => rfl
    | some config =>
      refine ((run w acts).build_slots builder fileOpens config).trans ?_
      simp only [written]
      cases (run w acts).completes w fileOpens config with
      | none => rfl
      | some filter => cases (run w acts).slots <;> rfl
  | setDispatcher =>
    simp only [step, written, Option.map_none, Option.getD_none]
    cases hd : (run w acts).dispatcher with
    | none =>
      unfold Process.slots
      rw [hd]
      rfl
    | some d => exact Process.slots_congr hd.symm
  | addLayer builder layer => rfl
  | setRustLog value => rfl
  | setLogger => rfl
  | setMaxLevel level => rfl

theorem written_build_iff {pre : List (Act B L)} {builder : B} {fileOpens : Bool}
    {config : LoggerConfig} {layers : List (Layer L)} {filter : F} :
    written w (run w pre) (.build builder fileOpens (some config)) = some (layers, filter) ↔
      Ours pre ∧ Completes w pre fileOpens config filter ∧
        layers = stackOf config builder pre := by
  rw [← slots_isSome_iff (w := w), ← completes_iff, stackOf, ← pending_eq (w := w)]
  simp only [written]
  cases (run w pre).completes w fileOpens config with
  | none => simp
  | some filter' =>
    cases (run w pre).slots with
    | none => simp
    | some slots =>
      simp only [Option.map_some, Option.some.injEq, Prod.mk.injEq, Option.isSome_some, true_and]
      exact ⟨fun h => ⟨h.2, h.1.symm⟩, fun h => ⟨h.2.symm, h.1⟩⟩

theorem written_isSome_iff {pre : List (Act B L)} {a : Act B L} :
    (written w (run w pre) a).isSome ↔
      Swaps w pre a ∨ (∃ builder, a = .newApp builder) ∧ (run w pre).dispatcher = none := by
  cases a with
  | build builder fileOpens config =>
    cases config with
    | none => simp [written, Swaps]
    | some config =>
      rw [Option.isSome_iff_exists]
      constructor
      · intro h
        obtain ⟨⟨layers, filter⟩, h⟩ := h
        obtain ⟨hours, hcompletes, _⟩ := written_build_iff.mp h
        exact Or.inl ⟨hours, builder, fileOpens, config, filter, rfl, hcompletes⟩
      · intro h
        rcases h with ⟨hours, _, _, _, filter, heq, hcompletes⟩ | ⟨⟨_, heq⟩, _⟩
        · cases heq
          exact ⟨_, written_build_iff.mpr ⟨hours, hcompletes, rfl⟩⟩
        · cases heq
  | newApp builder =>
    simp only [written, Swaps, reduceCtorEq, false_and, exists_false, and_false, false_or,
      Act.newApp.injEq, exists_eq', true_and]
    cases (run w pre).dispatcher <;> simp
  | addLayer builder layer => simp [written, Swaps]
  | setRustLog value => simp [written, Swaps]
  | setDispatcher => simp [written, Swaps]
  | setLogger => simp [written, Swaps]
  | setMaxLevel level => simp [written, Swaps]

/-- The last write of the slots is the bootstrap's, or that of the last build that completes. -/
theorem last_written_iff {acts pre : List (Act B L)} {a : Act B L}
    {layers : List (Layer L)} {filter : F} :
    Last (fun pre a => (written w (run w pre) a).isSome) acts pre a ∧
        written w (run w pre) a = some (layers, filter) ↔
      (∃ builder, a = .newApp builder ∧ FirstApp acts pre builder ∧
          (∀ pre' b, At acts pre' b → ¬ Swaps w pre' b) ∧ layers = [.placeholder] ∧
          filter = (run w pre).initialFilter w) ∨
        ∃ builder fileOpens config, a = .build builder fileOpens (some config) ∧
          Last (Swaps w) acts pre a ∧ Ours pre ∧ Completes w pre fileOpens config filter ∧
          layers = stackOf config builder pre := by
  constructor
  · intro h
    obtain ⟨⟨hat, hlast⟩, hwritten⟩ := h
    have hlater : ∀ pre' b, At acts pre' b → pre.length < pre'.length → ¬ Swaps w pre' b :=
      fun pre' b hb hlt hswaps => hlast pre' b hb hlt (written_isSome_iff.mpr (Or.inl hswaps))
    rcases written_isSome_iff.mp (by rw [hwritten]; rfl) with hswaps | ⟨⟨builder, rfl⟩, hnone⟩
    · obtain ⟨hours, builder, fileOpens, config, _, rfl, _⟩ := hswaps
      obtain ⟨_, hcompletes, hlayers⟩ := written_build_iff.mp hwritten
      exact Or.inr ⟨builder, fileOpens, config, rfl, ⟨hat, hlater⟩, hours, hcompletes, hlayers⟩
    · refine Or.inl ⟨builder, rfl, ⟨hat, (dispatcher_eq_none_iff pre).mp hnone⟩,
        fun pre' b hb hswaps => ?_, ?_⟩
      · rcases Nat.lt_trichotomy pre'.length pre.length with hlt | heq | hgt
        · exact hswaps.1.of_at (hb.of_lt hat hlt) hnone
        · obtain ⟨_, rfl⟩ := hb.eq_of_length hat heq
          obtain ⟨_, _, _, _, _, heq, _⟩ := hswaps
          cases heq
        · exact hlater pre' b hb hgt hswaps
      · simp only [written, hnone, Option.some.injEq, Prod.mk.injEq] at hwritten
        exact ⟨hwritten.1.symm, hwritten.2.symm⟩
  · intro h
    rcases h with ⟨builder, rfl, ⟨hat, hfirst⟩, hnone, rfl, rfl⟩ |
      ⟨builder, fileOpens, config, rfl, ⟨hat, hlast⟩, hours, hcompletes, rfl⟩
    · have hfree := (dispatcher_eq_none_iff (w := w) pre).mpr hfirst
      refine ⟨⟨hat, fun pre' b hb hlt hwritten => ?_⟩, by simp only [written, hfree]⟩
      rcases written_isSome_iff.mp hwritten with hswaps | ⟨_, hnone'⟩
      · exact hnone pre' b hb hswaps
      · exact dispatcher_ne_none_of_settles (hat.of_lt hb hlt) trivial hnone'
    · refine ⟨⟨hat, fun pre' b hb hlt hwritten => ?_⟩,
        written_build_iff.mpr ⟨hours, hcompletes, rfl⟩⟩
      rcases written_isSome_iff.mp hwritten with hswaps | ⟨_, hnone'⟩
      · exact hlast pre' b hb hlt hswaps
      · exact hours.of_at (hat.of_lt hb hlt) hnone'

/-- What is in the slots after any history: before a build of `LogPlugin` has completed, the
placeholder, if the first to come was an `App::new`, with the filter of that time; and then what
the last build that has completed put there, with its filter. -/
theorem slots_iff (w : World L F) (acts : List (Act B L)) (layers : List (Layer L)) (filter : F) :
    (run w acts).slots = some (layers, filter) ↔
      (∃ pre builder, FirstApp acts pre builder ∧ (∀ pre' a, At acts pre' a → ¬ Swaps w pre' a) ∧
          layers = [.placeholder] ∧ filter = (run w pre).initialFilter w) ∨
        ∃ pre builder fileOpens config,
          Last (Swaps w) acts pre (.build builder fileOpens (some config)) ∧ Ours pre ∧
          Completes w pre fileOpens config filter ∧ layers = stackOf config builder pre := by
  have hlast : (run w acts).slots = some (layers, filter) ↔
      ∃ pre a, Last (fun pre a => (written w (run w pre) a).isSome) acts pre a ∧
        written w (run w pre) a = some (layers, filter) := by
    refine (get_eq_iff Process.slots (fun p a => (written w p a).map some) slots_step acts
      (some (layers, filter))).trans ?_
    unfold Writes
    simp only [Option.isSome_map, Option.map_eq_some_iff, Option.some.injEq, exists_eq_right]
    exact or_iff_right fun h => by cases h.2
  rw [hlast]
  simp only [last_written_iff]
  constructor
  · intro h
    obtain ⟨pre, a, h⟩ := h
    rcases h with ⟨builder, rfl, hfirst⟩ | ⟨builder, fileOpens, config, rfl, hbuild⟩
    · exact Or.inl ⟨pre, builder, hfirst⟩
    · exact Or.inr ⟨pre, builder, fileOpens, config, hbuild⟩
  · intro h
    rcases h with ⟨pre, builder, hfirst⟩ | ⟨pre, builder, fileOpens, config, hbuild⟩
    · exact ⟨pre, _, Or.inl ⟨builder, rfl, hfirst⟩⟩
    · exact ⟨pre, _, Or.inr ⟨builder, fileOpens, config, rfl, hbuild⟩⟩

/-! ## The level of `log` -/

/-- The level of `log` is that of what is in the slots. -/
def Process.InStep (w : World L F) (p : Process B L F) : Prop :=
  ∃ layers filter, p.slots = some (layers, filter) ∧ p.maxLevel = w.current layers filter

/-- The action brings the level of `log` in line with the slots: a swap, or an `App::new` that is
the first to set the dispatcher and the logger. -/
def Aligns (w : World L F) (pre : List (Act B L)) (a : Act B L) : Prop :=
  Swaps w pre a ∨
    (∃ builder, a = .newApp builder) ∧ (∀ pre' b, At pre pre' b → ¬ Settles b) ∧ .setLogger ∉ pre

def isNewApp : Act B L → Bool
  | .newApp _ => true
  | _ => false

theorem installed_iff (acts : List (Act B L)) :
    (run w acts).installed = true ↔ ∃ a ∈ acts, isNewApp a = true := by
  refine flag_iff Process.installed isNewApp (fun acts a => ?_) rfl acts
  change (step w (run w acts) a).installed = ((run w acts).installed || isNewApp a)
  cases a with
  | newApp builder =>
    simp only [step, Process.install_eq, isNewApp, Bool.or_true]
    split
    · assumption
    · rfl
  | build builder fileOpens config =>
    exact (build_installed (run w acts) builder fileOpens config).trans (Bool.or_false _).symm
  | _ => exact (Bool.or_false _).symm

/-- Only an `App::new` and other code set the logger. -/
theorem logger_eq_none (acts : List (Act B L)) (hnew : ¬ ∃ a ∈ acts, isNewApp a = true)
    (hset : .setLogger ∉ acts) : (run w acts).logger = none := by
  induction acts using List.reverseRecOn with
  | nil => rfl
  | append_singleton acts a ih =>
    have hlogger := ih (fun h => hnew (h.imp fun b hb => ⟨List.mem_append_left _ hb.1, hb.2⟩))
      fun hmem => hset (List.mem_append_left _ hmem)
    have ha : a ∈ acts ++ [a] := List.mem_append_right _ (List.mem_singleton_self a)
    rw [run, run_snoc]
    cases a with
    | newApp builder => exact absurd ⟨_, ha, rfl⟩ hnew
    | build builder fileOpens config =>
      cases config with
      | none => exact hlogger
      | some config => exact ((run w acts).build_rest builder fileOpens config).2.1.trans hlogger
    | setLogger => exact absurd ha hset
    | _ => exact hlogger

/-- A build that completes where there are slots leaves them in step. -/
theorem inStep_build {p : Process B L F} {builder : B} {fileOpens : Bool} {config : LoggerConfig}
    (h : p.InStep w ∨ p.slots.isSome ∧ (p.completes w fileOpens config).isSome) :
    (p.build w builder fileOpens (some config)).InStep w := by
  have hslots := p.build_slots (w := w) builder fileOpens config
  have hlevel := p.build_maxLevel (w := w) builder fileOpens config
  cases hcompletes : p.completes w fileOpens config with
  | none =>
    rw [hcompletes] at hslots hlevel h
    rcases h with ⟨layers, filter, hfound, hin⟩ | ⟨_, hnone⟩
    · exact ⟨layers, filter, hslots.trans hfound, hlevel.trans hin⟩
    · cases hnone
  | some filter =>
    have hsome : p.slots.isSome := by
      rcases h with ⟨_, _, hfound, _⟩ | ⟨hsome, _⟩
      · rw [hfound]
        rfl
      · exact hsome
    obtain ⟨slots, hfound⟩ := Option.isSome_iff_exists.mp hsome
    rw [hcompletes, hfound] at hslots hlevel
    exact ⟨_, filter, hslots, hlevel⟩

theorem inStep_of_aligns {acts : List (Act B L)} {a : Act B L} (h : Aligns w acts a) :
    (step w (run w acts) a).InStep w := by
  rcases h with ⟨hours, builder, fileOpens, config, filter, rfl, hcompletes⟩ |
    ⟨⟨builder, rfl⟩, hfirst, hset⟩
  · refine inStep_build (Or.inr ⟨(slots_isSome_iff acts).mpr hours, ?_⟩)
    rw [completes_iff.mpr hcompletes]
    rfl
  · have hnew : ¬ ∃ a ∈ acts, isNewApp a = true := by
      intro h
      obtain ⟨b, hmem, hb⟩ := h
      obtain ⟨pre, hat⟩ := exists_at hmem
      cases b with
      | newApp builder' => exact hfirst pre _ hat trivial
      | _ => cases hb
    have hinstalled := Bool.eq_false_iff.mpr (mt (installed_iff (w := w) acts).mp hnew)
    have hlogger := logger_eq_none (w := w) acts hnew hset
    have hfree := (dispatcher_eq_none_iff (w := w) acts).mpr hfirst
    refine ⟨[.placeholder], (run w acts).initialFilter w, ?_, ?_⟩
    · simp only [step, Process.install_eq, hinstalled, hfree, Bool.false_eq_true, if_false]
      rfl
    · simp only [step, Process.install_eq, hinstalled, hfree, hlogger, Bool.false_eq_true,
        if_false, Option.isSome_none]

theorem inStep_step {acts : List (Act B L)} {a : Act B L} (h : (run w acts).InStep w)
    (ha : ∀ level, a ≠ .setMaxLevel level) : (step w (run w acts) a).InStep w := by
  obtain ⟨layers, filter, hslots, hlevel⟩ := h
  have hd : (run w acts).dispatcher = some (.bootstrap layers filter) := by
    unfold Process.slots at hslots
    split at hslots
    · next heq => cases hslots; exact heq
    · cases hslots
  cases a with
  | newApp builder =>
    obtain ⟨pre, builder', hfirst, _⟩ := (slots_isSome_iff (w := w) acts).mp (by rw [hslots]; rfl)
    have hinstalled := (installed_iff (w := w) acts).mpr ⟨_, hfirst.mem, rfl⟩
    refine ⟨layers, filter, ?_, ?_⟩
    · simp only [step, Process.install, hinstalled, if_true]
      exact hslots
    · simp only [step, Process.install, hinstalled, if_true]
      exact hlevel
  | build builder fileOpens config =>
    cases config with
    | none => exact ⟨layers, filter, hslots, hlevel⟩
    | some config => exact inStep_build (Or.inl ⟨layers, filter, hslots, hlevel⟩)
  | setDispatcher =>
    refine ⟨layers, filter, ?_, hlevel⟩
    rw [← hslots]
    refine Process.slots_congr ?_
    simp only [step, hd, Option.some_or]
  | setMaxLevel level => exact absurd rfl (ha level)
  | _ => exact ⟨layers, filter, hslots, hlevel⟩

/-- After an action that brings it in line, the level of `log` stays that of what is in the slots,
with whatever builds and whosever logger, until other code sets it. -/
theorem level_of_slots (w : World L F) (pre post : List (Act B L)) (a : Act B L)
    (haligns : Aligns w pre a) (hset : ∀ level, .setMaxLevel level ∉ post) :
    (run w (pre ++ a :: post)).InStep w := by
  induction post using List.reverseRecOn with
  | nil =>
    rw [run, run_snoc]
    exact inStep_of_aligns haligns
  | append_singleton post b ih =>
    rw [← List.cons_append, ← List.append_assoc, run, run_snoc]
    refine inStep_step (ih fun level hmem => hset level (List.mem_append_left _ hmem))
      fun level heq => ?_
    exact hset level (List.mem_append_right _ (List.mem_singleton.mpr heq.symm))

end

namespace Sample

/-- A filter is its level. -/
def world : World String LogLevel where
  tryNew directive := if directive = "debug" then some .debug else none
  info := .info
  current _ filter := filter
  rustLog := none

def config : LoggerConfig where
  enable := true
  level := .debug
  overrideFilter := none
  fileAppender := none

/-- Other code has a logger and a level of its own before the first `App::new`. -/
def before : List (Act ℕ String) :=
  [.setLogger, .setMaxLevel .error, .newApp 0, .addLayer 0 "otel"]

def after : List (Act ℕ String) := [.setRustLog (some "debug"), .newApp 1]

end Sample

/-- The build of `LogPlugin` puts the added layer in its slot and gives `log` the level of the
configuration, though the logger is not the bridge. -/
theorem level_of_slots_sample :
    let s := run Sample.world (Sample.before ++ .build 0 true (some Sample.config) :: Sample.after)
    s.slots = some ([.added "otel", .stdout, .error], .debug) ∧ s.maxLevel = .debug ∧
      s.logger = some .other := by
  intro s
  have hslots : s.slots = some ([.added "otel", .stdout, .error], .debug) := rfl
  have hswaps : Swaps Sample.world Sample.before (.build 0 true (some Sample.config)) :=
    ⟨(slots_isSome_iff (w := Sample.world) Sample.before).mp rfl, 0, true, Sample.config, .debug,
      rfl, completes_iff.mp rfl⟩
  obtain ⟨layers, filter, hfound, hlevel⟩ :=
    level_of_slots Sample.world Sample.before Sample.after _ (Or.inl hswaps)
      fun level hmem => by simp [Sample.after] at hmem
  rw [hslots] at hfound
  cases hfound
  exact ⟨hslots, hlevel, rfl⟩

end Summer.Log
