/-
`build_plugins` as a function and as a transition system.

When the callbacks of a program use the builder through its calls only, every execution of
`buildPlugins` is a run of the system, whether it returns, panics or ends with an error, so what
holds of all runs holds of the function (`buildPlugins_ends`).
-/
import Summer.App.Lifecycle

namespace Summer
namespace Lifecycle

open AppBuilder

variable {V C T : Type} {prog : Program V C T} {order : HashOrder}

/-- `s` leads to a state with this builder and this phase. -/
def Leads (prog : Program V C T) (order : HashOrder) (s : State V C T)
    (app : AppBuilder V C T) (phase : Phase) : Prop :=
  ∃ acts t, Run (Step prog order) s acts t ∧ t.app = app ∧ t.phase = phase

/-- `s` leads to where code ends that has this result: at a phase with a builder, unwound by a
panic with the same text, or at the error. -/
def Ends {α : Type} (prog : Program V C T) (order : HashOrder) (s : State V C T)
    (builder : α → AppBuilder V C T) (phase : α → Phase) : Except Abort α → Prop
  | .ok a => Leads prog order s (builder a) (phase a)
  | .error (.panic p) => ∃ acts t q, Run (Step prog order) s acts t ∧ t.phase = .panicked q ∧
      q.message = p.message
  | .error (.err e) => ∃ acts t, Run (Step prog order) s acts t ∧ t.phase = .failed e

/-- Whenever it is its turn, what `f` does to the builder is a run of steps that leaves
`build_plugins` where it is, or ends it. -/
def Acts (prog : Program V C T) (order : HashOrder) (turn : Phase → Prop)
    (f : AppBuilder V C T → Except Abort (AppBuilder V C T)) : Prop :=
  ∀ s : State V C T, turn s.phase → Ends prog order s id (fun _ => s.phase) (f s.app)

/-- The callbacks of the program act through the builder's calls. -/
structure ByCalls (prog : Program V C T) (order : HashOrder) : Prop where
  build : ∀ p, Acts prog order Phase.userTurn fun app => orPanic (prog.build p app)
  immediatelyBuild : ∀ p, Acts prog order Phase.userTurn fun app =>
    orPanic (prog.immediatelyBuild p app)
  onConfigEvent : Acts prog order (· = .config) prog.onConfigEvent
  logPlugin : Acts prog order Phase.userTurn fun app => orPanic (prog.logPlugin app)
  onPluginsBuilt : Acts prog order (· = .built) prog.onPluginsBuilt

theorem orPanic_bind {α β : Type} (x : Except Panic α) (f : α → Except Panic β) :
    orPanic (x >>= f) = orPanic x >>= fun a => orPanic (f a) := by
  cases x <;> rfl

section
variable {α β : Type} {s : State V C T} {builder : α → AppBuilder V C T} {phase : α → Phase}

theorem Leads.here (s : State V C T) : Leads prog order s s.app s.phase :=
  ⟨[], s, .nil s, rfl, rfl⟩

theorem Ends.run {t : State V C T} {acts : List Act} {x : Except Abort α}
    (h : Run (Step prog order) s acts t) (ht : Ends prog order t builder phase x) :
    Ends prog order s builder phase x := by
  match x, ht with
  | .ok a, ht =>
    obtain ⟨acts', u, hrun, happ, hphase⟩ := ht
    exact ⟨acts ++ acts', u, h.append hrun, happ, hphase⟩
  | .error (.panic p), ht =>
    obtain ⟨acts', u, q, hrun, hphase, hmessage⟩ := ht
    exact ⟨acts ++ acts', u, q, h.append hrun, hphase, hmessage⟩
  | .error (.err e), ht =>
    obtain ⟨acts', u, hrun, hphase⟩ := ht
    exact ⟨acts ++ acts', u, h.append hrun, hphase⟩

theorem Ends.step {t : State V C T} {a : Act} {x : Except Abort α} (h : Step prog order s a t)
    (ht : Ends prog order t builder phase x) : Ends prog order s builder phase x :=
  ht.run (.single h)

/-- Code in sequence: what follows starts where the first part has returned. -/
theorem Ends.bind {builder' : β → AppBuilder V C T} {phase' : β → Phase} {x : Except Abort α}
    {f : α → Except Abort β} (h : Ends prog order s builder phase x)
    (hf : ∀ a (t : State V C T), x = .ok a → t.app = builder a → t.phase = phase a →
      Ends prog order t builder' phase' (f a)) :
    Ends prog order s builder' phase' (x >>= f) := by
  match x, h with
  | .ok a, h =>
    obtain ⟨acts, t, hrun, happ, hphase⟩ := h
    exact (hf a t rfl happ hphase).run hrun
  | .error (.panic p), h => exact h
  | .error (.err e), h => exact h

theorem Ends.panic {q p : Panic} (h : s.phase = .panicked q) (hmessage : q.message = p.message) :
    Ends prog order s builder phase (.error (.panic p)) :=
  ⟨[], s, q, .nil s, h, hmessage⟩

theorem Ends.here {a : α} (happ : s.app = builder a) (hphase : s.phase = phase a) :
    Ends prog order s builder phase (.ok a) :=
  ⟨[], s, .nil s, happ, hphase⟩

end

/-! ## Code of the user -/

/-- Code that leaves the registry of plugins alone, or panics. -/
theorem acts_touch {f : AppBuilder V C T → Except Panic (AppBuilder V C T)}
    (h : ∀ app app', f app = .ok app' → app'.pluginRegistry = app.pluginRegistry) :
    Acts prog order Phase.userTurn fun app => orPanic (f app) := by
  intro s hs
  simp only
  cases hf : f s.app with
  | ok app => exact .step (.touch app hs (h s.app app hf)) (.here rfl rfl)
  | error p => exact .step (.panic p.message hs) (.panic rfl rfl)

/-! ## The loop -/

theorem visit_ends (hcalls : ByCalls prog order) {s : State V C T} {r : Round V C T}
    {plugin : PluginRef} {saved : PluginRegistry} {rest : List PluginRef} (happ : s.app = r.app)
    (hph : s.phase = .round saved (plugin :: rest) r.nextRound r.registered r.progress none) :
    Ends prog order s Round.app
      (fun r' => .round saved rest r'.nextRound r'.registered r'.progress none)
      (orPanic (visit prog r plugin)) := by
  by_cases hready : ∀ dep ∈ plugin.dependencies, dep ∈ r.registered
  · rw [visit, if_pos hready, orPanic_bind]
    refine .step (.startPlugin saved plugin rest _ _ _ hph hready) ?_
    have hbuild := hcalls.build plugin.plugin
      (s.goto (.round saved rest r.nextRound r.registered r.progress (some plugin))) trivial
    rw [← happ]
    apply hbuild.bind
    intro app t _ happ' hph'
    exact .step (.finishPlugin saved plugin rest _ _ _ hph') (.here happ' rfl)
  · rw [visit, if_neg hready]
    exact .step (.skipPlugin saved plugin rest _ _ _ hph hready) (.here happ rfl)

theorem foldlM_visit_ends (hcalls : ByCalls prog order) {l : List PluginRef}
    {s : State V C T} {r : Round V C T} {saved : PluginRegistry} (happ : s.app = r.app)
    (hph : s.phase = .round saved l r.nextRound r.registered r.progress none) :
    Ends prog order s Round.app
      (fun r' => .round saved [] r'.nextRound r'.registered r'.progress none)
      (orPanic (l.foldlM (visit prog) r)) := by
  induction l generalizing s r with
  | nil => exact .here happ hph
  | cons plugin rest ih =>
    rw [List.foldlM_cons, orPanic_bind]
    apply (visit_ends hcalls happ hph).bind
    intro r' t _ happ' hph'
    exact ih happ' hph'

theorem buildLoop_ends (hcalls : ByCalls prog order) {n : ℕ} {toRegister : List PluginRef}
    (hn : toRegister.length ≤ n) {s : State V C T} {app : AppBuilder V C T}
    {saved : PluginRegistry} {registered : Finset String} (happ : s.app = app)
    (hph : s.phase = .head saved toRegister registered) :
    ∃ registered', Ends prog order s id (fun _ => .head saved [] registered')
      (orPanic (buildLoop prog app registered toRegister)) := by
  induction n generalizing toRegister s app registered with
  | zero =>
    obtain rfl : toRegister = [] := List.length_eq_zero_iff.mp (Nat.le_zero.mp hn)
    rw [buildLoop_nil]
    exact ⟨registered, .here happ hph⟩
  | succ n ih =>
    by_cases hne : toRegister = []
    · subst hne
      rw [buildLoop_nil]
      exact ⟨registered, .here happ hph⟩
    · have hbody : Ends prog order s Round.app
          (fun r => .round saved [] r.nextRound r.registered r.progress none)
          (orPanic (round prog app registered toRegister)) :=
        .step (.enterRound saved toRegister registered hph hne) (foldlM_visit_ends hcalls happ rfl)
      rw [buildLoop_cons prog app registered hne]
      cases hround : round prog app registered toRegister with
      | error p =>
        rw [hround] at hbody
        exact ⟨registered, hbody⟩
      | ok r =>
        rw [hround] at hbody
        obtain ⟨acts, t, hrun, happ', hph'⟩ := hbody
        by_cases hp : r.progress = true
        · have hlt := round_progress hround hp
          simp only [hp] at hph'
          obtain ⟨registered', hrest⟩ := ih (by omega)
            (s := t.goto (.head saved r.nextRound r.registered)) happ' rfl
          refine ⟨registered', .run hrun (.step (.endRound saved _ _ hph') ?_)⟩
          simp only [Except.bind, if_pos hp]
          exact hrest
        · simp only [Bool.eq_false_iff.mpr hp] at hph'
          refine ⟨registered, .run hrun (.step (.stuck saved _ _ hph') ?_)⟩
          simp only [Except.bind, if_neg hp]
          exact .panic rfl rfl

theorem buildRegistered_ends (hcalls : ByCalls prog order) {s : State V C T}
    (hph : s.phase = .config) :
    Ends prog order s id (fun _ => .built) (orPanic (buildRegistered prog order s.app)) := by
  obtain ⟨registered, hloop⟩ := buildLoop_ends hcalls (le_refl _)
    (s := { s with app := { s.app with pluginRegistry := .empty } }.goto
      (.head s.app.pluginRegistry (order.iter s.app.pluginRegistry) ∅)) rfl rfl
  rw [buildRegistered, orPanic_bind]
  apply Ends.step (.takeRegistry hph)
  apply hloop.bind
  intro app t _ happ hph'
  refine .step (.restoreRegistry s.app.pluginRegistry registered hph') (.here ?_ rfl)
  simp only [State.goto, happ, id_eq]

/-! ## `build_plugins` -/

theorem addAutoPlugin_ends (hcalls : ByCalls prog order) {s : State V C T} {p : Plugin}
    {rest : List Plugin} (hph : s.phase = .auto (p :: rest)) :
    Ends prog order s id (fun _ => .auto rest) (orPanic (addAutoPlugin prog s.app p)) := by
  by_cases hc : s.app.pluginRegistry.containsKey p.name
  · rw [addAutoPlugin, if_pos hc]
    exact .step (.autoRejected p rest hph hc) (.panic rfl rfl)
  · rw [addAutoPlugin, if_neg hc]
    by_cases himm : p.immediately = true
    · rw [if_pos himm]
      exact .step (.autoImmediate p rest hph hc himm) (hcalls.immediatelyBuild p _ trivial)
    · rw [if_neg himm]
      obtain ⟨app, happ⟩ := register_fresh s.app (PluginRef.ofStatic p) hc
      rw [happ]
      exact .step (.autoOrdinary p rest app hph (Bool.eq_false_iff.mpr himm) happ) (.here rfl rfl)

theorem addAutoPlugins_ends (hcalls : ByCalls prog order) {l : List Plugin}
    {s : State V C T} {app : AppBuilder V C T} (happ : s.app = app) (hph : s.phase = .auto l) :
    Ends prog order s id (fun _ => .config) (orPanic (l.foldlM (addAutoPlugin prog) app)) := by
  induction l generalizing s app with
  | nil => exact .step (.endAuto hph) (.here happ rfl)
  | cons p rest ih =>
    rw [List.foldlM_cons, orPanic_bind, ← happ]
    apply (addAutoPlugin_ends hcalls hph).bind
    intro app' t _ happ' hph'
    exact ih happ' hph'

end Lifecycle
end Summer
