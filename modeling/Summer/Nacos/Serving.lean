/-
The servers of an application and their registration with Nacos (`WebPlugin::schedule` of
`summer-web/src/lib.rs`, `GrpcPlugin::schedule` of `summer-grpc/src/lib.rs`,
`AppBuilder::schedule` of `summer/src/app.rs` and `summer-nacos/src/lib.rs`).

Every server is a task of its own: it binds its address, publishes `ServerStartedEvent` and
serves once all listeners have returned `Ok`.  The task of `schedule` joins the servers, the
last one first, and runs the shutdown hooks.  A step is what one task does up to its next
`await`, so the tasks interleave in every way that the code allows; in between, any code may
register further listeners.

The listener and the hook are those of the system of registrations: every step is one of it
or leaves it alone.
-/
import Mathlib.Algebra.BigOperators.Group.Multiset.Basic
import Summer.Nacos.Registration

namespace Summer.Nacos
namespace Serving

/-- The listeners of `ServerStartedEvent`: `NacosRegistrationListener`, and those of user
code. -/
inductive Listener
  | nacos
  | other
deriving DecidableEq, Repr

inductive ShutdownHook
  | nacos
  | other
deriving DecidableEq, Repr

/-- A task given to `add_scheduler`: a server with the event it publishes, or any task that
publishes none. -/
inductive Scheduler
  | server (event : ServerStartedEvent)
  | other
deriving DecidableEq, Repr

variable {W : Type}

/-- Where a task is; `rest` are the listeners that its publish has not called yet. -/
inductive Progress (W : Type)
  | spawned
  | publishing (rest : List Listener)
  /-- In a listener of user code. -/
  | calling (rest : List Listener)
  /-- In `batch_register_instance`. -/
  | registering (inst : ServiceInstance W) (rest : List Listener)
  /-- About to push the instance on the record. -/
  | recording (inst : ServiceInstance W) (rest : List Listener)
  | serving
  | returned
  | panicked
deriving DecidableEq

/-- `listeners` are those its publish has cloned, `acknowledged` the instances whose
registration by this task has returned `Ok`. -/
structure Task (W : Type) where
  scheduler : Scheduler
  listeners : List Listener
  progress : Progress W
  acknowledged : List (ServiceInstance W)
deriving DecidableEq

def Task.spawn (scheduler : Scheduler) : Task W where
  scheduler := scheduler
  listeners := []
  progress := .spawned
  acknowledged := []

/-- The task of `schedule`: before it joins the tasks, with the number of handles left, in
the hooks, in the hook of Nacos, or through with `Ok` or without. -/
inductive Main (W : Type)
  | spawning (rest : List Scheduler)
  | joining (handles : ℕ)
  | hooks
  | deregistering (hook : Hook W)
  | returned
  | failed

/-- `listeners` are those registered for `ServerStartedEvent`, `shutdownHooks` the hooks that
have not been popped. -/
structure State (W : Type) where
  nacos : Nacos.State W
  listeners : List Listener
  tasks : List (Task W)
  shutdownHooks : List ShutdownHook
  main : Main W

/-- After `build_app`. -/
def State.init (schedulers : List Scheduler) (listeners : List Listener)
    (shutdownHooks : List ShutdownHook) : State W where
  nacos := .init
  listeners := listeners
  tasks := []
  shutdownHooks := shutdownHooks
  main := .spawning schedulers

/-- A panic in what a task runs; the naming client is taken not to panic. -/
def Progress.MayPanic : Progress W → Prop
  | .spawned | .calling _ | .serving => True
  | _ => False

section
variable (reg : NacosRegistrationConfig W) (localIp : Option String)

/-- A step of one task, with the listeners registered at the time. -/
inductive TaskStep (bus : List Listener) :
    Nacos.State W → Task W → Nacos.State W → Task W → Prop
  | bind {n : Nacos.State W} {t : Task W} {event : ServerStartedEvent} :
      t.scheduler = .server event → t.progress = .spawned →
      TaskStep bus n t n { t with listeners := bus, progress := .publishing bus }
  /-- The address is not bound, a gRPC server has no routes, or the task is no server. -/
  | returnEarly {n : Nacos.State W} {t : Task W} :
      t.progress = .spawned → TaskStep bus n t n { t with progress := .returned }
  | callOther {n : Nacos.State W} {t : Task W} {rest : List Listener} :
      t.progress = .publishing (.other :: rest) →
      TaskStep bus n t n { t with progress := .calling rest }
  | otherOk {n : Nacos.State W} {t : Task W} {rest : List Listener} :
      t.progress = .calling rest → TaskStep bus n t n { t with progress := .publishing rest }
  | otherError {n : Nacos.State W} {t : Task W} {rest : List Listener} :
      t.progress = .calling rest → TaskStep bus n t n { t with progress := .returned }
  | callNacos {n n' : Nacos.State W} {t : Task W} {event : ServerStartedEvent}
      {rest : List Listener} {inst : ServiceInstance W} :
      t.scheduler = .server event → t.progress = .publishing (.nacos :: rest) →
      buildServiceInstance reg localIp event.addr event.protocol = .ok inst →
      Nacos.Step reg localIp n (.eventPublished event) n' →
      TaskStep bus n t n' { t with progress := .registering inst rest }
  | callNacosError {n n' : Nacos.State W} {t : Task W} {event : ServerStartedEvent}
      {rest : List Listener} {e : Error} :
      t.scheduler = .server event → t.progress = .publishing (.nacos :: rest) →
      buildServiceInstance reg localIp event.addr event.protocol = .error e →
      Nacos.Step reg localIp n (.eventPublished event) n' →
      TaskStep bus n t n' { t with progress := .returned }
  | registrationOk {n n' : Nacos.State W} {t : Task W} {inst : ServiceInstance W}
      {rest : List Listener} :
      t.progress = .registering inst rest →
      Nacos.Step reg localIp n (.registrationReturned inst (.ok ())) n' →
      TaskStep bus n t n'
        { t with
          progress := .recording inst rest,
          acknowledged := t.acknowledged ++ [inst] }
  | registrationError {n n' : Nacos.State W} {t : Task W} {inst : ServiceInstance W}
      {rest : List Listener} {cause : String} :
      t.progress = .registering inst rest →
      Nacos.Step reg localIp n (.registrationReturned inst (.error cause)) n' →
      TaskStep bus n t n' { t with progress := .returned }
  | record {n n' : Nacos.State W} {t : Task W} {inst : ServiceInstance W}
      {rest : List Listener} :
      t.progress = .recording inst rest →
      Nacos.Step reg localIp n (.recorded inst) n' →
      TaskStep bus n t n' { t with progress := .publishing rest }
  | serve {n : Nacos.State W} {t : Task W} :
      t.progress = .publishing [] → TaskStep bus n t n { t with progress := .serving }
  /-- After the signal to shut down, or with an error of the server. -/
  | stop {n : Nacos.State W} {t : Task W} :
      t.progress = .serving → TaskStep bus n t n { t with progress := .returned }
  | panic {n : Nacos.State W} {t : Task W} :
      t.progress.MayPanic → TaskStep bus n t n { t with progress := .panicked }

inductive Act
  | task
  | listen
  | main
deriving DecidableEq, Repr

inductive Step : State W → Act → State W → Prop
  | task {s : State W} {before after : List (Task W)} {t t' : Task W} {n' : Nacos.State W} :
      s.tasks = before ++ t :: after →
      TaskStep reg localIp s.listeners s.nacos t n' t' →
      Step s .task { s with nacos := n', tasks := before ++ t' :: after }
  | listen {s : State W} : Step s .listen { s with listeners := s.listeners ++ [.other] }
  | spawn {s : State W} {scheduler : Scheduler} {rest : List Scheduler} :
      s.main = .spawning (scheduler :: rest) →
      Step s .main { s with tasks := s.tasks ++ [.spawn scheduler], main := .spawning rest }
  | spawned {s : State W} :
      s.main = .spawning [] → Step s .main { s with main := .joining s.tasks.length }
  | join {s : State W} {handles : ℕ} {t : Task W} :
      s.main = .joining (handles + 1) → s.tasks[handles]? = some t → t.progress = .returned →
      Step s .main { s with main := .joining handles }
  | joinError {s : State W} {handles : ℕ} {t : Task W} :
      s.main = .joining (handles + 1) → s.tasks[handles]? = some t → t.progress = .panicked →
      Step s .main { s with main := .failed }
  /-- The listeners of `ShutdownEvent` have returned `Ok`. -/
  | beforeHooks {s : State W} : s.main = .joining 0 → Step s .main { s with main := .hooks }
  | beforeHooksError {s : State W} :
      s.main = .joining 0 → Step s .main { s with main := .failed }
  | otherHook {s : State W} {rest : List ShutdownHook} :
      s.main = .hooks → s.shutdownHooks = rest ++ [.other] →
      Step s .main { s with shutdownHooks := rest }
  | otherHookError {s : State W} {rest : List ShutdownHook} :
      s.main = .hooks → s.shutdownHooks = rest ++ [.other] →
      Step s .main { s with shutdownHooks := rest, main := .failed }
  | nothingToDo {s : State W} {rest : List ShutdownHook} {n' : Nacos.State W} :
      s.main = .hooks → s.shutdownHooks = rest ++ [.nacos] → s.nacos.registered = [] →
      Nacos.Step reg localIp s.nacos .hookStarted n' →
      Step s .main { s with nacos := n', shutdownHooks := rest }
  | drain {s : State W} {rest : List ShutdownHook} {n' : Nacos.State W} :
      s.main = .hooks → s.shutdownHooks = rest ++ [.nacos] → s.nacos.registered ≠ [] →
      Nacos.Step reg localIp s.nacos .hookStarted n' →
      Step s .main
        { s with
          nacos := n',
          shutdownHooks := rest,
          main := .deregistering
            { count := s.nacos.registered.length, rest := s.nacos.registered } }
  | proceed {s : State W} {hook hook' : Hook W} {inst : ServiceInstance W}
      {result : Except String Unit} {n' : Nacos.State W} :
      s.main = .deregistering hook → hook.next reg result = .inl hook' →
      Nacos.Step reg localIp s.nacos (.deregistrationReturned hook inst result) n' →
      Step s .main { s with nacos := n', main := .deregistering hook' }
  | deregistered {s : State W} {hook : Hook W} {inst : ServiceInstance W}
      {result : Except String Unit} {message : String} {n' : Nacos.State W} :
      s.main = .deregistering hook → hook.next reg result = .inr (.ok message) →
      Nacos.Step reg localIp s.nacos (.deregistrationReturned hook inst result) n' →
      Step s .main { s with nacos := n', main := .hooks }
  | deregistrationError {s : State W} {hook : Hook W} {inst : ServiceInstance W}
      {result : Except String Unit} {e : Error} {n' : Nacos.State W} :
      s.main = .deregistering hook → hook.next reg result = .inr (.error e) →
      Nacos.Step reg localIp s.nacos (.deregistrationReturned hook inst result) n' →
      Step s .main { s with nacos := n', main := .failed }
  | afterHooks {s : State W} :
      s.main = .hooks → s.shutdownHooks = [] → Step s .main { s with main := .returned }
  | afterHooksError {s : State W} :
      s.main = .hooks → s.shutdownHooks = [] → Step s .main { s with main := .failed }

end

/-! ## What holds while servers run -/

/-- What the listeners of Nacos among some make of an event. -/
def announcements (reg : NacosRegistrationConfig W) (localIp : Option String)
    (event : ServerStartedEvent) (listeners : List Listener) :
    List (Except Error (ServiceInstance W)) :=
  listeners.filterMap fun
    | .nacos => some (buildServiceInstance reg localIp event.addr event.protocol)
    | .other => none

/-- The listeners `done` have been called for the server's event, and all those of Nacos have
registered their instance. -/
def Task.Told (reg : NacosRegistrationConfig W) (localIp : Option String) (t : Task W)
    (done : List Listener) : Prop :=
  ∃ event, t.scheduler = .server event ∧
    announcements reg localIp event done = t.acknowledged.map .ok

namespace Task

/-- The instance whose registration the task awaits. -/
def calling (t : Task W) : Multiset (ServiceInstance W) :=
  match t.progress with
  | .registering inst _ => {inst}
  | _ => 0

/-- The instance that the task has registered and not recorded. -/
def recording (t : Task W) : Multiset (ServiceInstance W) :=
  match t.progress with
  | .recording inst _ => {inst}
  | _ => 0

def acks (t : Task W) : Multiset (ServiceInstance W) := t.acknowledged

/-- A task goes through the listeners it has cloned, and serves after the last one. -/
def InOrder (reg : NacosRegistrationConfig W) (localIp : Option String) (t : Task W) : Prop :=
  match t.progress with
  | .spawned => t.acknowledged = []
  | .publishing rest | .calling rest | .recording _ rest =>
      ∃ done, t.listeners = done ++ rest ∧ t.Told reg localIp done
  | .registering inst rest => ∃ done event, t.listeners = done ++ .nacos :: rest ∧
      t.scheduler = .server event ∧
      buildServiceInstance reg localIp event.addr event.protocol = .ok inst ∧
      announcements reg localIp event done = t.acknowledged.map .ok
  | .serving => t.Told reg localIp t.listeners
  | .returned | .panicked => True

end Task

/-- No deregistration has been asked for. -/
structure Quiet (n : Nacos.State W) : Prop where
  attempted : n.attempted = 0
  hooks : n.hooks = 0
  dropped : n.dropped = 0

/-- All handles have been joined. -/
def Main.PastJoins : Main W → Prop
  | .spawning _ | .joining _ => False
  | _ => True

/-- The handles that `schedule` has joined belong to tasks that have returned. -/
def Main.Joined (tasks : List (Task W)) : Main W → Prop
  | .spawning _ | .failed => True
  | .joining handles => ∀ t ∈ tasks.drop handles, t.progress = .returned
  | .hooks | .deregistering _ | .returned => ∀ t ∈ tasks, t.progress = .returned

def State.Over (s : State W) : Prop :=
  s.main.PastJoins ∧ ∀ t ∈ s.tasks, t.progress = .returned

structure Consistent (reg : NacosRegistrationConfig W) (localIp : Option String)
    (s : State W) : Prop where
  calling : s.nacos.calling = (s.tasks.map Task.calling).sum
  recording : s.nacos.registering = (s.tasks.map Task.recording).sum
  succeeded : s.nacos.succeeded = (s.tasks.map Task.acks).sum
  inOrder : ∀ t ∈ s.tasks, t.InOrder reg localIp
  joined : s.main.Joined s.tasks
  quiet : s.Over ∨ Quiet s.nacos

/-! ## What one step does -/

section
variable {reg : NacosRegistrationConfig W} {localIp : Option String}

theorem sum_exchange {α M : Type} [AddCancelCommMonoid M] {f : α → M} {before after : List α}
    {a a' : α} {m m' : M} (h : m = ((before ++ a :: after).map f).sum)
    (hm : m' + f a = m + f a') : m' = ((before ++ a' :: after).map f).sum := by
  rw [List.map_append, List.sum_append, List.map_cons, List.sum_cons] at h ⊢
  apply add_right_cancel (b := f a)
  rw [hm, h]
  abel

theorem cons_add_zero {α : Type} (a : α) (m : Multiset α) : a ::ₘ m + 0 = m + {a} := by
  rw [← Multiset.singleton_add]
  abel

/-- What a step of one task does to the registrations. -/
structure Effect (n : Nacos.State W) (t : Task W) (n' : Nacos.State W) (t' : Task W) :
    Prop where
  calling : n'.calling + t.calling = n.calling + t'.calling
  recording : n'.registering + t.recording = n.registering + t'.recording
  succeeded : n'.succeeded + t.acks = n.succeeded + t'.acks
  attempted : n'.attempted = n.attempted
  hooks : n'.hooks = n.hooks
  dropped : n'.dropped = n.dropped
  under_way : t.progress ≠ .returned

theorem Effect.of_progress {n : Nacos.State W} {t : Task W} {listeners : List Listener}
    {progress : Progress W} (hcalling : t.calling = 0) (hrecording : t.recording = 0)
    (hcalling' : ({ t with listeners, progress } : Task W).calling = 0)
    (hrecording' : ({ t with listeners, progress } : Task W).recording = 0)
    (hprogress : t.progress ≠ .returned) :
    Effect n t n { t with listeners, progress } := by
  constructor
  · rw [hcalling, hcalling']
  · rw [hrecording, hrecording']
  · rfl
  · rfl
  · rfl
  · rfl
  · exact hprogress

theorem effect {bus : List Listener} {n n' : Nacos.State W} {t t' : Task W}
    (h : TaskStep reg localIp bus n t n' t') : Effect n t n' t' := by
  obtain ⟨scheduler, listeners, progress, acknowledged⟩ := t
  cases h with
  | bind _ hprogress | returnEarly hprogress | callOther hprogress | otherOk hprogress
  | otherError hprogress | serve hprogress | stop hprogress =>
      cases hprogress
      exact .of_progress rfl rfl rfl rfl nofun
  | callNacos _ hprogress hbuild hnacos =>
      cases hprogress
      cases hnacos with
      | build hbuild' =>
          obtain rfl := Except.ok.inj (hbuild.symm.trans hbuild')
          exact ⟨cons_add_zero _ _, rfl, rfl, rfl, rfl, rfl, nofun⟩
      | buildError hbuild' => cases hbuild.symm.trans hbuild'
  | callNacosError _ hprogress hbuild hnacos =>
      cases hprogress
      cases hnacos with
      | build hbuild' => cases hbuild.symm.trans hbuild'
      | buildError _ => exact ⟨rfl, rfl, rfl, rfl, rfl, rfl, nofun⟩
  | registrationOk hprogress hnacos =>
      cases hprogress
      cases hnacos with
      | register hcalling =>
          refine ⟨?_, cons_add_zero _ _, ?_, rfl, rfl, rfl, nofun⟩
          · show _ = n.calling + 0
            rw [hcalling]
            exact (cons_add_zero _ _).symm
          · show _ ::ₘ n.succeeded + (acknowledged : Multiset (ServiceInstance W)) =
              n.succeeded + ((acknowledged ++ [_] : List _) : Multiset (ServiceInstance W))
            rw [← Multiset.coe_add, ← Multiset.singleton_add, Multiset.coe_singleton]
            abel
  | registrationError hprogress hnacos =>
      cases hprogress
      cases hnacos with
      | registerError hcalling =>
          refine ⟨?_, rfl, rfl, rfl, rfl, rfl, nofun⟩
          show _ = n.calling + 0
          rw [hcalling]
          exact (cons_add_zero _ _).symm
  | record hprogress hnacos =>
      cases hprogress
      cases hnacos with
      | record hregistering =>
          refine ⟨rfl, ?_, rfl, rfl, rfl, rfl, nofun⟩
          show _ = n.registering + 0
          rw [hregistering]
          exact (cons_add_zero _ _).symm
  | panic hpanic =>
      cases progress with
      | spawned | calling _ | serving => exact .of_progress rfl rfl rfl rfl nofun
      | _ => exact hpanic.elim

theorem inOrder {bus : List Listener} {n n' : Nacos.State W} {t t' : Task W}
    (h : TaskStep reg localIp bus n t n' t') (ht : t.InOrder reg localIp) :
    t'.InOrder reg localIp := by
  obtain ⟨scheduler, listeners, progress, acknowledged⟩ := t
  cases h with
  | bind hscheduler hprogress =>
      cases hprogress
      exact ⟨[], rfl, _, hscheduler, by rw [show acknowledged = [] from ht]; rfl⟩
  | returnEarly _ | otherError _ | callNacosError _ _ _ _ | registrationError _ _ | stop _
  | panic _ => trivial
  | callOther hprogress =>
      cases hprogress
      obtain ⟨done, hlisteners, event, hscheduler, htold⟩ := ht
      refine ⟨done ++ [.other], ?_, event, hscheduler, ?_⟩
      · rw [hlisteners, List.append_assoc]
        rfl
      · rw [announcements, List.filterMap_append]
        exact (List.append_nil _).trans htold
  | otherOk hprogress =>
      cases hprogress
      exact ht
  | callNacos hscheduler hprogress hbuild _ =>
      cases hprogress
      obtain ⟨done, hlisteners, event, hscheduler', htold⟩ := ht
      cases hscheduler.symm.trans hscheduler'
      exact ⟨done, _, hlisteners, hscheduler, hbuild, htold⟩
  | registrationOk hprogress _ =>
      cases hprogress
      obtain ⟨done, event, hlisteners, hscheduler, hbuild, htold⟩ := ht
      refine ⟨done ++ [.nacos], ?_, event, hscheduler, ?_⟩
      · rw [hlisteners, List.append_assoc]
        rfl
      · rw [announcements, List.filterMap_append, List.map_append]
        exact congrArg₂ _ htold (congrArg (· :: []) hbuild)
  | record hprogress _ =>
      cases hprogress
      exact ht
  | serve hprogress =>
      cases hprogress
      obtain ⟨done, hlisteners, htold⟩ := ht
      rw [List.append_nil] at hlisteners
      subst hlisteners
      exact htold

/-- What a hook may do to the registrations once all tasks have returned. -/
structure Kept (n n' : Nacos.State W) : Prop where
  calling : n'.calling = n.calling
  registering : n'.registering = n.registering
  succeeded : n'.succeeded = n.succeeded

theorem kept_hookStarted {n n' : Nacos.State W} (h : Nacos.Step reg localIp n .hookStarted n') :
    Kept n n' := by
  cases h with
  | nothingToDo _ => exact ⟨rfl, rfl, rfl⟩
  | drain _ => exact ⟨rfl, rfl, rfl⟩

theorem kept_deregistrationReturned {n n' : Nacos.State W} {hook : Hook W}
    {inst : ServiceInstance W} {result : Except String Unit}
    (h : Nacos.Step reg localIp n (.deregistrationReturned hook inst result) n') : Kept n n' := by
  cases h with
  | proceed _ _ _ => exact ⟨rfl, rfl, rfl⟩
  | finish _ _ _ => exact ⟨rfl, rfl, rfl⟩

variable {s s' : State W}

/-- A move of `schedule` past the joins. -/
theorem Consistent.past {main : Main W} {hooks : List ShutdownHook} {n' : Nacos.State W}
    (h : Consistent reg localIp s) (hkept : Kept s.nacos n') (hover : s.Over)
    (hpast : main.PastJoins) :
    Consistent reg localIp { s with nacos := n', shutdownHooks := hooks, main := main } where
  calling := hkept.calling.trans h.calling
  recording := hkept.registering.trans h.recording
  succeeded := hkept.succeeded.trans h.succeeded
  inOrder := h.inOrder
  joined := by
    cases main with
    | spawning _ | failed => trivial
    | joining _ => exact hpast.elim
    | hooks | deregistering _ | returned => exact hover.2
  quiet := .inl ⟨hpast, hover.2⟩

theorem over_of_joined (h : Consistent reg localIp s)
    (hmain : s.main = .hooks ∨ ∃ hook, s.main = .deregistering hook) : s.Over := by
  have hjoined := h.joined
  rcases hmain with hmain | ⟨hook, hmain⟩
  · rw [hmain] at hjoined
    exact ⟨by rw [hmain]; trivial, hjoined⟩
  · rw [hmain] at hjoined
    exact ⟨by rw [hmain]; trivial, hjoined⟩

theorem Consistent.quiet_of_not_past (h : Consistent reg localIp s) (hmain : ¬ s.main.PastJoins) :
    Quiet s.nacos :=
  h.quiet.resolve_left fun hover => hmain hover.1

theorem mem_drop_exchange {α : Type} {before after : List α} {a a' b : α} {k : ℕ}
    (h : b ∈ (before ++ a' :: after).drop k) :
    b ∈ (before ++ a :: after).drop k ∨ b = a' ∧ a ∈ (before ++ a :: after).drop k := by
  rw [List.drop_append] at h ⊢
  rcases List.mem_append.mp h with h | h
  · exact .inl (List.mem_append_left _ h)
  · cases hk : k - before.length with
    | zero =>
        rw [hk] at h
        rcases List.mem_cons.mp h with rfl | h
        · exact .inr ⟨rfl, List.mem_append_right _ List.mem_cons_self⟩
        · exact .inl (List.mem_append_right _ (List.mem_cons_of_mem _ h))
    | succ k =>
        rw [hk] at h
        exact .inl (List.mem_append_right _ h)

/-- The tasks that have been joined take no steps. -/
theorem joined_exchange {main : Main W} {before after : List (Task W)} {t t' : Task W}
    (ht : t.progress ≠ .returned) (h : main.Joined (before ++ t :: after)) :
    main.Joined (before ++ t' :: after) := by
  have hmem : t ∈ before ++ t :: after := List.mem_append_right _ List.mem_cons_self
  cases main with
  | spawning _ | failed => trivial
  | joining handles =>
      intro u hu
      rcases mem_drop_exchange (a := t) hu with hu | ⟨_, ht'⟩
      · exact h u hu
      · exact absurd (h t ht') ht
  | hooks | deregistering _ | returned => exact absurd (h t hmem) ht

theorem consistent_task {before after : List (Task W)} {t t' : Task W} {n' : Nacos.State W}
    (hs : Consistent reg localIp s) (htasks : s.tasks = before ++ t :: after)
    (h : TaskStep reg localIp s.listeners s.nacos t n' t') :
    Consistent reg localIp { s with nacos := n', tasks := before ++ t' :: after } := by
  have heffect := effect h
  have hmem : t ∈ s.tasks := by
    rw [htasks]
    exact List.mem_append_right _ List.mem_cons_self
  constructor
  · exact sum_exchange (htasks ▸ hs.calling) heffect.calling
  · exact sum_exchange (htasks ▸ hs.recording) heffect.recording
  · exact sum_exchange (htasks ▸ hs.succeeded) heffect.succeeded
  · intro u hu
    rcases List.mem_append.mp hu with hu | hu
    · exact hs.inOrder u (htasks ▸ List.mem_append_left _ hu)
    · rcases List.mem_cons.mp hu with rfl | hu
      · exact inOrder h (hs.inOrder t hmem)
      · exact hs.inOrder u (htasks ▸ List.mem_append_right _ (List.mem_cons_of_mem _ hu))
  · exact joined_exchange heffect.under_way (htasks ▸ hs.joined)
  · apply Or.inr
    have hquiet := hs.quiet.resolve_left fun hover => heffect.under_way (hover.2 t hmem)
    exact ⟨heffect.attempted.trans hquiet.attempted, heffect.hooks.trans hquiet.hooks,
      heffect.dropped.trans hquiet.dropped⟩

/-- A move of `schedule` while tasks may be under way. -/
theorem Consistent.joining {main : Main W} (h : Consistent reg localIp s)
    (hmain : ¬ s.main.PastJoins) (hjoined : main.Joined s.tasks) :
    Consistent reg localIp { s with main := main } where
  calling := h.calling
  recording := h.recording
  succeeded := h.succeeded
  inOrder := h.inOrder
  joined := hjoined
  quiet := .inr (h.quiet_of_not_past hmain)

theorem consistent_spawn {scheduler : Scheduler} {rest : List Scheduler}
    (hs : Consistent reg localIp s) (hmain : s.main = .spawning (scheduler :: rest)) :
    Consistent reg localIp
      { s with tasks := s.tasks ++ [.spawn scheduler], main := .spawning rest } := by
  have hsum : ∀ f : Task W → Multiset (ServiceInstance W), f (Task.spawn scheduler) = 0 →
      ((s.tasks ++ [Task.spawn scheduler]).map f).sum = (s.tasks.map f).sum := by
    intro f hf
    rw [List.map_append, List.sum_append, List.map_singleton, List.sum_singleton, hf, add_zero]
  constructor
  · exact hs.calling.trans (hsum Task.calling rfl).symm
  · exact hs.recording.trans (hsum Task.recording rfl).symm
  · exact hs.succeeded.trans (hsum Task.acks rfl).symm
  · intro t ht
    rcases List.mem_append.mp ht with ht | ht
    · exact hs.inOrder t ht
    · rw [List.mem_singleton.mp ht]
      rfl
  · trivial
  · exact .inr (hs.quiet_of_not_past (by rw [hmain]; exact id))

theorem consistent_step {a : Act} (h : Step reg localIp s a s')
    (hs : Consistent reg localIp s) : Consistent reg localIp s' := by
  cases h with
  | task htasks htask => exact consistent_task hs htasks htask
  | listen =>
      obtain ⟨h₁, h₂, h₃, h₄, h₅, h₆⟩ := hs
      exact ⟨h₁, h₂, h₃, h₄, h₅, h₆⟩
  | spawn hmain => exact consistent_spawn hs hmain
  | spawned hmain =>
      apply hs.joining (by rw [hmain]; exact id)
      intro t ht
      rw [List.drop_length] at ht
      cases ht
  | @join handles t hmain ht hreturned =>
      apply hs.joining (by rw [hmain]; exact id)
      have hjoined := hs.joined
      rw [hmain] at hjoined
      obtain ⟨hlt, rfl⟩ := List.getElem?_eq_some_iff.mp ht
      intro u hu
      rw [List.drop_eq_getElem_cons hlt] at hu
      rcases List.mem_cons.mp hu with rfl | hu
      · exact hreturned
      · exact hjoined u hu
  | beforeHooks hmain =>
      apply hs.joining (by rw [hmain]; exact id)
      have hjoined := hs.joined
      rw [hmain] at hjoined
      exact hjoined
  | joinError hmain _ _ | beforeHooksError hmain =>
      exact hs.joining (by rw [hmain]; exact id) trivial
  | otherHook hmain _ =>
      have hover := over_of_joined hs (.inl hmain)
      exact hs.past ⟨rfl, rfl, rfl⟩ hover hover.1
  | nothingToDo hmain _ _ hnacos =>
      have hover := over_of_joined hs (.inl hmain)
      exact hs.past (kept_hookStarted hnacos) hover hover.1
  | drain hmain _ _ hnacos =>
      exact hs.past (kept_hookStarted hnacos) (over_of_joined hs (.inl hmain)) trivial
  | proceed hmain _ hnacos | deregistered hmain _ hnacos | deregistrationError hmain _ hnacos =>
      exact hs.past (kept_deregistrationReturned hnacos)
        (over_of_joined hs (.inr ⟨_, hmain⟩)) trivial
  | otherHookError hmain _ | afterHooks hmain _ | afterHooksError hmain _ =>
      exact hs.past ⟨rfl, rfl, rfl⟩ (over_of_joined hs (.inl hmain)) trivial

theorem consistent_init (schedulers : List Scheduler) (listeners : List Listener)
    (shutdownHooks : List ShutdownHook) :
    Consistent reg localIp (State.init schedulers listeners shutdownHooks) where
  calling := rfl
  recording := rfl
  succeeded := rfl
  inOrder := fun _ ht => absurd ht List.not_mem_nil
  joined := trivial
  quiet := .inr ⟨rfl, rfl, rfl⟩

/-! ## Whole runs -/

variable {schedulers : List Scheduler} {listeners : List Listener}
  {shutdownHooks : List ShutdownHook} {acts : List Act}

theorem consistent_run
    (h : Run (Step reg localIp) (State.init schedulers listeners shutdownHooks) acts s) :
    Consistent reg localIp s :=
  h.invariant (I := Consistent reg localIp) (fun _ _ _ => consistent_step)
    (consistent_init schedulers listeners shutdownHooks)

/-- What a step does to the registrations is at most one step of theirs. -/
theorem nacos_step {a : Act} (h : Step reg localIp s a s') :
    s'.nacos = s.nacos ∨ ∃ b, Nacos.Step reg localIp s.nacos b s'.nacos := by
  cases h with
  | task _ htask =>
      cases htask with
      | callNacos _ _ _ hnacos | callNacosError _ _ _ hnacos => exact .inr ⟨_, hnacos⟩
      | registrationOk _ hnacos | registrationError _ hnacos | record _ hnacos =>
          exact .inr ⟨_, hnacos⟩
      | _ => exact .inl rfl
  | nothingToDo _ _ _ hnacos | drain _ _ _ hnacos => exact .inr ⟨_, hnacos⟩
  | proceed _ _ hnacos | deregistered _ _ hnacos | deregistrationError _ _ hnacos =>
      exact .inr ⟨_, hnacos⟩
  | _ => exact .inl rfl

theorem nacos_run (h : Run (Step reg localIp) s acts s') :
    ∃ bs, Run (Nacos.Step reg localIp) s.nacos bs s'.nacos := by
  induction h with
  | nil s => exact ⟨[], .nil _⟩
  | cons hstep _ ih =>
      obtain ⟨bs, hbs⟩ := ih
      rcases nacos_step hstep with hnacos | ⟨b, hb⟩
      · exact ⟨bs, hnacos ▸ hbs⟩
      · exact ⟨b :: bs, .cons hb hbs⟩

theorem balance
    (h : Run (Step reg localIp) (State.init schedulers listeners shutdownHooks) acts s) :
    s.nacos.succeeded = s.nacos.attempted + s.nacos.held + s.nacos.dropped := by
  obtain ⟨bs, hbs⟩ := nacos_run h
  exact run_balance hbs

/-- However the servers, the listeners, the naming service and the shutdown interleave: a
server serves requests only after every listener of Nacos it was to tell has registered its
instance, and while any server serves, all the instances that the tasks have registered are on
record and no deregistration has been asked for. -/
theorem serving_announced
    (h : Run (Step reg localIp) (State.init schedulers listeners shutdownHooks) acts s)
    {t : Task W} (ht : t ∈ s.tasks) (hserving : t.progress = .serving) :
    t.Told reg localIp t.listeners ∧ s.nacos.held = (s.tasks.map Task.acks).sum ∧
      Quiet s.nacos := by
  have hs := consistent_run h
  have hquiet := hs.quiet.resolve_left fun hover => by
    have hreturned := hover.2 t ht
    rw [hserving] at hreturned
    cases hreturned
  refine ⟨?_, ?_, hquiet⟩
  · have horder := hs.inOrder t ht
    unfold Task.InOrder at horder
    rwa [hserving] at horder
  · have hbalance := balance h
    rw [hquiet.attempted, hquiet.dropped, zero_add, add_zero] at hbalance
    rw [← hbalance, hs.succeeded]

/-! ## After the hooks -/

/-- On the way to `Ok`, every hook that has run has deregistered all it drained. -/
def Clean (s : State W) : Prop :=
  match s.main with
  | .spawning _ | .joining _ => .nacos ∈ s.shutdownHooks
  | .hooks => s.nacos.hooks = 0 ∧ s.nacos.dropped = 0 ∧
      (.nacos ∈ s.shutdownHooks ∨ s.nacos.registered = [])
  | .deregistering hook =>
      s.nacos.hooks = {hook} ∧ s.nacos.dropped = 0 ∧ s.nacos.registered = []
  | .returned => s.nacos.hooks = 0 ∧ s.nacos.dropped = 0 ∧ s.nacos.registered = []
  | .failed => True

theorem clean_task {before after : List (Task W)} {t t' : Task W} {n' : Nacos.State W}
    (hs : Consistent reg localIp s) (hclean : Clean s) (htasks : s.tasks = before ++ t :: after)
    (h : TaskStep reg localIp s.listeners s.nacos t n' t') :
    Clean { s with nacos := n', tasks := before ++ t' :: after } := by
  have hmem : t ∈ s.tasks := by
    rw [htasks]
    exact List.mem_append_right _ List.mem_cons_self
  have hjoined := hs.joined
  unfold Clean at hclean ⊢
  cases hmain : s.main with
  | spawning _ | joining _ =>
      rw [hmain] at hclean
      exact hclean
  | failed => trivial
  | hooks | deregistering _ | returned =>
      rw [hmain] at hjoined
      exact absurd (hjoined t hmem) (effect h).under_way

/-- The hook goes on, or has deregistered its last instance. -/
theorem deregistrationReturned_eq {n n' : Nacos.State W} {hook : Hook W}
    {inst : ServiceInstance W} {result : Except String Unit} (hhooks : n.hooks = {hook})
    (h : Nacos.Step reg localIp n (.deregistrationReturned hook inst result) n') :
    n'.registered = n.registered ∧
      (∀ hook', hook.next reg result = .inl hook' →
        n'.hooks = {hook'} ∧ n'.dropped = n.dropped) ∧
      ∀ message, hook.next reg result = .inr (.ok message) →
        n'.hooks = 0 ∧ n'.dropped = n.dropped := by
  cases h with
  | proceed hothers hrest hnext =>
      rw [hhooks] at hothers
      obtain ⟨_, hothers⟩ := (Multiset.singleton_eq_cons_iff _).mp hothers
      refine ⟨rfl, ?_, ?_⟩
      · intro hook' hnext'
        obtain rfl := Sum.inl.inj (hnext.symm.trans hnext')
        subst hothers
        exact ⟨rfl, rfl⟩
      · intro message hnext'
        cases hnext.symm.trans hnext'
  | finish hothers hrest hnext =>
      rw [hhooks] at hothers
      obtain ⟨_, hothers⟩ := (Multiset.singleton_eq_cons_iff _).mp hothers
      refine ⟨rfl, ?_, ?_⟩
      · intro hook' hnext'
        cases hnext.symm.trans hnext'
      · intro message hnext'
        refine ⟨hothers, ?_⟩
        rcases Hook.next_inr hnext' with ⟨cause, rfl⟩ | ⟨_, htail⟩
        · cases hnext'
        · rw [hrest, List.tail_cons] at htail
          show n.dropped + _ = _
          rw [htail]
          exact add_zero _

theorem mem_of_append_other {rest : List ShutdownHook}
    (h : ShutdownHook.nacos ∈ rest ++ [ShutdownHook.other]) : ShutdownHook.nacos ∈ rest := by
  simpa using h

theorem clean_step {a : Act} (h : Step reg localIp s a s') (hs : Consistent reg localIp s)
    (hclean : Clean s) : Clean s' := by
  cases h with
  | task htasks htask => exact clean_task hs hclean htasks htask
  | listen => exact hclean
  | spawn hmain | spawned hmain | join hmain _ _ =>
      unfold Clean at hclean
      rw [hmain] at hclean
      exact hclean
  | beforeHooks hmain =>
      have hquiet := hs.quiet_of_not_past (by rw [hmain]; exact id)
      unfold Clean at hclean
      rw [hmain] at hclean
      exact ⟨hquiet.hooks, hquiet.dropped, .inl hclean⟩
  | joinError _ _ _ | beforeHooksError _ | otherHookError _ _ | deregistrationError _ _ _
  | afterHooksError _ _ => trivial
  | otherHook hmain hpop =>
      unfold Clean at hclean ⊢
      rw [hmain] at hclean ⊢
      obtain ⟨hhooks, hdropped, hleft⟩ := hclean
      rw [hpop] at hleft
      exact ⟨hhooks, hdropped, hleft.imp_left mem_of_append_other⟩
  | nothingToDo hmain hpop hempty hnacos =>
      unfold Clean at hclean ⊢
      rw [hmain] at hclean ⊢
      cases hnacos with
      | nothingToDo _ => exact ⟨hclean.1, hclean.2.1, .inr hempty⟩
      | drain hne => exact absurd hempty hne
  | drain hmain hpop hne hnacos =>
      unfold Clean at hclean
      rw [hmain] at hclean
      cases hnacos with
      | nothingToDo hempty => exact absurd hempty hne
      | drain _ =>
          refine ⟨?_, hclean.2.1, rfl⟩
          show _ ::ₘ s.nacos.hooks = _
          rw [hclean.1]
          rfl
  | proceed hmain hnext hnacos =>
      unfold Clean at hclean
      rw [hmain] at hclean
      obtain ⟨hregistered, hproceed, _⟩ := deregistrationReturned_eq hclean.1 hnacos
      obtain ⟨hhooks, hdropped⟩ := hproceed _ hnext
      exact ⟨hhooks, hdropped.trans hclean.2.1, hregistered.trans hclean.2.2⟩
  | deregistered hmain hnext hnacos =>
      unfold Clean at hclean
      rw [hmain] at hclean
      obtain ⟨hregistered, _, hfinish⟩ := deregistrationReturned_eq hclean.1 hnacos
      obtain ⟨hhooks, hdropped⟩ := hfinish _ hnext
      exact ⟨hhooks, hdropped.trans hclean.2.1, .inr (hregistered.trans hclean.2.2)⟩
  | afterHooks hmain hempty =>
      unfold Clean at hclean
      rw [hmain, hempty] at hclean
      exact ⟨hclean.1, hclean.2.1, hclean.2.2.resolve_left List.not_mem_nil⟩

theorem clean_run (hwired : .nacos ∈ shutdownHooks)
    (h : Run (Step reg localIp) (State.init schedulers listeners shutdownHooks) acts s) :
    Clean s := by
  have hboth : Consistent reg localIp s ∧ Clean s := by
    apply h.invariant (I := fun s => Consistent reg localIp s ∧ Clean s)
    · intro s a t hstep hs
      exact ⟨consistent_step hstep hs.1, clean_step hstep hs.1 hs.2⟩
    · exact ⟨consistent_init schedulers listeners shutdownHooks, hwired⟩
  exact hboth.2

theorem sum_eq_zero_of_returned {tasks : List (Task W)}
    {f : Task W → Multiset (ServiceInstance W)} (hf : ∀ t, t.progress = .returned → f t = 0)
    (h : ∀ t ∈ tasks, t.progress = .returned) : (tasks.map f).sum = 0 := by
  apply List.sum_eq_zero
  intro m hm
  obtain ⟨t, ht, rfl⟩ := List.mem_map.mp hm
  exact hf t (h t ht)

/-- When `run` returns `Ok`, no server is running, and each instance that one of them had
registered has been deregistered once. -/
theorem returned_deregistered (hwired : .nacos ∈ shutdownHooks)
    (h : Run (Step reg localIp) (State.init schedulers listeners shutdownHooks) acts s)
    (hreturned : s.main = .returned) :
    (∀ t ∈ s.tasks, t.progress = .returned) ∧
      s.nacos.attempted = (s.tasks.map Task.acks).sum ∧ s.nacos.held = 0 := by
  have hs := consistent_run h
  have hclean := clean_run hwired h
  have hjoined := hs.joined
  unfold Clean at hclean
  rw [hreturned] at hclean hjoined
  have hheld : s.nacos.held = 0 := by
    unfold Nacos.State.held
    rw [hs.recording, hclean.1, hclean.2.2]
    rw [sum_eq_zero_of_returned (f := Task.recording) _ hjoined]
    · rfl
    · intro t ht
      unfold Task.recording
      rw [ht]
  refine ⟨hjoined, ?_, hheld⟩
  have hbalance := balance h
  rw [hheld, hclean.2.1, add_zero, add_zero] at hbalance
  rw [← hbalance, hs.succeeded]

end

namespace Sample

open Nacos.Sample (reg event http grpc)

/-- The two servers, each of which tells Nacos and a listener of user code. -/
def web (progress : Progress Unit) : Task Unit where
  scheduler := .server (event .http 8080)
  listeners := [.nacos, .other]
  progress := progress
  acknowledged := [http]

def rpc (progress : Progress Unit) : Task Unit where
  scheduler := .server (event .grpc 9090)
  listeners := [.nacos, .other]
  progress := progress
  acknowledged := [grpc]

/-- The gRPC server, whose registration was asked for last and answered first, still waits for the
listener of user code. -/
def serving : State Unit where
  nacos := { Nacos.State.init with
    registered := [http, grpc], handled := [.ok (), .ok ()], succeeded := {http, grpc} }
  listeners := [.nacos, .other]
  tasks := [web .serving, rpc (.calling [])]
  shutdownHooks := [.nacos]
  main := .joining 2

def hook : Hook Unit where
  count := 2
  rest := [http, grpc]

def returned : State Unit where
  nacos := { serving.nacos with
    registered := [],
    finished := [.ok "nacos: deregistered 2 instance(s) of orders"],
    attempted := {grpc, http} }
  listeners := [.nacos, .other]
  tasks := [web .returned, rpc .returned]
  shutdownHooks := []
  main := .returned

def init : State Unit :=
  .init [.server (event .http 8080), .server (event .grpc 9090)] [.nacos, .other] [.nacos]

theorem step_web {s : State Unit} {t t' u : Task Unit} {n' : Nacos.State Unit}
    (htasks : s.tasks = [t, u]) (h : TaskStep reg none s.listeners s.nacos t n' t') :
    Step reg none s .task { s with nacos := n', tasks := [t', u] } :=
  @Step.task _ reg none s [] [u] t t' n' htasks h

theorem step_rpc {s : State Unit} {t t' u : Task Unit} {n' : Nacos.State Unit}
    (htasks : s.tasks = [u, t]) (h : TaskStep reg none s.listeners s.nacos t n' t') :
    Step reg none s .task { s with nacos := n', tasks := [u, t'] } :=
  @Step.task _ reg none s [u] [] t t' n' htasks h

theorem run_serving : Run (Step reg none) init
    [.main, .main, .main, .task, .task, .task, .task, .task, .task, .task, .task, .task, .task,
      .task, .task] serving := by
  apply Run.cons (.spawn rfl)
  apply Run.cons (.spawn rfl)
  apply Run.cons (.spawned rfl)
  apply Run.cons (step_web rfl (.bind rfl rfl))
  apply Run.cons (step_rpc rfl (.bind rfl rfl))
  apply Run.cons (step_web rfl
    (@TaskStep.callNacos _ _ _ _ _ _ _ _ _ http rfl rfl rfl (.build rfl)))
  apply Run.cons (step_rpc rfl
    (@TaskStep.callNacos _ _ _ _ _ _ _ _ _ grpc rfl rfl rfl (.build rfl)))
  apply Run.cons (step_rpc rfl
    (.registrationOk rfl (@Nacos.Step.register Unit reg none _ grpc {http} rfl)))
  apply Run.cons (step_web rfl
    (.registrationOk rfl (@Nacos.Step.register Unit reg none _ http 0 rfl)))
  apply Run.cons (step_web rfl
    (.record rfl (@Nacos.Step.record Unit reg none _ http {grpc} rfl)))
  apply Run.cons (step_web rfl (.callOther rfl))
  apply Run.cons (step_rpc rfl (.record rfl (@Nacos.Step.record Unit reg none _ grpc 0 rfl)))
  apply Run.cons (step_web rfl (.otherOk rfl))
  apply Run.cons (step_rpc rfl (.callOther rfl))
  exact Run.single (step_web rfl (.serve rfl))

theorem run_returned : Run (Step reg none) serving
    [.task, .task, .task, .task, .main, .main, .main, .main, .main, .main, .main] returned := by
  apply Run.cons (step_rpc rfl (.otherOk rfl))
  apply Run.cons (step_web rfl (.stop rfl))
  apply Run.cons (step_rpc rfl (.serve rfl))
  apply Run.cons (step_rpc rfl (.stop rfl))
  apply Run.cons (.join rfl rfl rfl)
  apply Run.cons (.join rfl rfl rfl)
  apply Run.cons (.beforeHooks rfl)
  apply Run.cons (@Step.drain _ reg none _ [] _ rfl rfl (List.cons_ne_nil _ _)
    (.drain (List.cons_ne_nil _ _)))
  apply Run.cons (@Step.proceed _ reg none _ hook ⟨2, [grpc]⟩ http (.ok ()) _ rfl rfl
    (@Nacos.Step.proceed Unit reg none _ hook _ 0 http [grpc] _ rfl rfl rfl))
  apply Run.cons (@Step.deregistered _ reg none _ ⟨2, [grpc]⟩ grpc (.ok ()) _ _ rfl rfl
    (@Nacos.Step.finish Unit reg none _ ⟨2, [grpc]⟩ 0 grpc [] _ _ rfl rfl rfl))
  exact Run.single (.afterHooks rfl rfl)

end Sample

theorem serving_announced_sample :
    (Sample.web .serving).Told Nacos.Sample.reg none [.nacos, .other] ∧
      Sample.serving.nacos.held = (Sample.serving.tasks.map Task.acks).sum ∧
      Quiet Sample.serving.nacos :=
  serving_announced Sample.run_serving List.mem_cons_self rfl

theorem returned_deregistered_sample :
    (∀ t ∈ Sample.returned.tasks, t.progress = .returned) ∧
      Sample.returned.nacos.attempted = (Sample.returned.tasks.map Task.acks).sum ∧
      Sample.returned.nacos.held = 0 :=
  returned_deregistered List.mem_cons_self (Sample.run_serving.append Sample.run_returned) rfl

end Serving
end Summer.Nacos
