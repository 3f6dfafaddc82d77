/-
Registration with Nacos and deregistration at shutdown (`summer-nacos/src/lib.rs`).

A listener registers an instance for each server that starts and records it; the shutdown
hook drains the record and deregisters what was in it, one instance after the other.
Handlers of several events and several runs of the hook are tasks of their own, and a task
lets the others run at each call of the naming service: a step of the system is what one
task does between two such calls.
-/
import Mathlib.Algebra.Order.Group.Multiset
import Mathlib.Data.Multiset.Bind
import Mathlib.Tactic.Abel
import Summer.Lib.Run

namespace Summer.Nacos

inductive ServerProtocol
  | http
  | grpc
deriving DecidableEq, Repr

def ServerProtocol.asStr : ServerProtocol → String
  | .http => "http"
  | .grpc => "grpc"

/-- A bound socket address: the text of its IP address, and whether that one is
unspecified. -/
structure SocketAddr where
  ip : String
  isUnspecified : Bool
  port : UInt16
deriving DecidableEq, Repr

structure ServerStartedEvent where
  addr : SocketAddr
  protocol : ServerProtocol
deriving DecidableEq, Repr

/-- `W` is the type of weights, a floating point type. -/
structure NacosRegistrationConfig (W : Type) where
  serviceName : String
  group : String
  ip : Option String
  port : Option UInt16
  weight : W
  cluster : Option String
  metadata : List (String × String)

structure ServiceInstance (W : Type) where
  ip : String
  port : Int
  weight : W
  clusterName : Option String
  metadata : List (String × String)
deriving DecidableEq

/-- An error with the context that was put on it. -/
inductive Error
  | context (text : String) (cause : Option String)
deriving DecidableEq, Repr

variable {W : Type}

/-! ## The listener and the hook -/

def ipFromBound (bound : SocketAddr) : Option String :=
  if bound.isUnspecified then none else some bound.ip

/-- `metadata.entry(key).or_insert(value)`. -/
def orInsert (metadata : List (String × String)) (key value : String) : List (String × String) :=
  if metadata.any fun entry => decide (entry.1 = key) then metadata else metadata ++ [(key, value)]

/-- `localIp` is what `resolve_local_ip` finds. -/
def buildServiceInstance (reg : NacosRegistrationConfig W) (localIp : Option String)
    (bound : SocketAddr) (protocol : ServerProtocol) : Except Error (ServiceInstance W) :=
  match (reg.ip.or (ipFromBound bound)).or localIp with
  | none => .error (.context
      ("nacos registration requires ip (set nacos.registration.ip or run with " ++
        "summer-web/summer-grpc)") none)
  | some ip => .ok
      { ip := ip,
        port := (reg.port.getD bound.port).toNat,
        weight := reg.weight,
        clusterName := reg.cluster,
        metadata := orInsert reg.metadata "protocol" protocol.asStr }

/-- A run of the hook: how many instances it drained, and those it has not come to yet. -/
structure Hook (W : Type) where
  count : Nat
  rest : List (ServiceInstance W)

namespace Hook

/-- The state of the loop after `deregister_instance` returned for the first instance of
`rest`, or what the hook returns. -/
def next (reg : NacosRegistrationConfig W) (hook : Hook W) (result : Except String Unit) :
    Hook W ⊕ Except Error String :=
  match result with
  | .error cause => .inr (.error (.context "nacos deregister instance" (some cause)))
  | .ok () =>
    match hook.rest.tail with
    | [] => .inr (.ok ("nacos: deregistered " ++ toString hook.count ++ " instance(s) of " ++
        reg.serviceName))
    | inst :: rest => .inl { hook with rest := inst :: rest }

end Hook

/-- The record, the tasks under way, and what has happened so far.

`calling` are the instances whose registration has not returned, `registering` those
registered and not recorded yet.  `succeeded` and `attempted` are the history: the
registrations that succeeded and the calls of `deregister_instance`.  `dropped` holds the
instances that a run of the hook had left when it returned. -/
structure State (W : Type) where
  calling : Multiset (ServiceInstance W)
  registering : Multiset (ServiceInstance W)
  registered : List (ServiceInstance W)
  hooks : Multiset (Hook W)
  handled : List (Except Error Unit)
  finished : List (Except Error String)
  succeeded : Multiset (ServiceInstance W)
  attempted : Multiset (ServiceInstance W)
  dropped : Multiset (ServiceInstance W)

def State.init : State W where
  calling := 0
  registering := 0
  registered := []
  hooks := 0
  handled := []
  finished := []
  succeeded := 0
  attempted := 0
  dropped := 0

inductive Act (W : Type)
  | eventPublished (event : ServerStartedEvent)
  | registrationReturned (inst : ServiceInstance W) (result : Except String Unit)
  | recorded (inst : ServiceInstance W)
  | hookStarted
  | deregistrationReturned (hook : Hook W) (inst : ServiceInstance W) (result : Except String Unit)

section
variable (reg : NacosRegistrationConfig W) (localIp : Option String)

inductive Step : State W → Act W → State W → Prop
  | build {s : State W} {event : ServerStartedEvent} {inst : ServiceInstance W} :
      buildServiceInstance reg localIp event.addr event.protocol = .ok inst →
      Step s (.eventPublished event) { s with calling := inst ::ₘ s.calling }
  | buildError {s : State W} {event : ServerStartedEvent} {e : Error} :
      buildServiceInstance reg localIp event.addr event.protocol = .error e →
      Step s (.eventPublished event) { s with handled := s.handled ++ [.error e] }
  | register {s : State W} {inst : ServiceInstance W} {others : Multiset (ServiceInstance W)} :
      s.calling = inst ::ₘ others →
      Step s (.registrationReturned inst (.ok ()))
        { s with
          calling := others,
          registering := inst ::ₘ s.registering,
          succeeded := inst ::ₘ s.succeeded }
  | registerError {s : State W} {inst : ServiceInstance W}
      {others : Multiset (ServiceInstance W)} {cause : String} :
      s.calling = inst ::ₘ others →
      Step s (.registrationReturned inst (.error cause))
        { s with
          calling := others,
          handled := s.handled ++ [.error (.context "nacos register instance" (some cause))] }
  | record {s : State W} {inst : ServiceInstance W} {others : Multiset (ServiceInstance W)} :
      s.registering = inst ::ₘ others →
      Step s (.recorded inst)
        { s with
          registering := others,
          registered := s.registered ++ [inst],
          handled := s.handled ++ [.ok ()] }
  | nothingToDo {s : State W} :
      s.registered = [] →
      Step s .hookStarted
        { s with finished := s.finished ++ [.ok "nacos: no instance to deregister"] }
  | drain {s : State W} :
      s.registered ≠ [] →
      Step s .hookStarted
        { s with
          registered := [],
          hooks := { count := s.registered.length, rest := s.registered } ::ₘ s.hooks }
  | proceed {s : State W} {hook hook' : Hook W} {others : Multiset (Hook W)}
      {inst : ServiceInstance W} {rest : List (ServiceInstance W)} {result : Except String Unit} :
      s.hooks = hook ::ₘ others →
      hook.rest = inst :: rest →
      hook.next reg result = .inl hook' →
      Step s (.deregistrationReturned hook inst result)
        { s with hooks := hook' ::ₘ others, attempted := inst ::ₘ s.attempted }
  | finish {s : State W} {hook : Hook W} {others : Multiset (Hook W)}
      {inst : ServiceInstance W} {rest : List (ServiceInstance W)} {result : Except String Unit}
      {returned : Except Error String} :
      s.hooks = hook ::ₘ others →
      hook.rest = inst :: rest →
      hook.next reg result = .inr returned →
      Step s (.deregistrationReturned hook inst result)
        { s with
          hooks := others,
          finished := s.finished ++ [returned],
          attempted := inst ::ₘ s.attempted,
          dropped := s.dropped + rest }

end

/-! ## What it is for -/

/-- What is still on record: on its way there, recorded, or in the hands of a hook. -/
def State.held (s : State W) : Multiset (ServiceInstance W) :=
  s.registering + s.registered + s.hooks.bind fun hook => (hook.rest : Multiset (ServiceInstance W))

/-- Every successful registration is still on record or was deregistered once, and nothing
else was. -/
def Accounted (s : State W) : Prop := s.succeeded = s.attempted + s.held

/-- No handler and no hook is under way, and a hook has run since the last instance was
recorded. -/
def Finished (s : State W) : Prop :=
  s.calling = 0 ∧ s.registering = 0 ∧ s.registered = [] ∧ s.hooks = 0

/-- Only the last instance of a hook fails to be deregistered. -/
def FailsLast (_ : State W) : Act W → Prop
  | .deregistrationReturned hook _ (.error _) => hook.rest.tail = []
  | _ => True

/-! ## What one step does -/

section
variable {reg : NacosRegistrationConfig W} {localIp : Option String} {s t : State W} {a : Act W}

theorem Hook.next_inl {hook hook' : Hook W} {result : Except String Unit}
    (h : hook.next reg result = .inl hook') :
    hook'.rest = hook.rest.tail ∧ hook'.rest ≠ [] ∧ result = .ok () := by
  unfold Hook.next at h
  cases result with
  | error cause => cases h
  | ok u =>
      cases htail : hook.rest.tail with
      | nil =>
          rw [htail] at h
          cases h
      | cons inst rest =>
          rw [htail] at h
          cases h
          exact ⟨rfl, List.cons_ne_nil _ _, rfl⟩

theorem Hook.next_inr {hook : Hook W} {result : Except String Unit}
    {returned : Except Error String} (h : hook.next reg result = .inr returned) :
    (∃ cause, result = .error cause) ∨ result = .ok () ∧ hook.rest.tail = [] := by
  unfold Hook.next at h
  cases result with
  | error cause => exact .inl ⟨cause, rfl⟩
  | ok u =>
      cases htail : hook.rest.tail with
      | nil => exact .inr ⟨rfl, rfl⟩
      | cons inst rest =>
          rw [htail] at h
          cases h

/-- Nothing is created and nothing disappears: a registration is on record, deregistered or
dropped. -/
theorem step_balance (h : Step reg localIp s a t)
    (hs : s.succeeded = s.attempted + s.held + s.dropped) :
    t.succeeded = t.attempted + t.held + t.dropped := by
  cases h with
  | build _ => exact hs
  | buildError _ => exact hs
  | register hcalling =>
      simp only [State.held] at hs ⊢
      rw [hs]
      simp only [← Multiset.singleton_add]
      abel
  | registerError hcalling => exact hs
  | record hregistering =>
      simp only [State.held] at hs ⊢
      rw [hs, hregistering]
      simp only [← Multiset.coe_add, ← Multiset.singleton_add, Multiset.coe_singleton]
      abel
  | nothingToDo _ => exact hs
  | drain _ =>
      simp only [State.held] at hs ⊢
      rw [hs]
      simp only [Multiset.cons_bind, Multiset.coe_nil]
      abel
  | proceed hhooks hrest hnext =>
      obtain ⟨htail, _, _⟩ := Hook.next_inl hnext
      rw [hrest, List.tail_cons] at htail
      simp only [State.held] at hs ⊢
      rw [hs, hhooks, Multiset.cons_bind, Multiset.cons_bind, hrest, htail, ← Multiset.cons_coe]
      simp only [← Multiset.singleton_add]
      abel
  | finish hhooks hrest hnext =>
      simp only [State.held] at hs ⊢
      rw [hs, hhooks, Multiset.cons_bind, hrest, ← Multiset.cons_coe]
      simp only [← Multiset.singleton_add]
      abel

theorem step_dropped_le (h : Step reg localIp s a t) : s.dropped ≤ t.dropped := by
  cases h with
  | finish hhooks hrest hnext => exact Multiset.le_add_right _ _
  | _ => exact le_refl _

/-- A step drops something exactly if it is a failure before the last instance. -/
theorem step_dropped_iff (h : Step reg localIp s a t) :
    t.dropped = s.dropped ↔ FailsLast s a := by
  cases h with
  | proceed hhooks hrest hnext =>
      obtain ⟨_, _, rfl⟩ := Hook.next_inl hnext
      simp [FailsLast]
  | finish hhooks hrest hnext =>
      rcases Hook.next_inr hnext with ⟨cause, rfl⟩ | ⟨rfl, htail⟩
      · simp [FailsLast, hrest]
      · rw [hrest, List.tail_cons] at htail
        simp [FailsLast, htail]
  | registerError _ => simp [FailsLast]
  | _ => simp [FailsLast]

/-! ## Over a run -/

theorem run_balance {acts : List (Act W)} (h : Run (Step reg localIp) State.init acts t) :
    t.succeeded = t.attempted + t.held + t.dropped :=
  h.invariant (I := fun s => s.succeeded = s.attempted + s.held + s.dropped)
    (fun _ _ _ => step_balance) rfl

theorem accounted_iff_dropped {acts : List (Act W)}
    (h : Run (Step reg localIp) State.init acts t) : Accounted t ↔ t.dropped = 0 := by
  unfold Accounted
  rw [run_balance h]
  constructor
  · intro heq
    exact add_eq_left.mp heq
  · intro hdropped
    rw [hdropped, add_zero]

theorem held_of_finished (h : Finished t) : t.held = 0 := by
  obtain ⟨_, hregistering, hregistered, hhooks⟩ := h
  simp [State.held, hregistering, hregistered, hhooks]

/-- A run keeps account of every registration exactly if no deregistration failed before the
last instance of its hook; and only then has each registered instance been deregistered once
when the hooks are through. -/
theorem deregistered_iff_failsLast {acts : List (Act W)}
    (h : Run (Step reg localIp) State.init acts t) :
    (Accounted t ↔ Run (Run.Guarded (Step reg localIp) FailsLast) State.init acts t) ∧
      (Finished t → (t.attempted = t.succeeded ↔
        Run (Run.Guarded (Step reg localIp) FailsLast) State.init acts t)) := by
  have hguarded : t.dropped = 0 ↔
      Run (Run.Guarded (Step reg localIp) FailsLast) State.init acts t :=
    h.guarded_iff_of_loss State.dropped (fun _ _ _ => step_dropped_le)
      (fun _ _ _ => step_dropped_iff)
  have haccounted : Accounted t ↔ t.dropped = 0 := accounted_iff_dropped h
  constructor
  · rw [haccounted, hguarded]
  · intro hfinished
    have hall : t.attempted = t.succeeded ↔ Accounted t := by
      unfold Accounted
      rw [held_of_finished hfinished, add_zero]
      exact eq_comm
    rw [hall, haccounted, hguarded]

theorem registered_nil_of_run {acts : List (Act W)} (h : Run (Step reg localIp) s acts t)
    (hs : s.registered = []) (hacts : ∀ inst, .recorded inst ∉ acts) : t.registered = [] := by
  induction h with
  | nil s => exact hs
  | cons hstep _ ih =>
      apply ih
      · cases hstep with
        | record _ => exact absurd List.mem_cons_self (hacts _)
        | drain _ => rfl
        | _ => exact hs
      · intro inst hinst
        exact hacts inst (List.mem_cons_of_mem _ hinst)

/-- Once the hook has started, the record is empty until a handler records again. -/
theorem registered_nil_of_hookStarted {before after : List (Act W)}
    (h : Run (Step reg localIp) s (before ++ .hookStarted :: after) t)
    (hafter : ∀ inst, .recorded inst ∉ after) : t.registered = [] := by
  obtain ⟨u, v, _, hhook, hrest⟩ := h.split
  apply registered_nil_of_run hrest _ hafter
  cases hhook with
  | nothingToDo hempty => exact hempty
  | drain _ => rfl

end

namespace Sample

def reg : NacosRegistrationConfig Unit where
  serviceName := "orders"
  group := "DEFAULT_GROUP"
  ip := none
  port := none
  weight := ()
  cluster := none
  metadata := []

def event (protocol : ServerProtocol) (port : UInt16) : ServerStartedEvent where
  addr := { ip := "10.0.0.7", isUnspecified := false, port := port }
  protocol := protocol

def inst (protocol : ServerProtocol) (port : Int) : ServiceInstance Unit where
  ip := "10.0.0.7"
  port := port
  weight := ()
  clusterName := none
  metadata := [("protocol", protocol.asStr)]

def http : ServiceInstance Unit := inst .http 8080

def grpc : ServiceInstance Unit := inst .grpc 9090

/-- Both servers have started. -/
def recorded : State Unit :=
  { State.init with
    registered := [http, grpc],
    handled := [.ok (), .ok ()],
    succeeded := {grpc, http} }

def hook : Hook Unit where
  count := 2
  rest := [http, grpc]

def draining : State Unit :=
  { recorded with registered := [], hooks := {hook} }

def acts : List (Act Unit) :=
  [.eventPublished (event .http 8080), .registrationReturned http (.ok ()), .recorded http,
    .eventPublished (event .grpc 9090), .registrationReturned grpc (.ok ()), .recorded grpc,
    .hookStarted]

theorem run_acts : Run (Run.Guarded (Step reg none) FailsLast) State.init acts draining := by
  apply Run.cons ⟨@Step.build Unit reg none _ _ http rfl, trivial⟩
  apply Run.cons ⟨@Step.register Unit reg none _ http 0 rfl, trivial⟩
  apply Run.cons ⟨@Step.record Unit reg none _ http 0 rfl, trivial⟩
  apply Run.cons ⟨@Step.build Unit reg none _ _ grpc rfl, trivial⟩
  apply Run.cons ⟨@Step.register Unit reg none _ grpc 0 rfl, trivial⟩
  apply Run.cons ⟨@Step.record Unit reg none _ grpc 0 rfl, trivial⟩
  exact Run.single ⟨Step.drain (List.cons_ne_nil _ _), trivial⟩

def timeout : Except Error String := .error (.context "nacos deregister instance" (some "timeout"))

/-- The deregistration of the second instance failed. -/
def secondFailed : State Unit :=
  { recorded with registered := [], finished := [timeout], attempted := {grpc, http} }

/-- That of the first one failed, and the hook has run again. -/
def firstFailed : State Unit :=
  { recorded with
    registered := [],
    finished := [timeout, .ok "nacos: no instance to deregister"],
    attempted := {http},
    dropped := {grpc} }

theorem run_secondFailed :
    Run (Run.Guarded (Step reg none) FailsLast) State.init
      (acts ++ [.deregistrationReturned hook http (.ok ()),
        .deregistrationReturned { hook with rest := [grpc] } grpc (.error "timeout")])
      secondFailed := by
  apply run_acts.append
  apply Run.cons ⟨@Step.proceed Unit reg none _ hook { hook with rest := [grpc] } 0 http [grpc] _
    rfl rfl rfl, trivial⟩
  exact Run.single ⟨@Step.finish Unit reg none _ { hook with rest := [grpc] } 0 grpc [] _ timeout
    rfl rfl rfl, rfl⟩

theorem run_firstFailed :
    Run (Step reg none) State.init
      (acts ++ [.deregistrationReturned hook http (.error "timeout"), .hookStarted])
      firstFailed := by
  apply run_acts.of_guarded.append
  apply Run.cons (@Step.finish Unit reg none _ hook 0 http [grpc] _ timeout rfl rfl rfl)
  exact Run.single (Step.nothingToDo rfl)

end Sample

/-- The second of two deregistrations fails: both were attempted. -/
theorem last_failure_attempted :
    Finished Sample.secondFailed ∧
      Sample.secondFailed.attempted = Sample.secondFailed.succeeded := by
  have hfinished : Finished Sample.secondFailed := ⟨rfl, rfl, rfl, rfl⟩
  have hrun := Sample.run_secondFailed
  exact ⟨hfinished, ((deregistered_iff_failsLast hrun.of_guarded).2 hfinished).mpr hrun⟩

/-- The first of two deregistrations fails: the second is never attempted, and another run of
the hook finds nothing to do. -/
theorem first_failure_drops_second :
    ∃ acts, Run (Step Sample.reg none) State.init acts Sample.firstFailed ∧
      Finished Sample.firstFailed ∧ Sample.firstFailed.succeeded = {Sample.grpc, Sample.http} ∧
      Sample.firstFailed.attempted = {Sample.http} ∧ ¬ Accounted Sample.firstFailed ∧
      Sample.firstFailed.attempted ≠ Sample.firstFailed.succeeded := by
  refine ⟨_, Sample.run_firstFailed, ⟨rfl, rfl, rfl, rfl⟩, rfl, rfl, ?_, ?_⟩
  · intro haccounted
    have hdropped := (accounted_iff_dropped Sample.run_firstFailed).mp haccounted
    exact Multiset.singleton_ne_zero Sample.grpc hdropped
  · intro heq
    exact absurd (congrArg Multiset.card heq) (by decide)

end Summer.Nacos
