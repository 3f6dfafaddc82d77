/-
Handlers staged as services (`summer-xxl-job/src/lib.rs`).

`add_xxl_async_service` and `add_xxl_sync_service` stage a factory; the listener that the build
of `XxlJobPlugin` registers for `ServicesInjectedEvent` takes all that are staged, builds them
from the builder it is given and registers them with the client, up to the first factory that
fails.  User code holds the builder before and between the publishes of the event, and in the
listeners around that of the plugin, so factories are staged at any time; it may also publish
the event itself, in a listener too.  A run is followed up to a panic.
-/
import Mathlib.Data.List.Infix
import Mathlib.Data.List.Nodup
import Mathlib.Data.List.Perm.Subperm
import Summer.Lib.Run

namespace Summer.XxlJob

/-- `A` and `S` are the types of asynchronous and of synchronous handlers. -/
inductive JobHandler (A S : Type)
  | async (handler : A)
  | sync (handler : S)
deriving DecidableEq, Repr

/-- A factory reads the builder, `E`, and is taken to give the same whenever that is the same.
`X` is the type of errors. -/
inductive LazyJobFactory (E A S X : Type)
  | async (factory : E → Except X A)
  | sync (factory : E → Except X S)

variable {E A S X : Type}

def LazyJobFactory.build (app : E) : LazyJobFactory E A S X → Except X (JobHandler A S)
  | .async factory => (factory app).map .async
  | .sync factory => (factory app).map .sync

abbrev Handlers (A S : Type) := List (String × JobHandler A S)

abbrev Factories (E A S X : Type) := List (String × LazyJobFactory E A S X)

/-! ## Registering -/

/-- `XxlClient::register`, given the handlers that the client has. -/
abbrev Register (A S : Type) := Handlers A S → String × JobHandler A S → Except String Unit

/-- The loop of `build` over the handlers staged by then; an error is the text of a panic. -/
def registerAll (register : Register A S) :
    Handlers A S → Handlers A S → Except String (Handlers A S)
  | client, [] => .ok client
  | client, entry :: rest =>
    match register client entry with
    | .error e => .error ("register xxl handler " ++ entry.1 ++ " failed: " ++ e)
    | .ok () => registerAll register (client ++ [entry]) rest

/-- The loop of the listener: what the client has afterwards, and what the listener returns. -/
def drain (register : Register A S) (app : E) :
    Handlers A S → Factories E A S X → Except String (Handlers A S × Except X Unit)
  | client, [] => .ok (client, .ok ())
  | client, (name, factory) :: rest =>
    match factory.build app with
    | .error e => .ok (client, .error e)
    | .ok handler =>
      match register client (name, handler) with
      | .error e => .error ("register xxl service handler " ++ name ++ " failed: " ++ e)
      | .ok () => drain register app (client ++ [(name, handler)]) rest

/-! ## The builder -/

/-- The listeners of `ServicesInjectedEvent`. -/
inductive Listener
  | xxlJob
  | other
deriving DecidableEq, Repr

/-- A publish in progress: `rest` are the listeners to come. -/
structure Publish where
  number : ℕ
  rest : List Listener
deriving DecidableEq, Repr

/-- User code holds the builder, in a listener of the first publish if there is one, or a publish
is at the head of its loop, `outer` around it. -/
inductive Phase
  | user (publishes : List Publish)
  | looping (publish : Publish) (outer : List Publish)
deriving DecidableEq, Repr

def Phase.publishes : Phase → List Publish
  | .user publishes => publishes
  | .looping publish outer => publish :: outer

def Phase.UserTurn : Phase → Prop
  | .user _ => True
  | .looping _ _ => False

/-- `handlers` and `lazies` are the two registry components and `app` is the rest of the builder.
`started` counts the publishes, and `results` is what they have returned, with their numbers. -/
structure State (E A S X : Type) where
  app : E
  handlers : Option (Handlers A S)
  lazies : Option (Factories E A S X)
  client : Handlers A S
  built : Bool
  listeners : List Listener
  phase : Phase
  started : ℕ
  results : List (ℕ × Except X Unit)

namespace State

def init (app : E) : State E A S X where
  app := app
  handlers := none
  lazies := none
  client := []
  built := false
  listeners := []
  phase := .user []
  started := 0
  results := []

def staged (s : State E A S X) : Handlers A S := s.handlers.getD []

def pending (s : State E A S X) : Factories E A S X := s.lazies.getD []

/-- `take_all`, and what the client has after the loop. -/
def take (s : State E A S X) (client : Handlers A S) : State E A S X :=
  { s with client := client, lazies := s.lazies.map fun _ => [] }

/-- A publish has the result of a listener: it goes on, or it returns the error. -/
def resume (s : State E A S X) (publish : Publish) (outer : List Publish) :
    Except X Unit → State E A S X
  | .ok () => { s with phase := .looping publish outer }
  | .error e =>
    { s with phase := .user outer, results := s.results ++ [(publish.number, .error e)] }

end State

/-- What the listener takes at once, in a publish, with the builder it is given. -/
structure Batch (E A S X : Type) where
  publish : ℕ
  app : E
  items : Factories E A S X

inductive Act (E A S X : Type)
  /-- Anything else that user code does with the builder. -/
  | touch (app : E)
  | addXxlHandler (name : String) (handler : JobHandler A S)
  | addXxlLazyHandler (name : String) (factory : LazyJobFactory E A S X)
  | listen
  | build
  | publish
  /-- The publish calls a listener of user code, which returns, or which is dropped with the
  publish while it waits. -/
  | call
  | returned (result : Except X Unit)
  | dropped
  /-- The publish calls the listener of the plugin. -/
  | drain (batch : Batch E A S X)
  | published

inductive Step (register : Register A S) :
    State E A S X → Act E A S X → State E A S X → Prop
  | touch {s : State E A S X} (app : E) :
      s.phase.UserTurn → Step register s (.touch app) { s with app := app }
  | addXxlHandler {s : State E A S X} {name : String} {handler : JobHandler A S} :
      s.phase.UserTurn →
      Step register s (.addXxlHandler name handler)
        { s with handlers := some (s.staged ++ [(name, handler)]) }
  | addXxlLazyHandler {s : State E A S X} {name : String} {factory : LazyJobFactory E A S X} :
      s.phase.UserTurn →
      Step register s (.addXxlLazyHandler name factory)
        { s with lazies := some (s.pending ++ [(name, factory)]) }
  | listen {s : State E A S X} :
      s.phase.UserTurn → Step register s .listen { s with listeners := s.listeners ++ [.other] }
  /-- A builder builds a plugin once. -/
  | build {s : State E A S X} {client : Handlers A S} :
      s.phase = .user [] → s.built = false →
      registerAll register [] s.staged = .ok client →
      Step register s .build
        { s with client := client, built := true, listeners := s.listeners ++ [.xxlJob] }
  | publish {s : State E A S X} {outer : List Publish} :
      s.phase = .user outer →
      Step register s .publish
        { s with phase := .looping ⟨s.started, s.listeners⟩ outer, started := s.started + 1 }
  | call {s : State E A S X} {n : ℕ} {rest : List Listener} {outer : List Publish} :
      s.phase = .looping ⟨n, .other :: rest⟩ outer →
      Step register s .call { s with phase := .user (⟨n, rest⟩ :: outer) }
  | returned {s : State E A S X} {publish : Publish} {outer : List Publish}
      (result : Except X Unit) :
      s.phase = .user (publish :: outer) →
      Step register s (.returned result) (s.resume publish outer result)
  | dropped {s : State E A S X} {publish : Publish} {outer : List Publish} :
      s.phase = .user (publish :: outer) →
      Step register s .dropped { s with phase := .user outer }
  | drain {s : State E A S X} {n : ℕ} {rest : List Listener} {outer : List Publish}
      {client : Handlers A S} {result : Except X Unit} :
      s.phase = .looping ⟨n, .xxlJob :: rest⟩ outer →
      drain register s.app s.client s.pending = .ok (client, result) →
      Step register s (.drain ⟨n, s.app, s.pending⟩)
        ((s.take client).resume ⟨n, rest⟩ outer result)
  | published {s : State E A S X} {n : ℕ} {outer : List Publish} :
      s.phase = .looping ⟨n, []⟩ outer →
      Step register s .published
        { s with phase := .user outer, results := s.results ++ [(n, .ok ())] }

/-! ## What becomes of the factories -/

namespace Batch

/-- The handlers of the factories before the first that fails. -/
def handlersFrom (app : E) : Factories E A S X → Handlers A S
  | [] => []
  | (name, factory) :: rest =>
    match factory.build app with
    | .error _ => []
    | .ok handler => (name, handler) :: handlersFrom app rest

def failureIn (app : E) : Factories E A S X → Option X
  | [] => none
  | (_, factory) :: rest =>
    match factory.build app with
    | .error e => some e
    | .ok _ => failureIn app rest

def handlers (batch : Batch E A S X) : Handlers A S := handlersFrom batch.app batch.items

def failure (batch : Batch E A S X) : Option X := failureIn batch.app batch.items

theorem names_of_failureIn_none {app : E} {items : Factories E A S X}
    (h : failureIn app items = none) :
    (handlersFrom app items).map Prod.fst = items.map Prod.fst := by
  induction items with
  | nil => rfl
  | cons item rest ih =>
      obtain ⟨name, factory⟩ := item
      unfold failureIn at h
      unfold handlersFrom
      cases hbuild : factory.build app with
      | error e =>
          rw [hbuild] at h
          cases h
      | ok handler =>
          rw [hbuild] at h
          exact congrArg (name :: ·) (ih h)

end Batch

namespace Act

def handler : Act E A S X → Option (String × JobHandler A S)
  | .addXxlHandler name handler => some (name, handler)
  | _ => none

def factory : Act E A S X → Option (String × LazyJobFactory E A S X)
  | .addXxlLazyHandler name factory => some (name, factory)
  | _ => none

def batch : Act E A S X → Option (Batch E A S X)
  | .drain batch => some batch
  | _ => none

def isPublish : Act E A S X → Bool
  | .publish => true
  | _ => false

end Act

abbrev handlersOf (acts : List (Act E A S X)) : Handlers A S := acts.filterMap Act.handler

abbrev factoriesOf (acts : List (Act E A S X)) : Factories E A S X := acts.filterMap Act.factory

abbrev batchesOf (acts : List (Act E A S X)) : List (Batch E A S X) := acts.filterMap Act.batch

/-- The builder as user code has left it. -/
def builderAfter (app : E) : List (Act E A S X) → E
  | [] => app
  | .touch app' :: rest => builderAfter app' rest
  | _ :: rest => builderAfter app rest

/-- The number of the next publish and those under way, the innermost first, after one more
action. -/
def Act.underWay : ℕ × List ℕ → Act E A S X → ℕ × List ℕ
  | (next, numbers), .publish => (next + 1, next :: numbers)
  | (next, numbers), .returned (.error _) => (next, numbers.tail)
  | (next, numbers), .dropped => (next, numbers.tail)
  | (next, numbers), .drain batch =>
    (next, if batch.failure.isSome then numbers.tail else numbers)
  | (next, numbers), .published => (next, numbers.tail)
  | publishes, _ => publishes

abbrev underWay (acts : List (Act E A S X)) : List ℕ := (acts.foldl Act.underWay (0, [])).2

/-- What has become of all that was staged, `before` and `after` the plugin was built. -/
structure Accounted (app : E) (before after : List (Act E A S X)) (s : State E A S X) : Prop where
  /-- The client has the handlers staged before the build, and then those of the batches. -/
  client : s.client = handlersOf before ++ (batchesOf after).flatMap Batch.handlers
  /-- Every factory staged is in one batch or pending, in the order of staging. -/
  factories : factoriesOf before ++ factoriesOf after =
    (batchesOf after).flatMap Batch.items ++ s.pending
  /-- A batch is all that is pending at that call, in the innermost publish under way, with the
  builder of that call. -/
  taken : ∀ pre batch post, after = pre ++ .drain batch :: post →
    (underWay (before ++ pre)).head? = some batch.publish ∧
      batch.app = builderAfter app (before ++ pre) ∧
      factoriesOf before ++ factoriesOf pre = (batchesOf pre).flatMap Batch.items ++ batch.items
  /-- A publish returns once. -/
  once : (s.results.map Prod.fst).Nodup
  /-- The publish in which a batch has failed has returned this error. -/
  failed : ∀ batch ∈ batchesOf after, ∀ e, batch.failure = some e →
    (batch.publish, .error e) ∈ s.results
  /-- Unless the publish has returned an error, all factories of the batch are registered. -/
  registered : ∀ batch ∈ batchesOf after, (∀ e, (batch.publish, .error e) ∉ s.results) →
    batch.handlers.map Prod.fst = batch.items.map Prod.fst
  /-- A publish after the build that has returned without error had a batch. -/
  drained : ∀ n, before.countP Act.isPublish ≤ n → (n, .ok ()) ∈ s.results →
    ∃ batch ∈ batchesOf after, batch.publish = n

theorem registerAll_ok {register : Register A S} {client entries client' : Handlers A S}
    (h : registerAll register client entries = .ok client') : client' = client ++ entries := by
  induction entries generalizing client with
  | nil =>
      cases h
      rw [List.append_nil]
  | cons entry rest ih =>
      unfold registerAll at h
      cases hregister : register client entry with
      | error e =>
          rw [hregister] at h
          cases h
      | ok _ =>
          rw [hregister] at h
          rw [ih h, List.append_assoc]
          rfl

theorem drain_ok {register : Register A S} {app : E} {client client' : Handlers A S}
    {items : Factories E A S X} {result : Except X Unit}
    (h : drain register app client items = .ok (client', result)) :
    client' = client ++ Batch.handlersFrom app items ∧
      result = match Batch.failureIn app items with
        | some e => .error e
        | none => .ok () := by
  induction items generalizing client with
  | nil =>
      cases h
      exact ⟨(List.append_nil _).symm, rfl⟩
  | cons item rest ih =>
      obtain ⟨name, factory⟩ := item
      unfold drain at h
      unfold Batch.handlersFrom Batch.failureIn
      cases hbuild : factory.build app with
      | error e =>
          rw [hbuild] at h
          cases h
          exact ⟨(List.append_nil _).symm, rfl⟩
      | ok handler =>
          rw [hbuild] at h
          simp only at h ⊢
          cases hregister : register client (name, handler) with
          | error e =>
              rw [hregister] at h
              cases h
          | ok _ =>
              rw [hregister] at h
              obtain ⟨hclient, hresult⟩ := ih h
              refine ⟨?_, hresult⟩
              rw [hclient, List.append_assoc]
              rfl

/-! ## One step -/

section
variable {register : Register A S} {s t : State E A S X} {a : Act E A S X}

theorem filterMap_snoc {α β : Type} (f : α → Option β) (l : List α) (a : α) :
    (l ++ [a]).filterMap f = l.filterMap f ++ (f a).toList := by
  rw [List.filterMap_append]
  cases h : f a with
  | none => rw [List.filterMap_cons_none h]; rfl
  | some b => rw [List.filterMap_cons_some h]; rfl

theorem handlersOf_snoc (acts : List (Act E A S X)) (a : Act E A S X) :
    handlersOf (acts ++ [a]) = handlersOf acts ++ a.handler.toList := filterMap_snoc _ _ _

theorem factoriesOf_snoc (acts : List (Act E A S X)) (a : Act E A S X) :
    factoriesOf (acts ++ [a]) = factoriesOf acts ++ a.factory.toList := filterMap_snoc _ _ _

theorem batchesOf_snoc (acts : List (Act E A S X)) (a : Act E A S X) :
    batchesOf (acts ++ [a]) = batchesOf acts ++ a.batch.toList := filterMap_snoc _ _ _

/-- A result only decides how the publish goes on. -/
theorem resume_rest (s : State E A S X) (publish : Publish) (outer : List Publish)
    (result : Except X Unit) :
    (s.resume publish outer result).app = s.app ∧
      (s.resume publish outer result).staged = s.staged ∧
      (s.resume publish outer result).pending = s.pending ∧
      (s.resume publish outer result).client = s.client ∧
      (s.resume publish outer result).built = s.built ∧
      (s.resume publish outer result).listeners = s.listeners ∧
      (s.resume publish outer result).started = s.started := by
  cases result <;> exact ⟨rfl, rfl, rfl, rfl, rfl, rfl, rfl⟩

theorem results_resume (s : State E A S X) (publish : Publish) (outer : List Publish)
    (result : Except X Unit) : s.results <+: (s.resume publish outer result).results := by
  cases result with
  | error e => exact List.prefix_append _ _
  | ok _ => exact List.prefix_refl _

theorem forall_publishes_resume {P : Publish → Prop} {publish : Publish} {outer : List Publish}
    (s : State E A S X) (result : Except X Unit) (h : P publish) (houter : ∀ q ∈ outer, P q) :
    ∀ q ∈ (s.resume publish outer result).phase.publishes, P q := by
  cases result with
  | error e => exact houter
  | ok _ => exact List.forall_mem_cons.mpr ⟨h, houter⟩

/-- It is no listener that ends a publish without error. -/
theorem ok_mem_results_resume {s : State E A S X} {publish : Publish} {outer : List Publish}
    {result : Except X Unit} {n : ℕ}
    (h : (n, .ok ()) ∈ (s.resume publish outer result).results) : (n, .ok ()) ∈ s.results := by
  cases result with
  | error e =>
    rcases List.mem_append.mp h with h | h
    · exact h
    · cases List.mem_singleton.mp h
  | ok _ => exact h

theorem pending_take (s : State E A S X) (client : Handlers A S) :
    (s.take client).pending = [] := by
  unfold State.pending State.take
  cases s.lazies <;> rfl

/-- A step takes nothing and registers nothing, the build of the plugin apart, or it is the
listener's, and then it takes all that is pending. -/
theorem step_cases (h : Step register s a t) :
    s.results <+: t.results ∧ t.app = builderAfter s.app [a] ∧
      (s.built = true → t.built = true) ∧
      (a.batch = none ∧ t.pending = s.pending ++ a.factory.toList ∧
          (s.built = true → t.client = s.client) ∨
        ∃ batch, a = .drain batch ∧ batch.app = s.app ∧ batch.items = s.pending ∧
          t.pending = [] ∧ t.client = s.client ++ batch.handlers ∧
          ∀ e, batch.failure = some e → (batch.publish, .error e) ∈ t.results) := by
  have hnil := (List.append_nil s.pending).symm
  cases h with
  | build _ hbuilt _ =>
    refine ⟨List.prefix_refl _, rfl, fun _ => rfl, Or.inl ⟨rfl, hnil, fun hs => ?_⟩⟩
    rw [hbuilt] at hs
    cases hs
  | returned result _ =>
    obtain ⟨happ, _, hpending, hclient, hbuilt, _⟩ := resume_rest s _ _ result
    exact ⟨results_resume s _ _ result, happ, hbuilt.trans,
      Or.inl ⟨rfl, hpending.trans hnil, fun _ => hclient⟩⟩
  | @drain n rest outer client result _ hdrain =>
    obtain ⟨happ, _, hpending, hclient, hbuilt, _⟩ :=
      resume_rest (s.take client) ⟨n, rest⟩ outer result
    obtain ⟨hregistered, hresult⟩ := drain_ok hdrain
    refine ⟨results_resume (s.take client) _ _ result, happ,
      hbuilt.trans, Or.inr ⟨_, rfl, rfl, rfl, hpending.trans (pending_take s client),
        hclient.trans hregistered, fun e he => ?_⟩⟩
    rw [show Batch.failureIn s.app s.pending = some e from he] at hresult
    rw [hresult]
    exact List.mem_append_right _ List.mem_cons_self
  | published _ =>
    exact ⟨List.prefix_append _ _, rfl, id, Or.inl ⟨rfl, hnil, fun _ => rfl⟩⟩
  | addXxlLazyHandler _ =>
    exact ⟨List.prefix_refl _, rfl, id, Or.inl ⟨rfl, rfl, fun _ => rfl⟩⟩
  | _ => exact ⟨List.prefix_refl _, rfl, id, Or.inl ⟨rfl, hnil, fun _ => rfl⟩⟩

/-! ## The publishes -/

/-- The publishes in progress and those that have returned. -/
def State.numbers (s : State E A S X) : List ℕ :=
  s.phase.publishes.map Publish.number ++ s.results.map Prod.fst

theorem finished_perm (n : ℕ) (outer : List Publish) (result : Except X Unit)
    (results : List (ℕ × Except X Unit)) :
    (outer.map Publish.number ++ (results ++ [(n, result)]).map Prod.fst).Perm
      (n :: (outer.map Publish.number ++ results.map Prod.fst)) := by
  rw [List.map_append, ← List.append_assoc]
  exact List.perm_append_singleton n _

theorem numbers_resume (s : State E A S X) (publish : Publish) (outer : List Publish)
    (result : Except X Unit) :
    (s.resume publish outer result).numbers.Perm
      (publish.number :: (outer.map Publish.number ++ s.results.map Prod.fst)) := by
  cases result with
  | error e => exact finished_perm publish.number outer _ s.results
  | ok _ => exact List.Perm.refl _

/-- Only a publish brings a number, and this is a new one. -/
theorem numbers_step (h : Step register s a t) :
    t.numbers.Subperm s.numbers ∧ t.started = s.started ∧ a.isPublish = false ∨
      t.numbers = s.started :: s.numbers ∧ t.started = s.started + 1 ∧ a.isPublish = true := by
  cases h with
  | publish hphase =>
    refine Or.inr ⟨?_, rfl, rfl⟩
    simp only [State.numbers, hphase]
    rfl
  | call hphase =>
    refine Or.inl ⟨List.Perm.subperm ?_, rfl, rfl⟩
    simp only [State.numbers, hphase]
    exact List.Perm.refl _
  | @returned publish outer result hphase =>
    refine Or.inl ⟨List.Perm.subperm ?_, (resume_rest s _ _ result).2.2.2.2.2.2, rfl⟩
    rw [State.numbers.eq_def s, hphase]
    exact numbers_resume s publish outer result
  | dropped hphase =>
    refine Or.inl ⟨List.Sublist.subperm ?_, rfl, rfl⟩
    simp only [State.numbers, hphase]
    exact List.sublist_cons_self _ _
  | @drain n rest outer client result hphase _ =>
    refine Or.inl ⟨List.Perm.subperm ?_, (resume_rest (s.take client) _ _ result).2.2.2.2.2.2,
      rfl⟩
    rw [State.numbers.eq_def s, hphase]
    exact numbers_resume (s.take client) ⟨n, rest⟩ outer result
  | @published n outer hphase =>
    refine Or.inl ⟨List.Perm.subperm ?_, rfl, rfl⟩
    simp only [State.numbers, hphase]
    exact finished_perm n outer _ s.results
  | _ => exact Or.inl ⟨List.Subperm.refl _, rfl, rfl⟩

/-- The publishes under way are those that the trace tells. -/
theorem underWay_step (h : Step register s a t) :
    Act.underWay (s.started, s.phase.publishes.map Publish.number) a =
      (t.started, t.phase.publishes.map Publish.number) := by
  cases h with
  | publish hphase =>
    rw [hphase]
    rfl
  | call hphase =>
    rw [hphase]
    rfl
  | returned result hphase =>
    rw [hphase]
    cases result <;> rfl
  | dropped hphase =>
    rw [hphase]
    rfl
  | @drain n rest outer client result hphase hdrain =>
    rw [hphase]
    obtain ⟨_, hresult⟩ := drain_ok hdrain
    have hfailure : Batch.failure ⟨n, s.app, s.pending⟩ = Batch.failureIn s.app s.pending := rfl
    simp only [Act.underWay, hfailure]
    cases hfailed : Batch.failureIn s.app s.pending with
    | none =>
      rw [hfailed] at hresult
      subst hresult
      rfl
    | some e =>
      rw [hfailed] at hresult
      subst hresult
      rfl
  | published hphase =>
    rw [hphase]
    rfl
  | _ => rfl

/-! ## From the start -/

theorem builderAfter_append (app : E) (acts acts' : List (Act E A S X)) :
    builderAfter app (acts ++ acts') = builderAfter (builderAfter app acts) acts' := by
  induction acts generalizing app with
  | nil => rfl
  | cons a rest ih => cases a <;> exact ih _

/-- What a run keeps from its start. -/
structure Kept (app : E) (acts : List (Act E A S X)) (s : State E A S X) : Prop where
  builder : s.app = builderAfter app acts
  factories : factoriesOf acts = (batchesOf acts).flatMap Batch.items ++ s.pending
  started : s.started = acts.countP Act.isPublish
  underWay : acts.foldl Act.underWay (0, []) =
    (s.started, s.phase.publishes.map Publish.number)
  below : ∀ n ∈ s.numbers, n < s.started
  distinct : s.numbers.Nodup
  failed : ∀ batch ∈ batchesOf acts, ∀ e, batch.failure = some e →
    (batch.publish, .error e) ∈ s.results

theorem kept_init (app : E) : Kept app [] (State.init app : State E A S X) where
  builder := rfl
  factories := rfl
  started := rfl
  underWay := rfl
  below := fun _ h => absurd h List.not_mem_nil
  distinct := List.nodup_nil
  failed := fun _ h => absurd h List.not_mem_nil

theorem kept_step {app : E} {acts : List (Act E A S X)} (h : Step register s a t)
    (hs : Kept app acts s) : Kept app (acts ++ [a]) t := by
  obtain ⟨hresults, happ, _, htaken⟩ := step_cases h
  refine ⟨?_, ?_, ?_, ?_, ?_, ?_, ?_⟩
  · rw [happ, hs.builder, builderAfter_append]
  · rw [factoriesOf_snoc, batchesOf_snoc, hs.factories]
    rcases htaken with ⟨hbatch, hpending, _⟩ | ⟨batch, rfl, _, hitems, hpending, _⟩
    · rw [hbatch, hpending, Option.toList_none, List.append_nil, List.append_assoc]
    · rw [hpending, ← hitems]
      simp [Act.factory, Act.batch]
  · rw [List.countP_append]
    rcases numbers_step h with ⟨_, hstarted, ha⟩ | ⟨_, hstarted, ha⟩
    · rw [hstarted, hs.started, List.countP_singleton, ha]
      rfl
    · rw [hstarted, hs.started, List.countP_singleton, ha]
      rfl
  · rw [List.foldl_append, hs.underWay]
    exact underWay_step h
  · rcases numbers_step h with ⟨hnumbers, hstarted, _⟩ | ⟨hnumbers, hstarted, _⟩
    · rw [hstarted]
      exact fun n hn => hs.below n (hnumbers.subset hn)
    · rw [hnumbers, hstarted]
      refine List.forall_mem_cons.mpr ⟨Nat.lt_succ_self _, fun n hn => ?_⟩
      exact Nat.lt_succ_of_lt (hs.below n hn)
  · rcases numbers_step h with ⟨⟨l, hperm, hsub⟩, _⟩ | ⟨hnumbers, _⟩
    · exact hperm.nodup_iff.mp (hs.distinct.sublist hsub)
    · rw [hnumbers]
      exact List.nodup_cons.mpr ⟨fun hmem => Nat.lt_irrefl _ (hs.below _ hmem), hs.distinct⟩
  · intro batch hbatch e he
    rw [batchesOf_snoc, List.mem_append] at hbatch
    rcases hbatch with hbatch | hbatch
    · exact hresults.subset (hs.failed batch hbatch e he)
    · rcases htaken with ⟨hnone, _⟩ | ⟨batch', rfl, _, _, _, _, hfailed⟩
      · rw [hnone] at hbatch
        cases hbatch
      · cases Option.mem_toList.mp hbatch
        exact hfailed e he

/-! ## Before the plugin is built -/

/-- The client is not there yet, and neither is the listener. -/
structure Unbuilt (acts : List (Act E A S X)) (s : State E A S X) : Prop where
  client : s.client = []
  staged : s.staged = handlersOf acts
  batches : batchesOf acts = []
  listeners : .xxlJob ∉ s.listeners
  publishes : ∀ publish ∈ s.phase.publishes, .xxlJob ∉ publish.rest

/-- Until the plugin is built. -/
def BeforeBuild (acts : List (Act E A S X)) (s : State E A S X) : Prop :=
  s.built = false → Unbuilt acts s

theorem beforeBuild_step {acts : List (Act E A S X)} (h : Step register s a t)
    (hs : BeforeBuild acts s) : BeforeBuild (acts ++ [a]) t := by
  intro ht
  have hbuilt : s.built = false := by
    refine Bool.eq_false_iff.mpr fun hbuilt => ?_
    rw [(step_cases h).2.2.1 hbuilt] at ht
    cases ht
  obtain ⟨hclient, hstaged, hbatches, hlisteners, hpublishes⟩ := hs hbuilt
  have hnone : a.batch = none → batchesOf (acts ++ [a]) = [] := fun h => by
    rw [batchesOf_snoc, hbatches, h]
    rfl
  have hkept : a.handler = none → s.staged = handlersOf (acts ++ [a]) := fun h => by
    rw [handlersOf_snoc, hstaged, h]
    exact (List.append_nil _).symm
  cases h with
  | build _ _ _ => cases ht
  | addXxlHandler _ =>
    refine ⟨hclient, ?_, hnone rfl, hlisteners, hpublishes⟩
    rw [handlersOf_snoc, ← hstaged]
    rfl
  | listen _ =>
    refine ⟨hclient, hkept rfl, hnone rfl, fun hmem => ?_, hpublishes⟩
    rcases List.mem_append.mp hmem with hmem | hmem
    · exact hlisteners hmem
    · cases List.mem_singleton.mp hmem
  | publish hphase =>
    rw [hphase] at hpublishes
    exact ⟨hclient, hkept rfl, hnone rfl, hlisteners,
      List.forall_mem_cons.mpr ⟨hlisteners, hpublishes⟩⟩
  | call hphase =>
    rw [hphase] at hpublishes
    obtain ⟨hfirst, houter⟩ := List.forall_mem_cons.mp hpublishes
    exact ⟨hclient, hkept rfl, hnone rfl, hlisteners,
      List.forall_mem_cons.mpr ⟨fun h => hfirst (List.mem_cons_of_mem _ h), houter⟩⟩
  | returned result hphase =>
    rw [hphase] at hpublishes
    obtain ⟨_, hstaged', _, hclient', _, hlisteners', _⟩ := resume_rest s _ _ result
    obtain ⟨hfirst, houter⟩ := List.forall_mem_cons.mp hpublishes
    exact ⟨hclient'.trans hclient, hstaged'.trans (hkept rfl), hnone rfl, hlisteners' ▸ hlisteners,
      forall_publishes_resume s result hfirst houter⟩
  | dropped hphase =>
    rw [hphase] at hpublishes
    exact ⟨hclient, hkept rfl, hnone rfl, hlisteners, (List.forall_mem_cons.mp hpublishes).2⟩
  | drain hphase _ =>
    rw [hphase] at hpublishes
    exact absurd List.mem_cons_self (List.forall_mem_cons.mp hpublishes).1
  | published hphase =>
    rw [hphase] at hpublishes
    exact ⟨hclient, hkept rfl, hnone rfl, hlisteners, (List.forall_mem_cons.mp hpublishes).2⟩
  | touch _ _ | addXxlLazyHandler _ =>
    exact ⟨hclient, hkept rfl, hnone rfl, hlisteners, hpublishes⟩

/-! ## After the plugin is built -/

/-- The listener is there, so a publish is on its way to it or has been there. -/
structure Built (n : ℕ) (handlers : Handlers A S) (acts : List (Act E A S X))
    (s : State E A S X) : Prop where
  built : s.built = true
  client : s.client = handlers ++ (batchesOf acts).flatMap Batch.handlers
  listeners : .xxlJob ∈ s.listeners
  publishes : ∀ publish ∈ s.phase.publishes, n ≤ publish.number →
    .xxlJob ∈ publish.rest ∨ ∃ batch ∈ batchesOf acts, batch.publish = publish.number
  drained : ∀ number, n ≤ number → (number, .ok ()) ∈ s.results →
    ∃ batch ∈ batchesOf acts, batch.publish = number

theorem built_step {n : ℕ} {handlers : Handlers A S} {acts : List (Act E A S X)}
    (h : Step register s a t) (hs : Built n handlers acts s) :
    Built n handlers (acts ++ [a]) t := by
  obtain ⟨hbuilt, hclient, hlisteners, hpublishes, hdrained⟩ := hs
  obtain ⟨_, _, hbuilt', htaken⟩ := step_cases h
  have hmono : ∀ {number : ℕ}, (∃ batch ∈ batchesOf acts, batch.publish = number) →
      ∃ batch ∈ batchesOf (acts ++ [a]), batch.publish = number := fun h =>
    h.imp fun batch hbatch =>
      ⟨batchesOf_snoc acts a ▸ List.mem_append_left _ hbatch.1, hbatch.2⟩
  have hclient' : t.client = handlers ++ (batchesOf (acts ++ [a])).flatMap Batch.handlers := by
    rw [batchesOf_snoc, List.flatMap_append, ← List.append_assoc, ← hclient]
    rcases htaken with ⟨hbatch, _, hsame⟩ | ⟨batch, rfl, _, _, _, hmore, _⟩
    · rw [hsame hbuilt, hbatch]
      exact (List.append_nil _).symm
    · rw [hmore]
      exact congrArg (s.client ++ ·) (List.append_nil _).symm
  have hpublishes' : ∀ publish ∈ s.phase.publishes, n ≤ publish.number →
      .xxlJob ∈ publish.rest ∨ ∃ batch ∈ batchesOf (acts ++ [a]), batch.publish = publish.number :=
    fun publish hmem hle => (hpublishes publish hmem hle).imp_right hmono
  have hdrained' : ∀ number, n ≤ number → (number, .ok ()) ∈ s.results →
      ∃ batch ∈ batchesOf (acts ++ [a]), batch.publish = number :=
    fun number hle hmem => hmono (hdrained number hle hmem)
  clear hpublishes hdrained htaken
  cases h with
  | listen _ =>
    exact ⟨hbuilt, hclient', List.mem_append_left _ hlisteners, hpublishes', hdrained'⟩
  | build _ hunbuilt _ =>
    rw [hunbuilt] at hbuilt
    cases hbuilt
  | publish hphase =>
    rw [hphase] at hpublishes'
    exact ⟨hbuilt, hclient', hlisteners,
      List.forall_mem_cons.mpr ⟨fun _ => Or.inl hlisteners, hpublishes'⟩, hdrained'⟩
  | call hphase =>
    rw [hphase] at hpublishes'
    obtain ⟨hfirst, houter⟩ := List.forall_mem_cons.mp hpublishes'
    refine ⟨hbuilt, hclient', hlisteners, List.forall_mem_cons.mpr ⟨fun hle => ?_, houter⟩,
      hdrained'⟩
    refine (hfirst hle).imp_left fun hmem => ?_
    rcases List.mem_cons.mp hmem with heq | hmem
    · cases heq
    · exact hmem
  | returned result hphase =>
    rw [hphase] at hpublishes'
    obtain ⟨hfirst, houter⟩ := List.forall_mem_cons.mp hpublishes'
    exact ⟨hbuilt' hbuilt, hclient', (resume_rest s _ _ result).2.2.2.2.2.1 ▸ hlisteners,
      forall_publishes_resume s result hfirst houter,
      fun number hle hmem => hdrained' number hle (ok_mem_results_resume hmem)⟩
  | dropped hphase =>
    rw [hphase] at hpublishes'
    exact ⟨hbuilt, hclient', hlisteners, (List.forall_mem_cons.mp hpublishes').2, hdrained'⟩
  | @drain m rest outer client result hphase _ =>
    rw [hphase] at hpublishes'
    have htook : ∃ batch ∈ batchesOf (acts ++ [.drain ⟨m, s.app, s.pending⟩]),
        batch.publish = m := by
      refine ⟨⟨m, s.app, s.pending⟩, ?_, rfl⟩
      rw [batchesOf_snoc]
      exact List.mem_append_right _ List.mem_cons_self
    refine ⟨hbuilt' hbuilt, hclient',
      (resume_rest (s.take client) ⟨m, rest⟩ outer result).2.2.2.2.2.1 ▸ hlisteners,
      forall_publishes_resume _ result (fun _ => Or.inr htook)
        (List.forall_mem_cons.mp hpublishes').2,
      fun number hle hmem => hdrained' number hle (ok_mem_results_resume (s := s.take client) hmem)⟩
  | @published m outer hphase =>
    rw [hphase] at hpublishes'
    obtain ⟨hfirst, houter⟩ := List.forall_mem_cons.mp hpublishes'
    refine ⟨hbuilt, hclient', hlisteners, houter, fun number hle hmem => ?_⟩
    rcases List.mem_append.mp hmem with hmem | hmem
    · exact hdrained' number hle hmem
    · cases List.mem_singleton.mp hmem
      exact (hfirst hle).resolve_left List.not_mem_nil
  | touch _ _ | addXxlHandler _ | addXxlLazyHandler _ =>
    exact ⟨hbuilt, hclient', hlisteners, hpublishes', hdrained'⟩

/-! ## Whole runs -/

theorem kept_run {app : E} {acts : List (Act E A S X)}
    (h : Run (Step register) (State.init app) acts s) : Kept app acts s :=
  h.trace_invariant (fun _ _ _ _ => kept_step) (kept_init app)

/-- The build starts the client with the handlers staged by then, and no publish is under way. -/
theorem built_of_build {app : E} {acts : List (Act E A S X)}
    (h : Run (Step register) (State.init app) acts s) (hbuild : Step register s .build t) :
    Built (acts.countP Act.isPublish) (handlersOf acts) [] t ∧ batchesOf acts = [] := by
  have hinit : BeforeBuild [] (State.init app : State E A S X) := fun _ =>
    ⟨rfl, rfl, rfl, List.not_mem_nil, fun _ h => absurd h List.not_mem_nil⟩
  have hbefore : BeforeBuild acts s := h.trace_invariant (fun _ _ _ _ => beforeBuild_step) hinit
  have hkept := kept_run h
  cases hbuild with
  | build hphase hunbuilt hregister =>
    have hs := hbefore hunbuilt
    refine ⟨⟨rfl, ?_, List.mem_append_right _ List.mem_cons_self, ?_, ?_⟩, hs.batches⟩
    · rw [registerAll_ok hregister, hs.staged]
      exact (List.append_nil _).symm
    · rw [hphase]
      exact fun _ h => absurd h List.not_mem_nil
    · intro n hle hmem
      have hlt := hkept.below n (List.mem_append_right _ (List.mem_map.mpr ⟨_, hmem, rfl⟩))
      exact absurd hle (Nat.not_le.mpr (hkept.started ▸ hlt))

/-- Whenever handlers and factories are staged and the event is published, in the listeners of the
event too: all are accounted for. -/
theorem lazies_accounted {app : E} {before after : List (Act E A S X)}
    (h : Run (Step register) (State.init app) (before ++ .build :: after) s) :
    Accounted app before after s := by
  obtain ⟨u, v, hbefore, hbuild, hafter⟩ := h.split
  obtain ⟨hstart, hnone⟩ := built_of_build hbefore hbuild
  have hbuilt : Built (before.countP Act.isPublish) (handlersOf before) after s :=
    hafter.trace_invariant (I := Built _ _) (fun _ _ _ _ => built_step) hstart
  have hbatches : ∀ acts : List (Act E A S X),
      batchesOf (before ++ .build :: acts) = batchesOf acts := fun acts => by
    refine List.filterMap_append.trans ?_
    rw [show before.filterMap Act.batch = [] from hnone]
    rfl
  have hfactories : ∀ acts : List (Act E A S X),
      factoriesOf (before ++ .build :: acts) = factoriesOf before ++ factoriesOf acts := fun acts =>
    List.filterMap_append
  have hkept := kept_run h
  have hfailed := hkept.failed
  rw [hbatches] at hfailed
  refine ⟨hbuilt.client, ?_, ?_, List.Nodup.of_append_right hkept.distinct, hfailed, ?_,
    hbuilt.drained⟩
  · rw [← hfactories, ← hbatches]
    exact hkept.factories
  · intro pre batch post hpost
    subst hpost
    rw [← List.cons_append, ← List.append_assoc] at h
    obtain ⟨x, y, hpre, hdrain, _⟩ := h.split
    have hx := kept_run hpre
    cases hdrain with
    | drain hphase _ =>
      refine ⟨?_, hx.builder.trans ?_, ?_⟩
      · have hunder := congrArg Prod.snd hx.underWay
        rw [hphase, List.foldl_append] at hunder
        rw [underWay, List.foldl_append]
        exact congrArg List.head? hunder
      · rw [builderAfter_append, builderAfter_append]
        rfl
      · rw [← hfactories, ← hbatches]
        exact hx.factories
  · intro batch hbatch hok
    apply Batch.names_of_failureIn_none
    cases hfailure : batch.failure with
    | none => exact hfailure
    | some e => exact absurd (hfailed batch hbatch e hfailure) (hok e)

end

namespace Sample

/-- The builder says whether there is a mailer. -/
def report : LazyJobFactory Bool String String String := .async fun _ => .ok "report"

def mail : LazyJobFactory Bool String String String :=
  .sync fun mailer => if mailer then .ok "mail" else .error "no mailer"

def register : Register String String := fun _ _ => .ok ()

/-- A listener of user code comes before that of the plugin. -/
def before : List (Act Bool String String String) :=
  [.addXxlHandler "ping" (.sync "ping"), .addXxlLazyHandler "report" report, .listen]

/-- What the publish in the listener takes, without a mailer. -/
def inner : Batch Bool String String String where
  publish := 1
  app := false
  items := [("report", report), ("mail", mail), ("late", report)]

def outer : Batch Bool String String String where
  publish := 0
  app := true
  items := [("mail", mail)]

/-- The listener of user code publishes the event again, adds the mailer when that has failed, and
stages once more what was lost. -/
def after : List (Act Bool String String String) :=
  [.addXxlLazyHandler "mail" mail, .addXxlLazyHandler "late" report, .publish, .call,
    .publish, .call, .returned (.ok ()), .drain inner,
    .touch true, .addXxlLazyHandler "mail" mail, .returned (.ok ()), .drain outer, .published]

def done : State Bool String String String where
  app := true
  handlers := some [("ping", .sync "ping")]
  lazies := some []
  client := [("ping", .sync "ping"), ("report", .async "report"), ("mail", .sync "mail")]
  built := true
  listeners := [.other, .xxlJob]
  phase := .user []
  started := 2
  results := [(1, .error "no mailer"), (0, .ok ())]

theorem run_done : Run (Step register) (State.init false) (before ++ .build :: after) done := by
  apply Run.cons (.addXxlHandler trivial)
  apply Run.cons (.addXxlLazyHandler trivial)
  apply Run.cons (.listen trivial)
  apply Run.cons (.build rfl rfl rfl)
  apply Run.cons (.addXxlLazyHandler trivial)
  apply Run.cons (.addXxlLazyHandler trivial)
  apply Run.cons (.publish rfl)
  apply Run.cons (.call rfl)
  apply Run.cons (.publish rfl)
  apply Run.cons (.call rfl)
  apply Run.cons (.returned _ rfl)
  apply Run.cons (.drain rfl rfl)
  apply Run.cons (.touch _ trivial)
  apply Run.cons (.addXxlLazyHandler trivial)
  apply Run.cons (.returned _ rfl)
  apply Run.cons (.drain rfl rfl)
  exact Run.single (.published rfl)

end Sample

theorem lazies_accounted_sample :
    Accounted false Sample.before Sample.after Sample.done :=
  lazies_accounted Sample.run_done

end Summer.XxlJob
