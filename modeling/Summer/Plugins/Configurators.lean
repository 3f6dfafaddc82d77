/-
The configurators of `summer-web`, `summer-stream` and `summer-xxl-job`, and the builds of
their plugins.

`add_router`, `add_consumer` and `add_xxl_handler` stage an item in a component; the build
of `WebPlugin` merges the routers staged by then into the router that is served, that of
`StreamPlugin` schedules a task for every consumer staged by then, and that of
`XxlJobPlugin` registers every handler staged by then with the client.

A router is the list of the routers merged into it: the middlewares and layers around it
do not change what it serves.  Handlers staged as services are left out.
-/
import Summer.App.BuildPlugins

namespace Summer

/-- The component types of the three crates, and those of the application. -/
inductive Component (R K H : Type)
  | routers (routers : List R)
  | router (merged : List R)
  | openApiConfig
  | consumers (consumers : List K)
  | producer
  | xxlHandlers (handlers : List (String × H))
  | xxlClient (registered : List (String × H))
  | other (ty : ℕ)
deriving DecidableEq

namespace Component

variable {R K H : Type}

def typeId : Component R K H → TypeId
  | .routers _ => .concrete 0
  | .router _ => .concrete 1
  | .openApiConfig => .concrete 2
  | .consumers _ => .concrete 3
  | .producer => .concrete 4
  | .xxlHandlers _ => .concrete 5
  | .xxlClient _ => .concrete 6
  | .other ty => .concrete (ty + 7)

def asRouters : Component R K H → List R
  | .routers l => l
  | _ => []

def asRouter : Component R K H → List R
  | .router l => l
  | _ => []

def asConsumers : Component R K H → List K
  | .consumers l => l
  | _ => []

def asXxlHandlers : Component R K H → List (String × H)
  | .xxlHandlers l => l
  | _ => []

def asXxlClient : Component R K H → List (String × H)
  | .xxlClient l => l
  | _ => []

end Component

/-- The tasks given to `add_scheduler`. -/
inductive Task (K : Type)
  | consumer (consumer : K)
  | other (name : String)
deriving DecidableEq, Repr

abbrev Builder (R K H C : Type) := AppBuilder (Component R K H) C (Task K)

/-- The calls of user code on the builder. -/
inductive Call (R K H : Type)
  | addRouter (router : R)
  | addConsumer (consumers : List K)
  | addXxlHandler (name : String) (handler : H)
  | addComponent (ty : ℕ)
  | addScheduler (name : String)
  | addShutdownHook (name : String)
deriving DecidableEq, Repr

/-- An application: the calls that the build of each of its own plugins makes, from the
state it finds, and what the three plugins depend on outside the builder.  An error text
is the text of a panic. -/
structure Application (R K H C : Type) where
  typeName : TypeId → String
  calls : Plugin → Builder R K H C → List (Call R K H)
  webConfig : C → Except String Unit
  openapi : Bool
  streamer : C → Except String Unit
  newInstance : C → K → Except String Unit
  xxlClient : C → Except String Unit
  xxlRegister : List (String × H) → String × H → Except String Unit

def webPlugin : Plugin where
  ty := .concrete 0
  name := "summer_web::WebPlugin"
  dependencies := []
  immediately := false

def streamPlugin : Plugin where
  ty := .concrete 1
  name := "summer_stream::StreamPlugin"
  dependencies := []
  immediately := false

def xxlJobPlugin : Plugin where
  ty := .concrete 2
  name := "summer_xxl_job::XxlJobPlugin"
  dependencies := []
  immediately := false

namespace Builder

variable {R K H C : Type}

/-- Writing a component, whether through `add_component` or in place. -/
def put (app : Builder R K H C) (c : Component R K H) : Builder R K H C :=
  { app with components := app.components.insert c.typeId c }

def add (typeName : TypeId → String) (app : Builder R K H C) (c : Component R K H) :
    Except Panic (Builder R K H C) :=
  app.addComponent typeName c.typeId c

/-- What a component of the given type holds, if there is one. -/
def view {α : Type} (app : Builder R K H C) (ty : ℕ) (pick : Component R K H → List α) : List α :=
  match app.getComponent (.concrete ty) with
  | some c => pick c
  | none => []

def routers (app : Builder R K H C) : List R := app.view 0 Component.asRouters

def consumers (app : Builder R K H C) : List K := app.view 3 Component.asConsumers

def xxlHandlers (app : Builder R K H C) : List (String × H) := app.view 5 Component.asXxlHandlers

/-- What `finalize_router` serves. -/
def served (app : Builder R K H C) : List R := app.view 1 Component.asRouter

/-- The consumers with a task. -/
def scheduled (app : Builder R K H C) : List K :=
  app.schedulers.filterMap fun
    | .consumer k => some k
    | .other _ => none

/-- The handlers the client knows. -/
def registered (app : Builder R K H C) : List (String × H) := app.view 6 Component.asXxlClient

def addRouter (typeName : TypeId → String) (app : Builder R K H C) (router : R) :
    Except Panic (Builder R K H C) :=
  match app.getComponent (.concrete 0) with
  | some (.routers l) => .ok (app.put (.routers (l ++ [router])))
  | _ => app.add typeName (.routers [router])

def addConsumer (typeName : TypeId → String) (app : Builder R K H C) (newConsumers : List K) :
    Except Panic (Builder R K H C) :=
  match app.getComponent (.concrete 3) with
  | some (.consumers l) => .ok (app.put (.consumers (l ++ newConsumers)))
  | _ => app.add typeName (.consumers newConsumers)

def addXxlHandler (typeName : TypeId → String) (app : Builder R K H C) (name : String)
    (handler : H) : Except Panic (Builder R K H C) :=
  match app.getComponent (.concrete 5) with
  | some (.xxlHandlers l) => .ok (app.put (.xxlHandlers (l ++ [(name, handler)])))
  | _ => app.add typeName (.xxlHandlers [(name, handler)])

end Builder

namespace Application

variable {R K H C : Type}

def userPanic {α : Type} : Except String α → Except Panic α
  | .ok a => .ok a
  | .error text => .error (.user text)

def apply (env : Application R K H C) (app : Builder R K H C) :
    Call R K H → Except Panic (Builder R K H C)
  | .addRouter router => app.addRouter env.typeName router
  | .addConsumer consumers => app.addConsumer env.typeName consumers
  | .addXxlHandler name handler => app.addXxlHandler env.typeName name handler
  | .addComponent ty => app.add env.typeName (.other ty)
  | .addScheduler name => .ok (app.addScheduler (.other name))
  | .addShutdownHook name => .ok (app.addShutdownHook (.other name))

def applyAll (env : Application R K H C) (app : Builder R K H C) (calls : List (Call R K H)) :
    Except Panic (Builder R K H C) :=
  calls.foldlM env.apply app

def assembleRouter (env : Application R K H C) (app : Builder R K H C) :
    Except Panic (Builder R K H C) := do
  userPanic (env.webConfig app.config)
  let app ← app.add env.typeName (.router app.routers)
  if env.openapi then app.add env.typeName .openApiConfig else .ok app

def buildWeb (env : Application R K H C) (app : Builder R K H C) :
    Except Panic (Builder R K H C) := do
  let app ← env.assembleRouter app
  return app.addScheduler (.other "web")

/-- One turn of the loop over the consumers. -/
def startConsumer (env : Application R K H C) (app : Builder R K H C) (consumer : K) :
    Except Panic (Builder R K H C) := do
  userPanic (env.newInstance app.config consumer)
  return app.addScheduler (.consumer consumer)

def buildStream (env : Application R K H C) (app : Builder R K H C) :
    Except Panic (Builder R K H C) := do
  userPanic (env.streamer app.config)
  let app ← app.consumers.foldlM env.startConsumer app
  app.add env.typeName .producer

/-- One turn of the loop over the handlers: the client's handlers with one more. -/
def registerHandler (env : Application R K H C) (registered : List (String × H))
    (handler : String × H) : Except Panic (List (String × H)) := do
  userPanic (env.xxlRegister registered handler)
  return registered ++ [handler]

def buildXxlJob (env : Application R K H C) (app : Builder R K H C) :
    Except Panic (Builder R K H C) := do
  userPanic (env.xxlClient app.config)
  let registered ← app.xxlHandlers.foldlM env.registerHandler []
  let app ← app.add env.typeName (.xxlClient registered)
  return (app.addScheduler (.other "xxl-job")).addShutdownHook (.other "xxl-job")

/-- The calls of user code in the build of a plugin. -/
def callsIn (env : Application R K H C) (plugin : Plugin) (app : Builder R K H C) :
    List (Call R K H) :=
  if plugin = webPlugin ∨ plugin = streamPlugin ∨ plugin = xxlJobPlugin then []
  else env.calls plugin app

def build (env : Application R K H C) (plugin : Plugin) (app : Builder R K H C) :
    Except Panic (Builder R K H C) :=
  if plugin = webPlugin then env.buildWeb app
  else if plugin = streamPlugin then env.buildStream app
  else if plugin = xxlJobPlugin then env.buildXxlJob app
  else env.applyAll app (env.calls plugin app)

/-- The application as a program of the builder; nothing happens in its listeners. -/
def program (env : Application R K H C) (inventory : List Plugin) :
    Program (Component R K H) C (Task K) where
  typeName := env.typeName
  inventory := inventory
  build := env.build
  immediatelyBuild := env.build
  onConfigEvent := .ok
  logPlugin := .ok
  onPluginsBuilt := .ok

end Application

/-! ## What a step adds -/

/-- The lists of a builder after a step, each with what the step has added to it. -/
structure Changes {R K H C : Type} (app app' : Builder R K H C) (routers : List R)
    (consumers : List K) (handlers : List (String × H)) (served : List R) (scheduled : List K)
    (registered : List (String × H)) : Prop where
  routers : Builder.routers app' = Builder.routers app ++ routers
  consumers : Builder.consumers app' = Builder.consumers app ++ consumers
  handlers : Builder.xxlHandlers app' = Builder.xxlHandlers app ++ handlers
  served : Builder.served app' = Builder.served app ++ served
  scheduled : Builder.scheduled app' = Builder.scheduled app ++ scheduled
  registered : Builder.registered app' = Builder.registered app ++ registered

namespace Call

variable {R K H : Type}

def routers : Call R K H → List R
  | .addRouter router => [router]
  | _ => []

def consumers : Call R K H → List K
  | .addConsumer l => l
  | _ => []

def handlers : Call R K H → List (String × H)
  | .addXxlHandler name handler => [(name, handler)]
  | _ => []

end Call

section
variable {R K H C : Type}

theorem Changes.refl (app : Builder R K H C) : Changes app app [] [] [] [] [] [] := by
  constructor <;> rw [List.append_nil]

theorem Changes.trans {app app' app'' : Builder R K H C} {rs rs' ss ss' : List R}
    {ks ks' ts ts' : List K} {hs hs' gs gs' : List (String × H)}
    (h : Changes app app' rs ks hs ss ts gs) (h' : Changes app' app'' rs' ks' hs' ss' ts' gs') :
    Changes app app'' (rs ++ rs') (ks ++ ks') (hs ++ hs') (ss ++ ss') (ts ++ ts') (gs ++ gs') where
  routers := by rw [h'.routers, h.routers, List.append_assoc]
  consumers := by rw [h'.consumers, h.consumers, List.append_assoc]
  handlers := by rw [h'.handlers, h.handlers, List.append_assoc]
  served := by rw [h'.served, h.served, List.append_assoc]
  scheduled := by rw [h'.scheduled, h.scheduled, List.append_assoc]
  registered := by rw [h'.registered, h.registered, List.append_assoc]

namespace Builder

/-- A component written under its own type shows in the view of that type only. -/
theorem view_put {α : Type} {app : Builder R K H C} {c : Component R K H} {ty : ℕ}
    {pick : Component R K H → List α} {added : List α}
    (hself : c.typeId = .concrete ty → pick c = app.view ty pick ++ added)
    (hother : c.typeId ≠ .concrete ty → added = []) :
    (app.put c).view ty pick = app.view ty pick ++ added := by
  unfold view AppBuilder.getComponent put
  by_cases h : c.typeId = .concrete ty
  · rw [← h, AList.lookup_insert, h]
    exact hself h
  · rw [AList.lookup_insert_ne (Ne.symm h), hother h, List.append_nil]

theorem view_eq_nil {α : Type} {app : Builder R K H C} {ty : ℕ}
    {pick : Component R K H → List α} (h : ¬ app.hasComponent (.concrete ty)) :
    app.view ty pick = [] := by
  have hnone : app.getComponent (.concrete ty) = none := by
    rw [← Option.not_isSome_iff_eq_none, AppBuilder.getComponent_isSome]
    exact h
  unfold view
  rw [hnone]

theorem add_ok {typeName : TypeId → String} {app app' : Builder R K H C} {c : Component R K H}
    (h : app.add typeName c = .ok app') : ¬ app.hasComponent c.typeId ∧ app' = app.put c := by
  unfold add AppBuilder.addComponent at h
  by_cases hhas : app.hasComponent c.typeId
  · rw [if_pos hhas] at h
    cases h
  · rw [if_neg hhas, Except.ok.injEq] at h
    exact ⟨hhas, h.symm⟩

/-- Staging writes the component with the items at its end, whether it existed or not. -/
theorem addRouter_ok {typeName : TypeId → String} {app app' : Builder R K H C} {router : R}
    (h : app.addRouter typeName router = .ok app') :
    app' = app.put (.routers (app.routers ++ [router])) := by
  unfold addRouter at h
  split at h
  · next l hl =>
      have hrouters : app.routers = l := by
        unfold routers view
        rw [hl]
        rfl
      rw [hrouters]
      exact (Except.ok.inj h).symm
  · obtain ⟨hfree, rfl⟩ := add_ok h
    have hnil : app.routers = [] := view_eq_nil hfree
    rw [hnil, List.nil_append]

theorem addConsumer_ok {typeName : TypeId → String} {app app' : Builder R K H C}
    {newConsumers : List K} (h : app.addConsumer typeName newConsumers = .ok app') :
    app' = app.put (.consumers (app.consumers ++ newConsumers)) := by
  unfold addConsumer at h
  split at h
  · next l hl =>
      have hconsumers : app.consumers = l := by
        unfold consumers view
        rw [hl]
        rfl
      rw [hconsumers]
      exact (Except.ok.inj h).symm
  · obtain ⟨hfree, rfl⟩ := add_ok h
    have hnil : app.consumers = [] := view_eq_nil hfree
    rw [hnil, List.nil_append]

theorem addXxlHandler_ok {typeName : TypeId → String} {app app' : Builder R K H C} {name : String}
    {handler : H} (h : app.addXxlHandler typeName name handler = .ok app') :
    app' = app.put (.xxlHandlers (app.xxlHandlers ++ [(name, handler)])) := by
  unfold addXxlHandler at h
  split at h
  · next l hl =>
      have hhandlers : app.xxlHandlers = l := by
        unfold xxlHandlers view
        rw [hl]
        rfl
      rw [hhandlers]
      exact (Except.ok.inj h).symm
  · obtain ⟨hfree, rfl⟩ := add_ok h
    have hnil : app.xxlHandlers = [] := view_eq_nil hfree
    rw [hnil, List.nil_append]

end Builder

theorem changes_put_routers (app : Builder R K H C) (l : List R) :
    Changes app (app.put (.routers (app.routers ++ l))) l [] [] [] [] [] where
  routers := Builder.view_put (fun _ => rfl) (fun h => absurd rfl h)
  consumers := Builder.view_put nofun (fun _ => rfl)
  handlers := Builder.view_put nofun (fun _ => rfl)
  served := Builder.view_put nofun (fun _ => rfl)
  scheduled := (List.append_nil _).symm
  registered := Builder.view_put nofun (fun _ => rfl)

theorem changes_put_consumers (app : Builder R K H C) (l : List K) :
    Changes app (app.put (.consumers (app.consumers ++ l))) [] l [] [] [] [] where
  routers := Builder.view_put nofun (fun _ => rfl)
  consumers := Builder.view_put (fun _ => rfl) (fun h => absurd rfl h)
  handlers := Builder.view_put nofun (fun _ => rfl)
  served := Builder.view_put nofun (fun _ => rfl)
  scheduled := (List.append_nil _).symm
  registered := Builder.view_put nofun (fun _ => rfl)

theorem changes_put_xxlHandlers (app : Builder R K H C) (l : List (String × H)) :
    Changes app (app.put (.xxlHandlers (app.xxlHandlers ++ l))) [] [] l [] [] [] where
  routers := Builder.view_put nofun (fun _ => rfl)
  consumers := Builder.view_put nofun (fun _ => rfl)
  handlers := Builder.view_put (fun _ => rfl) (fun h => absurd rfl h)
  served := Builder.view_put nofun (fun _ => rfl)
  scheduled := (List.append_nil _).symm
  registered := Builder.view_put nofun (fun _ => rfl)

theorem changes_put_router (app : Builder R K H C) (l : List R) :
    Changes app (app.put (.router (app.served ++ l))) [] [] [] l [] [] where
  routers := Builder.view_put nofun (fun _ => rfl)
  consumers := Builder.view_put nofun (fun _ => rfl)
  handlers := Builder.view_put nofun (fun _ => rfl)
  served := Builder.view_put (fun _ => rfl) (fun h => absurd rfl h)
  scheduled := (List.append_nil _).symm
  registered := Builder.view_put nofun (fun _ => rfl)

theorem changes_put_xxlClient (app : Builder R K H C) (l : List (String × H)) :
    Changes app (app.put (.xxlClient (app.registered ++ l))) [] [] [] [] [] l where
  routers := Builder.view_put nofun (fun _ => rfl)
  consumers := Builder.view_put nofun (fun _ => rfl)
  handlers := Builder.view_put nofun (fun _ => rfl)
  served := Builder.view_put nofun (fun _ => rfl)
  scheduled := (List.append_nil _).symm
  registered := Builder.view_put (fun _ => rfl) (fun h => absurd rfl h)

/-- A component of a type that none of the lists is kept in. -/
theorem changes_put_other {app : Builder R K H C} {c : Component R K H}
    (h : ∀ ty, c.typeId = .concrete ty → ty ∉ [0, 1, 3, 5, 6]) :
    Changes app (app.put c) [] [] [] [] [] [] where
  routers := Builder.view_put (fun heq => absurd (by decide) (h 0 heq)) (fun _ => rfl)
  consumers := Builder.view_put (fun heq => absurd (by decide) (h 3 heq)) (fun _ => rfl)
  handlers := Builder.view_put (fun heq => absurd (by decide) (h 5 heq)) (fun _ => rfl)
  served := Builder.view_put (fun heq => absurd (by decide) (h 1 heq)) (fun _ => rfl)
  scheduled := (List.append_nil _).symm
  registered := Builder.view_put (fun heq => absurd (by decide) (h 6 heq)) (fun _ => rfl)

/-- A task of another kind than a consumer's, and a hook. -/
theorem changes_tasks {app app' : Builder R K H C} {l : List (Task K)}
    (hcomponents : app'.components = app.components)
    (htasks : app'.schedulers = app.schedulers ++ l) :
    Changes app app' [] [] [] [] (l.filterMap fun
      | .consumer k => some k
      | .other _ => none) [] := by
  have hview : ∀ {α : Type} (ty : ℕ) (pick : Component R K H → List α),
      Builder.view app' ty pick = Builder.view app ty pick ++ [] := by
    intro α ty pick
    unfold Builder.view AppBuilder.getComponent
    rw [hcomponents, List.append_nil]
  refine ⟨hview _ _, hview _ _, hview _ _, hview _ _, ?_, hview _ _⟩
  unfold Builder.scheduled
  rw [htasks, List.filterMap_append]

namespace Application

theorem changes_apply {env : Application R K H C} {app app' : Builder R K H C}
    {call : Call R K H} (h : env.apply app call = .ok app') :
    Changes app app' call.routers call.consumers call.handlers [] [] [] := by
  cases call with
  | addRouter router =>
      rw [Builder.addRouter_ok h]
      exact changes_put_routers app [router]
  | addConsumer l =>
      rw [Builder.addConsumer_ok h]
      exact changes_put_consumers app l
  | addXxlHandler name handler =>
      rw [Builder.addXxlHandler_ok h]
      exact changes_put_xxlHandlers app [(name, handler)]
  | addComponent ty =>
      rw [(Builder.add_ok h).2]
      apply changes_put_other
      intro n heq hn
      have hty : ty + 7 = n := TypeId.concrete.inj heq
      simp only [List.mem_cons, List.not_mem_nil, or_false] at hn
      omega
  | addScheduler name =>
      cases h
      exact @changes_tasks R K H C app (app.addScheduler (.other name)) [.other name] rfl rfl
  | addShutdownHook name =>
      cases h
      exact @changes_tasks R K H C app (app.addShutdownHook (.other name)) [] rfl
        (List.append_nil _).symm

theorem changes_applyAll {env : Application R K H C} {app app' : Builder R K H C}
    {calls : List (Call R K H)} (h : env.applyAll app calls = .ok app') :
    Changes app app' (calls.flatMap Call.routers) (calls.flatMap Call.consumers)
      (calls.flatMap Call.handlers) [] [] [] := by
  induction calls generalizing app with
  | nil =>
      cases h
      exact .refl _
  | cons call rest ih =>
      rw [applyAll, List.foldlM_cons, bind_ok] at h
      obtain ⟨mid, hcall, hrest⟩ := h
      exact (changes_apply hcall).trans (ih hrest)

theorem changes_assembleRouter {env : Application R K H C} {app app' : Builder R K H C}
    (h : env.assembleRouter app = .ok app') : Changes app app' [] [] [] app.routers [] [] := by
  unfold assembleRouter at h
  obtain ⟨_, _, h⟩ := bind_ok.mp h
  obtain ⟨mid, hrouter, h⟩ := bind_ok.mp h
  obtain ⟨hfree, rfl⟩ := Builder.add_ok hrouter
  have hnil : app.served = [] := Builder.view_eq_nil hfree
  have hmid := changes_put_router app app.routers
  rw [hnil, List.nil_append] at hmid
  cases hopenapi : env.openapi with
  | false =>
      rw [hopenapi] at h
      cases h
      exact hmid
  | true =>
      rw [hopenapi] at h
      obtain ⟨_, rfl⟩ := Builder.add_ok h
      have hconfig := hmid.trans (@changes_put_other R K H C _ .openApiConfig fun ty heq => by
        cases heq
        decide)
      simp only [List.append_nil] at hconfig
      exact hconfig

/-- The build of `WebPlugin` serves the routers staged by then. -/
theorem changes_buildWeb {env : Application R K H C} {app app' : Builder R K H C}
    (h : env.buildWeb app = .ok app') : Changes app app' [] [] [] app.routers [] [] := by
  unfold buildWeb at h
  obtain ⟨mid, hrouter, h⟩ := bind_ok.mp h
  cases h
  have htask := @changes_tasks R K H C mid (mid.addScheduler (.other "web")) [.other "web"] rfl rfl
  have hall := (changes_assembleRouter hrouter).trans htask
  simp only [List.append_nil] at hall
  exact hall

theorem changes_startConsumers {env : Application R K H C} {app app' : Builder R K H C}
    {l : List K} (h : l.foldlM env.startConsumer app = .ok app') :
    Changes app app' [] [] [] [] l [] := by
  induction l generalizing app with
  | nil =>
      cases h
      exact .refl _
  | cons k rest ih =>
      rw [List.foldlM_cons, bind_ok] at h
      obtain ⟨mid, hone, hrest⟩ := h
      unfold startConsumer at hone
      obtain ⟨_, _, hone⟩ := bind_ok.mp hone
      cases hone
      exact (@changes_tasks R K H C app (app.addScheduler (.consumer k)) [.consumer k] rfl
        rfl).trans (ih hrest)

/-- The build of `StreamPlugin` schedules the consumers staged by then. -/
theorem changes_buildStream {env : Application R K H C} {app app' : Builder R K H C}
    (h : env.buildStream app = .ok app') : Changes app app' [] [] [] [] app.consumers [] := by
  unfold buildStream at h
  obtain ⟨_, _, h⟩ := bind_ok.mp h
  obtain ⟨mid, hconsumers, h⟩ := bind_ok.mp h
  obtain ⟨_, rfl⟩ := Builder.add_ok h
  have hall := (changes_startConsumers hconsumers).trans
    (@changes_put_other R K H C _ .producer fun ty heq => by
      cases heq
      decide)
  simp only [List.append_nil] at hall
  exact hall

theorem registerHandlers_ok {env : Application R K H C} {l registered out : List (String × H)}
    (h : l.foldlM env.registerHandler registered = .ok out) : out = registered ++ l := by
  induction l generalizing registered with
  | nil =>
      cases h
      rw [List.append_nil]
  | cons handler rest ih =>
      rw [List.foldlM_cons, bind_ok] at h
      obtain ⟨mid, hone, hrest⟩ := h
      unfold registerHandler at hone
      obtain ⟨_, _, hone⟩ := bind_ok.mp hone
      cases hone
      rw [ih hrest, List.append_assoc, List.singleton_append]

/-- The build of `XxlJobPlugin` registers the handlers staged by then. -/
theorem changes_buildXxlJob {env : Application R K H C} {app app' : Builder R K H C}
    (h : env.buildXxlJob app = .ok app') : Changes app app' [] [] [] [] [] app.xxlHandlers := by
  unfold buildXxlJob at h
  obtain ⟨_, _, h⟩ := bind_ok.mp h
  obtain ⟨registered, hhandlers, h⟩ := bind_ok.mp h
  obtain ⟨mid, hclient, h⟩ := bind_ok.mp h
  obtain rfl : registered = app.xxlHandlers := registerHandlers_ok hhandlers
  obtain ⟨hfree, rfl⟩ := Builder.add_ok hclient
  cases h
  have hnil : app.registered = [] := Builder.view_eq_nil hfree
  have hmid := changes_put_xxlClient app app.xxlHandlers
  rw [hnil, List.nil_append] at hmid
  have htask := @changes_tasks R K H C (app.put (.xxlClient app.xxlHandlers))
    (((app.put (.xxlClient app.xxlHandlers)).addScheduler (.other "xxl-job")).addShutdownHook
      (.other "xxl-job")) [.other "xxl-job"] rfl rfl
  have hall := hmid.trans htask
  simp only [List.append_nil] at hall
  exact hall

end Application

end

end Summer
