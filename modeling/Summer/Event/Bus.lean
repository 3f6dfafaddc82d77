/-
The event bus (`summer/src/event.rs`).

A publish clones the listeners of its event type before it calls the first of them, and the
bus is shared by all its clones: while a listener runs, it and everything else may register
listeners and publish further events.  The system below lets any of this happen between any
two steps of a publish, so a listener that calls back into the bus is one of its runs.
-/
import Mathlib.Data.List.Infix
import Summer.Lib.Run

namespace Summer.Event

/-- `Arc<dyn Any>`: a value together with its type. -/
structure AnyEvent {T : Type} (V : T → Type) where
  type : T
  value : V type

inductive Phase
  | builder
  | app
deriving DecidableEq, Repr

/-- `TypedBuilderListener` and `TypedAppListener`, or a listener that was passed in erased.
A `body` is what the listener itself does. -/
inductive Listener (T B : Type)
  | typed (E : T) (body : B)
  | erased (body : B)

/-- What the body of a listener is called with. -/
inductive Call {T : Type} (V : T → Type) (B : Type)
  | typed (E : T) (event : V E) (body : B)
  | erased (event : AnyEvent V) (body : B)

variable {T : Type} [DecidableEq T] {V : T → Type} {B X : Type}

def AnyEvent.downcast (event : AnyEvent V) (E : T) : Option (V E) :=
  if h : event.type = E then some (h ▸ event.value) else none

/-- `none` is the panic of "event listener received unexpected event type". -/
def Listener.onEvent (event : AnyEvent V) : Listener T B → Option (Call V B)
  | .typed E body => (event.downcast E).map fun value => .typed E value body
  | .erased body => some (.erased event body)

/-! ## The bus -/

structure EventBus (T B : Type) where
  builderListeners : T → List (Listener T B)
  appListeners : T → List (Listener T B)

namespace EventBus

def default : EventBus T B where
  builderListeners := fun _ => []
  appListeners := fun _ => []

/-- `entry(TypeId::of::<E>()).or_default().push(listener)`. -/
def push (table : T → List (Listener T B)) (E : T) (listener : Listener T B) :
    T → List (Listener T B) :=
  fun E' => if E' = E then table E' ++ [listener] else table E'

def listenDyn (bus : EventBus T B) (E : T) (listener : Listener T B) : EventBus T B :=
  { bus with builderListeners := push bus.builderListeners E listener }

def listenAppDyn (bus : EventBus T B) (E : T) (listener : Listener T B) : EventBus T B :=
  { bus with appListeners := push bus.appListeners E listener }

def listen (bus : EventBus T B) (E : T) (body : B) : EventBus T B :=
  { bus with builderListeners := push bus.builderListeners E (.typed E body) }

def listenApp (bus : EventBus T B) (E : T) (body : B) : EventBus T B :=
  { bus with appListeners := push bus.appListeners E (.typed E body) }

/-- What `publish_builder` and `publish_app` clone. -/
def listeners (bus : EventBus T B) : Phase → T → List (Listener T B)
  | .builder, E => bus.builderListeners E
  | .app, E => bus.appListeners E

end EventBus

/-! ## A publish -/

/-- How the call of a listener ends; `X` is the type of errors. -/
inductive Outcome (X : Type)
  | ok
  | err (e : X)
  | panic

/-- Where a publish is: at the head of its loop, in the call of a listener, or through. -/
inductive Progress (T B X : Type)
  | ready (rest : List (Listener T B))
  | calling (rest : List (Listener T B))
  | returned (result : Except X Unit)
  | unexpectedType
  | unwound

structure Dispatch {T : Type} (V : T → Type) (B X : Type) where
  phase : Phase
  event : AnyEvent V
  progress : Progress T B X
  called : List (Call V B)
  results : List (Except X Unit)

namespace Dispatch

def start (phase : Phase) (event : AnyEvent V) (listeners : List (Listener T B)) :
    Dispatch V B X where
  phase := phase
  event := event
  progress := .ready listeners
  called := []
  results := []

/-- One turn at the head of the loop. -/
def advance (d : Dispatch V B X) : Option (Dispatch V B X) :=
  match d.progress with
  | .ready [] => some { d with progress := .returned (.ok ()) }
  | .ready (listener :: rest) =>
    match listener.onEvent d.event with
    | some call => some { d with progress := .calling rest, called := d.called ++ [call] }
    | none => some { d with progress := .unexpectedType }
  | _ => none

/-- `listener.on_event(..).await?` is through. -/
def listenerReturned (d : Dispatch V B X) (outcome : Outcome X) : Option (Dispatch V B X) :=
  match d.progress with
  | .calling rest =>
    match outcome with
    | .ok => some { d with progress := .ready rest, results := d.results ++ [.ok ()] }
    | .err e => some { d with progress := .returned (.error e), results := d.results ++ [.error e] }
    | .panic => some { d with progress := .unwound }
  | _ => none

end Dispatch

/-! ## Everything that uses the bus -/

structure State {T : Type} (V : T → Type) (B X : Type) where
  bus : EventBus T B
  dispatches : List (Dispatch V B X)

def State.init : State V B X where
  bus := .default
  dispatches := []

/-- `advance` and `listenerReturned` are steps of the publish that was started as the
`i`-th. -/
inductive Act {T : Type} (V : T → Type) (B X : Type)
  | listenDyn (E : T) (body : B)
  | listenAppDyn (E : T) (body : B)
  | listen (E : T) (body : B)
  | listenApp (E : T) (body : B)
  | publish (phase : Phase) (event : AnyEvent V)
  | advance (i : Nat)
  | listenerReturned (i : Nat) (outcome : Outcome X)

/-- A step of one publish leaves the bus and the other publishes alone. -/
def State.onDispatch (s : State V B X) (i : Nat)
    (f : Dispatch V B X → Option (Dispatch V B X)) : Option (State V B X) :=
  match s.dispatches[i]? with
  | none => none
  | some d => (f d).map fun d' => { s with dispatches := s.dispatches.set i d' }

def step (s : State V B X) : Act V B X → Option (State V B X)
  | .listenDyn E body => some { s with bus := s.bus.listenDyn E (.erased body) }
  | .listenAppDyn E body => some { s with bus := s.bus.listenAppDyn E (.erased body) }
  | .listen E body => some { s with bus := s.bus.listen E body }
  | .listenApp E body => some { s with bus := s.bus.listenApp E body }
  | .publish phase event =>
    some { s with
      dispatches := s.dispatches ++ [.start phase event (s.bus.listeners phase event.type)] }
  | .advance i => s.onDispatch i Dispatch.advance
  | .listenerReturned i outcome => s.onDispatch i fun d => d.listenerReturned outcome

def Step (s : State V B X) (a : Act V B X) (t : State V B X) : Prop := step s a = some t

/-! ## What a publish is for -/

/-- The listener that an action registers for a phase and a type. -/
def Act.registers (phase : Phase) (E : T) : Act V B X → Option (Listener T B)
  | .listenDyn E' body => if phase = .builder ∧ E' = E then some (.erased body) else none
  | .listenAppDyn E' body => if phase = .app ∧ E' = E then some (.erased body) else none
  | .listen E' body => if phase = .builder ∧ E' = E then some (.typed E' body) else none
  | .listenApp E' body => if phase = .app ∧ E' = E then some (.typed E' body) else none
  | .publish _ _ => none
  | .advance _ => none
  | .listenerReturned _ _ => none

/-- The listeners registered for a phase and a type, in the order of registration. -/
def registered (phase : Phase) (E : T) (acts : List (Act V B X)) : List (Listener T B) :=
  acts.filterMap (Act.registers phase E)

def Act.isPublish : Act V B X → Bool
  | .publish _ _ => true
  | _ => false

/-- A publish calls the listeners one after the other, goes on only after `Ok`, and returns
`Ok` after the last one or else the first `Err`.  While it has not returned, it can go on. -/
structure Dispatched (calls : List (Call V B)) (d : Dispatch V B X) : Prop where
  in_order : d.called <+: calls
  after_ok : ∀ before call, d.called = before ++ [call] →
    d.results.take before.length = before.map fun _ => .ok ()
  returned_ok : d.progress = .returned (.ok ()) →
    d.called = calls ∧ d.results = calls.map fun _ => .ok ()
  returned_error : ∀ e, d.progress = .returned (.error e) →
    ∃ before call, d.called = before ++ [call] ∧
      d.results = (before.map fun _ => .ok ()) ++ [.error e]
  stops : ∀ e, .error e ∈ d.results → d.progress = .returned (.error e)
  expected_type : d.progress ≠ .unexpectedType
  goes_on : ∀ rest, d.progress = .ready rest → ∃ d', d.advance = some d' ∧
    (d'.progress = .returned (.ok ()) ∨ ∃ rest', d'.progress = .calling rest')

/-! ## The listeners of a type -/

theorem AnyEvent.downcast_self (event : AnyEvent V) :
    event.downcast event.type = some event.value := by
  simp [downcast]

theorem push_self (table : T → List (Listener T B)) (E : T) (listener : Listener T B) (E' : T) :
    EventBus.push table E listener E' = table E' ++ if E = E' then [listener] else [] := by
  unfold EventBus.push
  by_cases h : E' = E
  · simp [h]
  · simp [h, Ne.symm h]

/-- A listener that `listen` or `listen_app` registered for the type of an event gets the
event as a value of its own type. -/
theorem onEvent_of_registers {phase : Phase} {event : AnyEvent V} {a : Act V B X}
    {listener : Listener T B} (h : a.registers phase event.type = some listener) :
    ∃ call, listener.onEvent event = some call := by
  have htyped : ∀ E body, E = event.type →
      ∃ call, Listener.onEvent event (.typed E body : Listener T B) = some call := by
    intro E body hE
    subst hE
    exact ⟨.typed event.type event.value body, by rw [Listener.onEvent, event.downcast_self]; rfl⟩
  cases a with
  | listenDyn E body =>
      obtain ⟨_, hl⟩ := Option.ite_none_right_eq_some.mp h
      cases hl
      exact ⟨_, rfl⟩
  | listenAppDyn E body =>
      obtain ⟨_, hl⟩ := Option.ite_none_right_eq_some.mp h
      cases hl
      exact ⟨_, rfl⟩
  | listen E body =>
      obtain ⟨⟨_, hE⟩, hl⟩ := Option.ite_none_right_eq_some.mp h
      cases hl
      exact htyped E body hE
  | listenApp E body =>
      obtain ⟨⟨_, hE⟩, hl⟩ := Option.ite_none_right_eq_some.mp h
      cases hl
      exact htyped E body hE
  | publish _ _ => cases h
  | advance _ => cases h
  | listenerReturned _ _ => cases h

theorem exists_calls {event : AnyEvent V} {listeners : List (Listener T B)}
    (h : ∀ listener ∈ listeners, ∃ call, listener.onEvent event = some call) :
    ∃ calls : List (Call V B), listeners.map (Listener.onEvent event) = calls.map some := by
  induction listeners with
  | nil => exact ⟨[], rfl⟩
  | cons listener rest ih =>
      obtain ⟨call, hcall⟩ := h listener List.mem_cons_self
      obtain ⟨calls, hcalls⟩ := ih fun l hl => h l (List.mem_cons_of_mem _ hl)
      exact ⟨call :: calls, by rw [List.map_cons, hcall, hcalls, List.map_cons]⟩

theorem registered_calls (phase : Phase) (event : AnyEvent V) (acts : List (Act V B X)) :
    ∃ calls : List (Call V B),
      (registered phase event.type acts).map (Listener.onEvent event) = calls.map some := by
  apply exists_calls
  intro listener hlistener
  obtain ⟨a, _, ha⟩ := List.mem_filterMap.mp hlistener
  exact onEvent_of_registers ha

/-! ## What one step does -/

section
variable {s t : State V B X} {a : Act V B X}

omit [DecidableEq T] in
theorem onDispatch_some {i : Nat} {f : Dispatch V B X → Option (Dispatch V B X)}
    (h : s.onDispatch i f = some t) :
    t.bus = s.bus ∧ ∃ d d', f d = some d' ∧ s.dispatches[i]? = some d ∧
      t.dispatches = s.dispatches.set i d' := by
  unfold State.onDispatch at h
  cases hd : s.dispatches[i]? with
  | none =>
      rw [hd] at h
      cases h
  | some d =>
      rw [hd] at h
      obtain ⟨d', hd', rfl⟩ := Option.map_eq_some_iff.mp h
      exact ⟨rfl, d, d', hd', rfl, rfl⟩

theorem step_listeners (h : Step s a t) (phase : Phase) (E : T) :
    t.bus.listeners phase E = s.bus.listeners phase E ++ (a.registers phase E).toList := by
  cases a with
  | listenDyn E' body =>
      cases h
      cases phase <;>
        simp only [EventBus.listeners, EventBus.listenDyn, Act.registers, push_self] <;> grind
  | listenAppDyn E' body =>
      cases h
      cases phase <;>
        simp only [EventBus.listeners, EventBus.listenAppDyn, Act.registers, push_self] <;> grind
  | listen E' body =>
      cases h
      cases phase <;>
        simp only [EventBus.listeners, EventBus.listen, Act.registers, push_self] <;> grind
  | listenApp E' body =>
      cases h
      cases phase <;>
        simp only [EventBus.listeners, EventBus.listenApp, Act.registers, push_self] <;> grind
  | publish _ _ =>
      cases h
      simp [Act.registers]
  | advance i =>
      have hbus := (onDispatch_some h).1
      simp [hbus, Act.registers]
  | listenerReturned i outcome =>
      have hbus := (onDispatch_some h).1
      simp [hbus, Act.registers]

/-- A step starts a publish, or is a step of one of them, or leaves them all alone. -/
theorem step_dispatches (h : Step s a t) :
    (∃ phase event, a = .publish phase event ∧
        t.dispatches = s.dispatches ++ [.start phase event (s.bus.listeners phase event.type)]) ∨
      a.isPublish = false ∧ (t.dispatches = s.dispatches ∨ ∃ i d d',
        (d.advance = some d' ∨ ∃ outcome, d.listenerReturned outcome = some d') ∧
          s.dispatches[i]? = some d ∧ t.dispatches = s.dispatches.set i d') := by
  cases a with
  | publish phase event =>
      cases h
      exact .inl ⟨phase, event, rfl, rfl⟩
  | advance i =>
      obtain ⟨_, d, d', hd', hd, ht⟩ := onDispatch_some h
      exact .inr ⟨rfl, .inr ⟨i, d, d', .inl hd', hd, ht⟩⟩
  | listenerReturned i outcome =>
      obtain ⟨_, d, d', hd', hd, ht⟩ := onDispatch_some h
      exact .inr ⟨rfl, .inr ⟨i, d, d', .inr ⟨outcome, hd'⟩, hd, ht⟩⟩
  | _ =>
      cases h
      exact .inr ⟨rfl, .inl rfl⟩

end

/-! ## One publish -/

/-- The calls made and the calls to come are those of the snapshot. -/
def Follows (calls : List (Call V B)) (d : Dispatch V B X) : Prop :=
  match d.progress with
  | .ready rest => ∃ later, calls = d.called ++ later ∧
      rest.map (Listener.onEvent d.event) = later.map some ∧
      d.results = d.called.map fun _ => .ok ()
  | .calling rest => ∃ before call later, d.called = before ++ [call] ∧
      calls = d.called ++ later ∧ rest.map (Listener.onEvent d.event) = later.map some ∧
      d.results = before.map fun _ => .ok ()
  | .returned (.ok ()) => d.called = calls ∧ d.results = calls.map fun _ => .ok ()
  | .returned (.error e) => ∃ before call later, d.called = before ++ [call] ∧
      calls = d.called ++ later ∧ d.results = (before.map fun _ => .ok ()) ++ [.error e]
  | .unexpectedType => False
  | .unwound => ∃ before call later, d.called = before ++ [call] ∧ calls = d.called ++ later ∧
      d.results = before.map fun _ => .ok ()

section
variable {calls : List (Call V B)} {d d' : Dispatch V B X}

theorem follows_start {phase : Phase} {event : AnyEvent V} {listeners : List (Listener T B)}
    (h : listeners.map (Listener.onEvent event) = calls.map some) :
    Follows calls (.start phase event listeners : Dispatch V B X) :=
  ⟨calls, rfl, h, rfl⟩

theorem follows_advance (h : d.advance = some d') (hd : Follows calls d) :
    Follows calls d' ∧ d'.phase = d.phase ∧ d'.event = d.event := by
  cases d with
  | mk phase event progress called results =>
      cases progress with
      | ready rest =>
          obtain ⟨later, hcalls, hlater, hresults⟩ := hd
          cases rest with
          | nil =>
              cases h
              obtain rfl : later = [] := List.map_eq_nil_iff.mp hlater.symm
              rw [List.append_nil] at hcalls
              exact ⟨⟨hcalls.symm, hcalls ▸ hresults⟩, rfl, rfl⟩
          | cons listener rest =>
              cases later with
              | nil => cases hlater
              | cons call later =>
                  rw [List.map_cons, List.map_cons] at hlater
                  obtain ⟨hcall, hrest⟩ := List.cons.inj hlater
                  simp only [Dispatch.advance] at h
                  rw [hcall] at h
                  cases h
                  have hcalls' : calls = (called ++ [call]) ++ later := by
                    rw [hcalls, List.append_assoc]
                    rfl
                  exact ⟨⟨called, call, later, rfl, hcalls', hrest, hresults⟩, rfl, rfl⟩
      | _ => cases h

omit [DecidableEq T] in
theorem listenerReturned_eq {rest : List (Listener T B)} {outcome : Outcome X}
    (hd : d.progress = .calling rest) :
    d.listenerReturned outcome = some (match outcome with
      | .ok => { d with progress := .ready rest, results := d.results ++ [.ok ()] }
      | .err e => { d with progress := .returned (.error e), results := d.results ++ [.error e] }
      | .panic => { d with progress := .unwound }) := by
  unfold Dispatch.listenerReturned
  rw [hd]
  cases outcome <;> rfl

theorem follows_listenerReturned {outcome : Outcome X} (h : d.listenerReturned outcome = some d')
    (hd : Follows calls d) : Follows calls d' ∧ d'.phase = d.phase ∧ d'.event = d.event := by
  cases d with
  | mk phase event progress called results =>
      cases progress with
      | calling rest =>
          obtain ⟨before, call, later, hcalled, hcalls, hlater, hresults⟩ := hd
          rw [listenerReturned_eq rfl] at h
          cases outcome with
          | ok =>
              cases h
              obtain rfl : called = before ++ [call] := hcalled
              obtain rfl : results = before.map fun _ => .ok () := hresults
              exact ⟨⟨later, hcalls, hlater, by rw [List.map_append]; rfl⟩, rfl, rfl⟩
          | err e =>
              cases h
              obtain rfl : results = before.map fun _ => .ok () := hresults
              exact ⟨⟨before, call, later, hcalled, hcalls, rfl⟩, rfl, rfl⟩
          | panic =>
              cases h
              exact ⟨⟨before, call, later, hcalled, hcalls, hresults⟩, rfl, rfl⟩
      | _ => cases h

theorem Follows.called_append (h : Follows calls d) : ∃ later, calls = d.called ++ later := by
  unfold Follows at h
  split at h
  · obtain ⟨later, hcalls, _⟩ := h
    exact ⟨later, hcalls⟩
  · obtain ⟨_, _, later, _, hcalls, _⟩ := h
    exact ⟨later, hcalls⟩
  · exact ⟨[], by rw [h.1, List.append_nil]⟩
  · obtain ⟨_, _, later, _, hcalls, _⟩ := h
    exact ⟨later, hcalls⟩
  · exact h.elim
  · obtain ⟨_, _, later, _, hcalls, _⟩ := h
    exact ⟨later, hcalls⟩

/-- Every listener but perhaps the last one called returned `Ok`, and an `Err` of the last one
is what the publish returned. -/
theorem Follows.results_shape (h : Follows calls d) :
    (d.results = d.called.map fun _ => .ok ()) ∨
      ∃ before call more, d.called = before ++ [call] ∧
        d.results = (before.map fun _ => .ok ()) ++ more ∧
        ∀ e, .error e ∈ more → d.progress = .returned (.error e) := by
  unfold Follows at h
  split at h
  · obtain ⟨_, _, _, hresults⟩ := h
    exact .inl hresults
  · obtain ⟨before, call, _, hcalled, _, _, hresults⟩ := h
    exact .inr ⟨before, call, [], hcalled, by rw [hresults, List.append_nil], by simp⟩
  · exact .inl (by rw [h.2, h.1])
  · next e hprogress =>
      obtain ⟨before, call, _, hcalled, _, hresults⟩ := h
      refine .inr ⟨before, call, _, hcalled, hresults, ?_⟩
      intro e' he'
      obtain rfl : e' = e := by simpa using he'
      exact hprogress
  · exact h.elim
  · obtain ⟨before, call, _, hcalled, _, hresults⟩ := h
    exact .inr ⟨before, call, [], hcalled, by rw [hresults, List.append_nil], by simp⟩

theorem Follows.after_ok (h : Follows calls d) {before : List (Call V B)} {call : Call V B}
    (hcalled : d.called = before ++ [call]) :
    d.results.take before.length = before.map fun _ => .ok () := by
  rcases h.results_shape with hresults | ⟨before', call', more, hcalled', hresults, _⟩
  · rw [hresults, hcalled, List.map_append, List.take_append_of_le_length (by simp)]
    simp
  · obtain ⟨rfl, _⟩ := List.append_inj' (hcalled.symm.trans hcalled') rfl
    rw [hresults, List.take_append_of_le_length (by simp)]
    simp

theorem Follows.stops (h : Follows calls d) {e : X} (he : .error e ∈ d.results) :
    d.progress = .returned (.error e) := by
  rcases h.results_shape with hresults | ⟨before, _, more, _, hresults, hmore⟩
  · rw [hresults] at he
    simp at he
  · rw [hresults] at he
    rcases List.mem_append.mp he with hbefore | he
    · simp at hbefore
    · exact hmore e he

/-- At the head of its loop a publish calls the next listener or returns. -/
theorem Follows.goes_on (h : Follows calls d) {rest : List (Listener T B)}
    (hready : d.progress = .ready rest) : ∃ d', d.advance = some d' ∧
      (d'.progress = .returned (.ok ()) ∨ ∃ rest', d'.progress = .calling rest') := by
  unfold Follows at h
  rw [hready] at h
  obtain ⟨later, _, hlater, _⟩ := h
  unfold Dispatch.advance
  rw [hready]
  cases rest with
  | nil => exact ⟨_, rfl, .inl rfl⟩
  | cons listener rest =>
      cases later with
      | nil => cases hlater
      | cons call later =>
          have hcall : listener.onEvent d.event = some call := (List.cons.inj hlater).1
          simp only [hcall]
          exact ⟨_, rfl, .inr ⟨rest, rfl⟩⟩

theorem dispatched_of_follows (h : Follows calls d) : Dispatched calls d where
  in_order := by
    obtain ⟨later, hcalls⟩ := h.called_append
    exact ⟨later, hcalls.symm⟩
  after_ok := fun _ _ hcalled => h.after_ok hcalled
  returned_ok := by
    intro hprogress
    unfold Follows at h
    rw [hprogress] at h
    exact h
  returned_error := by
    intro e hprogress
    unfold Follows at h
    rw [hprogress] at h
    obtain ⟨before, call, _, hcalled, _, hresults⟩ := h
    exact ⟨before, call, hcalled, hresults⟩
  stops := fun _ he => h.stops he
  expected_type := by
    intro hprogress
    unfold Follows at h
    rw [hprogress] at h
    exact h
  goes_on := fun _ hready => h.goes_on hready

end

/-! ## Every publish of a run -/

section
variable {s t : State V B X} {acts : List (Act V B X)}

theorem run_listeners (h : Run Step s acts t) (phase : Phase) (E : T) :
    t.bus.listeners phase E = s.bus.listeners phase E ++ registered phase E acts := by
  induction h with
  | nil s => exact (List.append_nil _).symm
  | @cons s u t a acts hstep _ ih =>
      have hcons : registered phase E (a :: acts) =
          (a.registers phase E).toList ++ registered phase E acts := by
        unfold registered
        cases ha : a.registers phase E with
        | none => rw [List.filterMap_cons_none ha]; rfl
        | some listener => rw [List.filterMap_cons_some ha]; rfl
      rw [ih, step_listeners hstep, hcons, List.append_assoc]

theorem run_dispatches_length (h : Run Step s acts t) :
    t.dispatches.length = s.dispatches.length + acts.countP Act.isPublish := by
  induction h with
  | nil s => rfl
  | @cons s u t a acts hstep _ ih =>
      rw [ih, List.countP_cons]
      rcases step_dispatches hstep with ⟨phase, event, rfl, hu⟩ | ⟨hpublish, hu⟩
      · rw [hu, List.length_append]
        simp [Act.isPublish]
        omega
      · have hlength : u.dispatches.length = s.dispatches.length := by
          rcases hu with hu | ⟨_, _, _, _, _, hu⟩
          · rw [hu]
          · rw [hu, List.length_set]
        rw [hlength, hpublish]
        rfl

/-- The publish that was started as the `i`-th one follows its snapshot. -/
def Tracks (i : Nat) (phase : Phase) (event : AnyEvent V) (calls : List (Call V B))
    (s : State V B X) : Prop :=
  ∃ d, s.dispatches[i]? = some d ∧ d.phase = phase ∧ d.event = event ∧ Follows calls d

theorem step_tracks {a : Act V B X} {i : Nat} {phase : Phase} {event : AnyEvent V}
    {calls : List (Call V B)} (h : Step s a t) (hs : Tracks i phase event calls s) :
    Tracks i phase event calls t := by
  obtain ⟨d, hd, hphase, hevent, hfollows⟩ := hs
  rcases step_dispatches h with ⟨_, _, _, ht⟩ | ⟨_, ht | ⟨j, e, e', hstep, he, ht⟩⟩
  · have hi : i < s.dispatches.length := (List.getElem?_eq_some_iff.mp hd).1
    refine ⟨d, ?_, hphase, hevent, hfollows⟩
    rw [ht, List.getElem?_append_left hi, hd]
  · exact ⟨d, by rw [ht, hd], hphase, hevent, hfollows⟩
  · by_cases hij : j = i
    · subst hij
      obtain rfl : e = d := Option.some.inj (he.symm.trans hd)
      have hnext : Follows calls e' ∧ e'.phase = e.phase ∧ e'.event = e.event := by
        rcases hstep with hstep | ⟨outcome, hstep⟩
        · exact follows_advance hstep hfollows
        · exact follows_listenerReturned hstep hfollows
      have hj : j < s.dispatches.length := (List.getElem?_eq_some_iff.mp hd).1
      refine ⟨e', ?_, hnext.2.1.trans hphase, hnext.2.2.trans hevent, hnext.1⟩
      rw [ht, List.getElem?_set_self hj]
    · exact ⟨d, by rw [ht, List.getElem?_set_ne hij, hd], hphase, hevent, hfollows⟩

/-- Every publish calls the listeners that were registered for its phase and its type before
it started, in this order and up to the first `Err`, whatever is registered and published in
between; each gets the event as a value of its own type. -/
theorem publish_dispatches {before after : List (Act V B X)} {phase : Phase} {event : AnyEvent V}
    (h : Run Step State.init (before ++ .publish phase event :: after) t) :
    ∃ calls d, (registered phase event.type before).map (Listener.onEvent event) =
        calls.map some ∧
      t.dispatches[before.countP Act.isPublish]? = some d ∧
      d.phase = phase ∧ d.event = event ∧ Dispatched calls d := by
  obtain ⟨u, v, hbefore, hpublish, hafter⟩ := h.split
  obtain ⟨calls, hcalls⟩ := registered_calls phase event before
  have hlisteners : u.bus.listeners phase event.type = registered phase event.type before := by
    rw [run_listeners hbefore]
    cases phase <;> rfl
  have hindex : u.dispatches.length = before.countP Act.isPublish := by
    rw [run_dispatches_length hbefore]
    exact Nat.zero_add _
  have hstart : Tracks (before.countP Act.isPublish) phase event calls v := by
    cases hpublish
    refine ⟨_, ?_, rfl, rfl, follows_start (hlisteners ▸ hcalls)⟩
    rw [← hindex]
    exact List.getElem?_concat_length
  have hend : Tracks (before.countP Act.isPublish) phase event calls t :=
    hafter.invariant (I := Tracks (before.countP Act.isPublish) phase event calls)
      (fun _ _ _ hstep => step_tracks hstep) hstart
  obtain ⟨d, hd, hphase, hevent, hfollows⟩ := hend
  exact ⟨calls, d, hcalls, hd, hphase, hevent, dispatched_of_follows hfollows⟩

end

namespace Sample

def Value : Bool → Type
  | true => Nat
  | false => Unit

def event : AnyEvent Value where
  type := true
  value := (3 : Nat)

/-- What has happened when the publish starts. -/
def before : List (Act Value String String) :=
  [.listen true "first", .listen false "other", .listenApp true "running", .listen true "second"]

/-- The first listener registers another one for the same type and publishes an event of the
other type, and the second one fails. -/
def after : List (Act Value String String) :=
  [.advance 0, .listen true "late", .publish .builder ⟨false, ()⟩, .advance 1,
    .listenerReturned 1 .ok, .advance 1, .listenerReturned 0 .ok, .advance 0,
    .listenerReturned 0 (.err "full")]

end Sample

theorem reentrant_publish :
    ∃ t d, Run Step State.init (Sample.before ++ .publish .builder Sample.event :: Sample.after) t ∧
      t.dispatches[0]? = some d ∧ d.progress = .returned (.error "full") ∧
      d.called = [.typed true (3 : Nat) "first", .typed true (3 : Nat) "second"] ∧
      ∃ calls, Dispatched calls d := by
  have hrun : ∃ t, Run Step State.init
      (Sample.before ++ .publish .builder Sample.event :: Sample.after) t ∧
      ∃ d, t.dispatches[0]? = some d ∧ d.progress = .returned (.error "full") ∧
        d.called = [.typed true (3 : Nat) "first", .typed true (3 : Nat) "second"] := by
    apply Exists.intro
    constructor
    · repeat apply Run.cons rfl
      exact Run.nil _
    · exact ⟨_, rfl, rfl, rfl⟩
  obtain ⟨t, hrun, d, hd, hprogress, hcalled⟩ := hrun
  obtain ⟨calls, d', _, hd', _, _, hdispatched⟩ := publish_dispatches hrun
  obtain rfl : d' = d := Option.some.inj (hd'.symm.trans hd)
  exact ⟨t, d', hrun, hd, hprogress, hcalled, calls, hdispatched⟩

end Summer.Event
