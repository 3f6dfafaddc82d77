/-
The tracing middleware (`summer-opentelemetry/src/trace.rs`, `trace/http.rs`, `trace/grpc.rs`):
spans that follow requests from service to service.

Services call each other over the network, each behind an `HttpLayer` or a `GrpcLayer`, with clients
behind layers of their own.  Futures are polled on threads in any order, and a span is current on a
thread for the time of a poll.  A client span is found in the headers of its request by the
server span at the other end, so the spans of all the requests that one request has led to are
in one trace, with the calls as edges, and what a handler logs is in the span of its request
(`trace_follows_calls`).
-/
import Mathlib.Data.List.Basic
import Mathlib.Logic.Function.Basic
import Mathlib.Logic.Relation

namespace Summer.OpenTelemetry.Trace

/-! ## Spans -/

structure SpanContext where
  traceId : ℕ
  spanId : ℕ
deriving DecidableEq, Repr

inductive SpanKind
  | client
  | server
deriving DecidableEq, Repr

structure Span where
  kind : SpanKind
  context : SpanContext
  parent : Option SpanContext
deriving DecidableEq, Repr

/-- The fields of a span that are empty when it is made. -/
structure Fields (E : Type) where
  statusCode : Option ℕ
  grpcStatusCode : Option Int32
  otelError : Bool
  exceptionMessage : Option E

def Fields.empty {E : Type} : Fields E where
  statusCode := none
  grpcStatusCode := none
  otelError := false
  exceptionMessage := none

/-- The global propagator. -/
structure Propagator (H : Type) where
  inject : SpanContext → H → H
  extract : H → Option SpanContext

/-- What the propagator injects into headers, it extracts. -/
def Propagator.Lawful {H : Type} (propagator : Propagator H) : Prop :=
  ∀ cx headers, propagator.extract (propagator.inject cx headers) = some cx

/-! ## Requests -/

structure Request (H B : Type) where
  headers : H
  body : B

/-- The header `grpc-status`. -/
inductive GrpcStatus
  | absent
  | unreadable
  | code (code : Int32)
deriving DecidableEq, Repr

/-- `traceHeader` is `x-trace-id`. -/
structure Response (B : Type) where
  status : ℕ
  grpcStatus : GrpcStatus
  traceHeader : Option ℕ
  body : B

/-- What a handler does: it logs, waits, calls services and answers. -/
inductive Code (S H B E L : Type)
  | done (result : Except E (Response B))
  | pending (next : Code S H B E L)
  | log (record : L) (next : Code S H B E L)
  | call (service : S) (request : Request H B) (next : Except E (Response B) → Code S H B E L)

/-- A request that a server has taken: the `call` of the layer that made its span.  `cause` is the
call of another service that it comes from. -/
structure Task (S H B : Type) where
  service : S
  request : Request H B
  span : ℕ
  cause : Option ℕ

inductive Phase (S H B E L : Type)
  | running (code : Code S H B E L)
  | waiting (call : ℕ) (next : Except E (Response B) → Code S H B E L)
  | completed (result : Except E (Response B))
  | dropped

/-- A request that a client has sent, as it is sent. -/
structure Call (S H B : Type) where
  caller : ℕ
  service : S
  request : Request H B
  span : ℕ

/-- `HttpLayer` and `GrpcLayer`, of either kind. -/
inductive TraceLayer
  | http (exportTraceId : Bool)
  | grpc
deriving DecidableEq, Repr

/-- The layers are that around a service and that around the clients which call it; `newTraceId` is
the id of a trace that starts with this span.  `layerFound` says whether `set_parent` and `context`
find the OpenTelemetry layer of the subscriber: through a slot for reloading they do not. -/
structure World (S H B E L : Type) where
  propagator : Propagator H
  layerFound : Bool
  handler : S → Request H B → Code S H B E L
  layer : SpanKind → S → TraceLayer
  newTraceId : ℕ → ℕ

structure State (T S H B E L : Type) where
  spans : List Span
  fields : ℕ → Fields E
  tasks : List (Task S H B)
  phase : ℕ → Phase S H B E L
  calls : List (Call S H B)
  reply : ℕ → Option (Except E (Response B))
  /-- The spans entered on each thread, the current one first. -/
  stack : T → List ℕ
  /-- What was logged: by which task, and in which span. -/
  logged : List (ℕ × L × Option ℕ)

variable {T S H B E L : Type}

namespace State

def start : State T S H B E L where
  spans := []
  fields := fun _ => .empty
  tasks := []
  phase := fun _ => .dropped
  calls := []
  reply := fun _ => none
  stack := fun _ => []
  logged := []

def enter [DecidableEq T] (s : State T S H B E L) (thread : T) (span : ℕ) : State T S H B E L :=
  { s with stack := Function.update s.stack thread (span :: s.stack thread) }

/-- The drop of the guard of `enter`. -/
def exit [DecidableEq T] (s : State T S H B E L) (thread : T) : State T S H B E L :=
  { s with stack := Function.update s.stack thread (s.stack thread).tail }

/-- The context of the current span. -/
def current (s : State T S H B E L) (thread : T) : Option SpanContext :=
  (s.stack thread).head?.bind fun span => s.spans[span]?.map Span.context

/-- A span in the trace of its parent, or in a trace of its own. -/
def newSpan (w : World S H B E L) (s : State T S H B E L) (kind : SpanKind)
    (parent : Option SpanContext) : Span where
  kind := kind
  context := { traceId := (parent.map SpanContext.traceId).getD (w.newTraceId s.spans.length),
               spanId := s.spans.length }
  parent := parent

/-- `record_response` of a layer. -/
def recordResponse (fields : Fields E) (kind : SpanKind) (response : Response B) :
    TraceLayer → Fields E
  | .http _ =>
    { fields with
      statusCode := some response.status
      otelError := fields.otelError ||
        (kind == .client && 400 ≤ response.status && response.status < 500) ||
        (500 ≤ response.status && response.status < 600) }
  | .grpc =>
    match response.grpcStatus with
    | .absent => { fields with grpcStatusCode := some 0 }
    | .unreadable => fields
    | .code code => { fields with grpcStatusCode := some code }

/-- `record_response` and `record_error`. -/
def recorded (fields : Fields E) (layer : TraceLayer) (kind : SpanKind) :
    Except E (Response B) → Fields E
  | .ok response => recordResponse fields kind response layer
  | .error e => { fields with otelError := true, exceptionMessage := some e }

def record (s : State T S H B E L) (layer : TraceLayer) (kind : SpanKind) (span : ℕ)
    (result : Except E (Response B)) : State T S H B E L :=
  { s with fields := Function.update s.fields span (recorded (s.fields span) layer kind result) }

end State

/-! ## Servers and clients -/

/-- `HttpService::call` and `GrpcService::call` of a server. -/
def serve (w : World S H B E L) (s : State T S H B E L) (thread : T) (service : S)
    (request : Request H B) (cause : Option ℕ) : State T S H B E L :=
  let parent :=
    if w.layerFound then (w.propagator.extract request.headers).or (s.current thread)
    else s.current thread
  { s with
    spans := s.spans ++ [s.newSpan w .server parent]
    tasks := s.tasks ++ [{ service := service, request := request, span := s.spans.length,
                           cause := cause }]
    phase := Function.update s.phase s.tasks.length (.running (w.handler service request)) }

/-- `HttpService::call` and `GrpcService::call` of a client, in a task. -/
def send (w : World S H B E L) (s : State T S H B E L) (thread : T) (task : ℕ) (service : S)
    (request : Request H B) : State T S H B E L :=
  let span := s.newSpan w .client (s.current thread)
  let headers :=
    if w.layerFound then w.propagator.inject span.context request.headers else request.headers
  { s with
    spans := s.spans ++ [span]
    calls := s.calls ++ [{ caller := task, service := service,
                           request := { request with headers := headers },
                           span := s.spans.length }] }

/-- The handler runs until it waits. -/
def runCode (w : World S H B E L) (thread : T) (task : ℕ) :
    Code S H B E L → State T S H B E L → State T S H B E L × Phase S H B E L
  | .done result, s => (s, .completed result)
  | .pending next, s => (s, .running next)
  | .log record next, s =>
    runCode w thread task next
      { s with logged := s.logged ++ [(task, record, (s.stack thread).head?)] }
  | .call service request next, s =>
    (send w s thread task service request, .waiting s.calls.length next)

/-- The id of no trace, that of an empty context. -/
def invalidTraceId : ℕ := 0

/-- The end of `ResponseFuture::poll`: an `HttpLayer` may give the response the id of its trace. -/
def complete (w : World S H B E L) (s : State T S H B E L) (span : ℕ) (layer : TraceLayer) :
    Except E (Response B) → Except E (Response B)
  | .ok response =>
    match layer with
    | .http true =>
      .ok { response with
        traceHeader := s.spans[span]?.map fun span =>
          if w.layerFound then span.context.traceId else invalidTraceId }
    | _ => .ok response
  | .error e => .error e

/-- The poll of what is inside the server's `ResponseFuture`: the handler, or the
`ResponseFuture` of the client it waits for. -/
def pollInner [DecidableEq T] (w : World S H B E L) (thread : T) (task : ℕ)
    (s : State T S H B E L) : State T S H B E L × Phase S H B E L :=
  match s.phase task with
  | .running code => runCode w thread task code s
  | .waiting call next =>
    match s.calls[call]? with
    | none => (s, .waiting call next)
    | some sent =>
      let s := s.enter thread sent.span
      match s.reply call with
      | none => (s.exit thread, .waiting call next)
      | some result =>
        let layer := w.layer .client sent.service
        runCode w thread task (next (complete w s sent.span layer result))
          ((s.record layer .client sent.span result).exit thread)
  | phase => (s, phase)

/-- What the server's `ResponseFuture` makes of the poll of what is inside. -/
def settle (w : World S H B E L) (i : ℕ) (task : Task S H B) :
    State T S H B E L × Phase S H B E L → State T S H B E L
  | (s, .completed result) =>
    let layer := w.layer .server task.service
    { s.record layer .server task.span result with
      phase := Function.update s.phase i (.completed (complete w s task.span layer result)) }
  | (s, phase) => { s with phase := Function.update s.phase i phase }

/-- `ResponseFuture::poll` of a server. -/
def poll [DecidableEq T] (w : World S H B E L) (thread : T) (i : ℕ) (s : State T S H B E L) :
    State T S H B E L :=
  match s.tasks[i]?, s.phase i with
  | none, _ => s
  | some _, .completed _ => s
  | some _, .dropped => s
  | some task, _ =>
    (settle w i task (pollInner w thread i (s.enter thread task.span))).exit thread

/-! ## The network -/

inductive Act (T S H B E : Type)
  /-- A request from outside. -/
  | enter (thread : T) (service : S) (request : Request H B)
  /-- The request of a call gets to the server. -/
  | arrive (thread : T) (call : ℕ)
  | poll (thread : T) (task : ℕ)
  /-- The response of a task gets to the client that called. -/
  | respond (task : ℕ)
  | fail (call : ℕ) (e : E)
  /-- The future of a task is dropped. -/
  | drop (task : ℕ)

/-- An action that does not apply does nothing. -/
def step [DecidableEq T] (w : World S H B E L) (s : State T S H B E L) :
    Act T S H B E → State T S H B E L
  | .enter thread service request => serve w s thread service request none
  | .arrive thread call =>
    match s.calls[call]? with
    | some sent => serve w s thread sent.service sent.request (some call)
    | none => s
  | .poll thread task => poll w thread task s
  | .respond task =>
    match s.tasks[task]?.bind Task.cause, s.phase task with
    | some call, .completed result =>
      { s with reply := Function.update s.reply call ((s.reply call).or (some result)) }
    | _, _ => s
  | .fail call e =>
    { s with reply := Function.update s.reply call ((s.reply call).or (some (.error e))) }
  | .drop task =>
    match s.phase task with
    | .completed _ => s
    | _ => { s with phase := Function.update s.phase task .dropped }

def run [DecidableEq T] (w : World S H B E L) (acts : List (Act T S H B E)) : State T S H B E L :=
  acts.foldl (step w) State.start

/-! ## What a poll leaves alone -/

/-- What runs under the span of a task leaves the stacks, the tasks and their phases alone. -/
structure Framed (s s' : State T S H B E L) : Prop where
  stack : s'.stack = s.stack
  tasks : s'.tasks = s.tasks
  phase : s'.phase = s.phase

theorem Framed.refl (s : State T S H B E L) : Framed s s := ⟨rfl, rfl, rfl⟩

theorem framed_runCode (w : World S H B E L) (thread : T) (i : ℕ) (code : Code S H B E L)
    (s : State T S H B E L) : Framed s (runCode w thread i code s).1 := by
  induction code generalizing s with
  | done result => exact Framed.refl s
  | pending next => exact Framed.refl s
  | log record next ih =>
    obtain ⟨hstack, htasks, hphase⟩ :=
      ih { s with logged := s.logged ++ [(i, record, (s.stack thread).head?)] }
    exact ⟨hstack, htasks, hphase⟩
  | call service request next ih => exact ⟨rfl, rfl, rfl⟩

theorem settle_stack (w : World S H B E L) (i : ℕ) (task : Task S H B)
    (polled : State T S H B E L × Phase S H B E L) :
    (settle w i task polled).stack = polled.1.stack := by
  obtain ⟨s, phase⟩ := polled
  cases phase <;> rfl

section
variable [DecidableEq T]

theorem exit_enter_stack (s : State T S H B E L) (thread : T) (span : ℕ) :
    ((s.enter thread span).exit thread).stack = s.stack := by
  show Function.update (Function.update s.stack thread (span :: s.stack thread)) thread
    (Function.update s.stack thread (span :: s.stack thread) thread).tail = s.stack
  rw [Function.update_self, Function.update_idem]
  exact Function.update_eq_self thread s.stack

theorem framed_pollInner (w : World S H B E L) (thread : T) (i : ℕ) (s : State T S H B E L) :
    Framed s (pollInner w thread i s).1 := by
  unfold pollInner
  cases s.phase i with
  | running code => exact framed_runCode w thread i code s
  | waiting call next =>
    simp only
    cases s.calls[call]? with
    | none => exact Framed.refl s
    | some sent =>
      have hsame := exit_enter_stack s thread sent.span
      simp only
      cases (s.enter thread sent.span).reply call with
      | none => exact ⟨hsame, rfl, rfl⟩
      | some result =>
        obtain ⟨hstack, htasks, hphase⟩ := framed_runCode w thread i
          (next (complete w (s.enter thread sent.span) sent.span (w.layer .client sent.service)
            result))
          (((s.enter thread sent.span).record (w.layer .client sent.service) .client sent.span
            result).exit thread)
        exact ⟨hstack.trans hsame, htasks, hphase⟩
  | completed result => exact Framed.refl s
  | dropped => exact Framed.refl s

end

/-! ## Spans and calls -/

theorem getElem?_of_append {α : Type} {l : List α} {k : ℕ} {x : α} (h : l[k]? = some x)
    (l' : List α) : (l ++ l')[k]? = some x := by
  rw [List.getElem?_append_left (List.getElem?_eq_some_iff.mp h).1]
  exact h

theorem getElem?_snoc {α : Type} {l : List α} {a x : α} {k : ℕ} (h : (l ++ [a])[k]? = some x) :
    l[k]? = some x ∨ (k = l.length ∧ x = a) := by
  by_cases hk : k < l.length
  · rw [List.getElem?_append_left hk] at h
    exact Or.inl h
  · have hlen := (List.getElem?_eq_some_iff.mp h).1
    rw [List.length_append, List.length_singleton] at hlen
    obtain rfl : k = l.length := by omega
    rw [List.getElem?_concat_length, Option.some.injEq] at h
    exact Or.inr ⟨rfl, h.symm⟩

/-- Servers find the span of the client in the headers, clients are called under the span of
their task, and every span is in the trace of its parent. -/
structure Links (w : World S H B E L) (s : State T S H B E L) : Prop where
  task : ∀ (i : ℕ) (task : Task S H B), s.tasks[i]? = some task →
    ∃ span : Span, s.spans[task.span]? = some span ∧ span.kind = .server ∧
      span.parent = w.propagator.extract task.request.headers
  caused : ∀ (i : ℕ) (task : Task S H B) (c : ℕ), s.tasks[i]? = some task → task.cause = some c →
    ∃ call : Call S H B, s.calls[c]? = some call ∧ task.request = call.request ∧
      task.service = call.service
  call : ∀ (c : ℕ) (call : Call S H B), s.calls[c]? = some call →
    ∃ (span parent : Span) (task : Task S H B), s.spans[call.span]? = some span ∧
      span.kind = .client ∧ s.tasks[call.caller]? = some task ∧
      s.spans[task.span]? = some parent ∧ span.parent = some parent.context ∧
      w.propagator.extract call.request.headers = some span.context
  traced : ∀ (k : ℕ) (span : Span) (p : SpanContext), s.spans[k]? = some span →
    span.parent = some p → span.context.traceId = p.traceId
  logged : ∀ x ∈ s.logged, ∃ task : Task S H B, s.tasks[x.1]? = some task ∧ x.2.2 = some task.span
  completed : ∀ (i : ℕ) (task : Task S H B) r, s.tasks[i]? = some task →
    s.phase i = .completed (.ok r) → w.layer .server task.service = .http true →
    r.traceHeader = s.spans[task.span]?.map fun span => span.context.traceId

theorem links_start (w : World S H B E L) : Links w (State.start : State T S H B E L) where
  task := fun _ _ h => nomatch h
  caused := fun _ _ _ h => nomatch h
  call := fun _ _ h => nomatch h
  traced := fun _ _ _ h => nomatch h
  logged := fun _ h => nomatch h
  completed := fun _ _ _ h => nomatch h

variable {w : World S H B E L}

theorem newSpan_traced (s : State T S H B E L) {kind : SpanKind} {parent : Option SpanContext}
    {p : SpanContext} (h : parent = some p) :
    (s.newSpan w kind parent).context.traceId = p.traceId := by
  subst h
  rfl

theorem links_serve (hfound : w.layerFound) {s : State T S H B E L} (h : Links w s) {thread : T}
    (hstack : s.stack thread = []) (service : S) (request : Request H B) {cause : Option ℕ}
    (hcause : ∀ c, cause = some c → ∃ call, s.calls[c]? = some call ∧ request = call.request ∧
      service = call.service) :
    Links w (serve w s thread service request cause) := by
  have hparent : (if w.layerFound then (w.propagator.extract request.headers).or (s.current thread)
      else s.current thread) = w.propagator.extract request.headers := by
    rw [if_pos hfound, State.current, hstack]
    exact Option.or_none
  unfold serve
  rw [hparent]
  constructor
  · intro i task hi
    rcases getElem?_snoc hi with hi | ⟨_, rfl⟩
    · obtain ⟨span, hspan, hrest⟩ := h.task i task hi
      exact ⟨span, getElem?_of_append hspan _, hrest⟩
    · exact ⟨_, List.getElem?_concat_length .., rfl, rfl⟩
  · intro i task c hi hc
    rcases getElem?_snoc hi with hi | ⟨_, rfl⟩
    · exact h.caused i task c hi hc
    · exact hcause c hc
  · intro c call hc
    obtain ⟨span, parent, task, hspan, hkind, htask, hparent, hrest⟩ := h.call c call hc
    exact ⟨span, parent, task, getElem?_of_append hspan _, hkind, getElem?_of_append htask _,
      getElem?_of_append hparent _, hrest⟩
  · intro k span p hk hp
    rcases getElem?_snoc hk with hk | ⟨_, rfl⟩
    · exact h.traced k span p hk hp
    · exact newSpan_traced s hp
  · intro x hx
    obtain ⟨task, htask, hspan⟩ := h.logged x hx
    exact ⟨task, getElem?_of_append htask _, hspan⟩
  · intro i task r hi hphase hexport
    rcases getElem?_snoc hi with hi' | ⟨rfl, rfl⟩
    · have hne : i ≠ s.tasks.length := by
        have := (List.getElem?_eq_some_iff.mp hi').1
        omega
      change Function.update s.phase _ _ i = _ at hphase
      rw [Function.update_of_ne hne] at hphase
      obtain ⟨span, hspan, _⟩ := h.task i task hi'
      rw [h.completed i task r hi' hphase hexport, hspan, getElem?_of_append hspan]
    · change Function.update s.phase _ _ _ = _ at hphase
      rw [Function.update_self] at hphase
      cases hphase

/-- Neither the stacks nor the recorded fields matter. -/
theorem Links.congr {s s' : State T S H B E L} (h : Links w s) (hspans : s'.spans = s.spans)
    (htasks : s'.tasks = s.tasks) (hcalls : s'.calls = s.calls) (hlogged : s'.logged = s.logged)
    (hphase : s'.phase = s.phase) : Links w s' where
  task := by
    rw [htasks, hspans]
    exact h.task
  caused := by
    rw [htasks, hcalls]
    exact h.caused
  call := by
    rw [hcalls, hspans, htasks]
    exact h.call
  traced := by
    rw [hspans]
    exact h.traced
  logged := by
    rw [hlogged, htasks]
    exact h.logged
  completed := by
    rw [htasks, hphase, hspans]
    exact h.completed

theorem links_send (hlaw : w.propagator.Lawful) (hfound : w.layerFound)
    {s : State T S H B E L} (h : Links w s) {thread : T} {i : ℕ}
    {task : Task S H B} (htask : s.tasks[i]? = some task)
    (hstack : (s.stack thread).head? = some task.span) (service : S) (request : Request H B) :
    Links w (send w s thread i service request) := by
  obtain ⟨parent, hparent, _⟩ := h.task i task htask
  have hcurrent : s.current thread = some parent.context := by
    rw [State.current, hstack, Option.bind_some, hparent]
    rfl
  unfold send
  rw [hcurrent]
  simp only [if_pos hfound]
  constructor
  · intro j task' hj
    obtain ⟨span, hspan, hrest⟩ := h.task j task' hj
    exact ⟨span, getElem?_of_append hspan _, hrest⟩
  · intro j task' c hj hc
    obtain ⟨call, hcall, hrest⟩ := h.caused j task' c hj hc
    exact ⟨call, getElem?_of_append hcall _, hrest⟩
  · intro c call hc
    rcases getElem?_snoc hc with hc | ⟨_, rfl⟩
    · obtain ⟨span, parent', task', hspan, hkind, htask', hparent', hrest⟩ := h.call c call hc
      exact ⟨span, parent', task', getElem?_of_append hspan _, hkind, htask',
        getElem?_of_append hparent' _, hrest⟩
    · exact ⟨_, parent, task, List.getElem?_concat_length .., rfl, htask,
        getElem?_of_append hparent _, rfl, hlaw _ _⟩
  · intro k span p hk hp
    rcases getElem?_snoc hk with hk | ⟨_, rfl⟩
    · exact h.traced k span p hk hp
    · exact newSpan_traced s hp
  · exact h.logged
  · intro j task' r hj hphase hexport
    obtain ⟨span, hspan, _⟩ := h.task j task' hj
    rw [h.completed j task' r hj hphase hexport, hspan, getElem?_of_append hspan]

/-- What runs under the span of a task keeps the links. -/
theorem links_runCode (hlaw : w.propagator.Lawful) (hfound : w.layerFound) {thread : T} {i : ℕ}
    {task : Task S H B} (code : Code S H B E L) {s : State T S H B E L} (h : Links w s)
    (htask : s.tasks[i]? = some task) (hstack : (s.stack thread).head? = some task.span) :
    Links w (runCode w thread i code s).1 := by
  induction code generalizing s with
  | done result => exact h
  | pending next => exact h
  | log record next ih =>
    have hlinks : Links w
        { s with logged := s.logged ++ [(i, record, (s.stack thread).head?)] } := by
      refine ⟨h.task, h.caused, h.call, h.traced, fun x hx => ?_, h.completed⟩
      rcases List.mem_append.mp hx with hx | hx
      · exact h.logged x hx
      · rw [List.mem_singleton.mp hx]
        exact ⟨task, htask, hstack⟩
    exact ih hlinks htask hstack
  | call service request next ih => exact links_send hlaw hfound h htask hstack service request

theorem traceHeader_of_complete (hfound : w.layerFound) {s : State T S H B E L} {span : ℕ}
    {result : Except E (Response B)} {r : Response B}
    (h : complete w s span (.http true) result = .ok r) :
    r.traceHeader = s.spans[span]?.map fun span => span.context.traceId := by
  cases result with
  | error e => cases h
  | ok response =>
    cases h
    simp only [if_pos hfound]

/-- The phase of one task changes; if it is completed, then with a header as exported. -/
theorem Links.update {s : State T S H B E L} (h : Links w s) (i : ℕ) {phase : Phase S H B E L}
    (hphase : ∀ task r, s.tasks[i]? = some task → phase = .completed (.ok r) →
      w.layer .server task.service = .http true →
      r.traceHeader = s.spans[task.span]?.map fun span => span.context.traceId) :
    Links w { s with phase := Function.update s.phase i phase } := by
  refine ⟨h.task, h.caused, h.call, h.traced, h.logged, fun j task r hj hr hexport => ?_⟩
  change Function.update s.phase i phase j = _ at hr
  by_cases hji : j = i
  · rw [hji, Function.update_self] at hr
    exact hphase task r (hji ▸ hj) hr hexport
  · rw [Function.update_of_ne hji] at hr
    exact h.completed j task r hj hr hexport

theorem links_settle (hfound : w.layerFound) {i : ℕ} {task : Task S H B}
    {s : State T S H B E L} (h : Links w s) (htask : s.tasks[i]? = some task)
    (phase : Phase S H B E L) :
    Links w (settle w i task (s, phase)) := by
  cases phase with
  | completed result =>
    let completed : Phase S H B E L :=
      .completed (complete w s task.span (w.layer .server task.service) result)
    have hcompleted : Links w { s with phase := Function.update s.phase i completed } := by
      apply h.update
      intro task' r hi hr hexport
      cases htask.symm.trans hi
      rw [Phase.completed.injEq, hexport] at hr
      exact traceHeader_of_complete hfound hr
    exact hcompleted.congr rfl rfl rfl rfl rfl
  | running code => exact h.update i (fun _ _ _ hr => nomatch hr)
  | waiting call next => exact h.update i (fun _ _ _ hr => nomatch hr)
  | dropped => exact h.update i (fun _ _ _ hr => nomatch hr)

/-- A task and one of the calls that it has made have led to the other task. -/
def Caused (s : State T S H B E L) (i j : ℕ) : Prop :=
  ∃ (task : Task S H B) (c : ℕ) (call : Call S H B), s.tasks[j]? = some task ∧
    task.cause = some c ∧ s.calls[c]? = some call ∧ call.caller = i

/-- The span that a server has made for a task. -/
def serverSpan (s : State T S H B E L) (i : ℕ) : Option Span :=
  s.tasks[i]?.bind fun task => s.spans[task.span]?

theorem Links.server_of_caused {s : State T S H B E L} (h : Links w s) {i j : ℕ}
    (hij : Caused s i j) : ∃ caller client callee : Span, serverSpan s i = some caller ∧
      serverSpan s j = some callee ∧ client ∈ s.spans ∧ client.kind = .client ∧
      client.parent = some caller.context ∧ callee.parent = some client.context := by
  obtain ⟨task, c, call, htask, hcause, hcall, hcaller⟩ := hij
  obtain ⟨callee, hcallee, _, hextract⟩ := h.task j task htask
  obtain ⟨call', hcall', hrequest, _⟩ := h.caused j task c htask hcause
  cases hcall.symm.trans hcall'
  obtain ⟨client, caller, origin, hclient, hkind, horigin, hparent, hbelow, hheaders⟩ :=
    h.call c call hcall
  rw [hcaller] at horigin
  refine ⟨caller, client, callee, ?_, ?_, List.mem_of_getElem? hclient, hkind, hbelow, ?_⟩
  · rw [serverSpan, horigin]
    exact hparent
  · rw [serverSpan, htask]
    exact hcallee
  · rw [hextract, hrequest, hheaders]

theorem Links.traced_server {s : State T S H B E L} (h : Links w s) {j : ℕ} {span : Span}
    {p : SpanContext} (hspan : serverSpan s j = some span) (hp : span.parent = some p) :
    span.context.traceId = p.traceId := by
  obtain ⟨task, _, hat⟩ := Option.bind_eq_some_iff.mp hspan
  exact h.traced task.span span p hat hp

theorem Links.trace_eq {s : State T S H B E L} (h : Links w s) {i j : ℕ}
    (hij : Relation.ReflTransGen (Caused s) i j) :
    (serverSpan s j).map (·.context.traceId) = (serverSpan s i).map (·.context.traceId) := by
  induction hij with
  | refl => rfl
  | tail _ hcaused ih =>
    obtain ⟨caller, client, callee, hcaller, hcallee, hclient, _, hbelow, hparent⟩ :=
      h.server_of_caused hcaused
    rw [← ih, hcaller, hcallee]
    obtain ⟨k, hk⟩ := List.getElem?_of_mem hclient
    have hcallee' : callee.context.traceId = client.context.traceId :=
      h.traced_server hcallee hparent
    exact congrArg some (hcallee'.trans (h.traced k client caller.context hk hbelow))

/-! ## Runs -/

section
variable [DecidableEq T]

theorem links_pollInner (hlaw : w.propagator.Lawful) (hfound : w.layerFound) {thread : T} {i : ℕ}
    {task : Task S H B} {s : State T S H B E L} (h : Links w s) (htask : s.tasks[i]? = some task)
    (hstack : (s.stack thread).head? = some task.span) :
    Links w (pollInner w thread i s).1 := by
  unfold pollInner
  cases s.phase i with
  | running code => exact links_runCode hlaw hfound code h htask hstack
  | waiting call next =>
    simp only
    cases s.calls[call]? with
    | none => exact h
    | some sent =>
      simp only
      cases hreply : (s.enter thread sent.span).reply call with
      | none => exact h.congr rfl rfl rfl rfl rfl
      | some result =>
        -- the client span is left again before the handler goes on
        refine links_runCode hlaw hfound _ (h.congr rfl rfl rfl rfl rfl) htask ?_
        show (((s.enter thread sent.span).exit thread).stack thread).head? = _
        rw [exit_enter_stack]
        exact hstack
  | completed result => exact h
  | dropped => exact h

theorem enter_head (s : State T S H B E L) (thread : T) (span : ℕ) :
    ((s.enter thread span).stack thread).head? = some span := by
  show (Function.update s.stack thread (span :: s.stack thread) thread).head? = _
  rw [Function.update_self]
  rfl

theorem poll_stack (w : World S H B E L) (thread : T) (i : ℕ) (s : State T S H B E L) :
    (poll w thread i s).stack = s.stack := by
  have hpolled : ∀ task : Task S H B,
      ((settle w i task (pollInner w thread i (s.enter thread task.span))).exit thread).stack =
        s.stack := by
    intro task
    obtain ⟨hstack, _, _⟩ := framed_pollInner w thread i (s.enter thread task.span)
    rw [← exit_enter_stack s thread task.span]
    simp only [State.exit, settle_stack, hstack]
  unfold poll
  cases s.tasks[i]? with
  | none => rfl
  | some task =>
    cases s.phase i with
    | running code => exact hpolled task
    | waiting call next => exact hpolled task
    | completed result => rfl
    | dropped => rfl

theorem links_poll (hlaw : w.propagator.Lawful) (hfound : w.layerFound) {thread : T} {i : ℕ}
    {s : State T S H B E L} (h : Links w s) : Links w (poll w thread i s) := by
  have hpolled : ∀ task : Task S H B, s.tasks[i]? = some task →
      Links w
        ((settle w i task (pollInner w thread i (s.enter thread task.span))).exit thread) := by
    intro task htask
    have hentered : Links w (s.enter thread task.span) := h.congr rfl rfl rfl rfl rfl
    have hlinks := links_pollInner hlaw hfound hentered htask (enter_head s thread task.span)
    obtain ⟨_, htasks, _⟩ := framed_pollInner w thread i (s.enter thread task.span)
    exact (links_settle hfound hlinks (htasks ▸ htask) _).congr rfl rfl rfl rfl rfl
  unfold poll
  cases htask : s.tasks[i]? with
  | none => exact h
  | some task =>
    cases s.phase i with
    | running code => exact hpolled task htask
    | waiting call next => exact hpolled task htask
    | completed result => exact h
    | dropped => exact h

/-- Between polls no span is current on any thread. -/
theorem stack_step (w : World S H B E L) {s : State T S H B E L}
    (h : ∀ thread, s.stack thread = []) (a : Act T S H B E) (thread : T) :
    (step w s a).stack thread = [] := by
  cases a with
  | enter thread' service request => exact h thread
  | arrive thread' call =>
    simp only [step]
    cases s.calls[call]? with
    | none => exact h thread
    | some sent => exact h thread
  | poll thread' task =>
    show (poll w thread' task s).stack thread = []
    rw [poll_stack]
    exact h thread
  | respond task =>
    simp only [step]
    split <;> exact h thread
  | fail call e => exact h thread
  | drop task =>
    simp only [step]
    split <;> exact h thread

theorem links_step (hlaw : w.propagator.Lawful) (hfound : w.layerFound) {s : State T S H B E L}
    (h : Links w s) (hstack : ∀ thread, s.stack thread = []) (a : Act T S H B E) :
    Links w (step w s a) := by
  cases a with
  | enter thread service request =>
    exact links_serve hfound h (hstack thread) service request fun c hc => nomatch hc
  | arrive thread call =>
    simp only [step]
    cases hcall : s.calls[call]? with
    | none => exact h
    | some sent =>
      refine links_serve hfound h (hstack thread) sent.service sent.request fun c hc => ?_
      cases hc
      exact ⟨sent, hcall, rfl, rfl⟩
  | poll thread task => exact links_poll hlaw hfound h
  | respond task =>
    simp only [step]
    split
    · exact h.congr rfl rfl rfl rfl rfl
    · exact h
  | fail call e => exact h.congr rfl rfl rfl rfl rfl
  | drop task =>
    simp only [step]
    split
    · exact h
    · exact h.update task (fun _ _ _ hr => nomatch hr)

theorem links_run (hlaw : w.propagator.Lawful) (hfound : w.layerFound)
    (acts : List (Act T S H B E)) : Links w (run w acts) := by
  have hfold : ∀ s : State T S H B E L, Links w s → (∀ thread, s.stack thread = []) →
      Links w (acts.foldl (step w) s) := by
    induction acts with
    | nil => exact fun s h _ => h
    | cons a acts ih =>
      intro s h hstack
      exact ih _ (links_step hlaw hfound h hstack a) (stack_step w hstack a)
  exact hfold _ (links_start w) fun _ => rfl

/-- Where the OpenTelemetry layer is found and the propagator extracts what it injects: in any
order of polls, on any threads, with messages in any order or lost, a server span is below the
span of the request's headers, which for a call is the client span and so below the server span of
the caller; all the tasks that a request leads to are in its trace; what they log is in their
spans; and what they answer names the trace. -/
theorem trace_follows_calls (w : World S H B E L) (hlaw : w.propagator.Lawful)
    (hfound : w.layerFound) (acts : List (Act T S H B E)) :
    let s := run w acts
    (∀ i (task : Task S H B), s.tasks[i]? = some task → ∃ span : Span,
        serverSpan s i = some span ∧ span.parent = w.propagator.extract task.request.headers) ∧
      (∀ i j, Caused s i j → ∃ caller client callee : Span, serverSpan s i = some caller ∧
        serverSpan s j = some callee ∧ client ∈ s.spans ∧ client.kind = .client ∧
        client.parent = some caller.context ∧ callee.parent = some client.context) ∧
      (∀ i j, Relation.ReflTransGen (Caused s) i j →
        (serverSpan s j).map (·.context.traceId) = (serverSpan s i).map (·.context.traceId)) ∧
      (∀ x ∈ s.logged, ∃ task : Task S H B, s.tasks[x.1]? = some task ∧ x.2.2 = some task.span) ∧
      ∀ i (task : Task S H B) r, s.tasks[i]? = some task → s.phase i = .completed (.ok r) →
        w.layer .server task.service = .http true →
        r.traceHeader = (serverSpan s i).map (·.context.traceId) := by
  intro s
  have h : Links w s := links_run hlaw hfound acts
  refine ⟨fun i task hi => ?_, fun i j hij => h.server_of_caused hij,
    fun i j hij => h.trace_eq hij, h.logged, fun i task r hi hr hexport => ?_⟩
  · obtain ⟨span, hspan, _, hparent⟩ := h.task i task hi
    refine ⟨span, ?_, hparent⟩
    rw [serverSpan, hi]
    exact hspan
  · rw [serverSpan, hi]
    exact h.completed i task r hi hr hexport

end

namespace Sample

/-- A header with the context in it. -/
def propagator : Propagator (Option SpanContext) where
  inject := fun cx _ => some cx
  extract := id

theorem propagator_lawful : propagator.Lawful := fun _ _ => rfl

/-- A web service, and the gRPC service that it asks. -/
inductive Service
  | orders
  | stock
deriving DecidableEq

def request : Request (Option SpanContext) Unit := { headers := none, body := () }

def handler : Service → Request (Option SpanContext) Unit →
    Code Service (Option SpanContext) Unit String String
  | .orders, _ =>
    .log "order" <| .call .stock request fun
      | .ok response =>
        .done (.ok { response with
          status := if response.grpcStatus = .code 0 then 200 else 500, grpcStatus := .absent })
      | .error e => .done (.error e)
  | .stock, _ =>
    .log "stock" <| .done (.ok
      { status := 200, grpcStatus := .code 5, traceHeader := none, body := () })

def world : World Service (Option SpanContext) Unit String String where
  propagator := propagator
  layerFound := true
  handler := handler
  layer := fun _ service =>
    match service with
    | .orders => .http true
    | .stock => .grpc
  newTraceId := fun k => k + 1

/-- An order, served on one thread, and the question about the stock, on another. -/
def acts : List (Act Bool Service (Option SpanContext) Unit String) :=
  [.enter false .orders request, .poll false 0, .arrive true 0, .poll false 0, .poll true 1,
   .respond 1, .poll false 0]

end Sample

/-- The order and the question about the stock are in one trace, which the answer names. -/
theorem trace_follows_calls_sample :
    Caused (run Sample.world Sample.acts) 0 1 ∧
      (∃ caller client callee : Span,
        serverSpan (run Sample.world Sample.acts) 0 = some caller ∧
        serverSpan (run Sample.world Sample.acts) 1 = some callee ∧
        client ∈ (run Sample.world Sample.acts).spans ∧ client.kind = .client ∧
        client.parent = some caller.context ∧ callee.parent = some client.context) ∧
      (serverSpan (run Sample.world Sample.acts) 1).map (·.context.traceId) = some 1 ∧
      ∃ r, (run Sample.world Sample.acts).phase 0 = .completed (.ok r) ∧
        r.traceHeader = some 1 := by
  have hcaused : Caused (run Sample.world Sample.acts) 0 1 := ⟨_, 0, _, rfl, rfl, rfl, rfl⟩
  obtain ⟨_, hlinked, htraced, _, hnamed⟩ :=
    trace_follows_calls Sample.world Sample.propagator_lawful rfl Sample.acts
  refine ⟨hcaused, hlinked 0 1 hcaused, htraced 0 1 (.single hcaused), _, rfl, ?_⟩
  exact hnamed 0 _ _ rfl rfl rfl

end Summer.OpenTelemetry.Trace
