/-
The metrics of the HTTP middleware (`summer-opentelemetry/src/metrics.rs`).

A request counts as active from the call until its response future completes; a future that is
dropped before that is counted for ever (`active_iff`).
-/
import Mathlib.Algebra.BigOperators.Group.List.Basic
import Mathlib.Algebra.Order.Group.Int
import Mathlib.Algebra.Order.Ring.Int
import Mathlib.Order.Basic
import Summer.Lib.Run

namespace Summer.OpenTelemetry

/-! ## Requests and responses -/

inductive Method
  | get
  | post
  | put
  | delete
  | head
  | options
  | connect
  | patch
  | trace
  | extension (name : String)
deriving DecidableEq, Repr

inductive Version
  | http09
  | http10
  | http11
  | http2
  | http3
  | other
deriving DecidableEq, Repr

def httpMethod : Method → String
  | .get => "GET"
  | .post => "POST"
  | .put => "PUT"
  | .delete => "DELETE"
  | .head => "HEAD"
  | .options => "OPTIONS"
  | .connect => "CONNECT"
  | .patch => "PATCH"
  | .trace => "TRACE"
  | .extension _ => "_OTHER"

def httpVersion : Version → Option String
  | .http09 => some "0.9"
  | .http10 => some "1.0"
  | .http11 => some "1.1"
  | .http2 => some "2"
  | .http3 => some "3"
  | .other => none

/-- `contentLength` is the header, where it parses; `exactSize` is what the body knows. -/
structure Request where
  method : Method
  host : Option String
  port : Option UInt16
  version : Version
  matchedPath : Option String
  contentLength : Option UInt64
  exactSize : Option UInt64
deriving DecidableEq, Repr

structure Response where
  status : UInt16
  contentLength : Option UInt64
  exactSize : Option UInt64
deriving DecidableEq, Repr

def httpRequestSize (req : Request) : Option UInt64 := req.contentLength.or req.exactSize

def httpResponseSize (res : Response) : Option UInt64 := res.contentLength.or res.exactSize

inductive Value
  | string (s : String)
  | i64 (n : Int)
deriving DecidableEq, Repr

structure KeyValue where
  key : String
  value : Value
deriving DecidableEq, Repr

/-! ## The state of a response -/

/-- The first `activeRequestsLen` attributes are those of the counter of active requests. -/
structure ResponseMetricState where
  start : Nat
  requestBodySize : Option UInt64
  attributes : List KeyValue
  activeRequestsLen : Nat
  bounded : activeRequestsLen ≤ attributes.length

namespace ResponseMetricState

/-- The attributes that are there when `active_requests_attributes` is taken; their keys are
distinct and always in this order, so that the list stands for its set. -/
def requestAttributes (req : Request) : List KeyValue :=
  [⟨"http.request.method", .string (httpMethod req.method)⟩] ++
  (req.host.map fun host => ⟨"server.address", .string host⟩).toList ++
  (req.port.map fun port => ⟨"server.port", .i64 port.toNat⟩).toList

def new (req : Request) (now : Nat) : ResponseMetricState :=
  { start := now
    requestBodySize := httpRequestSize req
    attributes := requestAttributes req ++ ([⟨"network.protocol.name", .string "http"⟩] ++
      ((httpVersion req.version).map fun version =>
        ⟨"network.protocol.version", .string version⟩).toList ++
      (req.matchedPath.map fun route => ⟨"http.route", .string route⟩).toList)
    activeRequestsLen := (requestAttributes req).length
    bounded := by
      rw [List.length_append]
      exact Nat.le_add_right _ _ }

def pushResponseAttributes (state : ResponseMetricState) (res : Except String Response) :
    ResponseMetricState :=
  { state with
    attributes := state.attributes ++ [match res with
      | .ok response => ⟨"http.response.status_code", .i64 response.status.toNat⟩
      | .error err => ⟨"error.type", .string err⟩]
    bounded := by
      rw [List.length_append]
      exact Nat.le_add_right_of_le state.bounded }

def activeRequestsAttributes (state : ResponseMetricState) : List KeyValue :=
  state.attributes.take state.activeRequestsLen

end ResponseMetricState

/-! ## The middleware -/

variable {I : Type}

/-- What is recorded; an addition to the active requests names the request it is made for. -/
inductive Measurement (I : Type)
  | activeRequests (request : I) (delta : Int) (attributes : List KeyValue)
  | requestDuration (nanos : Nat) (attributes : List KeyValue)
  | requestBodySize (size : UInt64) (attributes : List KeyValue)
  | responseBodySize (size : UInt64) (attributes : List KeyValue)
deriving DecidableEq

structure ResponseFuture (I : Type) where
  request : I
  state : ResponseMetricState

/-- The sizes of the bodies, where they are known. -/
def bodySizes (state : ResponseMetricState) (innerResponse : Except String Response) :
    List (Measurement I) :=
  (state.requestBodySize.map fun size => .requestBodySize size state.attributes).toList ++
  match innerResponse with
  | .ok response =>
    ((httpResponseSize response).map fun size => .responseBodySize size state.attributes).toList
  | .error _ => []

/-- What a poll records, and the future if it is still pending; `inner` is what the inner future
returns. -/
def ResponseFuture.poll (future : ResponseFuture I) (now : Nat) :
    Option (Except String Response) → List (Measurement I) × Option (ResponseFuture I)
  | none => ([], some future)
  | some innerResponse =>
    let state := future.state.pushResponseAttributes innerResponse
    ([.requestDuration (now - state.start) state.attributes,
        .activeRequests future.request (-1) state.activeRequestsAttributes] ++
      bodySizes state innerResponse, none)

/-- The futures that are neither completed nor dropped, and everything recorded so far. -/
structure State (I : Type) where
  flight : List (ResponseFuture I)
  log : List (Measurement I)

def State.init : State I := { flight := [], log := [] }

def State.call (s : State I) (request : I) (req : Request) (now : Nat) : State I :=
  let state := ResponseMetricState.new req now
  { flight := s.flight ++ [{ request := request, state := state }]
    log := s.log ++ [.activeRequests request 1 state.activeRequestsAttributes] }

inductive Act (I : Type)
  | call (request : I) (req : Request) (now : Nat)
  | poll (request : I) (now : Nat) (inner : Option (Except String Response))
  | drop (request : I)

inductive Step : State I → Act I → State I → Prop
  | call {s : State I} {request : I} {req : Request} {now : Nat} :
      (∀ delta attributes, .activeRequests request delta attributes ∉ s.log) →
      Step s (.call request req now) (s.call request req now)
  | poll {s : State I} {pre post : List (ResponseFuture I)} {future : ResponseFuture I}
      {now : Nat} {inner : Option (Except String Response)} :
      s.flight = pre ++ future :: post →
      Step s (.poll future.request now inner)
        { flight := pre ++ (future.poll now inner).2.toList ++ post
          log := s.log ++ (future.poll now inner).1 }
  | drop {s : State I} {pre post : List (ResponseFuture I)} {future : ResponseFuture I} :
      s.flight = pre ++ future :: post →
      Step s (.drop future.request) { s with flight := pre ++ post }

/-! ## What it is for -/

def Measurement.delta (attributes : List KeyValue) : Measurement I → Int
  | .activeRequests _ delta recorded => if recorded = attributes then delta else 0
  | _ => 0

/-- The sum that was recorded on `active_requests` for a set of attributes. -/
def State.activeSum (s : State I) (attributes : List KeyValue) : Int :=
  (s.log.map (Measurement.delta attributes)).sum

/-- The requests in flight with a set of attributes. -/
def State.inFlight (s : State I) (attributes : List KeyValue) : Nat :=
  s.flight.countP fun future => future.state.activeRequestsAttributes = attributes

/-- All that is added for one request is added for the same attributes. -/
def SameAttributes (s : State I) : Prop :=
  ∀ request delta attributes delta' attributes',
    .activeRequests request delta attributes ∈ s.log →
    .activeRequests request delta' attributes' ∈ s.log → attributes = attributes'

def Act.completes : Act I → Prop
  | .drop _ => False
  | _ => True

/-! ## What one step does -/

/-- The attributes of the counter are in front of those that are pushed. -/
theorem activeRequestsAttributes_push (state : ResponseMetricState) (res : Except String Response) :
    (state.pushResponseAttributes res).activeRequestsAttributes =
      state.activeRequestsAttributes :=
  List.take_append_of_le_length state.bounded

/-- What a future adds, if it is counted for the attributes. -/
def ResponseFuture.share (future : ResponseFuture I) (attributes : List KeyValue) : Int :=
  if future.state.activeRequestsAttributes = attributes then 1 else 0

theorem inFlight_eq_sum (s : State I) (attributes : List KeyValue) :
    (s.inFlight attributes : Int) = (s.flight.map fun future => future.share attributes).sum := by
  unfold State.inFlight
  induction s.flight with
  | nil => rfl
  | cons future rest ih =>
      rw [List.countP_cons, List.map_cons, List.sum_cons, ← ih, ResponseFuture.share]
      by_cases hattributes : future.state.activeRequestsAttributes = attributes
      · simp [hattributes]
        omega
      · simp [hattributes]

theorem mem_bodySizes {state : ResponseMetricState} {res : Except String Response}
    {m : Measurement I} (h : m ∈ (bodySizes state res : List (Measurement I))) :
    ∃ size, m = .requestBodySize size state.attributes ∨
      m = .responseBodySize size state.attributes := by
  rcases List.mem_append.mp h with h | h
  · obtain ⟨size, _, hsize⟩ := Option.map_eq_some_iff.mp (Option.mem_toList.mp h)
    exact ⟨size, .inl hsize.symm⟩
  · cases res with
    | error _ => exact absurd h List.not_mem_nil
    | ok response =>
        obtain ⟨size, _, hsize⟩ := Option.map_eq_some_iff.mp (Option.mem_toList.mp h)
        exact ⟨size, .inr hsize.symm⟩

theorem sum_delta_bodySizes (state : ResponseMetricState) (res : Except String Response)
    (attributes : List KeyValue) :
    ((bodySizes state res : List (Measurement I)).map (Measurement.delta attributes)).sum = 0 := by
  apply List.sum_eq_zero
  intro n hn
  obtain ⟨m, hm, rfl⟩ := List.mem_map.mp hn
  obtain ⟨size, rfl | rfl⟩ := mem_bodySizes hm
  · rfl
  · rfl

/-- A poll subtracts what the future added when it completes, and nothing before. -/
theorem sum_delta_poll (future : ResponseFuture I) (now : Nat)
    (inner : Option (Except String Response)) (attributes : List KeyValue) :
    ((future.poll now inner).1.map (Measurement.delta attributes)).sum =
      ((future.poll now inner).2.toList.map fun future => future.share attributes).sum -
        future.share attributes := by
  cases inner with
  | none => simp [ResponseFuture.poll]
  | some res =>
      unfold ResponseFuture.poll
      simp only [List.map_append, List.sum_append, sum_delta_bodySizes]
      simp only [Measurement.delta, activeRequestsAttributes_push, ResponseFuture.share,
        List.map_cons, List.map_nil, List.sum_cons, List.sum_nil, Option.toList_none]
      split <;> omega

/-- What has been added for requests that are not in flight any more. -/
def State.leaked (s : State I) (attributes : List KeyValue) : Int :=
  s.activeSum attributes - s.inFlight attributes

theorem activeSum_append (s : State I) (flight : List (ResponseFuture I))
    (measurements : List (Measurement I)) (attributes : List KeyValue) :
    State.activeSum { flight := flight, log := s.log ++ measurements } attributes =
      s.activeSum attributes + (measurements.map (Measurement.delta attributes)).sum := by
  unfold State.activeSum
  rw [List.map_append, List.sum_append]

theorem leaked_call (s : State I) (request : I) (req : Request) (now : Nat) :
    (s.call request req now).leaked = s.leaked := by
  funext attributes
  unfold State.leaked State.call
  simp only
  rw [activeSum_append, inFlight_eq_sum, inFlight_eq_sum, List.map_append, List.sum_append]
  simp [ResponseFuture.share, Measurement.delta]

theorem leaked_poll {s : State I} {pre post : List (ResponseFuture I)} {future : ResponseFuture I}
    (h : s.flight = pre ++ future :: post) (now : Nat) (inner : Option (Except String Response)) :
    State.leaked {
      flight := pre ++ (future.poll now inner).2.toList ++ post
      log := s.log ++ (future.poll now inner).1 } = s.leaked := by
  funext attributes
  unfold State.leaked
  rw [activeSum_append, sum_delta_poll, inFlight_eq_sum, inFlight_eq_sum, h]
  simp only [List.map_append, List.map_cons, List.sum_append, List.sum_cons]
  omega

theorem leaked_drop {s : State I} {pre post : List (ResponseFuture I)} {future : ResponseFuture I}
    (h : s.flight = pre ++ future :: post) (attributes : List KeyValue) :
    State.leaked { s with flight := pre ++ post } attributes =
      s.leaked attributes + future.share attributes := by
  have hsum : State.activeSum { s with flight := pre ++ post } attributes =
      s.activeSum attributes := rfl
  unfold State.leaked
  rw [hsum, inFlight_eq_sum, inFlight_eq_sum, h]
  simp only [List.map_append, List.map_cons, List.sum_append, List.sum_cons]
  omega

theorem leaked_le {s t : State I} {act : Act I} (h : Step s act t) : s.leaked ≤ t.leaked := by
  cases h with
  | call _ => exact (leaked_call _ _ _ _).ge
  | poll hflight => exact (leaked_poll hflight _ _).ge
  | drop hflight =>
      intro attributes
      rw [leaked_drop hflight]
      apply Int.le_add_of_nonneg_right
      unfold ResponseFuture.share
      split <;> decide

theorem leaked_eq_iff {s t : State I} {act : Act I} (h : Step s act t) :
    t.leaked = s.leaked ↔ act.completes := by
  cases h with
  | call _ => exact iff_of_true (leaked_call _ _ _ _) trivial
  | poll hflight => exact iff_of_true (leaked_poll hflight _ _) trivial
  | @drop _ _ future hflight =>
      apply iff_of_false _ id
      intro heq
      have hshare := congrFun heq future.state.activeRequestsAttributes
      rw [leaked_drop hflight, ResponseFuture.share, if_pos rfl] at hshare
      omega

/-! ## One set of attributes for a request -/

theorem activeRequests_mem_poll {future : ResponseFuture I} {now : Nat}
    {inner : Option (Except String Response)} {request : I} {delta : Int}
    {attributes : List KeyValue}
    (h : .activeRequests request delta attributes ∈ (future.poll now inner).1) :
    request = future.request ∧ attributes = future.state.activeRequestsAttributes := by
  cases inner with
  | none => exact absurd h List.not_mem_nil
  | some res =>
      rcases List.mem_append.mp h with h | h
      · simp only [List.mem_cons, List.not_mem_nil, or_false, reduceCtorEq, false_or,
          Measurement.activeRequests.injEq] at h
        obtain ⟨hrequest, _, hattributes⟩ := h
        rw [activeRequestsAttributes_push] at hattributes
        exact ⟨hrequest, hattributes⟩
      · obtain ⟨size, hsize | hsize⟩ := mem_bodySizes h
        · cases hsize
        · cases hsize

theorem mem_toList_poll {future future' : ResponseFuture I} {now : Nat}
    {inner : Option (Except String Response)} (h : future' ∈ (future.poll now inner).2.toList) :
    future' = future := by
  cases inner with
  | none => exact List.mem_singleton.mp h
  | some res => exact absurd h List.not_mem_nil

/-- A future in flight has been counted, and no request has two sets of attributes. -/
structure Recorded (s : State I) : Prop where
  counted : ∀ future ∈ s.flight,
    .activeRequests future.request 1 future.state.activeRequestsAttributes ∈ s.log
  same : SameAttributes s

theorem recorded_init : Recorded (State.init : State I) :=
  ⟨fun _ h => absurd h List.not_mem_nil, fun _ _ _ _ _ h => absurd h List.not_mem_nil⟩

theorem recorded_call {s : State I} (hs : Recorded s) {request : I}
    (hfresh : ∀ delta attributes, .activeRequests request delta attributes ∉ s.log)
    (req : Request) (now : Nat) : Recorded (s.call request req now) := by
  have hnew : ∀ request' delta attributes,
      .activeRequests request' delta attributes ∈ (s.call request req now).log →
      .activeRequests request' delta attributes ∈ s.log ∨ (request' = request ∧
        attributes = (ResponseMetricState.new req now).activeRequestsAttributes) := by
    intro request' delta attributes h
    rcases List.mem_append.mp h with h | h
    · exact .inl h
    · obtain ⟨rfl, rfl, rfl⟩ := Measurement.activeRequests.inj (List.mem_singleton.mp h)
      exact .inr ⟨rfl, rfl⟩
  constructor
  · intro future hfuture
    rcases List.mem_append.mp hfuture with hfuture | hfuture
    · exact List.mem_append_left _ (hs.counted future hfuture)
    · obtain rfl := List.mem_singleton.mp hfuture
      exact List.mem_append_right _ List.mem_cons_self
  · intro request' delta attributes delta' attributes' h h'
    rcases hnew _ _ _ h with hlog | ⟨hrequest, hattributes⟩
    · rcases hnew _ _ _ h' with hlog' | ⟨hrequest', _⟩
      · exact hs.same _ _ _ _ _ hlog hlog'
      · exact absurd (hrequest' ▸ hlog) (hfresh _ _)
    · rcases hnew _ _ _ h' with hlog' | ⟨_, hattributes'⟩
      · exact absurd (hrequest ▸ hlog') (hfresh _ _)
      · rw [hattributes, hattributes']

theorem recorded_poll {s : State I} (hs : Recorded s) {pre post : List (ResponseFuture I)}
    {future : ResponseFuture I} (hflight : s.flight = pre ++ future :: post) (now : Nat)
    (inner : Option (Except String Response)) :
    Recorded {
      flight := pre ++ (future.poll now inner).2.toList ++ post
      log := s.log ++ (future.poll now inner).1 } := by
  have hmem : future ∈ s.flight := by
    rw [hflight]
    exact List.mem_append_right _ List.mem_cons_self
  have hold : ∀ request delta attributes,
      .activeRequests request delta attributes ∈ s.log ++ (future.poll now inner).1 →
      ∃ delta', .activeRequests request delta' attributes ∈ s.log := by
    intro request delta attributes h
    rcases List.mem_append.mp h with h | h
    · exact ⟨delta, h⟩
    · obtain ⟨rfl, rfl⟩ := activeRequests_mem_poll h
      exact ⟨1, hs.counted future hmem⟩
  constructor
  · intro future' hfuture'
    apply List.mem_append_left
    apply hs.counted
    rw [hflight]
    rcases List.mem_append.mp hfuture' with hfuture' | hpost
    · rcases List.mem_append.mp hfuture' with hpre | hpolled
      · exact List.mem_append_left _ hpre
      · obtain rfl := mem_toList_poll hpolled
        exact List.mem_append_right _ List.mem_cons_self
    · exact List.mem_append_right _ (List.mem_cons_of_mem _ hpost)
  · intro request delta attributes delta' attributes' h h'
    obtain ⟨_, h⟩ := hold _ _ _ h
    obtain ⟨_, h'⟩ := hold _ _ _ h'
    exact hs.same _ _ _ _ _ h h'

theorem recorded_step {s t : State I} {act : Act I} (h : Step s act t) (hs : Recorded s) :
    Recorded t := by
  cases h with
  | call hfresh => exact recorded_call hs hfresh _ _
  | poll hflight => exact recorded_poll hs hflight _ _
  | drop hflight =>
      refine ⟨?_, hs.same⟩
      intro future hfuture
      apply hs.counted
      rw [hflight]
      rcases List.mem_append.mp hfuture with hpre | hpost
      · exact List.mem_append_left _ hpre
      · exact List.mem_append_right _ (List.mem_cons_of_mem _ hpost)

/-! ## Runs -/

/-- In every run the sum recorded for each set of attributes is the number of requests with it
in flight, and each request is added and subtracted with the same attributes, exactly if no
future is dropped. -/
theorem active_iff {acts : List (Act I)} {t : State I} (h : Run Step State.init acts t) :
    (∀ attributes, t.activeSum attributes = t.inFlight attributes) ∧ SameAttributes t ↔
      ∀ act ∈ acts, act.completes := by
  have hsame : SameAttributes t :=
    (h.invariant (I := Recorded) (fun _ _ _ => recorded_step) recorded_init).same
  have hinit : (State.init : State I).leaked = 0 := rfl
  have hleaked : (∀ attributes, t.activeSum attributes = t.inFlight attributes) ↔
      t.leaked = (State.init : State I).leaked := by
    rw [hinit, funext_iff]
    apply forall_congr'
    intro attributes
    exact Int.sub_eq_zero.symm
  rw [and_iff_left hsame, hleaked, ← Run.guarded_iff_forall h]
  exact Run.guarded_iff_of_loss State.leaked (fun _ _ _ => leaked_le)
    (fun _ _ _ => leaked_eq_iff) h

namespace Sample

def req : Request :=
  { method := .get
    host := some "localhost"
    port := some 8080
    version := .http11
    matchedPath := some "/users"
    contentLength := none
    exactSize := some 0 }

def res : Response := { status := 200, contentLength := some 2, exactSize := none }

def attributes : List KeyValue :=
  [⟨"http.request.method", .string "GET"⟩, ⟨"server.address", .string "localhost"⟩,
    ⟨"server.port", .i64 8080⟩]

def upload : Request :=
  { method := .post
    host := some "localhost"
    port := none
    version := .http2
    matchedPath := none
    contentLength := some 512
    exactSize := none }

def uploadAttributes : List KeyValue :=
  [⟨"http.request.method", .string "POST"⟩, ⟨"server.address", .string "localhost"⟩]

def called : State Nat := State.init.call 0 req 0

theorem run_called : Run Step (State.init : State Nat) [.call 0 req 0] called :=
  Run.single (.call fun _ _ => List.not_mem_nil)

/-- The upload comes while the first request is handled, and completes before it. -/
def interleaved : List (Act Nat) :=
  [.call 0 req 0, .call 1 upload 1, .poll 0 2 none, .poll 1 3 (some (.ok res)), .poll 0 4 none]

end Sample

theorem completed_request_not_counted :
    ∃ t, Run Step (State.init : State Nat) Sample.interleaved t ∧
      t.activeSum Sample.attributes = 1 ∧ t.activeSum Sample.uploadAttributes = 0 ∧
      SameAttributes t := by
  have hcalled := Sample.run_called.snoc (@Step.call _ _ 1 Sample.upload 1 (by
    simp [Sample.called, State.call, State.init]))
  have hpolled := hcalled.snoc (@Step.poll _ _ [] [_] _ 2 none rfl)
  have hdone := hpolled.snoc (@Step.poll _ _ [_] [] _ 3 (some (.ok Sample.res)) rfl)
  have hpending := hdone.snoc (@Step.poll _ _ [] [] _ 4 none rfl)
  have hcompletes : ∀ act ∈ Sample.interleaved, act.completes := by
    simp [Sample.interleaved, Act.completes]
  obtain ⟨hactive, hsame⟩ := (active_iff hpending).mpr hcompletes
  exact ⟨_, hpending, hactive Sample.attributes, hactive Sample.uploadAttributes, hsame⟩

/-- After the client has gone nothing is in flight, and one request is still counted. -/
theorem dropped_request_counted :
    ∃ t, Run Step (State.init : State Nat) [.call 0 Sample.req 0, .drop 0] t ∧ t.flight = [] ∧
      t.activeSum Sample.attributes = 1 ∧ t.inFlight Sample.attributes = 0 := by
  have hdropped := Sample.run_called.snoc (@Step.drop _ _ [] [] _ rfl)
  exact ⟨_, hdropped, rfl, rfl, rfl⟩

end Summer.OpenTelemetry
