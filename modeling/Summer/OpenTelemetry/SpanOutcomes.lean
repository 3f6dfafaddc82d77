/-
What the spans of the tracing middleware say of their requests (`record_response` and
`record_error` of `summer-opentelemetry/src/trace/http.rs` and `grpc.rs`).

A span is empty until the future under it has completed, and then says what it completed with,
also where other requests are under way on the same threads (`spans_record_outcomes`).  The span
of a future that is dropped stays as it is: a request that is given up leaves no error.
-/
import Summer.OpenTelemetry.Trace

namespace Summer.OpenTelemetry.Trace

variable {T S H B E L : Type} {w : World S H B E L}

/-! ## What is recorded -/

/-- What the span of a server says. -/
def Phase.outcome (layer : TraceLayer) : Phase S H B E L → Fields E
  | .completed result => State.recorded .empty layer .server result
  | _ => .empty

/-- The handler waits for the response to this call. -/
def Phase.Waits (phase : Phase S H B E L) (c : ℕ) : Prop :=
  ∃ next, phase = .waiting c next

/-- The span of a client is empty while the caller waits, or if it gave up then, and says what the
caller was told if it was told. -/
def CallRecorded (s : State T S H B E L) (layer : TraceLayer) (phase : Phase S H B E L)
    (c span : ℕ) : Prop :=
  (s.fields span = .empty ∧ (phase = .dropped ∨ phase.Waits c)) ∨
    ∃ result, s.reply c = some result ∧
      s.fields span = State.recorded .empty layer .client result ∧ ¬ phase.Waits c

def State.kind (s : State T S H B E L) (k : ℕ) : Option SpanKind :=
  s.spans[k]?.map Span.kind

/-- Every span is that of one task or of one call, and says what has become of it. -/
structure Outcomes (w : World S H B E L) (s : State T S H B E L)
    (phase : ℕ → Phase S H B E L) : Prop where
  unused : ∀ k, s.spans.length ≤ k → s.fields k = .empty
  server : ∀ (i : ℕ) (task : Task S H B), s.tasks[i]? = some task →
    s.kind task.span = some .server ∧
      s.fields task.span = (phase i).outcome (w.layer .server task.service)
  client : ∀ (c : ℕ) (call : Call S H B), s.calls[c]? = some call →
    s.kind call.span = some .client ∧ call.caller < s.tasks.length ∧
      CallRecorded s (w.layer .client call.service) (phase call.caller) c call.span
  waits : ∀ i c, (phase i).Waits c → ∃ call : Call S H B, s.calls[c]? = some call ∧ call.caller = i
  tasks_inj : ∀ (i j : ℕ) (task task' : Task S H B), s.tasks[i]? = some task →
    s.tasks[j]? = some task' → task.span = task'.span → i = j
  calls_inj : ∀ (c d : ℕ) (call call' : Call S H B), s.calls[c]? = some call →
    s.calls[d]? = some call' → call.span = call'.span → c = d

theorem recorded_complete (w : World S H B E L) (s : State T S H B E L) (span : ℕ)
    (fields : Fields E) (layer : TraceLayer) (kind : SpanKind) (result : Except E (Response B)) :
    State.recorded fields layer kind (complete w s span layer result) =
      State.recorded fields layer kind result := by
  cases result with
  | error e => rfl
  | ok response =>
    cases layer with
    | grpc => rfl
    | http exportTraceId => cases exportTraceId <;> rfl

theorem waits_waiting {next : Except E (Response B) → Code S H B E L} {c d : ℕ}
    (h : (Phase.waiting c next).Waits d) : d = c := by
  obtain ⟨_, h⟩ := h
  cases h
  rfl

theorem not_waits_running (code : Code S H B E L) (c : ℕ) : ¬ (Phase.running code).Waits c := by
  intro h
  obtain ⟨_, h⟩ := h
  cases h

theorem not_waits_completed (result : Except E (Response B)) (c : ℕ) :
    ¬ (Phase.completed result : Phase S H B E L).Waits c := by
  intro h
  obtain ⟨_, h⟩ := h
  cases h

theorem not_waits_dropped (c : ℕ) : ¬ (Phase.dropped : Phase S H B E L).Waits c := by
  intro h
  obtain ⟨_, h⟩ := h
  cases h

theorem lt_of_kind {s : State T S H B E L} {k : ℕ} {kind : SpanKind} (h : s.kind k = some kind) :
    k < s.spans.length := by
  obtain ⟨_, hspan, _⟩ := Option.map_eq_some_iff.mp h
  exact (List.getElem?_eq_some_iff.mp hspan).1

theorem kind_of_append {s s' : State T S H B E L} {spans : List Span}
    (hs' : s'.spans = s.spans ++ spans) {k : ℕ} {kind : SpanKind} (h : s.kind k = some kind) :
    s'.kind k = some kind := by
  obtain ⟨span, hspan, hkind⟩ := Option.map_eq_some_iff.mp h
  rw [State.kind, hs', getElem?_of_append hspan, Option.map_some, hkind]

theorem CallRecorded.running {s : State T S H B E L} {layer : TraceLayer}
    {phase : Phase S H B E L} {c span : ℕ} (h : CallRecorded s layer phase c span)
    (hdropped : phase ≠ .dropped) (hwaits : ¬ phase.Waits c) :
    ∃ result, s.reply c = some result ∧
      s.fields span = State.recorded .empty layer .client result := by
  rcases h with ⟨_, h⟩ | ⟨result, hreply, hfields, _⟩
  · exact absurd h (not_or.mpr ⟨hdropped, hwaits⟩)
  · exact ⟨result, hreply, hfields⟩

theorem outcomes_start : Outcomes w (State.start : State T S H B E L) fun _ => .dropped where
  unused := fun _ _ => rfl
  server := fun _ _ h => nomatch h
  client := fun _ _ h => nomatch h
  waits := fun _ c h => absurd h (not_waits_dropped c)
  tasks_inj := fun _ _ _ _ h => nomatch h
  calls_inj := fun _ _ _ _ h => nomatch h

/-! ## Steps -/

theorem Outcomes.congr {s s' : State T S H B E L} {phase : ℕ → Phase S H B E L}
    (h : Outcomes w s phase) (hspans : s'.spans = s.spans) (hfields : s'.fields = s.fields)
    (htasks : s'.tasks = s.tasks) (hcalls : s'.calls = s.calls) (hreply : s'.reply = s.reply) :
    Outcomes w s' phase := by
  obtain ⟨h₁, h₂, h₃, h₄, h₅, h₆⟩ := h
  constructor
  · rwa [hspans, hfields]
  · unfold State.kind at *
    rwa [hspans, hfields, htasks]
  · unfold State.kind CallRecorded at *
    rwa [hspans, hfields, htasks, hcalls, hreply]
  · rwa [hcalls]
  · rwa [htasks]
  · rwa [hcalls]

theorem Outcomes.advance {s : State T S H B E L} {phase : ℕ → Phase S H B E L}
    (h : Outcomes w s phase) {i : ℕ} {p : Phase S H B E L}
    (houtcome : ∀ layer, p.outcome layer = (phase i).outcome layer)
    (hcalls : ∀ layer c span, CallRecorded s layer (phase i) c span → CallRecorded s layer p c span)
    (hwaits : ∀ c, p.Waits c → (phase i).Waits c) : Outcomes w s (Function.update phase i p) where
  unused := h.unused
  server j task hj := by
    obtain ⟨hkind, hfields⟩ := h.server j task hj
    refine ⟨hkind, ?_⟩
    by_cases hji : j = i
    · rw [hji, Function.update_self, houtcome, ← hji]
      exact hfields
    · rwa [Function.update_of_ne hji]
  client c call hc := by
    obtain ⟨hkind, hcaller, hrecorded⟩ := h.client c call hc
    refine ⟨hkind, hcaller, ?_⟩
    by_cases hci : call.caller = i
    · rw [hci, Function.update_self]
      exact hcalls _ c call.span (hci ▸ hrecorded)
    · rwa [Function.update_of_ne hci]
  waits j c hj := by
    by_cases hji : j = i
    · rw [hji, Function.update_self] at hj
      rw [hji]
      exact h.waits i c (hwaits c hj)
    · rw [Function.update_of_ne hji] at hj
      exact h.waits j c hj
  tasks_inj := h.tasks_inj
  calls_inj := h.calls_inj

theorem outcomes_serve {s : State T S H B E L} (h : Outcomes w s s.phase) (thread : T) (service : S)
    (request : Request H B) (cause : Option ℕ) :
    Outcomes w (serve w s thread service request cause)
      (serve w s thread service request cause).phase := by
  have hold : ∀ i : ℕ, i < s.tasks.length → ∀ phase : Phase S H B E L,
      Function.update s.phase s.tasks.length phase i = s.phase i := fun i hi _ =>
    Function.update_of_ne (Nat.ne_of_lt hi) _ _
  unfold serve
  constructor
  · intro k hk
    rw [List.length_append] at hk
    exact h.unused k (Nat.le_of_add_right_le hk)
  · intro i task hi
    rcases getElem?_snoc hi with hi | ⟨rfl, rfl⟩
    · obtain ⟨hkind, hfields⟩ := h.server i task hi
      refine ⟨kind_of_append rfl hkind, ?_⟩
      simp only [hold i (List.getElem?_eq_some_iff.mp hi).1]
      exact hfields
    · refine ⟨?_, ?_⟩
      · simp only [State.kind, List.getElem?_concat_length]
        rfl
      · simp only [Function.update_self]
        exact h.unused _ (Nat.le_refl _)
  · intro c call hc
    obtain ⟨hkind, hcaller, hrecorded⟩ := h.client c call hc
    refine ⟨kind_of_append rfl hkind, ?_, ?_⟩
    · simp only [List.length_append]
      omega
    · simp only [hold _ hcaller]
      exact hrecorded
  · intro i c hwaits
    by_cases hi : i = s.tasks.length
    · simp only [hi, Function.update_self] at hwaits
      exact absurd hwaits (not_waits_running _ c)
    · simp only [Function.update_of_ne hi] at hwaits
      exact h.waits i c hwaits
  · intro i j task task' hi hj hspan
    rcases getElem?_snoc hi with hi | ⟨hlast, rfl⟩
    · have hlt := lt_of_kind (h.server i task hi).1
      rcases getElem?_snoc hj with hj | ⟨_, rfl⟩
      · exact h.tasks_inj i j task task' hi hj hspan
      · simp only at hspan
        omega
    · rcases getElem?_snoc hj with hj | ⟨hlast', rfl⟩
      · have hlt := lt_of_kind (h.server j task' hj).1
        simp only at hspan
        omega
      · rw [hlast, hlast']
  · exact h.calls_inj

theorem outcomes_send {s : State T S H B E L} {phase : ℕ → Phase S H B E L} {i : ℕ}
    {code : Code S H B E L} (h : Outcomes w s (Function.update phase i (.running code)))
    (hi : i < s.tasks.length) (thread : T) (service : S) (request : Request H B)
    (next : Except E (Response B) → Code S H B E L) :
    Outcomes w (send w s thread i service request)
      (Function.update phase i (.waiting s.calls.length next)) := by
  unfold send
  constructor
  · intro k hk
    rw [List.length_append] at hk
    exact h.unused k (Nat.le_of_add_right_le hk)
  · intro j task hj
    obtain ⟨hkind, hfields⟩ := h.server j task hj
    refine ⟨kind_of_append rfl hkind, ?_⟩
    by_cases hji : j = i
    · subst hji
      rw [Function.update_self] at hfields ⊢
      exact hfields
    · rw [Function.update_of_ne hji] at hfields ⊢
      exact hfields
  · intro c call hc
    rcases getElem?_snoc hc with hc | ⟨hlast, rfl⟩
    · obtain ⟨hkind, hcaller, hrecorded⟩ := h.client c call hc
      refine ⟨kind_of_append rfl hkind, hcaller, ?_⟩
      by_cases hci : call.caller = i
      · rw [hci, Function.update_self] at hrecorded ⊢
        -- an earlier call of this task: it has been answered
        obtain ⟨result, hreply, hfields⟩ := hrecorded.running (fun h => by cases h)
          (not_waits_running code c)
        refine Or.inr ⟨result, hreply, hfields, fun hwaits => ?_⟩
        have hlast := waits_waiting hwaits
        have hlt := (List.getElem?_eq_some_iff.mp hc).1
        omega
      · rw [Function.update_of_ne hci] at hrecorded ⊢
        exact hrecorded
    · refine ⟨?_, hi, Or.inl ⟨h.unused _ (Nat.le_refl _), Or.inr ⟨next, ?_⟩⟩⟩
      · simp only [State.kind, List.getElem?_concat_length]
        rfl
      · rw [Function.update_self, hlast]
  · intro j c hwaits
    by_cases hji : j = i
    · rw [hji, Function.update_self] at hwaits
      rw [waits_waiting hwaits]
      exact ⟨_, List.getElem?_concat_length .., hji.symm⟩
    · rw [Function.update_of_ne hji] at hwaits
      obtain ⟨call, hcall, hcaller⟩ := h.waits j c (by rwa [Function.update_of_ne hji])
      exact ⟨call, getElem?_of_append hcall _, hcaller⟩
  · exact h.tasks_inj
  · intro c d call call' hc hd hspan
    rcases getElem?_snoc hc with hc | ⟨hlast, rfl⟩
    · have hlt := lt_of_kind (h.client c call hc).1
      rcases getElem?_snoc hd with hd | ⟨_, rfl⟩
      · exact h.calls_inj c d call call' hc hd hspan
      · simp only at hspan
        omega
    · rcases getElem?_snoc hd with hd | ⟨hlast', rfl⟩
      · have hlt := lt_of_kind (h.client d call' hd).1
        simp only at hspan
        omega
      · rw [hlast, hlast']

/-- A handler goes on. -/
theorem Outcomes.resume {s : State T S H B E L} {phase : ℕ → Phase S H B E L} {i : ℕ}
    {code : Code S H B E L} (h : Outcomes w s (Function.update phase i (.running code)))
    (next : Code S H B E L) : Outcomes w s (Function.update phase i (.running next)) := by
  have hnext := h.advance (i := i) (p := .running next) ?_ ?_ ?_
  · rwa [Function.update_idem] at hnext
  · intro layer
    rw [Function.update_self]
    rfl
  · intro layer c span hrecorded
    rw [Function.update_self] at hrecorded
    obtain ⟨result, hreply, hfields⟩ := hrecorded.running (fun h => by cases h)
      (not_waits_running code c)
    exact Or.inr ⟨result, hreply, hfields, not_waits_running next c⟩
  · intro c hwaits
    exact absurd hwaits (not_waits_running next c)

/-- Before the span of the server says so, a completed handler is one that has only to answer. -/
def Phase.unsettled : Phase S H B E L → Phase S H B E L
  | .completed result => .running (.done result)
  | phase => phase

theorem outcomes_runCode {thread : T} {i : ℕ} (code : Code S H B E L)
    {s : State T S H B E L} {phase : ℕ → Phase S H B E L}
    (h : Outcomes w s (Function.update phase i (.running code))) (hi : i < s.tasks.length) :
    Outcomes w (runCode w thread i code s).1
      (Function.update phase i (runCode w thread i code s).2.unsettled) := by
  induction code generalizing s with
  | done result => exact h
  | pending next => exact h.resume next
  | log record next ih =>
    have hlogged : Outcomes w { s with logged := s.logged ++ [(i, record, (s.stack thread).head?)] }
        (Function.update phase i (.running next)) := (h.resume next).congr rfl rfl rfl rfl rfl
    exact ih hlogged hi
  | call service request next ih => exact outcomes_send h hi thread service request next

theorem outcomes_reply {s : State T S H B E L} {i c : ℕ} {sent : Call S H B}
    {next : Except E (Response B) → Code S H B E L} {phase : ℕ → Phase S H B E L}
    (h : Outcomes w s phase) (hphase : phase i = .waiting c next) (hsent : s.calls[c]? = some sent)
    {result : Except E (Response B)} (hreply : s.reply c = some result) (code : Code S H B E L) :
    Outcomes w (s.record (w.layer .client sent.service) .client sent.span result)
      (Function.update phase i (.running code)) := by
  obtain ⟨sent', hsent', hcaller⟩ := h.waits i c ⟨next, hphase⟩
  cases hsent.symm.trans hsent'
  obtain ⟨hkind, _, hrecorded⟩ := h.client c sent hsent
  have hempty : s.fields sent.span = .empty := by
    rcases hrecorded with ⟨hempty, _⟩ | ⟨_, _, _, hwaits⟩
    · exact hempty
    · rw [hcaller] at hwaits
      exact absurd ⟨next, hphase⟩ hwaits
  let layer := w.layer .client sent.service
  have hother : ∀ k, k ≠ sent.span →
      (s.record layer .client sent.span result).fields k = s.fields k :=
    fun k hk => Function.update_of_ne hk _ _
  constructor
  · intro k hk
    rw [hother k]
    · exact h.unused k hk
    · have hlt := lt_of_kind hkind
      exact (Nat.ne_of_lt (Nat.lt_of_lt_of_le hlt hk)).symm
  · intro j task hj
    obtain ⟨hkind', hfields⟩ := h.server j task hj
    refine ⟨hkind', ?_⟩
    rw [hother task.span, hfields]
    · by_cases hji : j = i
      · rw [hji, Function.update_self, hphase]
        rfl
      · rw [Function.update_of_ne hji]
    · intro hspan
      rw [hspan, hkind] at hkind'
      cases hkind'
  · intro d call hd
    obtain ⟨hkind', hcaller', hrecorded'⟩ := h.client d call hd
    refine ⟨hkind', hcaller', ?_⟩
    by_cases hdc : d = c
    · subst hdc
      cases hsent.symm.trans hd
      rw [hcaller, Function.update_self]
      refine Or.inr ⟨result, hreply, ?_, not_waits_running _ d⟩
      show Function.update s.fields sent.span
        (State.recorded (s.fields sent.span) layer .client result) sent.span = _
      rw [Function.update_self, hempty]
    · have hspan : call.span ≠ sent.span := fun heq => hdc (h.calls_inj d c call sent hd hsent heq)
      unfold CallRecorded at hrecorded' ⊢
      rw [hother call.span hspan]
      by_cases hci : call.caller = i
      · rw [hci, hphase] at hrecorded'
        rw [hci, Function.update_self]
        obtain ⟨result', hreply', hfields'⟩ := CallRecorded.running hrecorded'
          (fun h => by cases h) fun hwaits => hdc (waits_waiting hwaits)
        exact Or.inr ⟨result', hreply', hfields', not_waits_running _ d⟩
      · rwa [Function.update_of_ne hci]
  · intro j d hwaits
    by_cases hji : j = i
    · rw [hji, Function.update_self] at hwaits
      exact absurd hwaits (not_waits_running _ d)
    · rw [Function.update_of_ne hji] at hwaits
      exact h.waits j d hwaits
  · exact h.tasks_inj
  · exact h.calls_inj

theorem outcomes_settle {i : ℕ} {task : Task S H B} {s : State T S H B E L}
    {p : Phase S H B E L} (h : Outcomes w s (Function.update s.phase i p.unsettled))
    (htask : s.tasks[i]? = some task) :
    Outcomes w (settle w i task (s, p)) (settle w i task (s, p)).phase := by
  cases p with
  | running code => exact h.congr rfl rfl rfl rfl rfl
  | waiting c next => exact h.congr rfl rfl rfl rfl rfl
  | dropped => exact h.congr rfl rfl rfl rfl rfl
  | completed result =>
    obtain ⟨hkind, hempty⟩ := h.server i task htask
    rw [Function.update_self] at hempty
    have hcompleted : Outcomes w s (Function.update s.phase i (.running (.done result))) := h
    let layer := w.layer .server task.service
    have hother : ∀ k, k ≠ task.span →
        (s.record layer .server task.span result).fields k = s.fields k :=
      fun k hk => Function.update_of_ne hk _ _
    unfold settle
    constructor
    · intro k hk
      have hlt := lt_of_kind hkind
      have hne : k ≠ task.span := (Nat.ne_of_lt (Nat.lt_of_lt_of_le hlt hk)).symm
      exact (hother k hne).trans (h.unused k hk)
    · intro j task' hj
      obtain ⟨hkind', hfields⟩ := h.server j task' hj
      refine ⟨hkind', ?_⟩
      by_cases hji : j = i
      · subst hji
        cases htask.symm.trans hj
        simp only [Function.update_self, State.record, hempty]
        exact (recorded_complete w s task.span .empty layer .server result).symm
      · simp only [Function.update_of_ne hji] at hfields ⊢
        exact (hother task'.span fun heq => hji (h.tasks_inj j i task' task hj htask heq)).trans
          hfields
    · intro c call hc
      obtain ⟨hkind', hcaller, hrecorded⟩ := h.client c call hc
      refine ⟨hkind', hcaller, ?_⟩
      have hne : call.span ≠ task.span := by
        intro heq
        rw [heq, hkind] at hkind'
        cases hkind'
      unfold CallRecorded
      simp only
      rw [hother call.span hne]
      by_cases hci : call.caller = i
      · rw [hci, Function.update_self] at hrecorded ⊢
        obtain ⟨result', hreply, hfields⟩ := hrecorded.running (fun h => by cases h)
          (not_waits_running _ c)
        exact Or.inr ⟨result', hreply, hfields, not_waits_completed _ c⟩
      · rwa [Function.update_of_ne hci] at hrecorded ⊢
    · intro j c hwaits
      by_cases hji : j = i
      · simp only [hji, Function.update_self] at hwaits
        exact absurd hwaits (not_waits_completed _ c)
      · simp only [Function.update_of_ne hji] at hwaits
        exact h.waits j c (by rwa [Function.update_of_ne hji])
    · exact h.tasks_inj
    · exact h.calls_inj

theorem Outcomes.told {s : State T S H B E L} {phase : ℕ → Phase S H B E L} (h : Outcomes w s phase)
    (c : ℕ) (result : Except E (Response B)) :
    Outcomes w { s with reply := Function.update s.reply c ((s.reply c).or (some result)) }
      phase where
  unused := h.unused
  server := h.server
  client d call hd := by
    obtain ⟨hkind, hcaller, hrecorded⟩ := h.client d call hd
    refine ⟨hkind, hcaller, ?_⟩
    rcases hrecorded with hempty | ⟨result', hreply, hrest⟩
    · exact Or.inl hempty
    · refine Or.inr ⟨result', ?_, hrest⟩
      show Function.update s.reply c _ d = _
      by_cases hdc : d = c
      · rw [hdc, Function.update_self, ← hdc, hreply]
        rfl
      · rw [Function.update_of_ne hdc, hreply]
  waits := h.waits
  tasks_inj := h.tasks_inj
  calls_inj := h.calls_inj

theorem Outcomes.drop {s : State T S H B E L} {phase : ℕ → Phase S H B E L}
    (h : Outcomes w s phase) {i : ℕ} (hi : ∀ result, phase i ≠ .completed result) :
    Outcomes w s (Function.update phase i .dropped) := by
  apply h.advance
  · intro layer
    cases hphase : phase i with
    | completed result => exact absurd hphase (hi result)
    | _ => rfl
  · intro layer c span hrecorded
    rcases hrecorded with ⟨hempty, _⟩ | ⟨result, hreply, hfields, _⟩
    · exact Or.inl ⟨hempty, Or.inl rfl⟩
    · exact Or.inr ⟨result, hreply, hfields, not_waits_dropped c⟩
  · intro c hwaits
    exact absurd hwaits (not_waits_dropped c)

section
variable [DecidableEq T]

theorem outcomes_pollInner (thread : T) {i : ℕ} {s : State T S H B E L}
    (h : Outcomes w s s.phase) (hi : i < s.tasks.length)
    (hcompleted : (s.phase i).unsettled = s.phase i) :
    Outcomes w (pollInner w thread i s).1
      (Function.update s.phase i (pollInner w thread i s).2.unsettled) := by
  have hself : Outcomes w s (Function.update s.phase i (s.phase i).unsettled) := by
    rwa [hcompleted, Function.update_eq_self]
  unfold pollInner
  cases hphase : s.phase i with
  | running code =>
    rw [hphase] at hself
    exact outcomes_runCode code hself hi
  | waiting c next =>
    rw [hphase] at hself
    simp only
    cases hsent : s.calls[c]? with
    | none => exact hself
    | some sent =>
      simp only
      cases hreply : (s.enter thread sent.span).reply c with
      | none => exact hself.congr rfl rfl rfl rfl rfl
      | some result =>
        exact outcomes_runCode _
          ((outcomes_reply h hphase hsent hreply _).congr rfl rfl rfl rfl rfl) hi
  | completed result => rwa [hphase] at hself
  | dropped => rwa [hphase] at hself

theorem outcomes_poll {thread : T} {i : ℕ} {s : State T S H B E L} (h : Outcomes w s s.phase) :
    Outcomes w (poll w thread i s) (poll w thread i s).phase := by
  have hpolled : ∀ task : Task S H B, s.tasks[i]? = some task →
      (s.phase i).unsettled = s.phase i →
      Outcomes w ((settle w i task (pollInner w thread i (s.enter thread task.span))).exit thread)
        (settle w i task (pollInner w thread i (s.enter thread task.span))).phase := by
    intro task htask hrunning
    obtain ⟨_, htasks, hphase⟩ := framed_pollInner w thread i (s.enter thread task.span)
    have hinner := outcomes_pollInner (w := w) thread (i := i)
      (s := s.enter thread task.span) (h.congr rfl rfl rfl rfl rfl)
      (List.getElem?_eq_some_iff.mp htask).1 hrunning
    rw [← hphase] at hinner
    exact (outcomes_settle hinner (htasks ▸ htask)).congr rfl rfl rfl rfl rfl
  unfold poll
  cases htask : s.tasks[i]? with
  | none => exact h
  | some task =>
    cases hphase : s.phase i with
    | running code => exact hpolled task htask (by rw [hphase]; rfl)
    | waiting c next => exact hpolled task htask (by rw [hphase]; rfl)
    | completed result => exact h
    | dropped => exact h

theorem outcomes_step {s : State T S H B E L} (h : Outcomes w s s.phase) (a : Act T S H B E) :
    Outcomes w (step w s a) (step w s a).phase := by
  cases a with
  | enter thread service request => exact outcomes_serve h thread service request none
  | arrive thread call =>
    simp only [step]
    cases s.calls[call]? with
    | none => exact h
    | some sent => exact outcomes_serve h thread sent.service sent.request (some call)
  | poll thread task => exact outcomes_poll h
  | respond task =>
    simp only [step]
    split
    · exact h.told _ _
    · exact h
  | fail call e => exact h.told call (.error e)
  | drop task =>
    simp only [step]
    split
    · exact h
    · next hrunning => exact (h.drop hrunning).congr rfl rfl rfl rfl rfl

theorem outcomes_run (w : World S H B E L) (acts : List (Act T S H B E)) :
    Outcomes w (run w acts) (run w acts).phase := by
  have hfold : ∀ s : State T S H B E L, Outcomes w s s.phase →
      Outcomes w (acts.foldl (step w) s) (acts.foldl (step w) s).phase := by
    induction acts with
    | nil => exact fun _ h => h
    | cons a acts ih => exact fun s h => ih _ (outcomes_step h a)
  exact hfold _ outcomes_start

/-! ## Errors -/

/-- The least status that is an error. -/
def SpanKind.leastError : SpanKind → ℕ
  | .client => 400
  | .server => 500

/-- What counts as an error: of gRPC only that there is no response, whatever its status. -/
def TraceLayer.Failed (layer : TraceLayer) (kind : SpanKind) : Except E (Response B) → Prop
  | .ok response =>
    layer ≠ .grpc ∧ kind.leastError ≤ response.status ∧ response.status < 600
  | .error _ => True

theorem otelError_recordResponse_grpc (fields : Fields E) (kind : SpanKind)
    (response : Response B) :
    (State.recordResponse fields kind response .grpc).otelError = fields.otelError := by
  unfold State.recordResponse
  cases response.grpcStatus <;> rfl

theorem otelError_recorded_iff (layer : TraceLayer) (kind : SpanKind)
    (result : Except E (Response B)) :
    (State.recorded .empty layer kind result).otelError = true ↔ layer.Failed kind result := by
  cases result with
  | error e => exact iff_of_true rfl trivial
  | ok response =>
    cases layer with
    | grpc =>
      refine iff_of_false ?_ fun hfailed => hfailed.1 rfl
      rw [State.recorded, otelError_recordResponse_grpc]
      exact Bool.false_ne_true
    | http exportTraceId =>
      cases kind with
      | client =>
        simp only [State.recorded, State.recordResponse, Fields.empty, TraceLayer.Failed,
          SpanKind.leastError, Bool.or_eq_true, Bool.and_eq_true, decide_eq_true_eq,
          Bool.false_eq_true, false_or, beq_self_eq_true, true_and, ne_eq, reduceCtorEq,
          not_false_eq_true]
        omega
      | server =>
        have hkind : (SpanKind.server == SpanKind.client) = false := rfl
        simp only [State.recorded, State.recordResponse, Fields.empty, TraceLayer.Failed,
          SpanKind.leastError, Bool.or_eq_true, Bool.and_eq_true, decide_eq_true_eq,
          Bool.false_eq_true, false_or, hkind, false_and, ne_eq, reduceCtorEq,
          not_false_eq_true, true_and]

/-- In any order of polls and messages, the span of a task is empty until the task completes and
says then what it completed with, and the span of a call says what its caller was told of it; so a
task that fails is marked on its span, one that is dropped is not, and once a task has completed
the calls that failed are those whose spans are marked.  A gRPC response marks no span. -/
theorem spans_record_outcomes (w : World S H B E L) (acts : List (Act T S H B E)) :
    let s := run w acts
    (∀ (i : ℕ) (task : Task S H B), s.tasks[i]? = some task →
        s.fields task.span = (s.phase i).outcome (w.layer .server task.service) ∧
          ((s.fields task.span).otelError = true ↔ ∃ result, s.phase i = .completed result ∧
            (w.layer .server task.service).Failed .server result)) ∧
      ∀ (c : ℕ) (call : Call S H B), s.calls[c]? = some call →
        CallRecorded s (w.layer .client call.service) (s.phase call.caller) c call.span ∧
          ∀ result, s.phase call.caller = .completed result →
            ((s.fields call.span).otelError = true ↔ ∃ reply, s.reply c = some reply ∧
              (w.layer .client call.service).Failed .client reply) := by
  intro s
  have h : Outcomes w s s.phase := outcomes_run w acts
  constructor
  · intro i task hi
    obtain ⟨_, hfields⟩ := h.server i task hi
    refine ⟨hfields, ?_⟩
    rw [hfields]
    cases hphase : s.phase i with
    | completed result =>
      refine (otelError_recorded_iff _ .server result).trans
        ⟨fun hfailed => ⟨result, rfl, hfailed⟩, fun hfailed => ?_⟩
      obtain ⟨_, heq, hfailed⟩ := hfailed
      cases heq
      exact hfailed
    | _ =>
      refine iff_of_false Bool.false_ne_true fun hfailed => ?_
      obtain ⟨_, heq, _⟩ := hfailed
      cases heq
  · intro c call hc
    obtain ⟨_, _, hrecorded⟩ := h.client c call hc
    refine ⟨hrecorded, fun result hresult => ?_⟩
    rw [hresult] at hrecorded
    obtain ⟨reply, hreply, hfields⟩ := hrecorded.running (fun heq => by cases heq)
      (not_waits_completed result c)
    rw [hfields, otelError_recorded_iff, hreply]
    simp only [Option.some.injEq, exists_eq_left']

end

/-- The order fails over HTTP, which marks its span; that the stock has nothing, over gRPC, marks
neither the span of the server nor that of the client. -/
theorem spans_record_outcomes_sample :
    ((run Sample.world Sample.acts).fields 0).otelError = true ∧
      ((run Sample.world Sample.acts).fields 0).statusCode = some 500 ∧
      ((run Sample.world Sample.acts).fields 2).otelError = false ∧
      ((run Sample.world Sample.acts).fields 2).grpcStatusCode = some 5 ∧
      ((run Sample.world Sample.acts).fields 1).otelError = false := by
  obtain ⟨hserver, hclient⟩ := spans_record_outcomes Sample.world Sample.acts
  obtain ⟨hfields, hmarked⟩ := hserver 0 _ rfl
  obtain ⟨hfields', hmarked'⟩ := hserver 1 _ rfl
  obtain ⟨_, hmarked''⟩ := hclient 0 _ rfl
  have hgrpc : ∀ kind (result : Except String (Response Unit)) response, result = .ok response →
      ¬ TraceLayer.grpc.Failed kind result := by
    intro kind result response hresult hfailed
    subst hresult
    exact hfailed.1 rfl
  refine ⟨hmarked.mpr ⟨_, rfl, nofun, by decide, by decide⟩, ?_, ?_, ?_, ?_⟩
  · exact (congrArg Fields.statusCode hfields).trans rfl
  · refine Bool.eq_false_iff.mpr fun herror => ?_
    obtain ⟨result, hresult, hfailed⟩ := hmarked'.mp herror
    exact hgrpc .server result _ (Phase.completed.inj hresult).symm hfailed
  · exact (congrArg Fields.grpcStatusCode hfields').trans rfl
  · refine Bool.eq_false_iff.mpr fun herror => ?_
    obtain ⟨reply, hreply, hfailed⟩ := (hmarked'' _ rfl).mp herror
    exact hgrpc .client reply _ (Option.some.inj hreply).symm hfailed

end Summer.OpenTelemetry.Trace
