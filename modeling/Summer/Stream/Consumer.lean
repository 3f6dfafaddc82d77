/-
A consumer's task (`summer-stream/src/consumer.rs`, `handler.rs`, `extractor.rs`).

One task polls a message, extracts the arguments of the handler from it and awaits the
handler, over and over.  An extractor has no way to fail but to panic, and a panic ends the
task; a handler that does not return keeps it.  What a run of the task has done is given as
a function of the results of its polls.
-/
import Summer.App.Schedule

namespace Summer.Stream

/-- `P` is the type of payloads. -/
structure SeaMessage (P : Type) where
  streamKey : String
  shardId : Nat
  sequence : Nat
  timestamp : Nat
  payload : P
deriving DecidableEq, Repr

/-- The type of an extractor; components, configurations and decoded payloads are those of a
named type. -/
inductive Extractor
  | streamKey
  | seqNo
  | shardId
  | timestamp
  | messageHeader
  | sharedMessage
  | component (type : String)
  | config (type : String)
  | json (type : String)
deriving DecidableEq, Repr

/-- What an extractor hands to the handler; `V` is the type of components, configurations and
decoded payloads. -/
inductive Arg (P V : Type)
  | streamKey (key : String)
  | seqNo (sequence : Nat)
  | shardId (shardId : Nat)
  | timestamp (timestamp : Nat)
  | messageHeader (key : String) (shardId sequence timestamp : Nat)
  | sharedMessage (message : SeaMessage P)
  | value (v : V)
deriving DecidableEq

/-- What the extractors look up. -/
structure Lookup (P V : Type) where
  getComponentRef : String → Option V
  getConfig : String → Except String V
  deserializeJson : String → P → Except String V

variable {P V : Type}

/-- `from_msg`; an error is the text of the panic. -/
def Extractor.fromMsg (app : Lookup P V) (msg : SeaMessage P) : Extractor → Except String (Arg P V)
  | .streamKey => .ok (.streamKey msg.streamKey)
  | .seqNo => .ok (.seqNo msg.sequence)
  | .shardId => .ok (.shardId msg.shardId)
  | .timestamp => .ok (.timestamp msg.timestamp)
  | .messageHeader => .ok (.messageHeader msg.streamKey msg.shardId msg.sequence msg.timestamp)
  | .sharedMessage => .ok (.sharedMessage msg)
  | .component type =>
    match app.getComponentRef type with
    | some v => .ok (.value v)
    | none => .error ("There is no component of `" ++ type ++ "` type")
  | .config type =>
    match app.getConfig type with
    | .ok v => .ok (.value v)
    | .error e => .error ("get config failed for typeof " ++ type ++ ": " ++ e)
  | .json type =>
    match app.deserializeJson type msg.payload with
    | .ok v => .ok (.value v)
    | .error e => .error ("stream message parse as json failed: " ++ e)

/-- How the future of a handler ends. -/
inductive HandlerEnd
  | done
  | panicked (text : String)
  | pending
deriving DecidableEq, Repr

/-- A listener: its extractors and its body.  What the body does may depend on the calls made
before. -/
structure Handler (P V : Type) where
  extractors : List Extractor
  body : List (SeaMessage P × List (Arg P V)) → List (Arg P V) → HandlerEnd

/-- The result of `consumer.next()`. -/
inductive Poll (P : Type)
  | message (msg : SeaMessage P)
  | failed (cause : String)
deriving DecidableEq, Repr

/-- Where the task is. -/
inductive Ending
  | polling
  | handling
  | returned (e : String)
  | panicked (text : String)
deriving DecidableEq, Repr

/-- The calls of the handler so far, and where the task is. -/
structure Consumed (P V : Type) where
  offered : List (SeaMessage P × List (Arg P V))
  ending : Ending

namespace Handler

/-- `from_msg` of every extractor, in their order. -/
def extract (app : Lookup P V) (handler : Handler P V) (msg : SeaMessage P) :
    Except String (List (Arg P V)) :=
  handler.extractors.mapM (Extractor.fromMsg app msg)

/-- `ConsumerInstance::schedule`, when the polls have these results. -/
def schedule (app : Lookup P V) (handler : Handler P V) :
    List (SeaMessage P × List (Arg P V)) → List (Poll P) → Consumed P V
  | offered, [] => { offered := offered, ending := .polling }
  | offered, .failed cause :: _ =>
    { offered := offered, ending := .returned ("consumer poll msg failed: " ++ cause) }
  | offered, .message msg :: polls =>
    match handler.extract app msg with
    | .error text => { offered := offered, ending := .panicked text }
    | .ok args =>
      match handler.body offered args with
      | .done => handler.schedule app (offered ++ [(msg, args)]) polls
      | .panicked text => { offered := offered ++ [(msg, args)], ending := .panicked text }
      | .pending => { offered := offered ++ [(msg, args)], ending := .handling }

end Handler

/-- The messages that were delivered. -/
def delivered (polls : List (Poll P)) : List (SeaMessage P) :=
  polls.filterMap fun poll =>
    match poll with
    | .message msg => some msg
    | .failed _ => none

/-! ## Which messages reach the handler -/

/-- The messages of `polls` are offered one after the other and the handler returns each
time. -/
inductive Handled (app : Lookup P V) (handler : Handler P V) :
    List (Poll P) → List (SeaMessage P × List (Arg P V)) → Prop
  | nil : Handled app handler [] []
  | snoc {polls : List (Poll P)} {offered : List (SeaMessage P × List (Arg P V))}
      {msg : SeaMessage P} {args : List (Arg P V)} :
      Handled app handler polls offered → handler.extract app msg = .ok args →
      handler.body offered args = .done →
      Handled app handler (polls ++ [.message msg]) (offered ++ [(msg, args)])

/-- What stops the task after `offered`, and what it has done then. -/
inductive Stops (app : Lookup P V) (handler : Handler P V)
    (offered : List (SeaMessage P × List (Arg P V))) : Poll P → Consumed P V → Prop
  | pollFailed (cause : String) :
      Stops app handler offered (.failed cause)
        { offered := offered, ending := .returned ("consumer poll msg failed: " ++ cause) }
  | extractorPanicked {msg : SeaMessage P} {text : String} :
      handler.extract app msg = .error text →
      Stops app handler offered (.message msg) { offered := offered, ending := .panicked text }
  | handlerPanicked {msg : SeaMessage P} {args : List (Arg P V)} {text : String} :
      handler.extract app msg = .ok args → handler.body offered args = .panicked text →
      Stops app handler offered (.message msg)
        { offered := offered ++ [(msg, args)], ending := .panicked text }
  | handlerPending {msg : SeaMessage P} {args : List (Arg P V)} :
      handler.extract app msg = .ok args → handler.body offered args = .pending →
      Stops app handler offered (.message msg)
        { offered := offered ++ [(msg, args)], ending := .handling }

/-- A payload that one of the `Json` extractors cannot decode. -/
def Undecodable (app : Lookup P V) (handler : Handler P V) (msg : SeaMessage P) : Prop :=
  ∃ type e, .json type ∈ handler.extractors ∧ app.deserializeJson type msg.payload = .error e

section
variable {app : Lookup P V} {handler : Handler P V}

theorem mapM_error_of_mem {α β ε : Type} {f : α → Except ε β} {l : List α} {a : α} {e : ε}
    (ha : a ∈ l) (he : f a = .error e) : ∃ e', l.mapM f = .error e' := by
  induction l with
  | nil => cases ha
  | cons b rest ih =>
      rw [List.mapM_cons]
      cases hb : f b with
      | error e' => exact ⟨e', rfl⟩
      | ok v =>
          rcases List.mem_cons.mp ha with rfl | hrest
          · rw [he] at hb
            cases hb
          · obtain ⟨e', hmap⟩ := ih hrest
            rw [hmap]
            exact ⟨e', rfl⟩

theorem extract_of_undecodable {msg : SeaMessage P} (h : Undecodable app handler msg) :
    ∃ text, handler.extract app msg = .error text := by
  obtain ⟨type, e, hjson, he⟩ := h
  have hpanic : Extractor.fromMsg app msg (.json type) =
      .error ("stream message parse as json failed: " ++ e) := by
    simp only [Extractor.fromMsg, he]
  exact mapM_error_of_mem hjson hpanic

theorem delivered_append (first second : List (Poll P)) :
    delivered (first ++ second) = delivered first ++ delivered second :=
  List.filterMap_append

theorem Handled.messages {polls : List (Poll P)} {offered : List (SeaMessage P × List (Arg P V))}
    (h : Handled app handler polls offered) : offered.map Prod.fst = delivered polls := by
  induction h with
  | nil => rfl
  | snoc _ _ _ ih =>
      rw [List.map_append, delivered_append, ih]
      rfl

/-- The loop stops at its first poll, or handles it and goes on. -/
theorem schedule_cons {before : List (Poll P)} {offered : List (SeaMessage P × List (Arg P V))}
    (h : Handled app handler before offered) (poll : Poll P) (polls : List (Poll P)) :
    Stops app handler offered poll (handler.schedule app offered (poll :: polls)) ∨
      ∃ offered', Handled app handler (before ++ [poll]) offered' ∧
        handler.schedule app offered (poll :: polls) = handler.schedule app offered' polls := by
  cases poll with
  | failed cause => exact .inl (.pollFailed cause)
  | message msg =>
      cases hextract : handler.extract app msg with
      | error text =>
          have heq : handler.schedule app offered (.message msg :: polls) =
              { offered := offered, ending := .panicked text } := by
            simp only [Handler.schedule, hextract]
          rw [heq]
          exact .inl (.extractorPanicked hextract)
      | ok args =>
          cases hbody : handler.body offered args with
          | panicked text =>
              have heq : handler.schedule app offered (.message msg :: polls) =
                  { offered := offered ++ [(msg, args)], ending := .panicked text } := by
                simp only [Handler.schedule, hextract, hbody]
              rw [heq]
              exact .inl (.handlerPanicked hextract hbody)
          | pending =>
              have heq : handler.schedule app offered (.message msg :: polls) =
                  { offered := offered ++ [(msg, args)], ending := .handling } := by
                simp only [Handler.schedule, hextract, hbody]
              rw [heq]
              exact .inl (.handlerPending hextract hbody)
          | done =>
              have heq : handler.schedule app offered (.message msg :: polls) =
                  handler.schedule app (offered ++ [(msg, args)]) polls := by
                simp only [Handler.schedule, hextract, hbody]
              exact .inr ⟨_, h.snoc hextract hbody, heq⟩

/-- The loop, after it has handled `before`. -/
theorem schedule_from {before polls : List (Poll P)}
    {offered : List (SeaMessage P × List (Arg P V))} (h : Handled app handler before offered) :
    (∃ offered', Handled app handler (before ++ polls) offered' ∧
        handler.schedule app offered polls = { offered := offered', ending := .polling }) ∨
      ∃ between poll after offered', polls = between ++ poll :: after ∧
        Handled app handler (before ++ between) offered' ∧
        Stops app handler offered' poll (handler.schedule app offered polls) := by
  induction polls generalizing before offered with
  | nil => exact .inl ⟨offered, by rw [List.append_nil]; exact h, rfl⟩
  | cons poll polls ih =>
      rcases schedule_cons h poll polls with hstops | ⟨offered', hhandled, heq⟩
      · refine .inr ⟨[], poll, polls, offered, rfl, ?_, hstops⟩
        rw [List.append_nil]
        exact h
      · rw [heq]
        have hassoc : ∀ rest, (before ++ [poll]) ++ rest = before ++ poll :: rest := by
          intro rest
          rw [List.append_assoc]
          rfl
        rcases ih hhandled with ⟨offered'', hall, hrun⟩ |
          ⟨between, stop, after, offered'', rfl, hall, hstops⟩
        · exact .inl ⟨offered'', hassoc polls ▸ hall, hrun⟩
        · exact .inr ⟨poll :: between, stop, after, offered'', rfl, hassoc between ▸ hall, hstops⟩

theorem Stops.offered_eq {offered : List (SeaMessage P × List (Arg P V))} {poll : Poll P}
    {run : Consumed P V} (h : Stops app handler offered poll run) :
    run.offered.map Prod.fst <+: offered.map Prod.fst ++ delivered [poll] := by
  cases h with
  | pollFailed cause => exact List.prefix_append _ _
  | extractorPanicked _ => exact List.prefix_append _ _
  | handlerPanicked _ _ => exact ⟨[], by simp [delivered]⟩
  | handlerPending _ _ => exact ⟨[], by simp [delivered]⟩

/-- The messages are offered in the order of delivery, without a gap and each at most once:
all of them, if every one could be extracted and handled and no poll failed, or those before
the poll at which the task stopped.  A payload that does not decode is such a stop. -/
theorem offered_until_stopped (app : Lookup P V) (handler : Handler P V) (polls : List (Poll P)) :
    (∀ msg, Undecodable app handler msg → ∃ text, handler.extract app msg = .error text) ∧
    (handler.schedule app [] polls).offered.map Prod.fst <+: delivered polls ∧
      ((∃ offered, Handled app handler polls offered ∧
          offered.map Prod.fst = delivered polls ∧
          handler.schedule app [] polls = { offered := offered, ending := .polling }) ∨
        ∃ before poll after offered, polls = before ++ poll :: after ∧
          Handled app handler before offered ∧ offered.map Prod.fst = delivered before ∧
          Stops app handler offered poll (handler.schedule app [] polls)) := by
  rcases @schedule_from P V app handler [] polls [] .nil with ⟨offered, hall, hrun⟩ |
    ⟨before, poll, after, offered, hpolls, hall, hstops⟩
  · have hmessages : offered.map Prod.fst = delivered polls := hall.messages
    refine ⟨fun _ => extract_of_undecodable, ?_, .inl ⟨offered, hall, hmessages, hrun⟩⟩
    rw [hrun, hmessages]
  · have hmessages : offered.map Prod.fst = delivered before := hall.messages
    refine ⟨fun _ => extract_of_undecodable, ?_, ?_⟩
    · have hdelivered : delivered polls =
          delivered before ++ delivered [poll] ++ delivered after := by
        rw [hpolls, ← delivered_append, ← delivered_append, List.append_assoc]
        rfl
      rw [hdelivered, ← hmessages]
      exact hstops.offered_eq.trans (List.prefix_append _ _)
    · exact .inr ⟨before, poll, after, offered, hpolls, hall, hmessages, hstops⟩

end

namespace Sample

/-- Decoding takes two payloads. -/
def lookup : Lookup String Nat where
  getComponentRef := fun _ => none
  getConfig := fun type => .error ("missing " ++ type)
  deserializeJson := fun _ payload =>
    if payload = "7" then .ok 7 else if payload = "8" then .ok 8 else .error "expected value"

def jsonHandler : Handler String Nat where
  extractors := [.json "u64"]
  body := fun _ _ => .done

def message (sequence : Nat) (payload : String) : SeaMessage String where
  streamKey := "topic"
  shardId := 0
  sequence := sequence
  timestamp := 0
  payload := payload

def polls : List (Poll String) :=
  [.message (message 1 "7"), .message (message 2 "oops"), .message (message 3 "8")]

end Sample

/-- One payload that does not decode, and no later message is offered. -/
theorem undecodable_message_ends_task :
    (Sample.jsonHandler.schedule Sample.lookup [] Sample.polls).ending =
        .panicked "stream message parse as json failed: expected value" ∧
      (Sample.jsonHandler.schedule Sample.lookup [] Sample.polls).offered.map Prod.fst =
        [Sample.message 1 "7"] ∧
      (Sample.jsonHandler.schedule Sample.lookup [] Sample.polls).offered.map Prod.fst ≠
        delivered Sample.polls := by
  decide

/-! ## The application -/

/-- How the task of a consumer ends, if it does. -/
def Ending.taskEnd : Ending → Option TaskEnd
  | .polling => none
  | .handling => none
  | .returned e => some (.err (.otherError e))
  | .panicked _ => some .panicked

theorem hook_not_mem_joinAll {C W T : Type} (cl : Closures W C T) (app : App W C)
    (handles : List T) (hook : T) : .hook hook ∉ (AppBuilder.joinAll cl app handles).trace := by
  induction handles with
  | nil => exact List.not_mem_nil
  | cons task handles ih =>
      unfold AppBuilder.joinAll
      rw [Stage.mem_andThen (by simp)]
      exact fun h => ih h.2

/-- When a consumer has panicked, the application ends with an error and runs no hook. -/
theorem schedule_of_panicked_consumer {C W T : Type} {cl : Closures W C T}
    {builder : AppBuilder W C T} {task : T} {run : Consumed P V} {text : String}
    (htask : task ∈ builder.schedulers)
    (hend : run.ending.taskEnd = some (cl.task builder.buildApp task))
    (hpanic : run.ending = .panicked text) :
    (AppBuilder.schedule cl builder).result ≠ .ok () ∧
      ∀ hook, .hook hook ∉ (AppBuilder.schedule cl builder).trace := by
  have htaskEnd : cl.task builder.buildApp task = .panicked := by
    rw [hpanic] at hend
    exact (Option.some.inj hend).symm
  have hjoin :
      (AppBuilder.joinAll cl builder.buildApp builder.schedulers.reverse).result ≠ .ok () := by
    intro h
    exact (AppBuilder.joinAll_result _ _ _).mp h task (List.mem_reverse.mpr htask) htaskEnd
  unfold AppBuilder.schedule
  constructor
  · intro h
    have hspawn := (Stage.andThen_result_ok.mp h).2
    exact hjoin (Stage.andThen_result_ok.mp (Stage.andThen_result_ok.mp hspawn).2).1
  · intro hook hmem
    have hspawn := ((Stage.mem_andThen (by simp)).mp hmem).2
    have hrest := ((Stage.mem_andThen (by simp [AppBuilder.spawnAll])).mp hspawn).2
    exact hjoin ((Stage.mem_andThen (hook_not_mem_joinAll _ _ _ _)).mp hrest).1

end Summer.Stream
