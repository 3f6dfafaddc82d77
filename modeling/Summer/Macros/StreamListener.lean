/-
The `stream_listener` macro (`summer-macros/src/stream.rs`): from the tokens of an attribute to
the options of a consumer.

The attribute is a list of topics and then of options.  It expands exactly when it has a topic
and every option is one of the six with a value of its kind, and then the consumer has the
topics and the last value of each option, and nothing else (`listener_ok_iff`).
-/
import Summer.Lib.Assignments
import Summer.Macros.Syntax
import Summer.Stream.Options

namespace Summer.Macros.Stream

open Assignments
open Summer.Stream (ConsumerMode)

/-- The value of an option; `P` are the paths of functions. -/
inductive ArgExpr (P : Type)
  | str (value : String)
  | path (p : P)
  | other
deriving DecidableEq, Repr

inductive Key
  | mode
  | groupId
  | fileConsumerOptions
  | stdioConsumerOptions
  | redisConsumerOptions
  | kafkaConsumerOptions
deriving DecidableEq, Repr

@[reducible] def Key.Value (P : Type) : Key → Type
  | .mode => ConsumerMode
  | .groupId => String
  | _ => P

abbrev ConsumerOpts (P : Type) := Slots (Key.Value P)

structure StreamListenerArgs (P : Type) where
  topics : List String
  opts : ConsumerOpts P

abbrev MetaNameValue (P : Type) := Path × ArgExpr P

/-- `parse_terminated(MetaNameValue::parse, Token![,])` of `syn`, which reads to the end. -/
structure PairSyn (P : Type) where
  parsePairs : TokenStream → Option (List (MetaNameValue P))

variable {P : Type}

/-- `ConsumerMode::try_from`. -/
def tryFrom (value : String) : Except MacroError ConsumerMode :=
  if value = "RealTime" then .ok .realTime
  else if value = "Resumable" then .ok .resumable
  else if value = "LoadBalanced" then .ok .loadBalanced
  else .error (.message ("The optional modes are as follows: RealTime,Resumable,LoadBalanced. " ++
    "refs: https://docs.rs/sea-streamer/latest/sea_streamer/enum.ConsumerMode.html"))

/-- A branch for the function of a backend. -/
def functionPath (key : Key) (h : Key.Value P key = P) (message : String) :
    ArgExpr P → Except MacroError (Option (Sigma (Key.Value P)))
  | .path p => .ok (some ⟨key, cast h.symm p⟩)
  | _ => .error (.message message)

/-- The body of the loop in `ConsumerOpts::new`. -/
def readPair (pair : MetaNameValue P) : Except MacroError (Option (Sigma (Key.Value P))) :=
  if pair.1.isIdent "mode" then
    match pair.2 with
    | .str lit => (tryFrom lit).map fun mode => some ⟨.mode, mode⟩
    | _ => .error (.message
        "invalid stream definition, expected #[stream_listener(\"<topic>\", mode=\"<mode>\")]")
  else if pair.1.isIdent "group_id" then
    match pair.2 with
    | .str lit => .ok (some ⟨.groupId, lit⟩)
    | _ => .error (.message "group_id must be string literal")
  else if pair.1.isIdent "file_consumer_options" then
    functionPath .fileConsumerOptions rfl "file_consumer_options must be function path" pair.2
  else if pair.1.isIdent "stdio_consumer_options" then
    functionPath .stdioConsumerOptions rfl "stdio_consumer_options must be function path" pair.2
  else if pair.1.isIdent "redis_consumer_options" then
    functionPath .redisConsumerOptions rfl "redis_consumer_options must be function path" pair.2
  else if pair.1.isIdent "kafka_consumer_options" then
    functionPath .kafkaConsumerOptions rfl "kafka_consumer_options must be function path" pair.2
  else
    .error (.message ("Unknown attribute key is specified; allowed: mode,group_id," ++
      "file_consumer_options,stdio_consumer_options,redis_consumer_options," ++
      "kafka_consumer_options"))

def ConsumerOpts.new (pairs : List (MetaNameValue P)) : Except MacroError (ConsumerOpts P) :=
  assignAll readPair Assignments.empty pairs

def topicError : MacroError :=
  .combine .syn (.message ("invalid stream definition, expected " ++
    "#[stream_listener(\"<topic>\", \"<topic2>\", [attributes..])]"))

/-- The `loop` of topics, and whether a comma with options behind it ended it. -/
def parseTopics : TokenStream → Except MacroError (List String × Bool × TokenStream)
  | .str topic :: .punct ',' :: rest =>
    if literalNext rest then
      (parseTopics rest).map fun r => (topic :: r.1, r.2)
    else
      .ok ([topic], true, rest)
  | .str topic :: rest => .ok ([topic], false, rest)
  | _ => .error topicError

def StreamListenerArgs.parse (syn : PairSyn P) : Parse (StreamListenerArgs P) := fun tokens =>
  match parseTopics tokens with
  | .error e => .error e
  | .ok (topics, false, rest) => .ok ({ topics := topics, opts := Assignments.empty }, rest)
  | .ok (topics, true, rest) =>
    match syn.parsePairs rest with
    | none => .error .syn
    | some pairs =>
      (ConsumerOpts.new pairs).map fun opts => ({ topics := topics, opts := opts }, [])

structure StreamListener (P : Type) where
  name : String
  args : StreamListenerArgs P
  ast : ItemFn
  docAttributes : List Attribute

def StreamListener.new (args : StreamListenerArgs P) (ast : ItemFn) :
    Except MacroError (StreamListener P) :=
  if ast.isAsync then
    .ok { name := ast.ident,
          args := args,
          ast := ast,
          docAttributes := ast.attrs.filter fun attr => attr.path.isIdent "doc" }
  else
    .error (.message "only support async fn")

/-- The macro; `input` is the item, if it parses as a function. -/
def listener (syn : PairSyn P) (args : TokenStream) (input : Option ItemFn) :
    Except MacroError (StreamListener P) :=
  match parseAll (StreamListenerArgs.parse syn) args with
  | .error e => .error e
  | .ok args =>
    match input with
    | none => .error .syn
    | some ast => StreamListener.new args ast

/-! ## What is accepted -/

def Key.name : Key → String
  | .mode => "mode"
  | .groupId => "group_id"
  | .fileConsumerOptions => "file_consumer_options"
  | .stdioConsumerOptions => "stdio_consumer_options"
  | .redisConsumerOptions => "redis_consumer_options"
  | .kafkaConsumerOptions => "kafka_consumer_options"

def modeName : ConsumerMode → String
  | .realTime => "RealTime"
  | .resumable => "Resumable"
  | .loadBalanced => "LoadBalanced"

/-- How the value of an option is written. -/
def Key.expr : (k : Key) → Key.Value P k → ArgExpr P
  | .mode, v => .str (modeName v)
  | .groupId, group => .str group
  | .fileConsumerOptions, p => .path p
  | .stdioConsumerOptions, p => .path p
  | .redisConsumerOptions, p => .path p
  | .kafkaConsumerOptions, p => .path p

/-- The option written out. -/
def Key.pair (k : Key) (v : Key.Value P k) : MetaNameValue P := (.ident k.name, k.expr v)

theorem tryFrom_ok_iff {value : String} {mode : ConsumerMode} :
    tryFrom value = .ok mode ↔ value = modeName mode := by
  constructor
  · intro h
    unfold tryFrom at h
    split_ifs at h with hreal hresumable hbalanced
    · cases h
      exact hreal
    · cases h
      exact hresumable
    · cases h
      exact hbalanced
  · intro h
    subst h
    cases mode <;> rfl

theorem functionPath_ok {key : Key} {h : Key.Value P key = P} {message : String} {e : ArgExpr P}
    {entry : Option (Sigma (Key.Value P))} (hok : functionPath key h message e = .ok entry) :
    ∃ p, e = .path p ∧ entry = some ⟨key, cast h.symm p⟩ := by
  cases e with
  | path p =>
    cases hok
    exact ⟨p, rfl, rfl⟩
  | str value => cases hok
  | other => cases hok

theorem readPair_ok_iff {pair : MetaNameValue P} {entry : Option (Sigma (Key.Value P))} :
    readPair pair = .ok entry ↔ ∃ k v, entry = some ⟨k, v⟩ ∧ pair = k.pair v := by
  constructor
  · intro h
    unfold readPair at h
    split_ifs at h with hmode hgroup hfile hstdio hredis hkafka
    · obtain ⟨path, e⟩ := pair
      cases e with
      | str lit =>
        change (tryFrom lit).map _ = _ at h
        cases hmode' : tryFrom lit with
        | error e =>
          rw [hmode'] at h
          cases h
        | ok mode =>
          rw [hmode'] at h
          cases h
          refine ⟨.mode, mode, rfl, Prod.ext (Path.isIdent_iff.mp hmode) ?_⟩
          exact congrArg ArgExpr.str (tryFrom_ok_iff.mp hmode')
      | path p => cases h
      | other => cases h
    · obtain ⟨path, e⟩ := pair
      cases e with
      | str lit =>
        cases h
        exact ⟨.groupId, lit, rfl, Prod.ext (Path.isIdent_iff.mp hgroup) rfl⟩
      | path p => cases h
      | other => cases h
    · obtain ⟨p, he, rfl⟩ := functionPath_ok h
      exact ⟨.fileConsumerOptions, p, rfl, Prod.ext (Path.isIdent_iff.mp hfile) he⟩
    · obtain ⟨p, he, rfl⟩ := functionPath_ok h
      exact ⟨.stdioConsumerOptions, p, rfl, Prod.ext (Path.isIdent_iff.mp hstdio) he⟩
    · obtain ⟨p, he, rfl⟩ := functionPath_ok h
      exact ⟨.redisConsumerOptions, p, rfl, Prod.ext (Path.isIdent_iff.mp hredis) he⟩
    · obtain ⟨p, he, rfl⟩ := functionPath_ok h
      exact ⟨.kafkaConsumerOptions, p, rfl, Prod.ext (Path.isIdent_iff.mp hkafka) he⟩
  · intro h
    obtain ⟨k, v, rfl, rfl⟩ := h
    cases k with
    | mode =>
      have hmode : tryFrom (modeName v) = .ok v := tryFrom_ok_iff.mpr rfl
      show (tryFrom (modeName v)).map _ = _
      rw [hmode]
      rfl
    | groupId => rfl
    | fileConsumerOptions => rfl
    | stdioConsumerOptions => rfl
    | redisConsumerOptions => rfl
    | kafkaConsumerOptions => rfl

/-- The topics, with commas between them. -/
def topicTokens : List String → TokenStream
  | [] => []
  | [topic] => [.str topic]
  | topic :: topics => .str topic :: .punct ',' :: topicTokens topics

/-- Whether a comma follows, and what is behind it. -/
def splitComma : TokenStream → Bool × TokenStream
  | .punct ',' :: rest => (true, rest)
  | rest => (false, rest)

theorem splitComma_cases (tail : TokenStream) :
    (∃ rest, tail = .punct ',' :: rest ∧ splitComma tail = (true, rest)) ∨
      ((∀ rest, tail ≠ .punct ',' :: rest) ∧ splitComma tail = (false, tail)) := by
  unfold splitComma
  split
  · exact Or.inl ⟨_, rfl, rfl⟩
  · next hcomma => exact Or.inr ⟨hcomma, rfl⟩

/-- What follows the last topic: no comma, or a comma without another literal. -/
def EndsTopics (tail : TokenStream) : Prop :=
  ∀ rest, tail = .punct ',' :: rest → literalNext rest = false

theorem topicTokens_cons {topic : String} {topics : List String} (h : topics ≠ []) :
    topicTokens (topic :: topics) = .str topic :: .punct ',' :: topicTokens topics := by
  cases topics with
  | nil => exact absurd rfl h
  | cons topic' topics => rfl

theorem parseTopics_sound {tokens : TokenStream} {r : List String × Bool × TokenStream}
    (h : parseTopics tokens = .ok r) :
    r.1 ≠ [] ∧
      ∃ tail, tokens = topicTokens r.1 ++ tail ∧ EndsTopics tail ∧ r.2 = splitComma tail := by
  fun_induction parseTopics tokens generalizing r with
  | case1 topic rest hlit ih =>
    cases hrest : parseTopics rest with
    | error e =>
      rw [hrest] at h
      cases h
    | ok r' =>
      rw [hrest] at h
      cases h
      obtain ⟨hne, tail, htokens, hends, hsplit⟩ := ih hrest
      refine ⟨List.cons_ne_nil _ _, tail, ?_, hends, hsplit⟩
      rw [topicTokens_cons hne, htokens]
      rfl
  | case2 topic rest hlit =>
    cases h
    refine ⟨List.cons_ne_nil _ _, _, rfl, fun rest' heq => ?_, rfl⟩
    cases heq
    exact Bool.not_eq_true _ ▸ hlit
  | case3 topic rest hcomma =>
    cases h
    refine ⟨List.cons_ne_nil _ _, rest, rfl, fun rest' heq => absurd heq (hcomma rest'), ?_⟩
    rcases splitComma_cases rest with ⟨rest', heq, _⟩ | ⟨_, hsplit⟩
    · exact absurd heq (hcomma rest')
    · rw [hsplit]
  | case4 tokens hstr => cases h

theorem parseTopics_complete {topics : List String} (hne : topics ≠ []) {tail : TokenStream}
    (hends : EndsTopics tail) :
    parseTopics (topicTokens topics ++ tail) = .ok (topics, splitComma tail) := by
  induction topics with
  | nil => exact absurd rfl hne
  | cons topic topics ih =>
    by_cases hlast : topics = []
    · subst hlast
      show parseTopics (.str topic :: tail) = _
      rcases splitComma_cases tail with ⟨rest, rfl, hsplit⟩ | ⟨hcomma, hsplit⟩
      · rw [parseTopics, if_neg, hsplit]
        rw [hends rest rfl]
        exact Bool.false_ne_true
      · rw [parseTopics, hsplit]
        exact hcomma
    · rw [topicTokens_cons hlast]
      have hnext : literalNext (topicTokens topics ++ tail) = true := by
        cases topics with
        | nil => exact absurd rfl hlast
        | cons topic' topics => cases topics <;> rfl
      show parseTopics (.str topic :: .punct ',' :: (topicTokens topics ++ tail)) = _
      rw [parseTopics, if_pos hnext, ih hlast]
      rfl

/-- The pairs behind the topics; without a comma there are none, and nothing else either. -/
def Options (syn : PairSyn P) (tail : TokenStream) (pairs : List (MetaNameValue P)) : Prop :=
  (tail = [] ∧ pairs = []) ∨
    ∃ rest, tail = .punct ',' :: rest ∧ literalNext rest = false ∧ syn.parsePairs rest = some pairs

theorem args_ok_iff {syn : PairSyn P} {tokens : TokenStream} {args : StreamListenerArgs P} :
    parseAll (StreamListenerArgs.parse syn) tokens = .ok args ↔
      ∃ tail pairs, args.topics ≠ [] ∧ tokens = topicTokens args.topics ++ tail ∧
        Options syn tail pairs ∧ ConsumerOpts.new pairs = .ok args.opts := by
  obtain ⟨topics, opts⟩ := args
  rw [parseAll_ok_iff]
  constructor
  · intro h
    unfold StreamListenerArgs.parse at h
    cases htopics : parseTopics tokens with
    | error e =>
      rw [htopics] at h
      cases h
    | ok r =>
      obtain ⟨hne, tail, htokens, hends, hsplit⟩ := parseTopics_sound htopics
      obtain ⟨topics', comma, rest⟩ := r
      rw [htopics] at h
      rcases splitComma_cases tail with ⟨rest', rfl, hsplit'⟩ | ⟨hcomma, hsplit'⟩
      · cases hsplit.trans hsplit'
        cases hpairs : syn.parsePairs rest with
        | none => simp only [hpairs, reduceCtorEq] at h
        | some pairs =>
          simp only [hpairs] at h
          cases hnew : ConsumerOpts.new pairs with
          | error e =>
            rw [hnew] at h
            cases h
          | ok opts' =>
            rw [hnew] at h
            cases h
            exact ⟨_, pairs, hne, htokens, Or.inr ⟨rest, rfl, hends rest rfl, hpairs⟩, hnew⟩
      · cases hsplit.trans hsplit'
        cases h
        exact ⟨[], [], hne, htokens, Or.inl ⟨rfl, rfl⟩, rfl⟩
  · intro h
    obtain ⟨tail, pairs, hne, htokens, hoptions, hnew⟩ := h
    unfold StreamListenerArgs.parse
    rcases hoptions with ⟨rfl, rfl⟩ | ⟨rest, rfl, hlit, hpairs⟩
    · have hends : EndsTopics [] := by
        intro rest h
        cases h
      rw [htokens, parseTopics_complete hne hends]
      change Except.ok Assignments.empty = Except.ok opts at hnew
      cases hnew
      rfl
    · have hends : EndsTopics (.punct ',' :: rest) := by
        intro rest' h
        cases h
        exact hlit
      rw [htokens, parseTopics_complete hne hends]
      simp only [splitComma, hpairs, hnew]
      rfl

/-! ## What is set -/

/-- The last of the pairs for this option has this value. -/
def Given (pairs : List (MetaNameValue P)) (k : Key) (v : Key.Value P k) : Prop :=
  ∃ pre post, pairs = pre ++ k.pair v :: post ∧ ∀ w : Key.Value P k, k.pair w ∉ post

theorem readPair_pair (k : Key) (v : Key.Value P k) : readPair (k.pair v) = .ok (some ⟨k, v⟩) :=
  readPair_ok_iff.mpr ⟨k, v, rfl, rfl⟩

theorem eq_pair_of_readPair {pair : MetaNameValue P} {k : Key} {v : Key.Value P k}
    (h : readPair pair = .ok (some ⟨k, v⟩)) : pair = k.pair v := by
  obtain ⟨k', v', heq, hpair⟩ := readPair_ok_iff.mp h
  cases heq
  exact hpair

theorem last_iff_given {pairs : List (MetaNameValue P)} {k : Key} {v : Key.Value P k} :
    Last readPair pairs k v ↔ Given pairs k v := by
  constructor
  · intro h
    obtain ⟨pre, pair, post, rfl, hpair, hpost⟩ := h
    refine ⟨pre, post, by rw [eq_pair_of_readPair hpair], fun w hw => ?_⟩
    exact hpost _ hw w (readPair_pair k w)
  · intro h
    obtain ⟨pre, post, rfl, hpost⟩ := h
    refine ⟨pre, _, post, rfl, readPair_pair k v, fun pair hpair w hread => ?_⟩
    exact hpost w (eq_pair_of_readPair hread ▸ hpair)

theorem new_ok_iff {pairs : List (MetaNameValue P)} {opts : ConsumerOpts P} :
    ConsumerOpts.new pairs = .ok opts ↔ (∀ pair ∈ pairs, ∃ k v, pair = Key.pair k v) ∧
      ∀ k v, opts k = some v ↔ Given pairs k v := by
  unfold ConsumerOpts.new
  rw [assignAll_ok_iff]
  refine and_congr (forall_congr' fun pair => forall_congr' fun _ => ?_) ?_
  · constructor
    · intro h
      obtain ⟨entry, hread⟩ := h
      obtain ⟨k, v, _, hpair⟩ := readPair_ok_iff.mp hread
      exact ⟨k, v, hpair⟩
    · intro h
      obtain ⟨k, v, rfl⟩ := h
      exact ⟨_, readPair_pair k v⟩
  · simp only [Assignments.empty, reduceCtorEq, and_false, or_false, last_iff_given]

/-- The attribute has topics, then options of the six kinds and nothing else, and the function is
`async`.  The listener has the topics as they are written and the last value of each option. -/
theorem listener_ok_iff {syn : PairSyn P} {tokens : TokenStream} {input : Option ItemFn}
    {out : StreamListener P} :
    listener syn tokens input = .ok out ↔ ∃ tail pairs,
      tokens = topicTokens out.args.topics ++ tail ∧ out.args.topics ≠ [] ∧
        Options syn tail pairs ∧ (∀ pair ∈ pairs, ∃ k v, pair = Key.pair k v) ∧
        (∀ k v, out.args.opts k = some v ↔ Given pairs k v) ∧
        input = some out.ast ∧ out.ast.isAsync = true ∧ out.name = out.ast.ident ∧
        out.docAttributes = out.ast.attrs.filter fun attr => attr.path.isIdent "doc" := by
  constructor
  · intro h
    unfold listener at h
    cases hargs : parseAll (StreamListenerArgs.parse syn) tokens with
    | error e =>
      rw [hargs] at h
      cases h
    | ok args =>
      rw [hargs] at h
      cases input with
      | none => cases h
      | some ast =>
        obtain ⟨tail, pairs, hne, htokens, hoptions, hnew⟩ := args_ok_iff.mp hargs
        obtain ⟨hpairs, hgiven⟩ := new_ok_iff.mp hnew
        change StreamListener.new args ast = .ok out at h
        unfold StreamListener.new at h
        split_ifs at h with hasync
        cases h
        exact ⟨tail, pairs, htokens, hne, hoptions, hpairs, hgiven, rfl, hasync, rfl, rfl⟩
  · intro h
    obtain ⟨tail, pairs, htokens, hne, hoptions, hpairs, hgiven, rfl, hasync, hname, hdoc⟩ := h
    have hargs := args_ok_iff.mpr
      ⟨tail, pairs, hne, htokens, hoptions, new_ok_iff.mpr ⟨hpairs, hgiven⟩⟩
    obtain ⟨name, args, ast, docAttributes⟩ := out
    simp only at hname hdoc hargs hasync
    subst hname hdoc
    simp only [listener, hargs, StreamListener.new, hasync, if_true]

end Summer.Macros.Stream
