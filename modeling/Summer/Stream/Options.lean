/-
Consumer options of the stream plugin (`summer-stream/src/config`, `consumer.rs`).

`sea_streamer` keeps one record of consumer options for each of its four backends.  A record
is a function of its settings here, so that a setter is an update and what holds of every
setting can be said once.
-/
import Mathlib.Logic.Function.Basic

namespace Summer.Stream

inductive Backend
  | kafka
  | redis
  | stdio
  | file
deriving DecidableEq, Repr

inductive ConsumerMode
  | realTime
  | resumable
  | loadBalanced
deriving DecidableEq, Repr

abbrev Duration := Nat

inductive KafkaOffsetReset
  | earliest
  | latest
  | noReset
deriving DecidableEq, Repr

inductive AutoStreamReset
  | earliest
  | latest
deriving DecidableEq, Repr

inductive AutoCommit
  | immediate
  | delayed
  | rolling
  | disabled
deriving DecidableEq, Repr

inductive ShardOwnership
  | shared
  | owned
deriving DecidableEq, Repr

/-- The settings of each backend's record.  A custom option of Kafka is a setting for each
key: of several values for one key the last counts. -/
inductive Setting : Backend → Type
  | mode (b : Backend) : Setting b
  | group (b : Backend) : Setting b
  | sessionTimeout : Setting .kafka
  | autoOffsetReset : Setting .kafka
  | enableAutoCommit : Setting .kafka
  | kafkaCommitInterval : Setting .kafka
  | enableAutoOffsetStore : Setting .kafka
  | customOption (key : String) : Setting .kafka
  | consumerId : Setting .redis
  | consumerTimeout : Setting .redis
  | autoStreamReset : Setting .redis
  | autoCommit : Setting .redis
  | autoCommitDelay : Setting .redis
  | autoCommitInterval : Setting .redis
  | autoClaimInterval : Setting .redis
  | autoClaimIdle : Setting .redis
  | batchSize : Setting .redis
  | shardOwnership : Setting .redis
  | mkstream : Setting .redis
  | fileStreamReset : Setting .file
  | liveStreaming : Setting .file
deriving DecidableEq

/-- `none` stands for a setting that `sea_streamer` leaves to the backend. -/
@[reducible] def Setting.Value {b : Backend} : Setting b → Type
  | .mode _ => ConsumerMode
  | .group _ => Option String
  | .sessionTimeout => Option Duration
  | .autoOffsetReset => Option KafkaOffsetReset
  | .enableAutoCommit => Option Bool
  | .kafkaCommitInterval => Option Duration
  | .enableAutoOffsetStore => Option Bool
  | .customOption _ => Option String
  | .consumerId => Option String
  | .consumerTimeout => Option Duration
  | .autoStreamReset => AutoStreamReset
  | .autoCommit => AutoCommit
  | .autoCommitDelay => Duration
  | .autoCommitInterval => Duration
  | .autoClaimInterval => Option Duration
  | .autoClaimIdle => Duration
  | .batchSize => Nat
  | .shardOwnership => ShardOwnership
  | .mkstream => Bool
  | .fileStreamReset => AutoStreamReset
  | .liveStreaming => Bool

abbrev Record (b : Backend) := (s : Setting b) → s.Value

abbrev SeaConsumerOptions := (b : Backend) → Record b

def Record.set {b : Backend} (r : Record b) (s : Setting b) (v : s.Value) : Record b :=
  Function.update r s v

/-- A setter that is called for a value if there is one. -/
def Record.setIfSome {b : Backend} (r : Record b) (s : Setting b) : Option s.Value → Record b
  | some v => r.set s v
  | none => r

/-- What is used of `sea_streamer`: the options of a mode, and the record that `mode()` and
`consumer_group()` read. -/
structure SeaStreamer where
  new : ConsumerMode → SeaConsumerOptions
  reads : Backend
  new_mode : ∀ mode b, new mode b (.mode b) = mode
  new_group : ∀ mode b, new mode b (.group b) = none

namespace SeaConsumerOptions

def setConsumerGroup (opts : SeaConsumerOptions) (group : String) : SeaConsumerOptions :=
  fun b => (opts b).set (.group b) (some group)

/-- `set_kafka_consumer_options` and its siblings. -/
def setConsumerOptions (opts : SeaConsumerOptions) (b : Backend) (func : Record b → Record b) :
    SeaConsumerOptions :=
  Function.update opts b (func (opts b))

end SeaConsumerOptions

/-! ## What a listener sets -/

/-- The options of a `stream_listener` attribute, with the functions its paths name. -/
structure Listener where
  mode : Option ConsumerMode
  group : Option String
  fileConsumerOptions : Option (Record .file → Record .file)
  stdioConsumerOptions : Option (Record .stdio → Record .stdio)
  redisConsumerOptions : Option (Record .redis → Record .redis)
  kafkaConsumerOptions : Option (Record .kafka → Record .kafka)

namespace Listener

/-- A method of `ConsumerOpts` that the macro calls for an option that is given. -/
def call {α : Type} (option : Option α) (method : SeaConsumerOptions → α → SeaConsumerOptions)
    (opts : SeaConsumerOptions) : SeaConsumerOptions :=
  match option with
  | some a => method opts a
  | none => opts

/-- `Consumer::mode` or `Consumer::default`. -/
def created (sea : SeaStreamer) (listener : Listener) : SeaConsumerOptions :=
  match listener.mode with
  | some mode => sea.new mode
  | none => sea.new .realTime

/-- The expression of `build_token_stream`. -/
def consumerOpts (sea : SeaStreamer) (listener : Listener) : SeaConsumerOptions :=
  let opts := call listener.group .setConsumerGroup (listener.created sea)
  let opts := call listener.fileConsumerOptions (fun o f => o.setConsumerOptions .file f) opts
  let opts := call listener.stdioConsumerOptions (fun o f => o.setConsumerOptions .stdio f) opts
  let opts := call listener.redisConsumerOptions (fun o f => o.setConsumerOptions .redis f) opts
  call listener.kafkaConsumerOptions (fun o f => o.setConsumerOptions .kafka f) opts

end Listener

/-! ## What the configuration sets -/

structure KafkaConsumer where
  mode : ConsumerMode
  groupId : Option String
  sessionTimeout : Option Duration
  autoOffsetReset : Option KafkaOffsetReset
  enableAutoCommit : Option Bool
  autoCommitInterval : Option Duration
  enableAutoOffsetStore : Option Bool
  customOptions : List (String × String)

structure RedisConsumer where
  mode : ConsumerMode
  groupId : Option String
  consumerId : Option String
  consumerTimeout : Option Duration
  autoStreamReset : AutoStreamReset
  autoCommit : AutoCommit
  autoCommitDelay : Duration
  autoCommitInterval : Duration
  autoClaimInterval : Option Duration
  autoClaimIdle : Duration
  batchSize : Nat
  shardOwnership : ShardOwnership
  mkstream : Bool

structure StdioConsumer where
  mode : ConsumerMode
  groupId : Option String

structure FileConsumer where
  mode : ConsumerMode
  groupId : Option String
  autoStreamReset : AutoStreamReset
  liveStreaming : Bool

/-- The trait of `KafkaOptions`, `RedisOptions`, `StdioOptions` and `FileOptions`, which have
a section for consumers or none. -/
structure OptionsFiller (b : Backend) where
  fillConsumerOptions : Record b → Record b
  defaultConsumerMode : Option ConsumerMode
  defaultConsumerGroupId : Option String

namespace KafkaConsumer

def addCustomOption (opts : Record .kafka) (option : String × String) : Record .kafka :=
  Record.set opts (Setting.customOption option.1) (some option.2 : Option String)

def fill (consumer : KafkaConsumer) (opts : Record .kafka) : Record .kafka :=
  let opts := opts.setIfSome .sessionTimeout (consumer.sessionTimeout.map some)
  let opts := opts.setIfSome .autoOffsetReset (consumer.autoOffsetReset.map some)
  let opts := opts.setIfSome .enableAutoCommit (consumer.enableAutoCommit.map some)
  let opts := opts.setIfSome .kafkaCommitInterval (consumer.autoCommitInterval.map some)
  let opts := opts.setIfSome .enableAutoOffsetStore (consumer.enableAutoOffsetStore.map some)
  consumer.customOptions.foldl addCustomOption opts

def filler (consumer : Option KafkaConsumer) : OptionsFiller .kafka where
  fillConsumerOptions := fun opts =>
    match consumer with
    | some consumer => consumer.fill opts
    | none => opts
  defaultConsumerMode := consumer.map KafkaConsumer.mode
  defaultConsumerGroupId := consumer.bind KafkaConsumer.groupId

end KafkaConsumer

namespace RedisConsumer

def fill (consumer : RedisConsumer) (opts : Record .redis) : Record .redis :=
  let opts := opts.setIfSome .consumerId (consumer.consumerId.map some)
  let opts := opts.set .consumerTimeout consumer.consumerTimeout
  let opts := opts.set .autoStreamReset consumer.autoStreamReset
  let opts := opts.set .autoCommit consumer.autoCommit
  let opts := opts.set .autoCommitInterval consumer.autoCommitInterval
  -- set a second time where `auto_commit_delay` is left out
  let opts := opts.set .autoStreamReset consumer.autoStreamReset
  let opts := opts.set .autoClaimInterval consumer.autoClaimInterval
  let opts := opts.set .autoClaimIdle consumer.autoClaimIdle
  let opts := opts.set .batchSize consumer.batchSize
  let opts := opts.set .shardOwnership consumer.shardOwnership
  opts.set .mkstream consumer.mkstream

def filler (consumer : Option RedisConsumer) : OptionsFiller .redis where
  fillConsumerOptions := fun opts =>
    match consumer with
    | some consumer => consumer.fill opts
    | none => opts
  defaultConsumerMode := consumer.map RedisConsumer.mode
  defaultConsumerGroupId := consumer.bind RedisConsumer.groupId

end RedisConsumer

namespace StdioConsumer

def filler (consumer : Option StdioConsumer) : OptionsFiller .stdio where
  fillConsumerOptions := fun opts => opts
  defaultConsumerMode := consumer.map StdioConsumer.mode
  defaultConsumerGroupId := consumer.bind StdioConsumer.groupId

end StdioConsumer

namespace FileConsumer

def fill (consumer : FileConsumer) (opts : Record .file) : Record .file :=
  let opts := opts.set .fileStreamReset consumer.autoStreamReset
  opts.set .liveStreaming consumer.liveStreaming

def filler (consumer : Option FileConsumer) : OptionsFiller .file where
  fillConsumerOptions := fun opts =>
    match consumer with
    | some consumer => consumer.fill opts
    | none => opts
  defaultConsumerMode := consumer.map FileConsumer.mode
  defaultConsumerGroupId := consumer.bind FileConsumer.groupId

end FileConsumer

/-- A section of a backend that is there, `some consumer`, has a section for consumers or
none. -/
structure StreamConfig where
  kafka : Option (Option KafkaConsumer)
  redis : Option (Option RedisConsumer)
  stdio : Option (Option StdioConsumer)
  file : Option (Option FileConsumer)

/-! ## The options of a consumer -/

/-- `OptionsFiller::new_consumer_options`. -/
def OptionsFiller.newConsumerOptions {b : Backend} (sea : SeaStreamer) (filler : OptionsFiller b)
    (mode : Option ConsumerMode) (group : Option String) : SeaConsumerOptions :=
  let opts := sea.new ((mode.or filler.defaultConsumerMode).getD .realTime)
  match group.or filler.defaultConsumerGroupId with
  | some group => opts.setConsumerGroup group
  | none => opts

/-- The body of each branch of `StreamConfig::new_consumer_options`. -/
def OptionsFiller.options {b : Backend} (sea : SeaStreamer) (filler : OptionsFiller b)
    (mode : Option ConsumerMode) (group : Option String) : SeaConsumerOptions :=
  (filler.newConsumerOptions sea mode group).setConsumerOptions b filler.fillConsumerOptions

/-- The sections are tried in a fixed order, whatever backend the uri names. -/
def StreamConfig.newConsumerOptions (sea : SeaStreamer) (config : StreamConfig)
    (opts : SeaConsumerOptions) : SeaConsumerOptions :=
  -- `mode()` always finds a mode
  let mode := some (opts sea.reads (.mode sea.reads))
  let group := opts sea.reads (.group sea.reads)
  match config.kafka with
  | some consumer => (KafkaConsumer.filler consumer).options sea mode group
  | none =>
    match config.redis with
    | some consumer => (RedisConsumer.filler consumer).options sea mode group
    | none =>
      match config.stdio with
      | some consumer => (StdioConsumer.filler consumer).options sea mode group
      | none =>
        match config.file with
        | some consumer => (FileConsumer.filler consumer).options sea mode group
        | none => opts

end Summer.Stream
