/-
Which value of a consumer option wins: that of the listener, that of the configuration, or
the default.

The options of a listener are rebuilt whenever any section of a backend is present
(`newConsumerOptions_eq`): from the mode and the group they have, and from the section that
comes first, which need not be that of the backend in use.
-/
import Mathlib.Data.List.Induction
import Summer.Stream.Options

namespace Summer.Stream

/-! ## The law -/

namespace KafkaConsumer

def value (consumer : KafkaConsumer) : (s : Setting .kafka) → Option s.Value
  | .mode _ => some consumer.mode
  | .group _ => consumer.groupId.map some
  | .sessionTimeout => consumer.sessionTimeout.map some
  | .autoOffsetReset => consumer.autoOffsetReset.map some
  | .enableAutoCommit => consumer.enableAutoCommit.map some
  | .kafkaCommitInterval => consumer.autoCommitInterval.map some
  | .enableAutoOffsetStore => consumer.enableAutoOffsetStore.map some
  | .customOption key =>
    (consumer.customOptions.reverse.find? fun option => decide (option.1 = key)).map
      fun option => some option.2

end KafkaConsumer

namespace RedisConsumer

/-- No timeout and no interval are values that `sea_streamer` knows, and the section has
them. -/
def value (consumer : RedisConsumer) : (s : Setting .redis) → Option s.Value
  | .mode _ => some consumer.mode
  | .group _ => consumer.groupId.map some
  | .consumerId => consumer.consumerId.map some
  | .consumerTimeout => some consumer.consumerTimeout
  | .autoStreamReset => some consumer.autoStreamReset
  | .autoCommit => some consumer.autoCommit
  | .autoCommitDelay => some consumer.autoCommitDelay
  | .autoCommitInterval => some consumer.autoCommitInterval
  | .autoClaimInterval => some consumer.autoClaimInterval
  | .autoClaimIdle => some consumer.autoClaimIdle
  | .batchSize => some consumer.batchSize
  | .shardOwnership => some consumer.shardOwnership
  | .mkstream => some consumer.mkstream

end RedisConsumer

namespace StdioConsumer

def value (consumer : StdioConsumer) : (s : Setting .stdio) → Option s.Value
  | .mode _ => some consumer.mode
  | .group _ => consumer.groupId.map some

end StdioConsumer

namespace FileConsumer

def value (consumer : FileConsumer) : (s : Setting .file) → Option s.Value
  | .mode _ => some consumer.mode
  | .group _ => consumer.groupId.map some
  | .fileStreamReset => some consumer.autoStreamReset
  | .liveStreaming => some consumer.liveStreaming

end FileConsumer

/-- The value of the `[stream.<backend>.consumer]` section. -/
def StreamConfig.configured (config : StreamConfig) :
    {b : Backend} → (s : Setting b) → Option s.Value
  | .kafka, s => config.kafka.join.bind fun consumer => consumer.value s
  | .redis, s => config.redis.join.bind fun consumer => consumer.value s
  | .stdio, s => config.stdio.join.bind fun consumer => consumer.value s
  | .file, s => config.file.join.bind fun consumer => consumer.value s

namespace Listener

/-- The `*_consumer_options` function of a backend. -/
def function (listener : Listener) : (b : Backend) → Record b → Record b
  | .kafka => listener.kafkaConsumerOptions.getD id
  | .redis => listener.redisConsumerOptions.getD id
  | .stdio => listener.stdioConsumerOptions.getD id
  | .file => listener.fileConsumerOptions.getD id

/-- `mode` and `group_id`. -/
def argument (listener : Listener) {b : Backend} : (s : Setting b) → Option s.Value
  | .mode _ => listener.mode
  | .group _ => listener.group.map some
  | _ => none

def Sets (listener : Listener) {b : Backend} (s : Setting b) (v : s.Value) : Prop :=
  ∀ r, listener.function b r s = v

def Leaves (listener : Listener) {b : Backend} (s : Setting b) : Prop :=
  ∀ r, listener.function b r s = r s

end Listener

/-- The mode of a consumer before its function is called. -/
def expectedMode (config : StreamConfig) (listener : Listener) (b : Backend) : ConsumerMode :=
  (listener.mode.or (config.configured (.mode b))).getD .realTime

/-- What the function sets wins, then the argument of the attribute, then the configuration,
then the default. -/
structure Follows (sea : SeaStreamer) (config : StreamConfig) (listener : Listener) {b : Backend}
    (s : Setting b) (r : Record b) : Prop where
  set : ∀ v, listener.Sets s v → r s = v
  argument : ∀ v, listener.Leaves s → listener.argument s = some v → r s = v
  configured : ∀ v, listener.Leaves s → listener.argument s = none →
    config.configured s = some v → r s = v
  default : listener.Leaves s → listener.argument s = none → config.configured s = none →
    r s = sea.new (expectedMode config listener b) b s

/-- The law, for every setting of the backend in use. -/
def Precedence (sea : SeaStreamer) (config : StreamConfig) (listener : Listener) (b : Backend) :
    Prop :=
  ∀ s : Setting b,
    Follows sea config listener s (config.newConsumerOptions sea (listener.consumerOpts sea) b)

/-! ## What a section fills in -/

/-- The settings that a filler knows: mode and group are set before, and the delay of Redis is
forgotten. -/
def Setting.filled {b : Backend} : Setting b → Bool
  | .mode _ => false
  | .group _ => false
  | .autoCommitDelay => false
  | _ => true

section
variable {b : Backend}

@[simp] theorem Record.set_self (r : Record b) (s : Setting b) (v : s.Value) : r.set s v s = v :=
  Function.update_self s v r

theorem Record.set_ne (r : Record b) {s s' : Setting b} (v : s.Value) (h : s' ≠ s) :
    r.set s v s' = r s' :=
  Function.update_of_ne h v r

@[simp] theorem Record.setIfSome_self (r : Record b) (s : Setting b) (v : Option s.Value) :
    r.setIfSome s v s = v.getD (r s) := by
  cases v with
  | none => rfl
  | some v => exact r.set_self s v

theorem Record.setIfSome_ne (r : Record b) {s s' : Setting b} (v : Option s.Value)
    (h : s' ≠ s) : r.setIfSome s v s' = r s' := by
  cases v with
  | none => rfl
  | some v => exact r.set_ne v h

end

namespace KafkaConsumer

/-- Of several custom options for one key the last one stays. -/
theorem foldl_addCustomOption (options : List (String × String)) (opts : Record .kafka)
    (key : String) :
    options.foldl addCustomOption opts (.customOption key) =
      ((options.reverse.find? fun option => decide (option.1 = key)).map
        fun option => (some option.2 : Option String)).getD (opts (.customOption key)) := by
  induction options using List.reverseRecOn with
  | nil => rfl
  | append_singleton options option ih =>
      rw [List.foldl_append, List.reverse_append]
      by_cases hkey : option.1 = key
      · subst hkey
        simp [addCustomOption]
      · have hne : Setting.customOption key ≠ .customOption option.1 := by
          intro h
          exact hkey (Setting.customOption.inj h).symm
        simp [addCustomOption, Record.set_ne _ _ hne, hkey, ih]

theorem foldl_addCustomOption_other (options : List (String × String)) (opts : Record .kafka)
    (s : Setting .kafka) (hs : ∀ key, s ≠ .customOption key) :
    options.foldl addCustomOption opts s = opts s := by
  induction options generalizing opts with
  | nil => rfl
  | cons option rest ih =>
      rw [List.foldl_cons, ih]
      exact Record.set_ne _ _ (hs option.1)

theorem fill_apply (consumer : KafkaConsumer) (opts : Record .kafka) (s : Setting .kafka) :
    consumer.fill opts s = if s.filled then (consumer.value s).getD (opts s) else opts s := by
  unfold fill
  cases s with
  | customOption key =>
      rw [foldl_addCustomOption]
      simp [Setting.filled, value, Record.setIfSome_ne]
  | _ =>
      rw [foldl_addCustomOption_other _ _ _ (by intro key; exact nofun)]
      simp [Setting.filled, value, Record.setIfSome_ne]

end KafkaConsumer

theorem RedisConsumer.fill_apply (consumer : RedisConsumer) (opts : Record .redis)
    (s : Setting .redis) :
    consumer.fill opts s = if s.filled then (consumer.value s).getD (opts s) else opts s := by
  unfold fill
  cases s <;> simp [Setting.filled, value, Record.set_ne, Record.setIfSome_ne]

theorem FileConsumer.fill_apply (consumer : FileConsumer) (opts : Record .file)
    (s : Setting .file) :
    consumer.fill opts s = if s.filled then (consumer.value s).getD (opts s) else opts s := by
  unfold fill
  cases s <;> simp [Setting.filled, value, Record.set_ne]

/-- A filler fills in the values of its section, and knows the group of the section. -/
structure OptionsFiller.Fits {b : Backend} (filler : OptionsFiller b)
    (values : (s : Setting b) → Option s.Value) : Prop where
  fill : ∀ opts s, filler.fillConsumerOptions opts s =
    if s.filled then (values s).getD (opts s) else opts s
  group : filler.defaultConsumerGroupId = (values (.group b)).getD none

theorem KafkaConsumer.filler_fits (consumer : Option KafkaConsumer) :
    (filler consumer).Fits fun s => consumer.bind fun consumer => consumer.value s := by
  cases consumer with
  | none => exact ⟨fun _ s => by simp [filler], rfl⟩
  | some consumer =>
    exact ⟨consumer.fill_apply, by cases h : consumer.groupId <;> simp [filler, value, h]⟩

theorem RedisConsumer.filler_fits (consumer : Option RedisConsumer) :
    (filler consumer).Fits fun s => consumer.bind fun consumer => consumer.value s := by
  cases consumer with
  | none => exact ⟨fun _ s => by simp [filler], rfl⟩
  | some consumer =>
    exact ⟨consumer.fill_apply, by cases h : consumer.groupId <;> simp [filler, value, h]⟩

theorem StdioConsumer.filler_fits (consumer : Option StdioConsumer) :
    (filler consumer).Fits fun s => consumer.bind fun consumer => consumer.value s := by
  constructor
  · intro opts s
    cases s <;> rfl
  · cases consumer with
    | none => rfl
    | some consumer => cases h : consumer.groupId <;> simp [filler, value, h]

theorem FileConsumer.filler_fits (consumer : Option FileConsumer) :
    (filler consumer).Fits fun s => consumer.bind fun consumer => consumer.value s := by
  cases consumer with
  | none => exact ⟨fun _ s => by simp [filler], rfl⟩
  | some consumer =>
    exact ⟨consumer.fill_apply, by cases h : consumer.groupId <;> simp [filler, value, h]⟩

/-! ## The options that come out -/

/-- The backend whose section is found first. -/
def StreamConfig.first (config : StreamConfig) : Option Backend :=
  if config.kafka.isSome then some .kafka
  else if config.redis.isSome then some .redis
  else if config.stdio.isSome then some .stdio
  else if config.file.isSome then some .file
  else none

/-- What the section of `first` gives for a setting: it is read for its own backend only. -/
def StreamConfig.filledBy (config : StreamConfig) (first : Backend) {b : Backend}
    (s : Setting b) : Option s.Value :=
  if first = b ∧ s.filled then config.configured s else none

section
variable {sea : SeaStreamer} {config : StreamConfig} {opts : SeaConsumerOptions}

theorem OptionsFiller.newConsumerOptions_eq {b : Backend} (filler : OptionsFiller b)
    (mode : ConsumerMode) (group : Option String) (b' : Backend) :
    filler.newConsumerOptions sea (some mode) group b' =
      (sea.new mode b').set (.group b') (group.or filler.defaultConsumerGroupId) := by
  unfold newConsumerOptions
  cases group.or filler.defaultConsumerGroupId with
  | none =>
      show sea.new mode b' = Function.update (sea.new mode b') (.group b') none
      rw [← sea.new_group mode b', Function.update_eq_self]
  | some group => rfl

theorem OptionsFiller.options_apply {b : Backend} {filler : OptionsFiller b}
    {values : (s : Setting b) → Option s.Value} (hfits : filler.Fits values)
    (hvalues : ∀ s : Setting b, values s = config.configured s) (mode : ConsumerMode)
    (group : Option String) {b' : Backend} (s : Setting b') :
    filler.options sea (some mode) group b' s =
      (config.filledBy b s).getD ((sea.new mode b').set (.group b')
        (group.or ((config.configured (.group b)).getD none)) s) := by
  unfold OptionsFiller.options SeaConsumerOptions.setConsumerOptions
  by_cases hb : b' = b
  · subst hb
    rw [Function.update_self, hfits.fill, newConsumerOptions_eq, hfits.group, hvalues, hvalues]
    unfold StreamConfig.filledBy
    cases s.filled <;> simp
  · rw [Function.update_of_ne hb, newConsumerOptions_eq, hfits.group, hvalues]
    unfold StreamConfig.filledBy
    simp [Ne.symm hb]

/-- With a section the options are rebuilt from a mode, a group and the section that comes
first; without one they are those of the listener. -/
theorem newConsumerOptions_eq :
    match config.first with
    | none => config.newConsumerOptions sea opts = opts
    | some first => ∀ (b : Backend) (s : Setting b), config.newConsumerOptions sea opts b s =
        (config.filledBy first s).getD
          ((sea.new (opts sea.reads (.mode sea.reads)) b).set (.group b)
          ((opts sea.reads (.group sea.reads)).or
            ((config.configured (.group first)).getD none)) s) := by
  unfold StreamConfig.newConsumerOptions StreamConfig.first
  cases hkafka : config.kafka with
  | some consumer =>
      intro b s
      apply OptionsFiller.options_apply (KafkaConsumer.filler_fits consumer)
      intro s
      simp [StreamConfig.configured, hkafka]
  | none =>
      cases hredis : config.redis with
      | some consumer =>
          intro b s
          apply OptionsFiller.options_apply (RedisConsumer.filler_fits consumer)
          intro s
          simp [StreamConfig.configured, hredis]
      | none =>
          cases hstdio : config.stdio with
          | some consumer =>
              intro b s
              apply OptionsFiller.options_apply (StdioConsumer.filler_fits consumer)
              intro s
              simp [StreamConfig.configured, hstdio]
          | none =>
              cases hfile : config.file with
              | some consumer =>
                  intro b s
                  apply OptionsFiller.options_apply (FileConsumer.filler_fits consumer)
                  intro s
                  simp [StreamConfig.configured, hfile]
              | none => rfl

end

/-! ## The options of a listener -/

namespace Listener

variable {sea : SeaStreamer} {listener : Listener}

/-- A record before the function of its backend is called. -/
def start (sea : SeaStreamer) (listener : Listener) (b : Backend) : Record b :=
  (sea.new (listener.mode.getD .realTime) b).set (.group b) listener.group

theorem call_group (opts : SeaConsumerOptions) (h : ∀ b, opts b (.group b) = none) (b : Backend) :
    call listener.group .setConsumerGroup opts b = (opts b).set (.group b) listener.group := by
  cases listener.group with
  | none =>
      show opts b = Function.update (opts b) (.group b) none
      rw [← h b, Function.update_eq_self]
  | some group => rfl

theorem call_self {b : Backend} (func : Option (Record b → Record b)) (opts : SeaConsumerOptions) :
    call func (fun o f => o.setConsumerOptions b f) opts b = func.getD id (opts b) := by
  cases func with
  | none => rfl
  | some f => exact Function.update_self b _ opts

theorem call_other {b b' : Backend} (func : Option (Record b → Record b))
    (opts : SeaConsumerOptions) (h : b' ≠ b) :
    call func (fun o f => o.setConsumerOptions b f) opts b' = opts b' := by
  cases func with
  | none => rfl
  | some f => exact Function.update_of_ne h _ opts

theorem consumerOpts_eq (b : Backend) :
    listener.consumerOpts sea b = listener.function b (listener.start sea b) := by
  have hcreated : listener.created sea = sea.new (listener.mode.getD .realTime) := by
    unfold created
    cases listener.mode <;> rfl
  have hgroup := @call_group listener (sea.new (listener.mode.getD .realTime)) (sea.new_group _)
  unfold consumerOpts start
  rw [hcreated, ← hgroup]
  cases b <;> simp only [function, call_self, call_other, ne_eq, reduceCtorEq, not_false_eq_true]

theorem start_apply {b : Backend} (s : Setting b) :
    listener.start sea b s =
      (listener.argument s).getD (sea.new (listener.mode.getD .realTime) b s) := by
  unfold start
  cases s with
  | mode b =>
      rw [Record.set_ne _ _ (by exact nofun), sea.new_mode]
      cases h : listener.mode <;> simp [argument, h]
  | group b =>
      rw [Record.set_self, sea.new_group]
      cases h : listener.group <;> simp [argument, h]
  | _ => exact Record.set_ne _ _ (by exact nofun)

end Listener

/-! ## When the law holds -/

theorem configured_of_no_section {config : StreamConfig} {b : Backend} (h : config.first = none)
    (s : Setting b) : config.configured s = none := by
  have hnone : config.kafka = none ∧ config.redis = none ∧ config.stdio = none ∧
      config.file = none := by
    unfold StreamConfig.first at h
    grind [Option.isSome_iff_ne_none]
  obtain ⟨hkafka, hredis, hstdio, hfile⟩ := hnone
  cases b <;> simp [StreamConfig.configured, hkafka, hredis, hstdio, hfile]

/-- Without a section the options of the listener are used as they are. -/
theorem precedence_of_no_section {sea : SeaStreamer} {config : StreamConfig} {listener : Listener}
    {b : Backend} (h : config.first = none) : Precedence sea config listener b := by
  have hopts : config.newConsumerOptions sea (listener.consumerOpts sea) =
      listener.consumerOpts sea := by
    have heq := @newConsumerOptions_eq sea config (listener.consumerOpts sea)
    rw [h] at heq
    exact heq
  have hconfigured : ∀ s : Setting b, config.configured s = none := configured_of_no_section h
  intro s
  rw [hopts, Listener.consumerOpts_eq]
  constructor
  · intro v hset
    exact hset _
  · intro v hleaves hargument
    rw [hleaves, Listener.start_apply, hargument]
    rfl
  · intro v _ _ hv
    rw [hconfigured] at hv
    cases hv
  · intro hleaves hargument _
    rw [hleaves, Listener.start_apply, hargument]
    have hmode : expectedMode config listener b = listener.mode.getD .realTime := by
      rw [expectedMode, hconfigured, Option.or_none]
    rw [hmode]
    rfl

/-- Whether a setting is one of the backend's own, neither the mode nor the group. -/
def Setting.own {b : Backend} : Setting b → Bool
  | .mode _ => false
  | .group _ => false
  | _ => true

/-- What must be true when a section is present, that of `first` before all others. -/
structure Reached (sea : SeaStreamer) (config : StreamConfig) (listener : Listener)
    (first b : Backend) (mode : ConsumerMode) (group : Option String) : Prop where
  sets_mode : ∀ v, listener.Sets (.mode b) v → mode = v
  leaves_mode : listener.Leaves (.mode b) → mode = expectedMode config listener b
  sets_group : ∀ v, listener.Sets (.group b) v → group = v
  leaves_group : listener.Leaves (.group b) →
    group = listener.group.or ((config.configured (.group b)).getD none)
  sets : ∀ (s : Setting b) v, s.own = true → listener.Sets s v →
    (config.filledBy first s).getD (sea.new mode b s) = v
  configured : ∀ (s : Setting b) v, s.own = true → listener.Leaves s →
    config.configured s = some v → first = b ∧ s.filled = true ∨ sea.new mode b s = v
  default : ∀ s : Setting b, s.own = true → listener.Leaves s → config.configured s = none →
    sea.new mode b s = sea.new (expectedMode config listener b) b s

section
variable {sea : SeaStreamer} {config : StreamConfig} {listener : Listener} {first b : Backend}
  {mode : ConsumerMode} {group : Option String} {r : Record b}

/-- The record that a rebuilt consumer gets for a backend. -/
def Rebuilt (sea : SeaStreamer) (config : StreamConfig) (first : Backend) (mode : ConsumerMode)
    (group : Option String) {b : Backend} (r : Record b) : Prop :=
  ∀ s : Setting b, r s =
    (config.filledBy first s).getD ((sea.new mode b).set (.group b) group s)

theorem Rebuilt.mode_eq (h : Rebuilt sea config first mode group r) : r (.mode b) = mode := by
  rw [h, Record.set_ne _ _ (by exact nofun), sea.new_mode]
  simp [StreamConfig.filledBy, Setting.filled]

theorem Rebuilt.group_eq (h : Rebuilt sea config first mode group r) : r (.group b) = group := by
  rw [h, Record.set_self]
  simp [StreamConfig.filledBy, Setting.filled]

theorem Rebuilt.own_eq (h : Rebuilt sea config first mode group r) {s : Setting b}
    (hs : s.own = true) : r s = (config.filledBy first s).getD (sea.new mode b s) := by
  have hne : s ≠ .group b := by
    intro heq
    rw [heq] at hs
    cases hs
  rw [h, Record.set_ne _ _ hne]

theorem argument_of_own {s : Setting b} (hs : s.own = true) : listener.argument s = none := by
  cases s <;> first | rfl | cases hs

/-- The law on a setting that the function leaves alone: the first value there is. -/
theorem follows_iff {s : Setting b} :
    Follows sea config listener s r ↔
      (∀ v, listener.Sets s v → r s = v) ∧
        (listener.Leaves s → r s = ((listener.argument s).or (config.configured s)).getD
          (sea.new (expectedMode config listener b) b s)) := by
  constructor
  · intro hfollows
    refine ⟨hfollows.set, ?_⟩
    intro hleaves
    cases hargument : listener.argument s with
    | some v => exact hfollows.argument v hleaves hargument
    | none =>
        cases hconfigured : config.configured s with
        | some v => exact hfollows.configured v hleaves hargument hconfigured
        | none => exact hfollows.default hleaves hargument hconfigured
  · intro h
    obtain ⟨hset, hleaves⟩ := h
    constructor
    · exact hset
    · intro v hl hargument
      rw [hleaves hl, hargument]
      rfl
    · intro v hl hargument hconfigured
      rw [hleaves hl, hargument, hconfigured]
      rfl
    · intro hl hargument hconfigured
      rw [hleaves hl, hargument, hconfigured]
      rfl

theorem follows_mode_iff (h : r (.mode b) = mode) :
    Follows sea config listener (.mode b) r ↔
      (∀ v, listener.Sets (.mode b) v → mode = v) ∧
        (listener.Leaves (.mode b) → mode = expectedMode config listener b) := by
  have hvalue : ((listener.argument (.mode b)).or (config.configured (.mode b))).getD
      (sea.new (expectedMode config listener b) b (.mode b)) = expectedMode config listener b := by
    have harg : listener.argument (.mode b) = listener.mode := rfl
    rw [harg, sea.new_mode, expectedMode]
    cases listener.mode.or (config.configured (.mode b)) with
    | none => rfl
    | some m => rfl
  rw [follows_iff, h, hvalue]

theorem follows_group_iff (h : r (.group b) = group) :
    Follows sea config listener (.group b) r ↔
      (∀ v, listener.Sets (.group b) v → group = v) ∧
        (listener.Leaves (.group b) →
          group = listener.group.or ((config.configured (.group b)).getD none)) := by
  have hvalue : ((listener.argument (.group b)).or (config.configured (.group b))).getD
      (sea.new (expectedMode config listener b) b (.group b)) =
      listener.group.or ((config.configured (.group b)).getD none) := by
    have harg : listener.argument (.group b) = listener.group.map some := rfl
    rw [harg, sea.new_group]
    cases listener.group with
    | none => rfl
    | some g => rfl
  rw [follows_iff, h, hvalue]

theorem follows_own_iff (h : Rebuilt sea config first mode group r) {s : Setting b}
    (hs : s.own = true) :
    Follows sea config listener s r ↔
      (∀ v, listener.Sets s v → (config.filledBy first s).getD (sea.new mode b s) = v) ∧
      (∀ v, listener.Leaves s → config.configured s = some v →
        first = b ∧ s.filled = true ∨ sea.new mode b s = v) ∧
      (listener.Leaves s → config.configured s = none →
        sea.new mode b s = sea.new (expectedMode config listener b) b s) := by
  have harg : listener.argument s = none := argument_of_own hs
  have hr := h.own_eq hs
  -- a setting is taken from the section of its own backend, or else it has the default
  have hfilled : first = b ∧ s.filled = true → ∀ v, config.configured s = some v → r s = v := by
    intro hfirst v hv
    rw [hr, StreamConfig.filledBy, if_pos hfirst, hv]
    rfl
  have hdefault : ¬ (first = b ∧ s.filled = true) → r s = sea.new mode b s := by
    intro hfirst
    rw [hr, StreamConfig.filledBy, if_neg hfirst]
    rfl
  have hnone : config.configured s = none → r s = sea.new mode b s := by
    intro hv
    rw [hr, StreamConfig.filledBy, hv, ite_self]
    rfl
  constructor
  · intro hfollows
    refine ⟨?_, ?_, ?_⟩
    · intro v hset
      exact hr.symm.trans (hfollows.set v hset)
    · intro v hleaves hv
      by_cases hfirst : first = b ∧ s.filled = true
      · exact .inl hfirst
      · exact .inr ((hdefault hfirst).symm.trans (hfollows.configured v hleaves harg hv))
    · intro hleaves hv
      exact (hnone hv).symm.trans (hfollows.default hleaves harg hv)
  · intro hall
    obtain ⟨hset, hconfigured, hdefaults⟩ := hall
    constructor
    · intro v hv
      exact hr.trans (hset v hv)
    · intro v _ hv
      rw [harg] at hv
      cases hv
    · intro v hleaves _ hv
      by_cases hfirst : first = b ∧ s.filled = true
      · exact hfilled hfirst v hv
      · rcases hconfigured v hleaves hv with hin | heq
        · exact absurd hin hfirst
        · exact (hdefault hfirst).trans heq
    · intro hleaves _ hv
      exact (hnone hv).trans (hdefaults hleaves hv)

theorem forall_setting_iff {P : Setting b → Prop} :
    (∀ s, P s) ↔ P (.mode b) ∧ P (.group b) ∧ ∀ s, s.own = true → P s := by
  constructor
  · intro h
    exact ⟨h _, h _, fun s _ => h s⟩
  · intro h s
    obtain ⟨hmode, hgroup, hown⟩ := h
    cases s <;> first | exact hmode | exact hgroup | exact hown _ rfl

theorem forall_follows_iff (h : Rebuilt sea config first mode group r) :
    (∀ s, Follows sea config listener s r) ↔
      Reached sea config listener first b mode group := by
  rw [forall_setting_iff, follows_mode_iff h.mode_eq, follows_group_iff h.group_eq]
  constructor
  · intro hall
    obtain ⟨⟨hmode, hmode'⟩, ⟨hgroup, hgroup'⟩, hown⟩ := hall
    exact ⟨hmode, hmode', hgroup, hgroup',
      fun s v hs => ((follows_own_iff h hs).mp (hown s hs)).1 v,
      fun s v hs => ((follows_own_iff h hs).mp (hown s hs)).2.1 v,
      fun s hs => ((follows_own_iff h hs).mp (hown s hs)).2.2⟩
  · intro hreached
    exact ⟨⟨hreached.sets_mode, hreached.leaves_mode⟩,
      ⟨hreached.sets_group, hreached.leaves_group⟩,
      fun s hs => (follows_own_iff h hs).mpr ⟨fun v => hreached.sets s v hs,
        fun v => hreached.configured s v hs, hreached.default s hs⟩⟩

/-- For whichever backend the uri names, the law holds exactly if no section of any backend is
present, or the mode and the group read from the listener's options and the section that
comes first give what the law asks for. -/
theorem precedence_iff :
    Precedence sea config listener b ↔
      config.first = none ∨ ∃ first, config.first = some first ∧
        Reached sea config listener first b
          (listener.consumerOpts sea sea.reads (.mode sea.reads))
          ((listener.consumerOpts sea sea.reads (.group sea.reads)).or
            ((config.configured (.group first)).getD none)) := by
  cases hfirst : config.first with
  | none => simp [precedence_of_no_section hfirst]
  | some first =>
      have heq := @newConsumerOptions_eq sea config (listener.consumerOpts sea)
      rw [hfirst] at heq
      have hiff : Precedence sea config listener b ↔ _ :=
        forall_follows_iff (r := config.newConsumerOptions sea (listener.consumerOpts sea) b)
          (heq b)
      rw [hiff]
      simp

end

namespace Sample

def record (mode : ConsumerMode) : (b : Backend) → Record b
  | _, .mode _ => mode
  | _, .group _ => none
  | .kafka, .sessionTimeout => none
  | .kafka, .autoOffsetReset => none
  | .kafka, .enableAutoCommit => none
  | .kafka, .kafkaCommitInterval => none
  | .kafka, .enableAutoOffsetStore => none
  | .kafka, .customOption _ => none
  | .redis, .consumerId => none
  | .redis, .consumerTimeout => none
  | .redis, .autoStreamReset => .latest
  | .redis, .autoCommit => .delayed
  | .redis, .autoCommitDelay => 5000
  | .redis, .autoCommitInterval => 1000
  | .redis, .autoClaimInterval => some 30000
  | .redis, .autoClaimIdle => 60000
  | .redis, .batchSize => 100
  | .redis, .shardOwnership => .shared
  | .redis, .mkstream => false
  | .file, .fileStreamReset => .latest
  | .file, .liveStreaming => true

def sea : SeaStreamer where
  new := record
  reads := .kafka
  new_mode := by intro mode b; cases b <;> rfl
  new_group := by intro mode b; cases b <;> rfl

/-- `[stream.file.consumer]` with `mode = "Resumable"`. -/
def config : StreamConfig where
  kafka := none
  redis := none
  stdio := none
  file := some (some { mode := .resumable, groupId := none, autoStreamReset := .earliest,
                       liveStreaming := true })

/-- `#[stream_listener("topic")]`. -/
def listener : Listener where
  mode := none
  group := none
  fileConsumerOptions := none
  stdioConsumerOptions := none
  redisConsumerOptions := none
  kafkaConsumerOptions := none

end Sample

/-- The configured mode of a listener without a mode of its own is lost. -/
theorem configured_mode_lost : ¬ Precedence Sample.sea Sample.config Sample.listener .file := by
  intro h
  have hmode := (h (.mode .file)).configured .resumable (fun _ => rfl) rfl rfl
  cases hmode

end Summer.Stream
