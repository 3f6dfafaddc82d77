/-
Which settings of a `[stream.redis.consumer]` section come into force
(`summer-stream/src/config/redis.rs` and `mod.rs`).

`new_consumer_options` sets the mode and the group, `fill_consumer_options` the rest but for
`auto_commit_delay`: in its place `auto_stream_reset` is set a second time.  The section is in
force exactly where the delay is the one the options have already (`inForce_iff`).
-/
import Summer.Stream.Precedence

namespace Summer.Stream

namespace RedisConsumer

/-- What a section makes: the options with its mode and its group, and those filled from
`opts`. -/
def produced (sea : SeaStreamer) (consumer : RedisConsumer) (opts : Record .redis) :
    SeaConsumerOptions × Record .redis :=
  ((filler (some consumer)).newConsumerOptions sea none none,
    (filler (some consumer)).fillConsumerOptions opts)

/-- Every setting of the section is the one in force; a mode or a group given besides comes
first. -/
structure InForce (sea : SeaStreamer) (consumer : RedisConsumer) (opts : Record .redis) : Prop where
  mode : ∀ mode group, (filler (some consumer)).newConsumerOptions sea mode group .redis
    (.mode .redis) = mode.getD consumer.mode
  group : ∀ mode group, (filler (some consumer)).newConsumerOptions sea mode group .redis
    (.group .redis) = group.or consumer.groupId
  filled : ∀ (s : Setting .redis) (v : s.Value), s ≠ .mode .redis → s ≠ .group .redis →
    consumer.value s = some v → (filler (some consumer)).fillConsumerOptions opts s = v

/-- The section as it shows in the options filled: without the delay, and with the consumer id
of `opts` where it has none. -/
def shown (opts : Record .redis) (consumer : RedisConsumer) : RedisConsumer :=
  { consumer with
    consumerId := consumer.consumerId.or (opts .consumerId)
    autoCommitDelay := opts .autoCommitDelay }

section
variable {sea : SeaStreamer} {consumer consumer' : RedisConsumer} {opts : Record .redis}

/-! ## Mode and group -/

theorem newConsumerOptions_redis (mode : Option ConsumerMode) (group : Option String) :
    (filler (some consumer)).newConsumerOptions sea mode group .redis =
      (sea.new (mode.getD consumer.mode) .redis).set (.group .redis)
        (group.or consumer.groupId) := by
  have hgiven := @OptionsFiller.newConsumerOptions_eq sea .redis (filler (some consumer))
    (mode.getD consumer.mode) group .redis
  cases mode <;> exact hgiven

theorem mode_inForce (mode : Option ConsumerMode) (group : Option String) :
    (filler (some consumer)).newConsumerOptions sea mode group .redis (.mode .redis) =
      mode.getD consumer.mode := by
  rw [newConsumerOptions_redis, Record.set_ne _ _ (by nofun), sea.new_mode]

theorem group_inForce (mode : Option ConsumerMode) (group : Option String) :
    (filler (some consumer)).newConsumerOptions sea mode group .redis (.group .redis) =
      group.or consumer.groupId := by
  rw [newConsumerOptions_redis, Record.set_self]

/-! ## The other settings -/

/-- The fields that `fill_consumer_options` reads. -/
theorem fill_shown : (shown opts consumer).fill opts = consumer.fill opts := by
  funext s
  rw [fill_apply, fill_apply]
  cases s with
  | consumerId =>
      cases hid : consumer.consumerId with
      | some id => simp [Setting.filled, value, shown, hid]
      | none => cases hopts : opts .consumerId <;> simp [Setting.filled, value, shown, hid, hopts]
  | _ => simp [Setting.filled, value, shown]

theorem newConsumerOptions_shown :
    (filler (some (shown opts consumer))).newConsumerOptions sea none none =
      (filler (some consumer)).newConsumerOptions sea none none := by
  have hmode : (filler (some (shown opts consumer))).defaultConsumerMode =
      (filler (some consumer)).defaultConsumerMode := rfl
  have hgroup : (filler (some (shown opts consumer))).defaultConsumerGroupId =
      (filler (some consumer)).defaultConsumerGroupId := rfl
  unfold OptionsFiller.newConsumerOptions
  rw [hmode, hgroup]

theorem produced_shown : produced sea (shown opts consumer) opts = produced sea consumer opts := by
  have hfill : ∀ c : RedisConsumer, (filler (some c)).fillConsumerOptions opts = c.fill opts :=
    fun _ => rfl
  unfold produced
  rw [newConsumerOptions_shown, hfill, hfill, fill_shown]

/-- Each field that shows can be read off again. -/
theorem produced_eq_iff :
    produced sea consumer opts = produced sea consumer' opts ↔
      shown opts consumer = shown opts consumer' := by
  constructor
  · intro h
    obtain ⟨hnew, hfill⟩ := Prod.mk.inj h
    have hmode := congrFun (congrFun hnew .redis) (.mode .redis)
    have hgroup := congrFun (congrFun hnew .redis) (.group .redis)
    rw [mode_inForce, mode_inForce] at hmode
    rw [group_inForce, group_inForce] at hgroup
    have hset : ∀ s : Setting .redis, s.filled = true →
        (consumer.value s).getD (opts s) = (consumer'.value s).getD (opts s) := by
      intro s hs
      have heq : consumer.fill opts s = consumer'.fill opts s := congrFun hfill s
      rw [fill_apply, fill_apply, if_pos hs, if_pos hs] at heq
      exact heq
    have hid := hset .consumerId rfl
    have hshown : consumer.consumerId.or (opts .consumerId) =
        consumer'.consumerId.or (opts .consumerId) := by
      revert hid
      simp only [value]
      cases consumer.consumerId <;> cases consumer'.consumerId <;> exact id
    unfold shown
    rw [mk.injEq]
    exact ⟨hmode, hgroup, hshown, hset .consumerTimeout rfl, hset .autoStreamReset rfl,
      hset .autoCommit rfl, rfl, hset .autoCommitInterval rfl, hset .autoClaimInterval rfl,
      hset .autoClaimIdle rfl, hset .batchSize rfl, hset .shardOwnership rfl, hset .mkstream rfl⟩
  · intro h
    rw [← produced_shown, h, produced_shown]

/-- One section is in force exactly if its delay is there already. -/
theorem inForce_one_iff :
    InForce sea consumer opts ↔ consumer.autoCommitDelay = opts .autoCommitDelay := by
  constructor
  · intro h
    have hdelay := h.filled .autoCommitDelay _ (by nofun) (by nofun) rfl
    have hkept : consumer.fill opts .autoCommitDelay = opts .autoCommitDelay := by
      rw [fill_apply]
      rfl
    exact hdelay.symm.trans hkept
  · intro hdelay
    refine ⟨mode_inForce, group_inForce, ?_⟩
    intro s v hmode hgroup hvalue
    show consumer.fill opts s = v
    rw [fill_apply]
    cases hfilled : s.filled with
    | true => rw [if_pos rfl, hvalue, Option.getD_some]
    | false =>
        rw [if_neg Bool.false_ne_true]
        cases s with
        | autoCommitDelay => exact hdelay.symm.trans (Option.some.inj hvalue)
        | mode => exact absurd rfl hmode
        | group => exact absurd rfl hgroup
        | _ => cases hfilled

/-- For every two sections and all options to start from: both sections are in force, and make
different options if they differ, exactly if the delay of both is there already and it is not
just the consumer id there that one of them sets and the other does not. -/
theorem inForce_iff (sea : SeaStreamer) (consumer consumer' : RedisConsumer)
    (opts : Record .redis) :
    (InForce sea consumer opts ∧ InForce sea consumer' opts ∧
        (consumer ≠ consumer' → produced sea consumer opts ≠ produced sea consumer' opts)) ↔
      consumer.autoCommitDelay = opts .autoCommitDelay ∧
        consumer'.autoCommitDelay = opts .autoCommitDelay ∧
        (consumer ≠ consumer' → consumer' = { consumer with consumerId := consumer'.consumerId } →
          consumer.consumerId.or (opts .consumerId) ≠
            consumer'.consumerId.or (opts .consumerId)) := by
  rw [inForce_one_iff, inForce_one_iff]
  refine and_congr_right fun hdelay => and_congr_right fun hdelay' => ?_
  refine imp_congr_right fun hne => ?_
  rw [ne_eq, produced_eq_iff]
  have hshown : ∀ {c : RedisConsumer}, c.autoCommitDelay = opts .autoCommitDelay →
      shown opts c = { c with consumerId := c.consumerId.or (opts .consumerId) } := by
    intro c hc
    unfold shown
    rw [← hc]
  rw [hshown hdelay, hshown hdelay']
  constructor
  · intro h hrest hid
    apply h
    rw [hrest, ← hid]
  · intro h heq
    obtain ⟨h1, h2, hid, h4, h5, h6, h7, h8, h9, h10, h11, h12, h13⟩ := mk.inj heq
    refine h ?_ hid
    cases consumer
    cases consumer'
    simp only at h1 h2 h4 h5 h6 h7 h8 h9 h10 h11 h12 h13
    subst h1 h2 h4 h5 h6 h7 h8 h9 h10 h11 h12 h13
    rfl

end

end RedisConsumer

namespace Sample

/-- A section with all its settings but the group and the consumer id. -/
def redisSection (autoCommitDelay : Duration) : RedisConsumer :=
  { mode := .loadBalanced
    groupId := none
    consumerId := none
    consumerTimeout := none
    autoStreamReset := .earliest
    autoCommit := .delayed
    autoCommitDelay := autoCommitDelay
    autoCommitInterval := 1000
    autoClaimInterval := none
    autoClaimIdle := 60000
    batchSize := 100
    shardOwnership := .shared
    mkstream := true }

/-- What the options of a new consumer hold before anything is filled in. -/
def redisOptions : Record .redis := record .loadBalanced .redis

end Sample

/-- The delay of the section is forgotten, and two sections that differ in it make the same
options. -/
theorem auto_commit_delay_forgotten :
    (RedisConsumer.filler (some (Sample.redisSection 200))).fillConsumerOptions Sample.redisOptions
        .autoCommitDelay = 5000 ∧
      ¬ RedisConsumer.InForce Sample.sea (Sample.redisSection 200) Sample.redisOptions ∧
      Sample.redisSection 200 ≠ Sample.redisSection 300 ∧
      RedisConsumer.produced Sample.sea (Sample.redisSection 200) Sample.redisOptions =
        RedisConsumer.produced Sample.sea (Sample.redisSection 300) Sample.redisOptions := by
  have hkept : (RedisConsumer.filler (some (Sample.redisSection 200))).fillConsumerOptions
      Sample.redisOptions .autoCommitDelay = 5000 := rfl
  refine ⟨hkept, fun h => ?_, fun heq => ?_, RedisConsumer.produced_eq_iff.mpr rfl⟩
  · have hset := h.filled .autoCommitDelay _ (by nofun) (by nofun) rfl
    exact absurd (hset.symm.trans hkept) (by decide)
  · exact absurd (congrArg RedisConsumer.autoCommitDelay heq) (by decide)

end Summer.Stream
