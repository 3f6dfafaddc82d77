/-
What a registry holds after documents have been merged into it one after the other.

At a path that is no table the last document wins, arrays apart: those of all documents are
concatenated (`settled_of_built`).
-/
import Mathlib.Data.List.Basic
import Summer.Config.Toml

namespace Summer.Config

variable {mergeTables : Table → Table → Except String Table}

/-! ## What it is for -/

/-- The values that documents have at a path, in the order of the documents. -/
def valuesAt (docs : List Table) (path : List String) : List Value :=
  docs.filterMap fun doc => doc.valueAt path

/-- At a path that is no table, the table has the value of the last document with one. -/
def LaterWins (docs : List Table) (t : Table) : Prop :=
  ∀ path v, (valuesAt docs path).getLast? = some v → v.kind ≠ .table → t.valueAt path = some v

/-- The table has a value where one of the documents has one, and nowhere else. -/
def KeepsKeys (docs : List Table) (t : Table) : Prop :=
  ∀ key path, (t.valueAt (key :: path)).isSome ↔
    ∃ doc ∈ docs, (doc.valueAt (key :: path)).isSome

/-- Only the last array at a path has items. -/
def NoArrayOverridden (docs : List Table) : Prop :=
  ∀ path items, (valuesAt docs path).getLast? = some (.array items) →
    ∀ v ∈ (valuesAt docs path).dropLast, v = .array []

/-- The table that a registry holds when these documents were applied to it. -/
inductive Built (mergeTables : Table → Table → Except String Table) : List Table → Table → Prop
  | empty : Built mergeTables [] []
  | base (t : Table) : Built mergeTables [t] t
  | overlay {docs : List Table} {t d t' : Table} : Built mergeTables docs t →
      mergeTables t d = .ok t' → Built mergeTables (docs ++ [d]) t'

/-! ## One merge -/

/-- What merging does at a path, where a value may be missing. -/
def MergedAt (mergeTables : Table → Table → Except String Table) :
    Option Value → Option Value → Option Value → Prop
  | none, w, u => u = w
  | some v, none, u => u = some v
  | some v, some w, u => ∃ x, u = some x ∧ MergedValue mergeTables v w x

theorem mergedAt_none_right {v u : Option Value} : MergedAt mergeTables v none u ↔ u = v := by
  cases v <;> exact Iff.rfl

theorem Value.valueAt_cons_of_ne_table {v : Value} (h : v.kind ≠ .table) (key : String)
    (path : List String) : v.valueAt (key :: path) = none := by
  cases v with
  | table t => exact absurd rfl h
  | _ => rfl

theorem mergedAt_of_merges (hmerge : MergesTables mergeTables) {a b c : Table}
    (h : mergeTables a b = .ok c) (path : List String) :
    MergedAt mergeTables (a.valueAt path) (b.valueAt path) (c.valueAt path) := by
  induction path generalizing a b c with
  | nil => exact ⟨_, rfl, .table h⟩
  | cons key path ih =>
      have hcons : ∀ t : Table, t.valueAt (key :: path) =
          (t.lookup key).bind fun v => v.valueAt path := fun _ => rfl
      rw [hcons, hcons, hcons]
      cases ha : a.lookup key with
      | none =>
          rw [hmerge.right h ha]
          exact rfl
      | some v =>
          cases hb : b.lookup key with
          | none =>
              rw [hmerge.left h hb, ha]
              exact mergedAt_none_right.mpr rfl
          | some w =>
              obtain ⟨u, hc, hmerged⟩ := hmerge.both h ha hb
              rw [hc]
              show MergedAt mergeTables (v.valueAt path) (w.valueAt path) (u.valueAt path)
              cases hmerged with
              | table hsub => exact ih hsub
              | scalar hkind harray htable =>
                  cases path with
                  | nil => exact ⟨_, rfl, .scalar hkind harray htable⟩
                  | cons key' path =>
                      rw [Value.valueAt_cons_of_ne_table htable,
                        Value.valueAt_cons_of_ne_table (hkind ▸ htable)]
                      exact rfl
              | array as bs =>
                  cases path with
                  | nil => exact ⟨_, rfl, .array as bs⟩
                  | cons key' path => exact rfl

/-! ## A sequence of merges -/

/-- The value that comes of the values of all documents at a path. -/
inductive Settled : List Value → Option Value → Prop
  | none : Settled [] none
  | scalar {vs : List Value} {v : Value} : vs.getLast? = some v → v.kind ≠ .array →
      v.kind ≠ .table → Settled vs (some v)
  | array {items : List (List Value)} : items ≠ [] →
      Settled (items.map .array) (some (.array items.flatten))
  | table {vs : List Value} {t : Table} : vs ≠ [] → (∀ v ∈ vs, v.kind = .table) →
      Settled vs (some (.table t))

theorem settled_singleton (v : Value) : Settled [v] (some v) := by
  cases v with
  | array items =>
      have hflat : items = [items].flatten := by simp
      have hsettled := @Settled.array [items] (List.cons_ne_nil _ _)
      rw [← hflat] at hsettled
      exact hsettled
  | table t => exact .table (List.cons_ne_nil _ _) (by simp [Value.kind])
  | _ => exact .scalar rfl (by simp [Value.kind]) (by simp [Value.kind])

theorem settled_append {vs : List Value} {v w u : Option Value} (h : Settled vs v)
    (hmerged : MergedAt mergeTables v w u) : Settled (vs ++ w.toList) u := by
  cases w with
  | none =>
      rw [mergedAt_none_right.mp hmerged, Option.toList_none, List.append_nil]
      exact h
  | some w =>
      cases v with
      | none =>
          obtain rfl : u = some w := hmerged
          cases h
          exact settled_singleton w
      | some v =>
          obtain ⟨x, rfl, hmerged⟩ := hmerged
          cases hmerged with
          | scalar hkind harray htable =>
              exact .scalar (by simp) (hkind ▸ harray) (hkind ▸ htable)
          | array as bs =>
              cases h with
              | scalar _ harray _ => exact absurd rfl harray
              | @array items hne =>
                  have hsettled := @Settled.array (items ++ [bs]) (by simp)
                  simp only [List.map_append, List.flatten_append, List.map_cons, List.map_nil,
                    List.flatten_cons, List.flatten_nil, List.append_nil] at hsettled
                  exact hsettled
          | table _ =>
              cases h with
              | scalar _ _ htable => exact absurd rfl htable
              | table hne hall =>
                  apply Settled.table (by simp)
                  intro v hv
                  rcases List.mem_append.mp hv with hv | hv
                  · exact hall v hv
                  · obtain rfl := List.mem_singleton.mp hv
                    rfl

theorem valuesAt_singleton (doc : Table) (path : List String) :
    valuesAt [doc] path = (doc.valueAt path).toList := by
  cases h : doc.valueAt path <;> simp [valuesAt, h]

theorem valuesAt_append (docs docs' : List Table) (path : List String) :
    valuesAt (docs ++ docs') path = valuesAt docs path ++ valuesAt docs' path :=
  List.filterMap_append

theorem settled_of_built (hmerge : MergesTables mergeTables) {docs : List Table} {t : Table}
    (h : Built mergeTables docs t) (key : String) (path : List String) :
    Settled (valuesAt docs (key :: path)) (t.valueAt (key :: path)) := by
  induction h with
  | empty => exact .none
  | base t =>
      rw [valuesAt_singleton]
      cases t.valueAt (key :: path) with
      | none => exact .none
      | some v => exact settled_singleton v
  | @overlay docs t d t' _ hd ih =>
      rw [valuesAt_append, valuesAt_singleton]
      exact settled_append ih (mergedAt_of_merges hmerge hd (key :: path))

theorem Settled.isSome_iff {vs : List Value} {u : Option Value} (h : Settled vs u) :
    u.isSome ↔ vs ≠ [] := by
  cases h with
  | none => simp
  | scalar hlast _ _ =>
      have hne : vs ≠ [] := by
        rintro rfl
        cases hlast
      simp [hne]
  | array hne => simp [hne]
  | table hne _ => simp [hne]

/-- At one path the last value wins exactly if the arrays before it are empty. -/
theorem Settled.last_iff {vs : List Value} {u : Option Value} (h : Settled vs u) :
    (∀ v, vs.getLast? = some v → v.kind ≠ .table → u = some v) ↔
      ∀ items, vs.getLast? = some (.array items) → ∀ v ∈ vs.dropLast, v = .array [] := by
  cases h with
  | none => simp
  | @scalar _ v hlast harray htable =>
      constructor
      · intro _ items hitems
        obtain rfl : v = .array items := Option.some.inj (hlast.symm.trans hitems)
        exact absurd rfl harray
      · intro _ w hw _
        exact hlast.symm.trans hw
  | table hne hall =>
      constructor
      · intro _ items hitems
        have hkind := hall _ (List.mem_of_getLast? hitems)
        cases hkind
      · intro _ v hv htable
        exact absurd (hall v (List.mem_of_getLast? hv)) htable
  | @array items hne =>
      obtain ⟨init, last, rfl⟩ := (List.eq_nil_or_concat items).resolve_left hne
      have hvalues : (init ++ [last]).map Value.array = init.map Value.array ++ [.array last] := by
        rw [List.map_append]
        rfl
      have hflat : (init ++ [last]).flatten = init.flatten ++ last := by simp
      have hinit : init.flatten ++ last = last ↔ ∀ v ∈ init.map Value.array, v = .array [] := by
        simp
      rw [List.concat_eq_append, hvalues, hflat]
      simp only [List.getLast?_concat, List.dropLast_concat, ← hinit, Option.some.injEq]
      constructor
      · intro h _ _
        exact Value.array.inj (h _ rfl nofun)
      · intro h v hv _
        rw [h last rfl]
        exact hv

theorem valuesAt_root_table {docs : List Table} {v : Value} (h : v ∈ valuesAt docs []) :
    v.kind = .table := by
  obtain ⟨doc, _, hv⟩ := List.mem_filterMap.mp h
  obtain rfl : Value.table doc = v := Option.some.inj hv
  rfl

theorem laterWins_iff_of_built (hmerge : MergesTables mergeTables) {docs : List Table} {t : Table}
    (h : Built mergeTables docs t) : LaterWins docs t ↔ NoArrayOverridden docs := by
  apply forall_congr'
  intro path
  cases path with
  | cons key path => exact (settled_of_built hmerge h key path).last_iff
  | nil =>
      -- at the root there are only tables
      constructor
      · intro _ items hitems
        cases valuesAt_root_table (List.mem_of_getLast? hitems)
      · intro _ v hv htable
        exact absurd (valuesAt_root_table (List.mem_of_getLast? hv)) htable

theorem keepsKeys_of_built (hmerge : MergesTables mergeTables) {docs : List Table} {t : Table}
    (h : Built mergeTables docs t) : KeepsKeys docs t := by
  intro key path
  rw [(settled_of_built hmerge h key path).isSome_iff, valuesAt, ne_eq, List.filterMap_eq_nil_iff]
  simp [Option.isSome_iff_ne_none]

/-! ## The registry -/

section
variable {toml : Toml} {files : Files} {interpolate : String → String}

theorem document_eq {path content : String} {t : Table}
    (hread : files.readToString path = .ok content)
    (hparse : toml.fromStr (interpolate content) = .ok t) :
    document toml files interpolate path = some t := by
  unfold document
  rw [hread]
  show (toml.fromStr (interpolate content)).toOption = some t
  rw [hparse]
  rfl

/-- What `new` loads is the main document, with the profile of the environment over it. -/
theorem built_loadConfig {configPath : String} {envPath : Except ConfigError String} {t : Table}
    (h : loadConfig toml files interpolate configPath envPath = .ok t) :
    Built toml.mergeTables (loadedDocuments toml files interpolate configPath envPath) t := by
  unfold loadConfig at h
  unfold loadedDocuments
  cases hread : files.readToString configPath with
  | error e =>
      rw [hread] at h
      cases h
      have hnone : document toml files interpolate configPath = none := by
        unfold document
        rw [hread]
        rfl
      rw [hnone]
      exact .empty
  | ok content =>
      simp only [hread] at h
      cases hparse : toml.fromStr (interpolate content) with
      | error e =>
          rw [hparse] at h
          cases h
      | ok mainTable =>
          simp only [hparse] at h
          rw [document_eq hread hparse]
          cases envPath with
          | error e =>
              cases h
              exact .base _
          | ok envPath =>
              simp only at h ⊢
              split at h
              · next hexists =>
                  cases h
                  rw [if_pos hexists]
                  exact .base _
              · next hexists =>
                  rw [if_neg hexists]
                  split at h
                  · cases h
                  · next content' hread' =>
                      split at h
                      · cases h
                      · next envTable hparse' =>
                          rw [document_eq hread' hparse']
                          split at h
                          · cases h
                          · next hmerged =>
                              cases h
                              exact (Built.base mainTable).overlay hmerged

theorem built_new {configPath : String} {envPath : Except ConfigError String}
    {registry : TomlConfigRegistry}
    (h : TomlConfigRegistry.new toml files interpolate configPath envPath = .ok registry) :
    Built toml.mergeTables (loadedDocuments toml files interpolate configPath envPath)
      registry.config := by
  unfold TomlConfigRegistry.new at h
  cases hload : loadConfig toml files interpolate configPath envPath with
  | error e =>
      rw [hload] at h
      cases h
  | ok config =>
      rw [hload] at h
      cases h
      exact built_loadConfig hload

theorem built_fromStr {str : String} {registry : TomlConfigRegistry}
    (h : TomlConfigRegistry.fromStr toml str = .ok registry) :
    ∃ doc, toml.fromStr str = .ok doc ∧ Built toml.mergeTables [doc] registry.config := by
  unfold TomlConfigRegistry.fromStr at h
  cases hparse : toml.fromStr str with
  | error e =>
      rw [hparse] at h
      cases h
  | ok doc =>
      rw [hparse] at h
      cases h
      exact ⟨doc, rfl, .base doc⟩

/-- A text that is not merged leaves the registry as it was. -/
theorem mergeStr_cases (registry : TomlConfigRegistry) (text : String) :
    (∃ e, registry.mergeStr toml text = (.error e, registry)) ∨
      ∃ overlay config, toml.fromStr text = .ok overlay ∧
        toml.mergeTables registry.config overlay = .ok config ∧
        registry.mergeStr toml text = (.ok (), { config := config }) := by
  unfold TomlConfigRegistry.mergeStr
  cases hparse : toml.fromStr text with
  | error e => exact .inl ⟨_, rfl⟩
  | ok overlay =>
      simp only
      cases hmerge : toml.mergeTables registry.config overlay with
      | error e => exact .inl ⟨_, rfl⟩
      | ok config => exact .inr ⟨overlay, config, rfl, hmerge, rfl⟩

theorem built_mergeAll {docs : List Table} {registry : TomlConfigRegistry}
    (h : Built toml.mergeTables docs registry.config) (texts : List String) :
    Built toml.mergeTables (docs ++ appliedDocuments toml registry texts)
      (registry.mergeAll toml texts).config := by
  induction texts generalizing docs registry with
  | nil =>
      rw [appliedDocuments, List.append_nil]
      exact h
  | cons text texts ih =>
      have hstep : registry.mergeAll toml (text :: texts) =
          (registry.mergeStr toml text).2.mergeAll toml texts := rfl
      rw [hstep, appliedDocuments]
      rcases @mergeStr_cases toml registry text with ⟨e, hmerge⟩ |
        ⟨overlay, config, hparse, hconfig, hmerge⟩
      · simp only [hmerge]
        exact ih h
      · simp only [hmerge, hparse]
        have hbuilt := @ih _ { config := config } (h.overlay hconfig)
        rw [List.append_assoc] at hbuilt
        exact hbuilt

/-- The configuration of a key is what the registry holds below it. -/
theorem getByPrefix_valueAt (registry : TomlConfigRegistry) (key key' : String)
    (path : List String) :
    (registry.getByPrefix key).valueAt (key' :: path) =
      registry.config.valueAt (key :: key' :: path) := by
  have hcons : registry.config.valueAt (key :: key' :: path) =
      (registry.config.lookup key).bind fun v => v.valueAt (key' :: path) := rfl
  rw [hcons]
  unfold TomlConfigRegistry.getByPrefix
  cases registry.config.lookup key with
  | none => rfl
  | some v =>
      cases v with
      | table t => rfl
      | _ => rfl

/-- The bootstrap entries that could be fetched are merged in their order. -/
theorem mergeBootstrap_eq (registry : TomlConfigRegistry) (fetched : List (Except String String)) :
    registry.mergeBootstrap toml fetched =
      registry.mergeAll toml (fetched.filterMap Except.toOption) := by
  induction fetched generalizing registry with
  | nil => rfl
  | cons response rest ih =>
      cases response with
      | error e => exact ih registry
      | ok content => exact ih (registry.mergeStr toml content).2

/-- The registries that a program starts with, and the documents in them. -/
inductive Started (toml : Toml) (files : Files) (interpolate : String → String) :
    List Table → TomlConfigRegistry → Prop
  | default : Started toml files interpolate [] .default
  | fromStr {str : String} {doc : Table} {registry : TomlConfigRegistry} :
      TomlConfigRegistry.fromStr toml str = .ok registry → toml.fromStr str = .ok doc →
      Started toml files interpolate [doc] registry
  | new {configPath : String} {envPath : Except ConfigError String}
      {registry : TomlConfigRegistry} :
      TomlConfigRegistry.new toml files interpolate configPath envPath = .ok registry →
      Started toml files interpolate (loadedDocuments toml files interpolate configPath envPath)
        registry

theorem built_of_started {docs : List Table} {registry : TomlConfigRegistry}
    (h : Started toml files interpolate docs registry) :
    Built toml.mergeTables docs registry.config := by
  cases h with
  | default => exact .empty
  | fromStr hload hparse =>
      obtain ⟨doc, hdoc, hbuilt⟩ := built_fromStr hload
      rw [hparse] at hdoc
      cases hdoc
      exact hbuilt
  | new hload => exact built_new hload

/-- The last document wins at every path, no key is lost and a failed merge changes nothing,
exactly if no array with items is followed by another one at its path. -/
theorem laterWins_iff_noArrayOverridden (hmerge : MergesTables toml.mergeTables)
    {docs : List Table} {registry : TomlConfigRegistry}
    (hstart : Started toml files interpolate docs registry) (texts : List String) :
    LaterWins (docs ++ appliedDocuments toml registry texts)
          (registry.mergeAll toml texts).config ∧
        KeepsKeys (docs ++ appliedDocuments toml registry texts)
          (registry.mergeAll toml texts).config ∧
        (∀ (r : TomlConfigRegistry) text e, (r.mergeStr toml text).1 = .error e →
          (r.mergeStr toml text).2 = r) ↔
      NoArrayOverridden (docs ++ appliedDocuments toml registry texts) := by
  have hbuilt := built_mergeAll (built_of_started hstart) texts
  have hlater := laterWins_iff_of_built hmerge hbuilt
  have hfailed : ∀ (r : TomlConfigRegistry) text e, (r.mergeStr toml text).1 = .error e →
      (r.mergeStr toml text).2 = r := by
    intro r text e herror
    rcases @mergeStr_cases toml r text with ⟨_, hfail⟩ | ⟨_, _, _, _, hok⟩
    · rw [hfail]
    · rw [hok] at herror
      cases herror
  constructor
  · intro h
    exact hlater.mp h.1
  · intro h
    exact ⟨hlater.mpr h, keepsKeys_of_built hmerge hbuilt, hfailed⟩

end

namespace Sample

mutual

def mergeValue : Value → Value → Except String Value
  | .string _, .string s => .ok (.string s)
  | .integer _, .integer n => .ok (.integer n)
  | .float _, .float text => .ok (.float text)
  | .boolean _, .boolean b => .ok (.boolean b)
  | .datetime _, .datetime text => .ok (.datetime text)
  | .array as, .array bs => .ok (.array (as ++ bs))
  | .table a, .table b =>
    match mergeInto a b with
    | .ok c => .ok (.table (c ++ b.filter fun entry => decide (a.lookup entry.1 = none)))
    | .error e => .error e
  | _, _ => .error "incompatible types"

/-- The entries of the first table, merged with those of the second one. -/
def mergeInto : List (String × Value) → Table → Except String Table
  | [], _ => .ok []
  | (key, v) :: rest, b =>
    match (match b.lookup key with
      | none => .ok v
      | some w => mergeValue v w : Except String Value), mergeInto rest b with
    | .ok u, .ok c => .ok ((key, u) :: c)
    | .error e, _ => .error e
    | _, .error e => .error e

end

def merge (a b : Table) : Except String Table :=
  match mergeInto a b with
  | .ok c => .ok (c ++ b.filter fun entry => decide (a.lookup entry.1 = none))
  | .error e => .error e

theorem mergeInto_cons {key : String} {v : Value} {rest b c : Table}
    (h : mergeInto ((key, v) :: rest) b = .ok c) :
    ∃ u c', c = (key, u) :: c' ∧ mergeInto rest b = .ok c' ∧
      match b.lookup key with
      | none => u = v
      | some w => mergeValue v w = .ok u := by
  rw [mergeInto] at h
  cases hb : b.lookup key with
  | none =>
      simp only [hb] at h
      cases hrest : mergeInto rest b with
      | error e => simp [hrest] at h
      | ok c' =>
          simp only [hrest, Except.ok.injEq] at h
          exact ⟨v, c', h.symm, rfl, rfl⟩
  | some w =>
      simp only [hb] at h
      cases hv : mergeValue v w with
      | error e => simp [hv] at h
      | ok u =>
          cases hrest : mergeInto rest b with
          | error e => simp [hv, hrest] at h
          | ok c' =>
              simp only [hv, hrest, Except.ok.injEq] at h
              exact ⟨u, c', h.symm, rfl, hv⟩

theorem mergeInto_lookup {a b c : Table} (h : mergeInto a b = .ok c) (key : String) :
    match a.lookup key, b.lookup key with
    | none, _ => c.lookup key = none
    | some v, none => c.lookup key = some v
    | some v, some w => ∃ u, c.lookup key = some u ∧ mergeValue v w = .ok u := by
  induction a generalizing c with
  | nil =>
      rw [mergeInto] at h
      cases h
      rfl
  | cons entry rest ih =>
      obtain ⟨key', v⟩ := entry
      obtain ⟨u, c', rfl, hrest, hu⟩ := mergeInto_cons h
      by_cases hkey : key = key'
      · subst hkey
        simp only [List.lookup_cons_self]
        cases hb : b.lookup key with
        | none =>
            rw [hb] at hu
            exact congrArg some hu
        | some w =>
            rw [hb] at hu
            exact ⟨u, rfl, hu⟩
      · have hne : (key == key') = false := by simp [hkey]
        simp only [List.lookup_cons, hne]
        exact ih hrest

theorem merge_ok {a b c : Table} (h : merge a b = .ok c) :
    ∃ c', mergeInto a b = .ok c' ∧
      c = c' ++ b.filter fun entry => decide (a.lookup entry.1 = none) := by
  unfold merge at h
  cases hinto : mergeInto a b with
  | error e =>
      rw [hinto] at h
      cases h
  | ok c' =>
      rw [hinto] at h
      exact ⟨c', rfl, (Except.ok.inj h).symm⟩

theorem lookup_filter_none (a b : Table) (key : String) :
    (b.filter fun entry => decide (a.lookup entry.1 = none)).lookup key =
      if a.lookup key = none then b.lookup key else none := by
  induction b with
  | nil => simp
  | cons entry rest ih =>
      obtain ⟨key', v⟩ := entry
      by_cases hkey : key = key'
      · subst hkey
        by_cases ha : a.lookup key = none
        · simp [ha]
        · simpa [List.filter_cons, ha] using ih
      · have hne : (key == key') = false := by simp [hkey]
        by_cases ha : a.lookup key' = none
        · simpa [List.filter_cons, ha, List.lookup_cons, hne] using ih
        · simpa [List.filter_cons, ha, List.lookup_cons, hne] using ih

theorem mergedValue_of_ok {v w u : Value} (h : mergeValue v w = .ok u) :
    MergedValue merge v w u := by
  unfold mergeValue at h
  split at h
  · cases h
    exact .scalar rfl nofun nofun
  · cases h
    exact .scalar rfl nofun nofun
  · cases h
    exact .scalar rfl nofun nofun
  · cases h
    exact .scalar rfl nofun nofun
  · cases h
    exact .scalar rfl nofun nofun
  · cases h
    exact .array _ _
  · next a b =>
      split at h
      · next c hinto =>
          cases h
          apply MergedValue.table
          unfold merge
          rw [hinto]
      · cases h
  · cases h

theorem merge_lookup {a b c : Table} (h : merge a b = .ok c) (key : String) :
    match a.lookup key, b.lookup key with
    | none, w => c.lookup key = w
    | some v, none => c.lookup key = some v
    | some v, some w => ∃ u, c.lookup key = some u ∧ mergeValue v w = .ok u := by
  obtain ⟨c', hinto, rfl⟩ := merge_ok h
  have hlookup := mergeInto_lookup hinto key
  rw [List.lookup_append, lookup_filter_none]
  cases ha : a.lookup key with
  | none =>
      rw [ha] at hlookup
      show (c'.lookup key).or _ = _
      rw [hlookup, if_pos rfl, Option.none_or]
  | some v =>
      rw [ha] at hlookup
      rw [if_neg (Option.some_ne_none v), Option.or_none]
      cases hb : b.lookup key with
      | none =>
          rw [hb] at hlookup
          exact hlookup
      | some w =>
          rw [hb] at hlookup
          exact hlookup

theorem merge_merges : MergesTables merge := by
  constructor
  · intro a b c key h hb
    have hlookup := merge_lookup h key
    rw [hb] at hlookup
    cases ha : a.lookup key with
    | none =>
        rw [ha] at hlookup
        exact hlookup
    | some v =>
        rw [ha] at hlookup
        exact hlookup
  · intro a b c key h ha
    have hlookup := merge_lookup h key
    rw [ha] at hlookup
    exact hlookup
  · intro a b c key v w h ha hb
    have hlookup := merge_lookup h key
    rw [ha, hb] at hlookup
    obtain ⟨u, hu, hmerged⟩ := hlookup
    exact ⟨u, hu, mergedValue_of_ok hmerged⟩

def toml : Toml :=
  { fromStr := fun text =>
      if text = "group.key = 1" then .ok [("group", .table [("key", .integer 1)])]
      else if text = "group.key = 2" then .ok [("group", .table [("key", .integer 2)])]
      else if text = "hosts = [1]" then .ok [("hosts", .array [.integer 1])]
      else if text = "hosts = [2]" then .ok [("hosts", .array [.integer 2])]
      else .error "expected an equals sign"
    mergeTables := merge }

def files : Files := { readToString := fun _ => .error "not found", pathExists := fun _ => false }

end Sample


theorem laterWins_group :
    let registry : TomlConfigRegistry := ⟨[("group", .table [("key", .integer 1)])]⟩
    let docs := [registry.config] ++ appliedDocuments Sample.toml registry ["group.key = 2"]
    LaterWins docs (registry.mergeAll Sample.toml ["group.key = 2"]).config ∧
        KeepsKeys docs (registry.mergeAll Sample.toml ["group.key = 2"]).config ∧
        (∀ (r : TomlConfigRegistry) text e, (r.mergeStr Sample.toml text).1 = .error e →
          (r.mergeStr Sample.toml text).2 = r) ↔
      NoArrayOverridden docs :=
  @laterWins_iff_noArrayOverridden Sample.toml Sample.files id Sample.merge_merges _ _
    (@Started.fromStr _ _ _ "group.key = 1" _ _ rfl rfl) ["group.key = 2"]

/-- The lists of the two documents are concatenated. -/
theorem hosts_concatenated :
    let registry : TomlConfigRegistry := ⟨[("hosts", .array [.integer 1])]⟩
    MergesTables Sample.toml.mergeTables ∧
      TomlConfigRegistry.fromStr Sample.toml "hosts = [1]" = .ok registry ∧
      (registry.mergeStr Sample.toml "hosts = [2]").1 = .ok () ∧
      (registry.mergeAll Sample.toml ["hosts = [2]"]).config =
        [("hosts", .array [.integer 1, .integer 2])] ∧
      ¬ LaterWins ([registry.config] ++ appliedDocuments Sample.toml registry ["hosts = [2]"])
          (registry.mergeAll Sample.toml ["hosts = [2]"]).config := by
  have hmerge : TomlConfigRegistry.mergeStr Sample.toml ⟨[("hosts", .array [.integer 1])]⟩
      "hosts = [2]" = (.ok (), ⟨[("hosts", .array [.integer 1, .integer 2])]⟩) := by
    simp [TomlConfigRegistry.mergeStr, Sample.toml, Sample.merge, Sample.mergeInto,
      Sample.mergeValue]
  have hdocs : appliedDocuments Sample.toml ⟨[("hosts", .array [.integer 1])]⟩ ["hosts = [2]"] =
      [[("hosts", .array [.integer 2])]] := by
    simp only [appliedDocuments, hmerge]
    rfl
  have hall : (TomlConfigRegistry.mergeAll Sample.toml ⟨[("hosts", .array [.integer 1])]⟩
      ["hosts = [2]"]).config = [("hosts", .array [.integer 1, .integer 2])] :=
    congrArg (fun merged => merged.2.config) hmerge
  refine ⟨Sample.merge_merges, rfl, congrArg Prod.fst hmerge, hall, ?_⟩
  rw [hdocs, hall]
  intro h
  have hhosts := h ["hosts"] (.array [.integer 2]) rfl nofun
  have hitems := Value.array.inj (Option.some.inj hhosts)
  cases hitems

end Summer.Config
