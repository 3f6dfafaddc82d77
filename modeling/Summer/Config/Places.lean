/-
Places of a TOML document: the keys and the indices that lead to a value.

A value that is put at a place is read back there, and every place that does not enclose it
keeps its value, as long as it was a string and is one again.
-/
import Summer.Config.Toml

namespace Summer.Config

inductive Step
  | key (name : String)
  | index (i : ℕ)
deriving DecidableEq, Repr

/-- The value of a key replaced. -/
def Table.modify (t : Table) (name : String) (f : Value → Value) : Table :=
  t.map fun (key, v) => (key, if key = name then f v else v)

namespace Value

def get? : Value → List Step → Option Value
  | v, [] => some v
  | .table t, .key name :: place => (t.lookup name).bind fun v => v.get? place
  | .array items, .index i :: place => items[i]?.bind fun v => v.get? place
  | _, _ :: _ => none

def set : Value → List Step → Value → Value
  | _, [], new => new
  | .table t, .key name :: place, new => .table (Table.modify t name fun v => v.set place new)
  | .array items, .index i :: place, new => .array (items.modify i fun v => v.set place new)
  | v, _ :: _, _ => v

end Value

/-- A place that encloses `place` may have changed, and so may `place`. -/
def SameElsewhere (place : List Step) (v w : Value) : Prop :=
  ∀ other, ¬ other <+: place → v.get? other = w.get? other

theorem Table.lookup_modify (t : Table) (name key : String) (f : Value → Value) :
    (t.modify name f).lookup key =
      if key = name then (t.lookup key).map f else t.lookup key := by
  induction t with
  | nil => simp [Table.modify]
  | cons entry t ih =>
      obtain ⟨key', v⟩ := entry
      unfold Table.modify at ih ⊢
      rw [List.map_cons, List.lookup_cons, List.lookup_cons]
      cases hkey : key == key' with
      | true =>
          rw [beq_iff_eq] at hkey
          subst hkey
          by_cases hname : key = name <;> simp [hname]
      | false => exact ih

theorem Value.get?_cons {v old : Value} {step : Step} {place : List Step}
    (h : v.get? (step :: place) = some old) :
    (∃ t name w, v = .table t ∧ step = .key name ∧ t.lookup name = some w ∧
      w.get? place = some old) ∨
    ∃ items i w, v = .array items ∧ step = .index i ∧ items[i]? = some w ∧
      w.get? place = some old := by
  unfold Value.get? at h
  split at h
  · cases ‹_ :: _ = []›
  · rename_i heq
    cases heq
    obtain ⟨w, hw, hold⟩ := Option.bind_eq_some_iff.mp h
    exact .inl ⟨_, _, w, rfl, rfl, hw, hold⟩
  · rename_i heq
    cases heq
    obtain ⟨w, hw, hold⟩ := Option.bind_eq_some_iff.mp h
    exact .inr ⟨_, _, w, rfl, rfl, hw, hold⟩
  · cases h

theorem Value.get?_set {v new old : Value} {place : List Step} (h : v.get? place = some old) :
    (v.set place new).get? place = some new := by
  induction place generalizing v with
  | nil => rfl
  | cons step place ih =>
      rcases Value.get?_cons h with ⟨t, name, w, rfl, rfl, hw, hold⟩ |
        ⟨items, i, w, rfl, rfl, hw, hold⟩
      · simp [Value.set, Value.get?, Table.lookup_modify, hw, ih hold]
      · simp [Value.set, Value.get?, hw, ih hold]

theorem sameElsewhere_set {v : Value} {place : List Step} {old : String} (new : String)
    (h : v.get? place = some (.string old)) :
    SameElsewhere place v (v.set place (.string new)) := by
  induction place generalizing v with
  | nil =>
      obtain rfl : v = .string old := Option.some.inj h
      intro other hother
      cases other with
      | nil => exact absurd List.nil_prefix hother
      | cons step other => cases step <;> rfl
  | cons step place ih =>
      intro other hother
      cases other with
      | nil => exact absurd List.nil_prefix hother
      | cons step' other =>
          have hinner : step' = step → ¬ other <+: place := by
            rintro rfl hstarts
            exact hother (List.cons_prefix_cons.mpr ⟨rfl, hstarts⟩)
          rcases Value.get?_cons h with ⟨t, name, w, rfl, rfl, hw, hold⟩ |
            ⟨items, i, w, rfl, rfl, hw, hold⟩
          · cases step' with
            | index j => rfl
            | key name' =>
                by_cases hname : name' = name
                · subst hname
                  simp [Value.set, Value.get?, Table.lookup_modify, hw,
                    ih hold other (hinner rfl)]
                · simp [Value.set, Value.get?, Table.lookup_modify, hname]
          · cases step' with
            | key name => rfl
            | index j =>
                by_cases hij : i = j
                · subst hij
                  simp [Value.set, Value.get?, hw, ih hold other (hinner rfl)]
                · simp [Value.set, Value.get?, hij]

end Summer.Config
