/-
Maps whose entries keep the order in which their keys were first inserted.
-/
import Mathlib.Data.List.Nodup

structure IndexMap (K V : Type*) where
  entries : List (K × V)
  nodup : (entries.map Prod.fst).Nodup

namespace IndexMap

variable {K V : Type*}

def keys (m : IndexMap K V) : List K := m.entries.map Prod.fst

def empty : IndexMap K V := ⟨[], List.nodup_nil⟩

variable [DecidableEq K]

/-- A key that is there keeps its position. -/
def insertEntry (key : K) (v : V) : List (K × V) → List (K × V)
  | [] => [(key, v)]
  | (k, old) :: rest => if k = key then (k, v) :: rest else (k, old) :: insertEntry key v rest

theorem keys_insertEntry (key : K) (v : V) (entries : List (K × V)) :
    (insertEntry key v entries).map Prod.fst =
      if key ∈ entries.map Prod.fst then entries.map Prod.fst
      else entries.map Prod.fst ++ [key] := by
  induction entries with
  | nil => rfl
  | cons entry rest ih =>
      obtain ⟨k, old⟩ := entry
      unfold insertEntry
      by_cases hkey : k = key
      · simp [hkey]
      · rw [if_neg hkey, List.map_cons, ih]
        have hmem : key ∈ ((k, old) :: rest).map Prod.fst ↔ key ∈ rest.map Prod.fst := by
          rw [List.map_cons, List.mem_cons, or_iff_right (Ne.symm hkey)]
        by_cases hrest : key ∈ rest.map Prod.fst
        · rw [if_pos hrest, if_pos (hmem.mpr hrest)]
          rfl
        · rw [if_neg hrest, if_neg fun h => hrest (hmem.mp h)]
          rfl

theorem insertEntry_of_notMem {key : K} {v : V} {entries : List (K × V)}
    (h : key ∉ entries.map Prod.fst) : insertEntry key v entries = entries ++ [(key, v)] := by
  induction entries with
  | nil => rfl
  | cons entry rest ih =>
      obtain ⟨k, old⟩ := entry
      rw [List.map_cons, List.mem_cons, not_or] at h
      rw [insertEntry, if_neg (Ne.symm h.1), ih h.2, List.cons_append]

def insert (m : IndexMap K V) (key : K) (v : V) : IndexMap K V :=
  { entries := insertEntry key v m.entries
    nodup := by
      rw [keys_insertEntry]
      split
      · exact m.nodup
      · next hnew =>
          rw [← List.concat_eq_append]
          exact m.nodup.concat hnew }

def get? (m : IndexMap K V) (key : K) : Option V := m.entries.lookup key

theorem get?_insert_self (m : IndexMap K V) (key : K) (v : V) :
    (m.insert key v).get? key = some v := by
  show (insertEntry key v m.entries).lookup key = some v
  induction m.entries with
  | nil => simp [insertEntry]
  | cons entry rest ih =>
      obtain ⟨k, old⟩ := entry
      unfold insertEntry
      by_cases hkey : k = key
      · simp [hkey]
      · have hne : (key == k) = false := by simpa using Ne.symm hkey
        rw [if_neg hkey, List.lookup_cons, hne]
        exact ih

theorem get?_insert_of_ne (m : IndexMap K V) {key key' : K} (h : key' ≠ key) (v : V) :
    (m.insert key v).get? key' = m.get? key' := by
  show (insertEntry key v m.entries).lookup key' = m.entries.lookup key'
  induction m.entries with
  | nil =>
      have hne : (key' == key) = false := by simpa using h
      simp [insertEntry, List.lookup_cons, hne]
  | cons entry rest ih =>
      obtain ⟨k, old⟩ := entry
      unfold insertEntry
      by_cases hkey : k = key
      · have hne : (key' == key) = false := by simpa using h
        rw [if_pos hkey, hkey, List.lookup_cons, List.lookup_cons, hne]
      · rw [if_neg hkey, List.lookup_cons, List.lookup_cons, ih]

/-- Entries that are inserted under new keys are appended in their order. -/
theorem entries_foldl_insert {K' : Type*} {rename : K' → K} (hinj : Function.Injective rename)
    (entries : List (K' × V)) (hnodup : (entries.map Prod.fst).Nodup) (m : IndexMap K V)
    (hnew : ∀ entry ∈ entries, rename entry.1 ∉ m.keys) :
    (entries.foldl (fun m entry => m.insert (rename entry.1) entry.2) m).entries =
      m.entries ++ entries.map fun entry => (rename entry.1, entry.2) := by
  induction entries generalizing m with
  | nil => rw [List.foldl_nil, List.map_nil, List.append_nil]
  | cons entry rest ih =>
      obtain ⟨key, v⟩ := entry
      rw [List.map_cons, List.nodup_cons] at hnodup
      have hinsert : (m.insert (rename key) v).entries = m.entries ++ [(rename key, v)] :=
        insertEntry_of_notMem (hnew _ List.mem_cons_self)
      have hrest : ∀ entry ∈ rest, rename entry.1 ∉ (m.insert (rename key) v).keys := by
        intro entry hentry hmem
        unfold keys at hmem
        rw [hinsert, List.map_append, List.mem_append] at hmem
        rcases hmem with hmem | hmem
        · exact hnew entry (List.mem_cons_of_mem _ hentry) hmem
        · have hkey : entry.1 = key := hinj (List.mem_singleton.mp hmem)
          exact hnodup.1 (List.mem_map.mpr ⟨entry, hentry, hkey⟩)
      rw [List.foldl_cons, ih hnodup.2 _ hrest, hinsert, List.map_cons, List.append_assoc]
      rfl

/-- A map under other keys. -/
theorem entries_rename {K' : Type*} [DecidableEq K'] {rename : K' → K}
    (hinj : Function.Injective rename) (m : IndexMap K' V) :
    (m.entries.foldl (fun m entry => m.insert (rename entry.1) entry.2)
        (empty : IndexMap K V)).entries =
      m.entries.map fun entry => (rename entry.1, entry.2) :=
  entries_foldl_insert hinj m.entries m.nodup empty fun _ _ => List.not_mem_nil

end IndexMap
