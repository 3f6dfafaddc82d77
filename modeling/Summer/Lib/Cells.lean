/-
Shared cells that each hold a value of a type of their own.

A cell carries the name of its type, and a value is read out of it under that name only
(`downcast_eq_some`).  Cells are added at the end of the memory and keep their type, so an
address that has been read under a type once is read under it ever after (`isSome_read_update`).
-/
import Mathlib.Data.List.Basic

universe u v

structure Cell {τ : Type u} (Val : τ → Type v) where
  ty : τ
  value : Val ty

namespace Cell

variable {τ : Type u} {Val : τ → Type v} [DecidableEq τ]

def downcast (c : Cell Val) (t : τ) : Option (Val t) :=
  if h : c.ty = t then some (h ▸ c.value) else none

/-- The value replaced, where the cell has the type. -/
def update (c : Cell Val) (t : τ) (f : Val t → Val t) : Cell Val :=
  match c.downcast t with
  | some v => ⟨t, f v⟩
  | none => c

@[simp] theorem downcast_self (t : τ) (v : Val t) : (⟨t, v⟩ : Cell Val).downcast t = some v :=
  dif_pos rfl

theorem downcast_ne {c : Cell Val} {t : τ} (h : c.ty ≠ t) : c.downcast t = none :=
  dif_neg h

theorem downcast_eq_some {c : Cell Val} {t : τ} {v : Val t} :
    c.downcast t = some v ↔ c = ⟨t, v⟩ := by
  constructor
  · intro h
    obtain ⟨ty, value⟩ := c
    by_cases hty : ty = t
    · subst hty
      rw [downcast_self] at h
      rw [Option.some.inj h]
    · rw [downcast_ne hty] at h
      cases h
  · intro h
    rw [h, downcast_self]

theorem downcast_isSome {c : Cell Val} {t : τ} : (c.downcast t).isSome ↔ c.ty = t := by
  unfold downcast
  split
  · next h => exact iff_of_true rfl h
  · next h => exact iff_of_false Bool.false_ne_true h

theorem update_ty (c : Cell Val) (t : τ) (f : Val t → Val t) : (c.update t f).ty = c.ty := by
  unfold update
  split
  · next v hv => rw [downcast_eq_some.mp hv]
  · rfl

theorem downcast_update_self (c : Cell Val) (t : τ) (f : Val t → Val t) :
    (c.update t f).downcast t = (c.downcast t).map f := by
  unfold update
  split
  · next v hv => rw [hv, downcast_self, Option.map_some]
  · next hv => rw [hv, Option.map_none]

theorem downcast_update_ne (c : Cell Val) {t t' : τ} (h : t' ≠ t) (f : Val t → Val t) :
    (c.update t f).downcast t' = c.downcast t' := by
  unfold update
  split
  · next v hv =>
      rw [downcast_eq_some.mp hv, downcast_ne (Ne.symm h), downcast_ne (Ne.symm h)]
  · rfl

end Cell

/-- The memory: an address is a position. -/
abbrev Cells {τ : Type u} (Val : τ → Type v) := List (Cell Val)

namespace Cells

variable {τ : Type u} {Val : τ → Type v} [DecidableEq τ]

def read (cells : Cells Val) (a : ℕ) (t : τ) : Option (Val t) :=
  cells[a]?.bind fun c => c.downcast t

def update (cells : Cells Val) (a : ℕ) (t : τ) (f : Val t → Val t) : Cells Val :=
  cells.modify a fun c => c.update t f

theorem read_eq_some {cells : Cells Val} {a : ℕ} {t : τ} {v : Val t} :
    cells.read a t = some v ↔ cells[a]? = some ⟨t, v⟩ := by
  unfold read
  cases hcell : cells[a]? with
  | none => simp
  | some c => rw [Option.bind_some, Cell.downcast_eq_some, Option.some.injEq]

theorem lt_of_read {cells : Cells Val} {a : ℕ} {t : τ} (h : (cells.read a t).isSome) :
    a < cells.length := by
  obtain ⟨v, hv⟩ := Option.isSome_iff_exists.mp h
  obtain ⟨hlt, _⟩ := List.getElem?_eq_some_iff.mp (read_eq_some.mp hv)
  exact hlt

/-- A value is read back from the address that it is put at. -/
theorem read_append_self (cells : Cells Val) (t : τ) (v : Val t) :
    read (cells ++ [⟨t, v⟩]) cells.length t = some v := by
  rw [read_eq_some, List.getElem?_concat_length]

theorem read_append {cells : Cells Val} {a : ℕ} (h : a < cells.length) (c : Cell Val) (t : τ) :
    read (cells ++ [c]) a t = cells.read a t := by
  unfold read
  rw [List.getElem?_append_left h]

theorem getElem?_update (cells : Cells Val) (a a' : ℕ) (t : τ) (f : Val t → Val t) :
    (cells.update a t f)[a']? = cells[a']?.map fun c => if a = a' then c.update t f else c :=
  List.getElem?_modify _ _ _ _

theorem read_update_self (cells : Cells Val) (a : ℕ) (t : τ) (f : Val t → Val t) :
    (cells.update a t f).read a t = (cells.read a t).map f := by
  unfold read
  rw [getElem?_update]
  cases cells[a]? with
  | none => rfl
  | some c =>
      simp only [Option.map_some, Option.bind_some, if_true]
      exact c.downcast_update_self t f

theorem read_update_ne (cells : Cells Val) {a a' : ℕ} {t t' : τ} (h : t' ≠ t) (f : Val t → Val t) :
    (cells.update a t f).read a' t' = cells.read a' t' := by
  unfold read
  rw [getElem?_update]
  cases cells[a']? with
  | none => rfl
  | some c =>
      simp only [Option.map_some, Option.bind_some]
      split
      · exact c.downcast_update_ne h f
      · rfl

/-- An update leaves every cell under its type. -/
theorem isSome_read_update (cells : Cells Val) (a a' : ℕ) (t t' : τ) (f : Val t → Val t) :
    ((cells.update a t f).read a' t').isSome ↔ (cells.read a' t').isSome := by
  unfold read
  rw [getElem?_update]
  cases cells[a']? with
  | none => rfl
  | some c =>
      simp only [Option.map_some, Option.bind_some]
      rw [Cell.downcast_isSome, Cell.downcast_isSome]
      split
      · rw [c.update_ty]
      · rfl

end Cells
