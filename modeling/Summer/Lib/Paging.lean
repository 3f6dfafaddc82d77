/-
Rows numbered from 0 and cut into pages of one size.  Page `p` holds the rows from `p * size` up
to `(p + 1) * size`; `total ⌈/⌉ size` pages hold the rows below `total`.
-/
import Mathlib.Algebra.Order.Floor.Div
import Mathlib.Data.List.Range
import Mathlib.Data.List.Count

namespace Summer.Paging

def OnPage (size p row : ℕ) : Prop := p * size ≤ row ∧ row < (p + 1) * size

instance (size p row : ℕ) : Decidable (OnPage size p row) :=
  inferInstanceAs (Decidable (_ ∧ _))

theorem onPage_iff {size : ℕ} (hsize : 0 < size) (p row : ℕ) :
    OnPage size p row ↔ row / size = p := by
  unfold OnPage
  rw [Nat.div_eq_iff hsize, Nat.add_mul]
  omega

theorem pages_le_iff {size : ℕ} (hsize : 0 < size) (total n : ℕ) :
    total ⌈/⌉ size ≤ n ↔ total ≤ n * size := by
  rw [ceilDiv_le_iff_le_mul hsize, Nat.mul_comm]

theorem lt_pages_iff {size : ℕ} (hsize : 0 < size) (total p : ℕ) :
    p < total ⌈/⌉ size ↔ p * size < total := by
  have := pages_le_iff hsize total p
  omega

theorem pages_eq {size : ℕ} (hsize : 0 < size) (total : ℕ) :
    total ⌈/⌉ size = total / size + if total % size = 0 then 0 else 1 := by
  have hdiv := Nat.div_add_mod total size
  have hmod := Nat.mod_lt total hsize
  have hcomm := Nat.mul_comm size (total / size)
  apply Nat.le_antisymm
  · rw [pages_le_iff hsize, Nat.add_mul]
    split <;> omega
  · by_cases hzero : total % size = 0
    · rw [if_pos hzero, Nat.add_zero]
      by_contra hlt
      have := (pages_le_iff hsize total (total ⌈/⌉ size)).mp (Nat.le_refl _)
      have := Nat.mul_le_mul_right size (show total ⌈/⌉ size + 1 ≤ total / size by omega)
      rw [Nat.add_mul] at this
      omega
    · rw [if_neg hzero, Nat.add_one_le_iff, lt_pages_iff hsize]
      omega

theorem meets_iff {size : ℕ} (hsize : 0 < size) (total p : ℕ) :
    (∃ row, OnPage size p row ∧ row < total) ↔ p < total ⌈/⌉ size := by
  rw [lt_pages_iff hsize]
  constructor
  · rintro ⟨row, hrow, hlt⟩
    exact Nat.lt_of_le_of_lt hrow.1 hlt
  · intro hlt
    refine ⟨p * size, ⟨Nat.le_refl _, ?_⟩, hlt⟩
    rw [Nat.add_mul]
    omega

/-- The first `n` pages hold each of their rows once. -/
theorem countP_onPage {size n row : ℕ} (hsize : 0 < size) (hrow : row < n * size) :
    (List.range n).countP (fun p => decide (OnPage size p row)) = 1 := by
  have hlt : row / size < n := (Nat.div_lt_iff_lt_mul hsize).mpr hrow
  have hsame : ∀ p, decide (OnPage size p row) = (p == row / size) := by
    intro p
    rw [Bool.eq_iff_iff, decide_eq_true_iff, onPage_iff hsize, beq_iff_eq]
    exact eq_comm
  rw [List.countP_congr (fun p _ => by rw [hsame p])]
  exact List.count_eq_one_of_mem List.nodup_range (List.mem_range.mpr hlt)

end Summer.Paging
