/-
The numbers of a page: what `Page::new` reports about it in both index modes, and the pages a
client sees that turns them until the last one (`summer-sea-orm/src/pagination.rs`).
-/
import Summer.SeaOrm.Pagination

namespace Summer.SeaOrm

/-- The number the client asked for. -/
def asked (oneIndexed : Bool) : Option UInt64 → UInt64
  | none => if oneIndexed then 1 else 0
  | some page => if oneIndexed = true ∧ page = 0 then 1 else page

/-- What a page says about the page `p`, counted from zero; the index mode does not occur. -/
structure Page.Describes {T : Type} (p : ℕ) (size total : UInt64) (page : Page T) : Prop where
  totalPages : page.totalPages.toNat = total.toNat ⌈/⌉ size.toNat
  meets : (∃ row, Paging.OnPage size.toNat p row ∧ row < total.toNat) ↔
    p < page.totalPages.toNat
  isLast : page.isLast = some (decide (total.toNat ≤ (p + 1) * size.toNat))
  isFirst : page.isFirst = decide (p = 0)

/-- A client turns the pages from `p` on until one is the last. -/
def walk {T : Type} (fetched : UInt64 → List T) (oneIndexed : Bool) (size total : UInt64) :
    ℕ → UInt64 → Option (List UInt64)
  | 0, _ => none
  | fuel + 1, p => do
    let page ← Page.new (fetched p) { page := p, size := size, oneIndexed := oneIndexed } total
    let last ← page.isLast
    if last then return [p] else
      let next ← checkedAdd p 1
      let rest ← walk fetched oneIndexed size total fuel next
      return p :: rest

theorem describes_map {T R : Type} {p : ℕ} {size total : UInt64} {page : Page T}
    (h : page.Describes p size total) (func : T → R) : (page.map func).Describes p size total :=
  ⟨h.totalPages, h.meets, h.isLast, h.isFirst⟩

section
variable {T : Type} (oneIndexed : Bool) {p size total : UInt64}

theorem new_describes (hsize : 1 ≤ size.toNat) (hp : p.toNat + 1 < 2 ^ 64) (content : List T) :
    ∃ page, Page.new content { page := p, size := size, oneIndexed := oneIndexed } total =
        some page ∧
      page.page.toNat = (if oneIndexed then p.toNat + 1 else p.toNat) ∧
      page.Describes p.toNat size total := by
  obtain ⟨next, hnext, hvalue⟩ := @checkedAdd_of_lt p 1 hp
  rw [UInt64.toNat_one] at hvalue
  obtain ⟨totalPages, htotal, hpages⟩ := computeTotalPages_eq hsize total
  have hmeets := Paging.meets_iff hsize total.toNat p.toNat
  have hlast := Paging.pages_le_iff hsize total.toNat (p.toNat + 1)
  rw [← hpages] at hmeets hlast
  cases oneIndexed with
  | true =>
      have hresponse : Pagination.responsePage { page := p, size := size, oneIndexed := true } =
          some next := hnext
      refine ⟨_, new_eq hresponse htotal content, hvalue, hpages, hmeets, ?_, ?_⟩
      · simp only [Page.isLast, if_true, ge_iff_le, UInt64.le_iff_toNat_le, hvalue, hlast]
      · simp only [Page.isFirst, if_true, UInt64.le_iff_toNat_le, hvalue, UInt64.toNat_one]
        apply decide_eq_decide.mpr
        omega
  | false =>
      have hresponse : Pagination.responsePage { page := p, size := size, oneIndexed := false } =
          some p := rfl
      refine ⟨_, new_eq hresponse htotal content, rfl, hpages, hmeets, ?_, ?_⟩
      · simp only [Page.isLast, Bool.false_eq_true, if_false, hnext, Option.map_some, ge_iff_le,
          UInt64.le_iff_toNat_le, hvalue, hlast]
      · simp only [Page.isFirst, Bool.false_eq_true, if_false]
        apply decide_eq_decide.mpr
        rw [← UInt64.toNat_inj, UInt64.toNat_zero]

theorem asked_toNat (requested : Option UInt64) :
    (asked oneIndexed requested).toNat =
      if oneIndexed then (requestedPage oneIndexed requested).toNat + 1
      else (requestedPage oneIndexed requested).toNat := by
  rw [requestedPage_toNat]
  cases oneIndexed with
  | false => cases requested <;> rfl
  | true =>
      cases requested with
      | none => rfl
      | some page =>
          by_cases hzero : page = 0
          · rw [hzero]
            rfl
          · have hpos := one_le_toNat.mpr hzero
            simp only [asked, hzero, and_false, if_false, if_true, Option.getD_some]
            omega

/-! ## The walk -/

/-- The walk visits `k + 1` more pages; the last of them is the first that reaches `total`. -/
theorem walk_eq (hsize : 1 ≤ size.toNat) (fetched : UInt64 → List T) (k : ℕ) :
    ∀ p : UInt64, p.toNat + (k + 1) = max 1 (total.toNat ⌈/⌉ size.toNat) →
      ∃ pages, walk fetched oneIndexed size total (k + 1) p = some pages ∧
        pages.map UInt64.toNat = List.range' p.toNat (k + 1) := by
  have hle : total.toNat ⌈/⌉ size.toNat ≤ total.toNat :=
    (Paging.pages_le_iff hsize _ _).mpr (Nat.le_mul_of_pos_right _ hsize)
  have hlt := total.toNat_lt
  induction k with
  | zero =>
      intro p hp
      obtain ⟨page, hnew, _, hdescribes⟩ :=
        @new_describes T oneIndexed p size total hsize (by omega) (fetched p)
      have hlast := (Paging.pages_le_iff hsize total.toNat (p.toNat + 1)).mp (by omega)
      refine ⟨[p], ?_, rfl⟩
      simp [walk, hnew, hdescribes.isLast, hlast]
  | succ k ih =>
      intro p hp
      obtain ⟨page, hnew, _, hdescribes⟩ :=
        @new_describes T oneIndexed p size total hsize (by omega) (fetched p)
      have hmore := (Paging.pages_le_iff hsize total.toNat (p.toNat + 1)).not.mp (by omega)
      obtain ⟨next, hnext, hvalue⟩ := @checkedAdd_of_lt p 1 (by
        rw [UInt64.toNat_one]
        omega)
      rw [UInt64.toNat_one] at hvalue
      obtain ⟨pages, hpages, hrange⟩ := ih next (by omega)
      refine ⟨p :: pages, ?_, ?_⟩
      · rw [walk]
        simp [hnew, hdescribes.isLast, hmore, hnext, hpages]
      · rw [List.map_cons, hrange, hvalue]
        rfl

theorem walk_covers (hsize : 1 ≤ size.toNat) (fetched : UInt64 → List T) :
    ∃ fuel pages, walk fetched oneIndexed size total fuel 0 = some pages ∧
      ∀ row < total.toNat,
        pages.countP (fun p => decide (Paging.OnPage size.toNat p.toNat row)) = 1 := by
  obtain ⟨k, hk⟩ : ∃ k, k + 1 = max 1 (total.toNat ⌈/⌉ size.toNat) :=
    ⟨max 1 (total.toNat ⌈/⌉ size.toNat) - 1, by omega⟩
  obtain ⟨pages, hpages, hrange⟩ := @walk_eq T oneIndexed size total hsize fetched k 0 (by
    rw [UInt64.toNat_zero]
    omega)
  refine ⟨k + 1, pages, hpages, ?_⟩
  intro row hrow
  have hinside := (Paging.pages_le_iff hsize total.toNat (k + 1)).mp (by omega)
  have hcount := @Paging.countP_onPage size.toNat (k + 1) row hsize (by omega)
  rw [List.range_eq_range', ← UInt64.toNat_zero, ← hrange, List.countP_map] at hcount
  exact hcount

end

/-- The numbers of every page, and the pages of a whole walk, in both index modes. -/
theorem page_numbers (T : Type) (oneIndexed : Bool) (size total : UInt64)
    (hsize : 1 ≤ size.toNat) :
    (∀ (requested : Option UInt64) (content : List T),
      (requestedPage oneIndexed requested).toNat < 2 ^ 64 - 1 →
        ∃ page, Page.new content
            { page := requestedPage oneIndexed requested, size := size, oneIndexed := oneIndexed }
            total = some page ∧
          page.page = asked oneIndexed requested ∧
          page.Describes (requestedPage oneIndexed requested).toNat size total ∧
          ∀ (R : Type) (func : T → R), (page.map func).page = page.page ∧
            (page.map func).Describes (requestedPage oneIndexed requested).toNat size total) ∧
    ∀ fetched : UInt64 → List T,
      ∃ fuel pages, walk fetched oneIndexed size total fuel 0 = some pages ∧
        ∀ row < total.toNat,
          pages.countP (fun p => decide (Paging.OnPage size.toNat p.toNat row)) = 1 := by
  constructor
  · intro requested content hp
    obtain ⟨page, hnew, hnumber, hdescribes⟩ :=
      @new_describes T oneIndexed (requestedPage oneIndexed requested) size total hsize (by omega)
        content
    refine ⟨page, hnew, ?_, hdescribes, ?_⟩
    · rw [← UInt64.toNat_inj, hnumber, asked_toNat]
    · intro R func
      exact ⟨rfl, describes_map hdescribes func⟩
  · intro fetched
    exact walk_covers oneIndexed hsize fetched

theorem page_numbers_sample :
    ∃ page, Page.new [1, 2, 3]
        { page := requestedPage true (some 5), size := 20, oneIndexed := true } 83 = some page ∧
      page.page = asked true (some 5) ∧
      page.Describes (requestedPage true (some 5)).toNat 20 83 ∧
      ∀ (R : Type) (func : ℕ → R), (page.map func).page = page.page ∧
        (page.map func).Describes (requestedPage true (some 5)).toNat 20 83 :=
  (page_numbers ℕ true 20 83 (by decide)).1 (some 5) [1, 2, 3] (by decide)

end Summer.SeaOrm
