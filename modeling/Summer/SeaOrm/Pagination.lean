/-
Pagination of query results (`summer-sea-orm/src/pagination.rs`, `summer-sea-orm/src/config.rs`).

Arithmetic on `u64` is checked: `none` is an overflow, which panics in a debug build and wraps in
a release build.  The query and the configuration come already parsed.
-/
import Summer.Lib.Paging

namespace Summer.SeaOrm

def checkedAdd (a b : UInt64) : Option UInt64 :=
  if a.toNat + b.toNat < 2 ^ 64 then some (a + b) else none

def checkedMul (a b : UInt64) : Option UInt64 :=
  if a.toNat * b.toNat < 2 ^ 64 then some (a * b) else none

theorem checkedAdd_of_lt {a b : UInt64} (h : a.toNat + b.toNat < 2 ^ 64) :
    ∃ c, checkedAdd a b = some c ∧ c.toNat = a.toNat + b.toNat := by
  refine ⟨a + b, if_pos h, ?_⟩
  rw [UInt64.toNat_add, Nat.mod_eq_of_lt h]

theorem checkedMul_eq_none_iff {a b : UInt64} :
    checkedMul a b = none ↔ 2 ^ 64 ≤ a.toNat * b.toNat := by
  unfold checkedMul
  split
  · simp only [reduceCtorEq, false_iff]
    omega
  · simp only [true_iff]
    omega

theorem one_le_toNat {n : UInt64} : 1 ≤ n.toNat ↔ n ≠ 0 := by
  rw [Ne, ← UInt64.toNat_inj, UInt64.toNat_zero]
  omega

/-! ## Requests -/

structure Pagination where
  page : UInt64
  size : UInt64
  oneIndexed : Bool
deriving DecidableEq, Repr

structure OptionalPagination where
  page : Option UInt64
  size : Option UInt64
deriving DecidableEq, Repr

structure SeaOrmWebConfig where
  oneIndexed : Bool
  maxPageSize : UInt64
  defaultPageSize : UInt64
deriving DecidableEq, Repr

def defaultWebConfig : SeaOrmWebConfig :=
  { oneIndexed := false, maxPageSize := 2000, defaultPageSize := 20 }

inductive SeaOrmWebErr (Q W : Type)
  | queryRejection (e : Q)
  | webError (e : W)

/-- The page of the extractor; pages are counted from zero from here on. -/
def requestedPage (oneIndexed : Bool) (page : Option UInt64) : UInt64 :=
  if oneIndexed then
    (page.map fun page => if page = 0 then 0 else page - 1).getD 0
  else page.getD 0

def requestedSize (config : SeaOrmWebConfig) (size : Option UInt64) : UInt64 :=
  match size with
  | some size => if size > config.maxPageSize then config.maxPageSize else size
  | none => config.defaultPageSize

def fromRequestParts {Q W : Type} (query : Except Q OptionalPagination)
    (config : Except W SeaOrmWebConfig) : Except (SeaOrmWebErr Q W) Pagination :=
  match query with
  | .error e => .error (.queryRejection e)
  | .ok pagination =>
    match config with
    | .error e => .error (.webError e)
    | .ok config =>
      .ok { page := requestedPage config.oneIndexed pagination.page,
            size := requestedSize config pagination.size,
            oneIndexed := config.oneIndexed }

/-! ## Responses -/

structure Page (T : Type) where
  content : List T
  size : UInt64
  page : UInt64
  totalElements : UInt64
  totalPages : UInt64
  oneIndexed : Bool

def Pagination.responsePage (pagination : Pagination) : Option UInt64 :=
  if pagination.oneIndexed then checkedAdd pagination.page 1 else some pagination.page

namespace Page
variable {T R : Type}

/-- The function `Page::total_pages`. -/
def computeTotalPages (total size : UInt64) : Option UInt64 :=
  if size = 0 then some 0
  else checkedAdd (total / size) (if total % size = 0 then 0 else 1)

def new (content : List T) (pagination : Pagination) (total : UInt64) : Option (Page T) := do
  let page ← pagination.responsePage
  let totalPages ← computeTotalPages total pagination.size
  return { content := content,
           size := pagination.size,
           page := page,
           totalElements := total,
           totalPages := totalPages,
           oneIndexed := pagination.oneIndexed }

def map (func : T → R) (page : Page T) : Page R :=
  { content := page.content.map func,
    size := page.size,
    page := page.page,
    totalElements := page.totalElements,
    totalPages := page.totalPages,
    oneIndexed := page.oneIndexed }

def isFirst (page : Page T) : Bool :=
  if page.oneIndexed then page.page ≤ 1 else page.page = 0

def isLast (page : Page T) : Option Bool :=
  if page.oneIndexed then some (page.page ≥ page.totalPages)
  else (checkedAdd page.page 1).map fun next => next ≥ page.totalPages

end Page

/-! ## Queries -/

/-- What the database answers: the number of rows, and the rows for a limit and an offset. -/
structure Db (DbErr M : Type) where
  numItems : Except DbErr UInt64
  fetch : UInt64 → UInt64 → Except DbErr (List M)

inductive Fault (DbErr : Type)
  | pageSizeZero
  | overflow
  | dbErr (e : DbErr)

section
variable {DbErr M : Type}

/-- `paginate` of sea_orm, which panics for a page size of zero. -/
def paginate (pageSize : UInt64) : Except (Fault DbErr) UInt64 :=
  if pageSize = 0 then .error .pageSizeZero else .ok pageSize

/-- `fetch_page` of sea_orm; the offset is computed in `u64`. -/
def fetchPage (db : Db DbErr M) (pageSize page : UInt64) : Except (Fault DbErr) (List M) :=
  match checkedMul pageSize page with
  | none => .error .overflow
  | some offset => (db.fetch pageSize offset).mapError .dbErr

def PaginationExt.page (db : Db DbErr M) (pagination : Pagination) :
    Except (Fault DbErr) (Page M) := do
  let paginator ← paginate pagination.size
  let total ← db.numItems.mapError .dbErr
  let content ← fetchPage db paginator pagination.page
  match Page.new content pagination total with
  | some page => return page
  | none => throw .overflow

end

/-! ## What the extractor returns -/

theorem requestedPage_toNat (oneIndexed : Bool) (page : Option UInt64) :
    (requestedPage oneIndexed page).toNat =
      if oneIndexed then (page.getD 0).toNat - 1 else (page.getD 0).toNat := by
  unfold requestedPage
  cases oneIndexed with
  | false => rfl
  | true =>
      cases page with
      | none => rfl
      | some page =>
          simp only [if_true, Option.map_some, Option.getD_some]
          by_cases hzero : page = 0
          · rw [if_pos hzero, hzero]
            rfl
          · have hpos : (1 : UInt64) ≤ page :=
              UInt64.le_iff_toNat_le.mpr (one_le_toNat.mpr hzero)
            rw [if_neg hzero, UInt64.toNat_sub_of_le _ _ hpos]
            rfl

theorem requestedSize_toNat {config : SeaOrmWebConfig}
    (hmax : config.defaultPageSize ≤ config.maxPageSize) (size : Option UInt64) :
    (requestedSize config size).toNat =
      min (size.getD config.defaultPageSize).toNat config.maxPageSize.toNat := by
  rw [UInt64.le_iff_toNat_le] at hmax
  unfold requestedSize
  cases size with
  | none =>
      simp only [Option.getD_none]
      omega
  | some size =>
      simp only [Option.getD_some]
      by_cases hlarge : size > config.maxPageSize
      · rw [if_pos hlarge]
        have := UInt64.lt_iff_toNat_lt.mp hlarge
        omega
      · rw [if_neg hlarge]
        have := UInt64.lt_iff_toNat_lt.not.mp hlarge
        omega

theorem computeTotalPages_eq {size : UInt64} (hsize : 1 ≤ size.toNat) (total : UInt64) :
    ∃ totalPages, Page.computeTotalPages total size = some totalPages ∧
      totalPages.toNat = total.toNat ⌈/⌉ size.toNat := by
  have hne : size ≠ 0 := one_le_toNat.mp hsize
  have hcarry : (if total % size = 0 then (0 : UInt64) else 1).toNat =
      if total.toNat % size.toNat = 0 then 0 else 1 := by
    have hmod : total % size = 0 ↔ total.toNat % size.toNat = 0 := by
      rw [← UInt64.toNat_inj, UInt64.toNat_mod, UInt64.toNat_zero]
    by_cases hzero : total % size = 0
    · rw [if_pos hzero, if_pos (hmod.mp hzero)]
      rfl
    · rw [if_neg hzero, if_neg (fun h => hzero (hmod.mpr h))]
      rfl
  have hsum := Paging.pages_eq hsize total.toNat
  have hle : total.toNat ⌈/⌉ size.toNat ≤ total.toNat :=
    (Paging.pages_le_iff hsize _ _).mpr (Nat.le_mul_of_pos_right _ hsize)
  have hlt := total.toNat_lt
  unfold Page.computeTotalPages
  rw [if_neg hne]
  obtain ⟨totalPages, h, hvalue⟩ := @checkedAdd_of_lt (total / size)
    (if total % size = 0 then 0 else 1) (by
      rw [UInt64.toNat_div, hcarry, ← hsum]
      omega)
  refine ⟨totalPages, h, ?_⟩
  rw [hvalue, UInt64.toNat_div, hcarry, hsum]

theorem computeTotalPages_isSome (total size : UInt64) :
    ∃ totalPages, Page.computeTotalPages total size = some totalPages := by
  by_cases hzero : size = 0
  · rw [hzero]
    exact ⟨0, rfl⟩
  · obtain ⟨totalPages, h, _⟩ := computeTotalPages_eq (one_le_toNat.mpr hzero) total
    exact ⟨totalPages, h⟩

theorem new_eq {T : Type} {pagination : Pagination} {page totalPages total : UInt64}
    (hpage : pagination.responsePage = some page)
    (htotal : Page.computeTotalPages total pagination.size = some totalPages) (content : List T) :
    Page.new content pagination total = some
      { content := content,
        size := pagination.size,
        page := page,
        totalElements := total,
        totalPages := totalPages,
        oneIndexed := pagination.oneIndexed } := by
  unfold Page.new
  rw [hpage, htotal]
  rfl

/-! ## Which requests are served -/

/-- Nothing that is done with the pagination fails, whatever the database answers. -/
structure Pagination.Safe (config : SeaOrmWebConfig) (pagination : Pagination) : Prop where
  one_le_size : 1 ≤ pagination.size
  size_le : pagination.size ≤ config.maxPageSize
  page : ∀ (DbErr M : Type) (db : Db DbErr M),
    PaginationExt.page db pagination ≠ .error .pageSizeZero ∧
      PaginationExt.page db pagination ≠ .error .overflow
  responsePage : pagination.responsePage ≠ none
  isLast : ∀ (T : Type) (content : List T) (total : UInt64),
    ∃ page, Page.new content pagination total = some page ∧ page.isLast ≠ none

/-- The page asked for, counted from zero. -/
def OptionalPagination.zeroBased (oneIndexed : Bool) (query : OptionalPagination) : ℕ :=
  if oneIndexed then (query.page.getD 0).toNat - 1 else (query.page.getD 0).toNat

structure OptionalPagination.Bounded (config : SeaOrmWebConfig) (query : OptionalPagination) :
    Prop where
  size_ne_zero : query.size ≠ some 0
  offset_lt : min (query.size.getD config.defaultPageSize).toNat config.maxPageSize.toNat *
    query.zeroBased config.oneIndexed < 2 ^ 64
  page_lt : config.oneIndexed = false → query.zeroBased config.oneIndexed < 2 ^ 64 - 1

theorem page_ne_overflow {DbErr M : Type} (db : Db DbErr M) {pagination : Pagination}
    (hsize : pagination.size ≠ 0)
    (hoffset : pagination.size.toNat * pagination.page.toNat < 2 ^ 64)
    (hresponse : pagination.responsePage ≠ none) :
    PaginationExt.page db pagination ≠ .error .pageSizeZero ∧
      PaginationExt.page db pagination ≠ .error .overflow := by
  obtain ⟨response, hresponse⟩ := Option.ne_none_iff_exists'.mp hresponse
  have hmul : checkedMul pagination.size pagination.page =
      some (pagination.size * pagination.page) := if_pos hoffset
  simp only [PaginationExt.page, paginate, if_neg hsize, fetchPage, hmul, bind, Except.bind, pure,
    Except.pure]
  cases db.numItems with
  | error e => simp [Except.mapError]
  | ok total =>
      cases db.fetch pagination.size (pagination.size * pagination.page) with
      | error e => simp [Except.mapError]
      | ok content =>
          obtain ⟨totalPages, htotal⟩ := computeTotalPages_isSome total pagination.size
          simp [Except.mapError, new_eq hresponse htotal]

theorem isLast_ne_none {T : Type} {content : List T} {pagination : Pagination} {total : UInt64}
    {page : Page T} (h : Page.new content pagination total = some page) :
    page.isLast ≠ none ↔
      (pagination.oneIndexed = false → pagination.page.toNat + 1 < 2 ^ 64) := by
  simp only [Page.new, bind, pure, Option.bind_eq_some_iff, Option.some.injEq] at h
  obtain ⟨response, hresponse, totalPages, _, rfl⟩ := h
  unfold Page.isLast Pagination.responsePage checkedAdd at *
  cases hmode : pagination.oneIndexed with
  | true => simp
  | false =>
      simp only [hmode, Bool.false_eq_true, if_false, Option.some.injEq] at hresponse
      subst hresponse
      by_cases hlt : pagination.page.toNat + (1 : UInt64).toNat < 2 ^ 64
      · simp only [if_pos hlt]
        exact iff_of_true (by simp) (fun _ => hlt)
      · simp only [if_neg hlt]
        exact iff_of_false (by simp) (fun h => hlt (h trivial))

/-- A table without rows. -/
def emptyDb : Db Unit Unit := { numItems := .ok 0, fetch := fun _ _ => .ok [] }

theorem page_of_overflow {pagination : Pagination} (hsize : pagination.size ≠ 0)
    (hoffset : 2 ^ 64 ≤ pagination.size.toNat * pagination.page.toNat) :
    PaginationExt.page emptyDb pagination = .error .overflow := by
  have hmul := checkedMul_eq_none_iff.mpr hoffset
  simp only [PaginationExt.page, paginate, if_neg hsize, fetchPage, hmul, bind, Except.bind,
    Except.mapError, emptyDb]

theorem responsePage_ne_none {pagination : Pagination} (h : pagination.page.toNat + 1 < 2 ^ 64) :
    pagination.responsePage ≠ none := by
  unfold Pagination.responsePage
  split
  · obtain ⟨c, hc, _⟩ := @checkedAdd_of_lt pagination.page 1 h
    simp [hc]
  · simp

theorem requestedPage_lt (query : OptionalPagination) :
    (requestedPage true query.page).toNat + 1 < 2 ^ 64 := by
  rw [requestedPage_toNat, if_pos rfl]
  have := (query.page.getD 0).toNat_lt
  omega

section
variable {config : SeaOrmWebConfig} {query : OptionalPagination}

theorem one_le_requestedSize (hdefault : 1 ≤ config.defaultPageSize)
    (hmax : config.defaultPageSize ≤ config.maxPageSize) (hsize : query.size ≠ some 0) :
    1 ≤ (requestedSize config query.size).toNat := by
  have hdefault' := UInt64.le_iff_toNat_le.mp hdefault
  have hmax' := UInt64.le_iff_toNat_le.mp hmax
  rw [UInt64.toNat_one] at hdefault'
  rw [requestedSize_toNat hmax]
  cases hquery : query.size with
  | none =>
      simp only [Option.getD_none]
      omega
  | some size =>
      have := @one_le_toNat size |>.mpr (fun h => hsize (by rw [hquery, h]))
      simp only [Option.getD_some]
      omega

theorem safe_of_bounded (hdefault : 1 ≤ config.defaultPageSize)
    (hmax : config.defaultPageSize ≤ config.maxPageSize) (hbounded : query.Bounded config) :
    Pagination.Safe config
      { page := requestedPage config.oneIndexed query.page,
        size := requestedSize config query.size,
        oneIndexed := config.oneIndexed } := by
  have hsize := one_le_requestedSize hdefault hmax hbounded.size_ne_zero
  have hpage : (requestedPage config.oneIndexed query.page).toNat + 1 < 2 ^ 64 := by
    cases hmode : config.oneIndexed with
    | true => exact requestedPage_lt query
    | false =>
        have := hbounded.page_lt hmode
        rw [hmode] at this
        rw [requestedPage_toNat]
        unfold OptionalPagination.zeroBased at this
        omega
  have hoffset := hbounded.offset_lt
  rw [← requestedSize_toNat hmax] at hoffset
  unfold OptionalPagination.zeroBased at hoffset
  rw [← requestedPage_toNat] at hoffset
  have hresponse := @responsePage_ne_none
    { page := requestedPage config.oneIndexed query.page,
      size := requestedSize config query.size,
      oneIndexed := config.oneIndexed } hpage
  refine ⟨?_, ?_, ?_, hresponse, ?_⟩
  · exact UInt64.le_iff_toNat_le.mpr hsize
  · apply UInt64.le_iff_toNat_le.mpr
    rw [requestedSize_toNat hmax]
    exact Nat.min_le_right ..
  · intro DbErr M db
    exact page_ne_overflow db (one_le_toNat.mp hsize) hoffset hresponse
  · intro T content total
    obtain ⟨response, hresponse⟩ := Option.ne_none_iff_exists'.mp hresponse
    obtain ⟨totalPages, htotal⟩ :=
      computeTotalPages_isSome total (requestedSize config query.size)
    have hnew := new_eq hresponse htotal content
    exact ⟨_, hnew, (isLast_ne_none hnew).mpr fun _ => hpage⟩

theorem bounded_of_safe (hmax : config.defaultPageSize ≤ config.maxPageSize)
    (hsafe : Pagination.Safe config
      { page := requestedPage config.oneIndexed query.page,
        size := requestedSize config query.size,
        oneIndexed := config.oneIndexed }) : query.Bounded config := by
  have hsize := one_le_toNat.mp (UInt64.le_iff_toNat_le.mp hsafe.one_le_size)
  refine ⟨?_, ?_, ?_⟩
  · intro hzero
    apply hsize
    have hnot : ¬ (0 : UInt64) > config.maxPageSize := by
      rw [gt_iff_lt, UInt64.lt_iff_toNat_lt]
      exact Nat.not_lt_zero _
    simp only [requestedSize, hzero, if_neg hnot]
  · by_contra hlarge
    apply (hsafe.page Unit Unit emptyDb).2
    apply page_of_overflow hsize
    rw [requestedSize_toNat hmax, requestedPage_toNat]
    exact Nat.le_of_not_lt hlarge
  · intro hmode
    obtain ⟨page, hnew, hlast⟩ := hsafe.isLast Unit [] 0
    have hpage := (isLast_ne_none hnew).mp hlast hmode
    rw [requestedPage_toNat] at hpage
    unfold OptionalPagination.zeroBased
    omega

end

/-- Which requests are safe to serve. -/
theorem extracted_safe_iff (Q W : Type) (config : SeaOrmWebConfig) (query : OptionalPagination)
    (hdefault : 1 ≤ config.defaultPageSize)
    (hmax : config.defaultPageSize ≤ config.maxPageSize) :
    (∃ pagination, @fromRequestParts Q W (.ok query) (.ok config) = .ok pagination ∧
      pagination.Safe config) ↔ query.Bounded config := by
  constructor
  · rintro ⟨pagination, hextract, hsafe⟩
    cases hextract
    exact bounded_of_safe hmax hsafe
  · intro hbounded
    exact ⟨_, rfl, safe_of_bounded hdefault hmax hbounded⟩

/-- `?size=0` is taken over as it is and reaches the panic of `paginate`. -/
theorem size_zero_panics :
    ¬ ∀ (Q W : Type) (config : SeaOrmWebConfig) (query : OptionalPagination),
      1 ≤ config.defaultPageSize → config.defaultPageSize ≤ config.maxPageSize →
        ∃ pagination, @fromRequestParts Q W (.ok query) (.ok config) = .ok pagination ∧
          pagination.Safe config := by
  intro h
  obtain ⟨pagination, hextract, hsafe⟩ :=
    h Unit Unit defaultWebConfig { page := none, size := some 0 } (by decide) (by decide)
  cases hextract
  exact (hsafe.page Unit Unit emptyDb).1 rfl

theorem extracted_safe_sample :
    1 ≤ defaultWebConfig.defaultPageSize ∧
    defaultWebConfig.defaultPageSize ≤ defaultWebConfig.maxPageSize ∧
    ((∃ pagination, @fromRequestParts Unit Unit (.ok { page := some 3, size := none })
        (.ok defaultWebConfig) = .ok pagination ∧ pagination.Safe defaultWebConfig) ↔
      OptionalPagination.Bounded defaultWebConfig { page := some 3, size := none }) :=
  ⟨by decide, by decide, extracted_safe_iff Unit Unit defaultWebConfig
    { page := some 3, size := none } (by decide) (by decide)⟩

end Summer.SeaOrm
