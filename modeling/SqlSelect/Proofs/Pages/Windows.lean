import SqlSelect.Proofs.Validation.Flaws

/-!
# The rows of a page

Closing a draft turns the page that was asked for into a limit. Row numbers count from 0 and have no
bound here; the first one of a page must have 64 bits.

* `PageRequest.HasSize`: how many rows a page has, told by rules;
* `Limit.start`, `Limit.stop`: the first row of a limit, and the first one behind it;
* `PageRequest.toLimit_eq`: the limit of a page has exactly its first row and its size;
* `Draft.normalize_page`: closing with a page is closing without it, up to the limit;
* `Draft.pages_tile`: when a page has a limit, and that the limits of the pages lie side by side.
-/

namespace SqlSelect

/-! ### The size of a page -/

/-- The number of rows on a page of a size that is asked for, with the limit that was declared and
the standard size. -/
inductive PageRequest.HasSize (size : Int64) (limit : Option Limit) (standard : UInt64) : Nat → Prop
  | own {n : Nat} : size.toInt = n → 0 < n → HasSize size limit standard n
  /-- Without a positive size, the count of a limit that leaves no rows out. -/
  | ofLimit {n : Nat} {count : UInt64} : size.toInt ≤ 0 → limit = some ⟨none, count⟩ →
    count.toNat = n → 0 < n → HasSize size limit standard n
  /-- Without such a limit, or with one for no rows, the standard size. -/
  | standard {n : Nat} : size.toInt ≤ 0 → (∀ count, limit = some ⟨none, count⟩ → count.toNat = 0) →
    standard.toNat = n → HasSize size limit standard n

namespace PageRequest

variable {p : PageRequest} {limit : Option Limit} {standard : UInt64} {n : Nat}

/-- The rules give each page one size, with which it is lowered. -/
theorem hasSize_iff : HasSize p.size limit standard n ↔ n = p.rows limit standard := by
  unfold rows
  constructor
  · intro h
    cases h with
    | own hsize hpos =>
      rw [if_pos (by omega), hsize]
      rfl
    | ofLimit hsize hlimit hcount hpos =>
      subst hlimit
      rw [if_neg (by omega)]
      dsimp only
      rw [if_neg, hcount]
      rintro rfl
      exact absurd hcount (by simpa using hpos.ne)
    | standard hsize hlimit hstandard =>
      rw [if_neg (by omega)]
      split
      · next count =>
        rw [if_pos (UInt64.toNat_inj.1 (hlimit count rfl)), hstandard]
      · exact hstandard.symm
  · rintro rfl
    by_cases hsize : 0 < p.size.toInt
    · rw [if_pos hsize]
      exact .own (by omega) (by omega)
    · rw [if_neg hsize]
      split
      · next count =>
        split
        · next hcount =>
          refine .standard (not_lt.1 hsize) (fun other hother => ?_) rfl
          obtain rfl : count = other := by simpa using hother
          rw [hcount]
          rfl
        · next hcount =>
          exact .ofLimit (not_lt.1 hsize) rfl rfl
            (Nat.pos_of_ne_zero fun h => hcount (UInt64.toNat_inj.1 h))
      · next hother =>
        exact .standard (not_lt.1 hsize) (fun count h => absurd h (hother count)) rfl

/-- Each size is one of 64 bits. -/
theorem rows_lt_size (p : PageRequest) (limit : Option Limit) (standard : UInt64) :
    p.rows limit standard < UInt64.size := by
  cases hasSize_iff.2 (rfl : p.rows limit standard = _) with
  | own hsize _ =>
    have hlt := p.size.toInt_lt
    have hsmall : 2 ^ 63 < UInt64.size := by decide
    omega
  | ofLimit _ _ hcount _ => exact hcount ▸ UInt64.toNat_lt_size _
  | standard _ _ hstandard => exact hstandard ▸ UInt64.toNat_lt_size _

end PageRequest

/-! ### The rows of a limit -/

namespace Limit

/-- The number of the first row. -/
def start (l : Limit) : Nat := (l.offset.map UInt64.toNat).getD 0

/-- The number of the first row that is not shown any more. -/
def stop (l : Limit) : Nat := l.start + l.count.toNat

end Limit

namespace PageRequest

variable {p : PageRequest} {limit : Option Limit} {standard : UInt64}

/-- A page comes to the limit of its first row and its size, if the row has a number of 64 bits. -/
theorem toLimit_eq (h : p.rows limit standard * (p.index - 1) < UInt64.size) :
    ∃ l : Limit, p.toLimit limit standard = .ok l ∧ l.offset.isSome ∧
      l.start = p.rows limit standard * (p.index - 1) ∧ l.count.toNat = p.rows limit standard := by
  refine ⟨⟨some (UInt64.ofNat _), UInt64.ofNat _⟩, if_pos h, rfl, ?_, ?_⟩
  · exact UInt64.toNat_ofNat_of_lt' h
  · exact UInt64.toNat_ofNat_of_lt' (rows_lt_size p limit standard)

end PageRequest

/-! ### Closing a draft on a page -/

namespace Draft

variable {d : Draft} {plain : Document}

/-- The table does not depend on the page. -/
theorem withTable_page (d : Draft) (p : PageRequest) :
    (d.declare (.page p)).withTable = d.withTable.map fun doc => { doc with page := some p } := by
  unfold withTable
  show (if d.document.tables ≠ [] then _ else if d.name = "" then _ else _) = _
  split
  · rfl
  · split <;> rfl

/-- A draft that can be closed without a page can be closed with one if the page has a limit, and
the document is the same up to the limit. -/
theorem normalize_page (hpage : d.document.page = none) (hplain : d.normalize.1 = .ok plain)
    (p : PageRequest) :
    (d.declare (.page p)).normalize.1 =
      ((p.toLimit d.document.limit d.settings.pageSize).map fun l =>
        { plain with limit := some l }).mapError .invalid := by
  obtain ⟨hfault, first, second, htable, hsecond, rfl⟩ :=
    steps_of_finished (finished_of_normalize hplain)
  have hfirst : first.page = none ∧ first.limit = d.document.limit := by
    rw [withTable_eq htable]
    exact ⟨hpage, rfl⟩
  obtain rfl : first = second := by
    unfold withLimit at hsecond
    rw [hfirst.1] at hsecond
    exact Except.ok.inj hsecond
  have hlimit : withLimit d.settings.pageSize { first with page := some p } =
      (p.toLimit d.document.limit d.settings.pageSize).map fun l =>
        { first with page := none, limit := some l } := by
    rw [← hfirst.2]
    rfl
  have hcolumns (l : Limit) : withColumns { first with page := none, limit := some l } =
      { withColumns first with limit := some l } := by
    rw [withColumns_eq, withColumns_eq, ← hfirst.1]
  have hfaultless : (d.declare (.page p)).fault = none := hfault
  rw [normalize, finished, hfaultless, withTable_page, htable]
  show Except.mapError _ (withLimit d.settings.pageSize { first with page := some p } >>= _) = _
  rw [hlimit]
  cases p.toLimit d.document.limit d.settings.pageSize with
  | error f => rfl
  | ok l =>
    show Except.ok (withColumns { first with page := none, limit := some l }) = _
    rw [hcolumns l]
    rfl

/-- The page of that number and size shows the rows of the limit. -/
def Shows (d : Draft) (size number : Int64) (l : Limit) : Prop :=
  ∃ doc, (d.declare (.page ⟨number, size⟩)).normalize.1 = .ok doc ∧ doc.limit = some l

/-- The number of rows on a page of the size. -/
def rows (d : Draft) (size : Int64) : Nat :=
  PageRequest.rows ⟨1, size⟩ d.document.limit d.settings.pageSize

/-- The number of the first row on a page. Numbers below 1 stand for the first page. -/
def firstRow (d : Draft) (size number : Int64) : Nat :=
  d.rows size * (max number.toInt 1 - 1).toNat

variable {size number : Int64} {l : Limit}

theorem rows_mul_index (d : Draft) (size number : Int64) :
    PageRequest.rows ⟨number, size⟩ d.document.limit d.settings.pageSize *
      (PageRequest.index ⟨number, size⟩ - 1) = d.firstRow size number := by
  have hindex : PageRequest.index ⟨number, size⟩ - 1 = (max number.toInt 1 - 1).toNat := by
    show (max number.toInt 1).toNat - 1 = _
    omega
  rw [hindex]
  rfl

/-- A page whose first row has a number of 64 bits has the limit of its rows. -/
theorem normalize_page_of_lt (hpage : d.document.page = none) (hplain : d.normalize.1 = .ok plain)
    (h : d.firstRow size number < 2 ^ 64) :
    ∃ l : Limit, l.offset.isSome ∧ l.start = d.firstRow size number ∧
      l.count.toNat = d.rows size ∧
      (d.declare (.page ⟨number, size⟩)).normalize.1 = .ok { plain with limit := some l } := by
  rw [← rows_mul_index] at h ⊢
  obtain ⟨l, hlimit, hsome, hstart, hcount⟩ := PageRequest.toLimit_eq h
  refine ⟨l, hsome, hstart, hcount, ?_⟩
  rw [normalize_page hpage hplain, hlimit]
  rfl

/-- Any other page is a fault. -/
theorem normalize_page_of_le (hpage : d.document.page = none) (hplain : d.normalize.1 = .ok plain)
    (h : 2 ^ 64 ≤ d.firstRow size number) :
    (d.declare (.page ⟨number, size⟩)).normalize.1 =
      .error (.invalid (.pageOverflow number.toInt (d.rows size))) := by
  rw [← rows_mul_index] at h
  rw [normalize_page hpage hplain, PageRequest.toLimit_eq_error_iff.2 ⟨h, rfl⟩]
  rfl

/-- What a page shows. -/
theorem shows_iff (hpage : d.document.page = none) (hplain : d.normalize.1 = .ok plain) :
    d.Shows size number l ↔
      l.offset.isSome ∧ l.start = d.firstRow size number ∧ l.count.toNat = d.rows size := by
  constructor
  · rintro ⟨doc, hdoc, hl⟩
    rcases Nat.lt_or_ge (d.firstRow size number) (2 ^ 64) with h | h
    · obtain ⟨l', hsome, hstart, hcount, heq⟩ := normalize_page_of_lt hpage hplain h
      rw [hdoc, Except.ok.injEq] at heq
      obtain rfl : l = l' := by simpa [heq] using hl.symm
      exact ⟨hsome, hstart, hcount⟩
    · rw [normalize_page_of_le hpage hplain h] at hdoc
      cases hdoc
  · rintro ⟨hsome, hstart, hcount⟩
    obtain ⟨offset, hoffset⟩ := Option.isSome_iff_exists.1 hsome
    have hlt : d.firstRow size number < 2 ^ 64 := by
      rw [← hstart, Limit.start, hoffset]
      exact UInt64.toNat_lt_size offset
    obtain ⟨l', hsome', hstart', hcount', heq⟩ := normalize_page_of_lt hpage hplain hlt
    refine ⟨_, heq, congrArg some ?_⟩
    -- a limit with an offset is told by its first row and its count
    obtain ⟨offset', hoffset'⟩ := Option.isSome_iff_exists.1 hsome'
    obtain ⟨_, count⟩ := l
    obtain ⟨_, count'⟩ := l'
    obtain rfl := hoffset
    obtain rfl := hoffset'
    obtain rfl : offset' = offset := UInt64.toNat_inj.1 (hstart'.trans hstart.symm)
    obtain rfl : count' = count := UInt64.toNat_inj.1 (hcount'.trans hcount.symm)
    rfl

/-- Pages further on begin further on. -/
theorem firstRow_le {p q : Int64} (h : p.toInt ≤ q.toInt) :
    d.firstRow size p ≤ d.firstRow size q :=
  Nat.mul_le_mul_left _ (by omega)

/-- Each page begins behind the rows of the one before. -/
theorem firstRow_succ {p q : Int64} (hp : 1 ≤ p.toInt) (hq : q.toInt = p.toInt + 1) :
    d.firstRow size q = d.firstRow size p + d.rows size := by
  have hnext : (max q.toInt 1 - 1).toNat = (max p.toInt 1 - 1).toNat + 1 := by omega
  rw [firstRow, hnext, Nat.mul_succ]
  rfl

/-- The row is on the page exactly if so many whole pages are in front of it. -/
theorem firstRow_le_and_lt_iff {p : Int64} (hp : 1 ≤ p.toInt) (hpos : 0 < d.rows size) (row : Nat) :
    (d.firstRow size p ≤ row ∧ row < d.firstRow size p + d.rows size) ↔
      p.toInt = (row / d.rows size : Nat) + 1 := by
  rw [firstRow, ← Nat.mul_succ, Nat.mul_comm, Nat.mul_comm (d.rows size),
    ← Nat.le_div_iff_mul_le hpos, ← Nat.div_lt_iff_lt_mul hpos]
  omega

/-- Each row in front of the end of a page is on exactly one page up to it. -/
theorem existsUnique_page {q : Int64} (hq : 1 ≤ q.toInt) {row : Nat}
    (hrow : row < d.firstRow size q + d.rows size) :
    ∃! p : Int64, 1 ≤ p.toInt ∧ p.toInt ≤ q.toInt ∧
      d.firstRow size p ≤ row ∧ row < d.firstRow size p + d.rows size := by
  have hlast : q.toInt.toNat = (max q.toInt 1 - 1).toNat + 1 := by omega
  have hrows : row < d.rows size * q.toInt.toNat := by
    rw [hlast, Nat.mul_succ]
    exact hrow
  have hpos : 0 < d.rows size := Nat.pos_of_mul_pos_right (Nat.zero_lt_of_lt hrows)
  have hquotient : row / d.rows size < q.toInt.toNat := by
    rw [Nat.div_lt_iff_lt_mul hpos, Nat.mul_comm]
    exact hrows
  have hlt := q.toInt_lt
  -- the page behind all the whole ones in front of the row; its number is no larger than `q`
  obtain ⟨front, hfront⟩ : ∃ front : Nat, row / d.rows size = front := ⟨_, rfl⟩
  rw [hfront] at hquotient
  have hword : (Int64.ofInt (front + 1)).toInt = front + 1 :=
    Int64.toInt_ofInt_of_le (by omega) (by omega)
  have hon {p : Int64} (hp : 1 ≤ p.toInt) :
      (d.firstRow size p ≤ row ∧ row < d.firstRow size p + d.rows size) ↔ p.toInt = front + 1 := by
    rw [firstRow_le_and_lt_iff hp hpos row, hfront]
  refine ⟨Int64.ofInt (front + 1), ⟨by omega, by omega, (hon (by omega)).2 hword⟩, ?_⟩
  rintro p ⟨hp, -, hrow⟩
  exact Int64.toInt_inj.1 (((hon hp).1 hrow).trans hword.symm)

/-- Pages are lowered exactly, and they tile the rows. Let `plain` be what a draft without a page is
closed to, and ask for a page of some size and of any number. There is one number of rows that the
page has by the rules. If the number of its first row has 64 bits then closing gives `plain` with
the limit that begins there and has so many rows, and else it fails. If a page has a limit then so
has every page in front of it; each page begins where the one before it ends; and each row up to the
end of a page is on exactly one page up to it. -/
theorem pages_tile (hpage : d.document.page = none) (hplain : d.normalize.1 = .ok plain)
    (size : Int64) :
    ∃ rows : Nat,
      (∀ n, PageRequest.HasSize size d.document.limit d.settings.pageSize n ↔ n = rows) ∧
      (∀ number : Int64,
        let first := rows * (max number.toInt 1 - 1).toNat
        (first < 2 ^ 64 → ∃ l : Limit, l.offset.isSome ∧ l.start = first ∧ l.count.toNat = rows ∧
          (d.declare (.page ⟨number, size⟩)).normalize.1 = .ok { plain with limit := some l }) ∧
        (2 ^ 64 ≤ first → (d.declare (.page ⟨number, size⟩)).normalize.1 =
          .error (.invalid (.pageOverflow number.toInt rows)))) ∧
      (∀ (p q : Int64) (l : Limit), p.toInt ≤ q.toInt → d.Shows size q l →
        ∃ l', d.Shows size p l') ∧
      (∀ (p q : Int64) (l' : Limit), 1 ≤ p.toInt → q.toInt = p.toInt + 1 → d.Shows size q l' →
        ∃ l, d.Shows size p l ∧ l'.start = l.stop) ∧
      ∀ (q : Int64) (l : Limit), 1 ≤ q.toInt → d.Shows size q l → ∀ row < l.stop,
        ∃! p : Int64, 1 ≤ p.toInt ∧ p.toInt ≤ q.toInt ∧
          ∃ l', d.Shows size p l' ∧ l'.start ≤ row ∧ row < l'.stop := by
  -- a page in front of one with a limit has one too, at its own first row
  have hearlier {p q : Int64} {l : Limit} (hpq : p.toInt ≤ q.toInt) (hq : d.Shows size q l) :
      ∃ l', d.Shows size p l' ∧ l'.start = d.firstRow size p ∧
        l'.stop = d.firstRow size p + d.rows size := by
    obtain ⟨hsome, hstart, -⟩ := (shows_iff hpage hplain).1 hq
    obtain ⟨offset, hoffset⟩ := Option.isSome_iff_exists.1 hsome
    have hlt : d.firstRow size q < 2 ^ 64 := by
      rw [← hstart, Limit.start, hoffset]
      exact UInt64.toNat_lt_size offset
    obtain ⟨l', hsome', hstart', hcount', hclosed⟩ :=
      normalize_page_of_lt hpage hplain ((firstRow_le (d := d) hpq).trans_lt hlt)
    refine ⟨l', ⟨_, hclosed, rfl⟩, hstart', ?_⟩
    rw [Limit.stop, hstart', hcount']
  have hrows (n : Nat) :
      PageRequest.HasSize size d.document.limit d.settings.pageSize n ↔ n = d.rows size :=
    PageRequest.hasSize_iff (p := ⟨1, size⟩)
  refine ⟨d.rows size, hrows, fun number => ?_, ?_, ?_, ?_⟩
  · exact ⟨normalize_page_of_lt hpage hplain, normalize_page_of_le hpage hplain⟩
  · intro p q l hpq hq
    obtain ⟨l', hl', -⟩ := hearlier hpq hq
    exact ⟨l', hl'⟩
  · intro p q l' hp hpq hq
    obtain ⟨l, hl, -, hstop⟩ := hearlier (by omega : p.toInt ≤ q.toInt) hq
    refine ⟨l, hl, ?_⟩
    rw [((shows_iff hpage hplain).1 hq).2.1, firstRow_succ hp hpq, hstop]
  · intro q l hq hl row hrow
    obtain ⟨-, hstart, hcount⟩ := (shows_iff hpage hplain).1 hl
    rw [Limit.stop, hstart, hcount] at hrow
    obtain ⟨p, ⟨hp, hpq, hon⟩, hunique⟩ := existsUnique_page hq hrow
    obtain ⟨l', hl', hstart', hstop'⟩ := hearlier hpq hl
    refine ⟨p, ⟨hp, hpq, l', hl', ?_⟩, ?_⟩
    · rw [hstart', hstop']
      exact hon
    · rintro p' ⟨hp', hpq', l'', hl'', hon'⟩
      obtain ⟨-, hstart'', hcount''⟩ := (shows_iff hpage hplain).1 hl''
      rw [Limit.stop, hstart'', hcount''] at hon'
      exact hunique p' ⟨hp', hpq', hon'⟩

/-- A draft with a limit that leaves no rows out. -/
def pagedSample : Draft :=
  { new {} with document := { tables := ["t"], limit := some ⟨none, 7⟩ } }

/-- The third page without a size of its own shows seven rows behind fourteen, and a page far away
has no limit. -/
theorem pages_tile_limitSample :
    pagedSample.document.page = none ∧
      pagedSample.normalize.1 = .ok pagedSample.document ∧
      (∃ l : Limit, l.start = 14 ∧ l.count.toNat = 7 ∧
        (pagedSample.declare (.page ⟨3, -1⟩)).normalize.1 =
          .ok { pagedSample.document with limit := some l }) ∧
      (pagedSample.declare (.page ⟨4611686018427387904, -1⟩)).normalize.1 =
        .error (.invalid (.pageOverflow 4611686018427387904 7)) := by
  have hpage : pagedSample.document.page = none := rfl
  have hplain : pagedSample.normalize.1 = .ok pagedSample.document := rfl
  obtain ⟨rows, hrows, hclosed, -⟩ := pages_tile hpage hplain (-1)
  have hseven : 7 = rows := (hrows 7).1 (.ofLimit (by decide) rfl rfl (by decide))
  subst hseven
  obtain ⟨l, -, hstart, hcount, hdoc⟩ := (hclosed 3).1 (by decide)
  exact ⟨hpage, hplain, ⟨l, hstart, hcount, hdoc⟩, (hclosed 4611686018427387904).2 (by decide)⟩

end Draft

end SqlSelect
