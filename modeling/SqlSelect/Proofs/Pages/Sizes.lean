import SqlSelect.Proofs.Aliases
import SqlSelect.Proofs.Pages.Windows

/-!
# Pages without rows

A page without a size of its own takes the count of a limit, or else the size in the settings. No
setting in code makes that size zero, but a JSON text may.

* `Settings.Start`, `Settings.Change`, `Settings.made`: the ways to make settings;
* `Json.GivesNoRows`: a JSON value says of the size of a page that it is zero;
* `Settings.pageSize_made_eq_zero_iff`: the settings that have zero as the size of a page;
* `Settings.Governs settings s`: a program under the settings can come to the session `s`, at any
  depth of nesting;
* `Settings.count_page_eq_zero_iff`: the pages that are closed to a limit for no rows.
-/

namespace SqlSelect

/-! ### The ways to make settings -/

/-- What settings begin with. -/
inductive Settings.Start
  | standard
  /-- The settings that a JSON text says. -/
  | json (text : String)

/-- A setting made in code. -/
inductive Settings.Change
  | tablePrefix (text : String)
  | pageSize (size : UInt64)
  | key (columns : PrimaryKey)
  | dialect (name : DialectName)

namespace Settings

/-- The settings to begin with; not every text says some. -/
def Start.settings : Start → Except Error Settings
  | standard => .ok {}
  | json text => read text

/-- Settings with a change. -/
def Change.apply (s : Settings) : Change → Settings
  | .tablePrefix text => s.withTablePrefix text
  | .pageSize size => s.withPageSize size
  | .key columns => s.withKey columns
  | .dialect name => s.withDialect name

/-- Is the change one of the size of a page? -/
def Change.isOfPageSize : Change → Bool
  | pageSize _ => true
  | _ => false

/-- Settings with changes, one after the other. -/
def made (start : Start) (changes : List Change) : Except Error Settings :=
  start.settings.map (changes.foldl Change.apply)

end Settings

/-! ### The size of a page in a JSON text -/

namespace Json

/-- The number zero, without a sign, a point or an exponent. -/
inductive IsZero : Json → Prop
  | digits {cs : List Char} : cs.all Char.isDigit = true → Numeral.ofDigits cs = 0 →
    IsZero (.number cs)

/-- The value says of the size of a page that it is zero. -/
inductive GivesNoRows : Json → Prop
  | member {members : List (Option String × Json)} {v : Json} :
    (some "default_page_size", v) ∈ members → v.IsZero → GivesNoRows (.object members)
  /-- An array gives the size behind the prefix of the tables. -/
  | item {items : List Json} {v : Json} : items[1]? = some v → v.IsZero →
    GivesNoRows (.array items)

end Json

namespace Settings

variable {settings : Settings}

theorem pageSize?_eq_zero_iff {v : Json} : pageSize? v = some 0 ↔ v.IsZero := by
  constructor
  · intro h
    cases v with
    | number cs =>
      rw [pageSize?] at h
      split at h
      · next hcs =>
        have hzero := congrArg UInt64.toNat (Option.some.inj h)
        rw [UInt64.toNat_ofNat_of_lt' hcs.2] at hzero
        exact .digits hcs.1 hzero
      · cases h
    | _ => cases h
  · rintro ⟨hdigits, hzero⟩
    rw [pageSize?, hzero, if_pos ⟨hdigits, by decide⟩]
    rfl

/-- A member that is not repeated has the value that is given for it. -/
theorem member?_eq_some_iff {members : List (Option String × Json)} {name : String}
    {found : Option Json} (h : member? members name = some found) (v : Json) :
    found = some v ↔ (some name, v) ∈ members := by
  have hmem : (some name, v) ∈ members ↔
      (some name, v) ∈ members.filter fun m => m.1 == some name := by
    simp
  rw [hmem]
  unfold member? at h
  split at h
  · next hnone =>
    obtain rfl : none = found := Option.some.inj h
    simp [hnone]
  · next m hone =>
    obtain rfl : some m.2 = found := Option.some.inj h
    -- the one member that is left has the name
    have hname : m.1 = some name := by
      have hm : m ∈ members.filter fun m => m.1 == some name := by simp [hone]
      simpa using (List.mem_filter.1 hm).2
    rw [hone, List.mem_singleton, ← hname]
    exact ⟨fun hv => Prod.ext rfl (Option.some.inj hv).symm, fun hv => congrArg some (by rw [← hv])⟩
  · cases h

/-- The size of a page is the value given for it, or the standard one. -/
theorem pageSize_ofValues? {tablePrefix pageSize key dialect : Option Json}
    (h : ofValues? tablePrefix pageSize key dialect = some settings) :
    settings.pageSize = 0 ↔ ∃ v, pageSize = some v ∧ v.IsZero := by
  unfold ofValues? at h
  simp only [Option.bind_eq_bind, Option.bind_eq_some_iff] at h
  obtain ⟨_, -, size, hsize, _, -, _, -, hsettings⟩ := h
  obtain rfl := Option.some.inj hsettings
  show size = 0 ↔ _
  cases pageSize with
  | none =>
    obtain rfl : standardPageSize = size := Option.some.inj hsize
    simp [standardPageSize]
  | some v =>
    have hv : pageSize? v = some size := hsize
    constructor
    · rintro rfl
      exact ⟨v, rfl, pageSize?_eq_zero_iff.1 hv⟩
    · rintro ⟨w, hw, hzero⟩
      obtain rfl : v = w := Option.some.inj hw
      rw [pageSize?_eq_zero_iff.2 hzero] at hv
      exact (Option.some.inj hv).symm

theorem pageSize_ofJson? {v : Json} (h : ofJson? v = some settings) :
    settings.pageSize = 0 ↔ v.GivesNoRows := by
  unfold ofJson? at h
  split at h
  · next items =>
    split at h
    · cases h
    · rw [pageSize_ofValues? h]
      constructor
      · rintro ⟨v, hitem, hzero⟩
        exact .item hitem hzero
      · intro hgives
        cases hgives with
        | item hitem hzero => exact ⟨_, hitem, hzero⟩
  · next members =>
    simp only [Option.bind_eq_bind, Option.bind_eq_some_iff] at h
    obtain ⟨-, -, _, -, size, hsize, _, -, _, -, hvalues⟩ := h
    rw [pageSize_ofValues? hvalues]
    constructor
    · rintro ⟨v, rfl, hzero⟩
      exact .member ((member?_eq_some_iff hsize v).1 rfl) hzero
    · rintro ⟨hmem, hzero⟩
      exact ⟨_, (member?_eq_some_iff hsize _).2 hmem, hzero⟩
  · cases h

/-- The settings begin with a JSON text that says of the size of a page that it is zero. -/
def Start.GivesNoRows : Start → Prop
  | standard => False
  | json text => ∃ v, Json.read? text = some v ∧ v.GivesNoRows

theorem Start.pageSize_eq_zero_iff {start : Start} (h : start.settings = .ok settings) :
    settings.pageSize = 0 ↔ start.GivesNoRows := by
  cases start with
  | standard =>
    obtain rfl : ({} : Settings) = settings := Except.ok.inj h
    simp [GivesNoRows, standardPageSize]
  | json text =>
    change read text = .ok settings at h
    unfold read at h
    split at h
    · next first hread =>
      obtain rfl : first = settings := Except.ok.inj h
      obtain ⟨v, hv, hfirst⟩ := Option.bind_eq_some_iff.1 hread
      rw [pageSize_ofJson? hfirst]
      constructor
      · exact fun hzero => ⟨v, hv, hzero⟩
      · rintro ⟨w, hw, hzero⟩
        rw [hv] at hw
        rwa [Option.some.inj hw]
    · cases h

/-- A change leaves the size of a page alone or makes it positive. -/
theorem Change.pageSize_apply_eq_zero_iff (s : Settings) (x : Change) :
    (x.apply s).pageSize = 0 ↔ s.pageSize = 0 ∧ x.isOfPageSize = false := by
  cases x with
  | pageSize size => simp [apply, isOfPageSize]
  | _ => simp [apply, isOfPageSize, withTablePrefix, withKey, withDialect]

theorem pageSize_foldl_apply_eq_zero_iff (s : Settings) (changes : List Change) :
    (changes.foldl Change.apply s).pageSize = 0 ↔
      s.pageSize = 0 ∧ ∀ x ∈ changes, x.isOfPageSize = false := by
  induction changes generalizing s with
  | nil => simp
  | cons x changes ih =>
    rw [List.foldl_cons, ih, Change.pageSize_apply_eq_zero_iff, List.forall_mem_cons, and_assoc]

/-- The size is zero if a JSON text says so and no setting in code changes it afterwards. -/
theorem pageSize_made_eq_zero_iff {start : Start} {changes : List Change}
    (h : made start changes = .ok settings) :
    settings.pageSize = 0 ↔ start.GivesNoRows ∧ ∀ x ∈ changes, x.isOfPageSize = false := by
  unfold made at h
  cases hstart : start.settings with
  | error e =>
    rw [hstart] at h
    cases h
  | ok first =>
    rw [hstart] at h
    obtain rfl : changes.foldl Change.apply first = settings := Except.ok.inj h
    rw [pageSize_foldl_apply_eq_zero_iff, Start.pageSize_eq_zero_iff hstart]

end Settings

/-! ### The size of a page in a session -/

/-- Calls change no settings of a draft but the key. -/
theorem Call.pageSize_run (s : Session) (c : Call) :
    (c.run s).1.draft.settings.pageSize = s.draft.settings.pageSize := by
  have hflat {d e : Draft} (h : d.flat = e.flat) : d.settings.pageSize = e.settings.pageSize := by
    have hsettings : d.flat.settings = e.flat.settings := by rw [h]
    exact congrArg Settings.pageSize hsettings
  cases c with
  | require k c => exact hflat (s.draft.flat_require k c)
  | requireAll k cs => exact hflat (s.draft.flat_requireAll k cs)
  | group k body => exact hflat (s.draft.flat_adoptGroup k _)
  | exist k negated body => exact hflat (s.draft.flat_adoptQuery _ fun _ _ => rfl)
  | membership k field negated body => exact hflat (s.draft.flat_adoptQuery _ fun _ _ => rfl)
  | union all body => exact hflat (s.draft.flat_adoptQuery _ fun _ _ => rfl)
  | normalize => rw [draft_run_normalize]; rfl
  | finish => rw [draft_run_finish]
  | requireKey data => rw [draft_run_requireKey]
  | _ => rfl

/-- The sessions that a program under the settings can come to, at any depth of nesting. -/
inductive Settings.Governs (settings : Settings) : Session → Prop
  | new : Governs settings ⟨.new settings, none⟩
  | call {s : Session} (c : Call) : Governs settings s → Governs settings (c.run s).1
  /-- The draft of a group or a subquery, on which nothing has been declared. -/
  | nested {s : Session} : Governs settings s → Governs settings ⟨s.draft.child, none⟩
  /-- A copy of the draft, which goes its own way. -/
  | fork {s : Session} : Governs settings s → Governs settings ⟨s.draft, none⟩

namespace Settings

variable {settings : Settings} {s : Session}

theorem Governs.runAll (hs : settings.Governs s) (cs : List Call) :
    settings.Governs (Call.runAll s cs).1 := by
  induction cs generalizing s with
  | nil => exact hs
  | cons c cs ih => exact ih (hs.call c)

theorem Governs.pageSize (hs : settings.Governs s) :
    s.draft.settings.pageSize = settings.pageSize := by
  induction hs with
  | new => rfl
  | call c _ ih => exact (Call.pageSize_run _ c).trans ih
  | nested _ ih => exact ih
  | fork _ ih => exact ih

end Settings

/-- A page has no rows if nothing gives it a size. -/
theorem PageRequest.rows_eq_zero_iff {p : PageRequest} {limit : Option Limit} {standard : UInt64} :
    p.rows limit standard = 0 ↔
      p.size.toInt ≤ 0 ∧ (∀ count, limit = some ⟨none, count⟩ → count = 0) ∧ standard = 0 := by
  constructor
  · intro h
    cases hasSize_iff.2 h.symm with
    | own _ hpos => exact absurd hpos (lt_irrefl 0)
    | ofLimit _ _ _ hpos => exact absurd hpos (lt_irrefl 0)
    | standard hsize hlimit hstandard =>
      exact ⟨hsize, fun count hcount => UInt64.toNat_inj.1 (hlimit count hcount),
        UInt64.toNat_inj.1 hstandard⟩
  · rintro ⟨hsize, hlimit, rfl⟩
    refine (hasSize_iff.1 (.standard hsize (fun count hcount => ?_) rfl)).symm
    rw [hlimit count hcount]
    rfl

/-- The count of a limit that a page comes to is its size. -/
theorem PageRequest.count_of_toLimit {p : PageRequest} {limit : Option Limit} {standard : UInt64}
    {l : Limit} (h : p.toLimit limit standard = .ok l) :
    l.count.toNat = p.rows limit standard := by
  unfold toLimit at h
  dsimp only at h
  split at h
  · obtain rfl := Except.ok.inj h
    exact UInt64.toNat_ofNat_of_lt' (rows_lt_size p limit standard)
  · cases h

namespace Settings

variable {settings : Settings} {s : Session}

/-- The pages without rows. When a draft with a page is closed under settings made in any way, the
limit is for no rows exactly if the page has no size of its own, no limit for some rows was
declared, the settings were read from a JSON text that says of the size of a page that it is zero,
and no setting in code changed it afterwards. -/
theorem count_page_eq_zero_iff {start : Start} {changes : List Change}
    (hmade : made start changes = .ok settings) (hs : settings.Governs s) {p : PageRequest}
    (hpage : s.draft.document.page = some p) {doc : Document}
    (hdoc : s.draft.normalize.1 = .ok doc) :
    ∃ l, doc.limit = some l ∧
      (l.count = 0 ↔
        p.size.toInt ≤ 0 ∧ (∀ count, s.draft.document.limit = some ⟨none, count⟩ → count = 0) ∧
          start.GivesNoRows ∧ ∀ x ∈ changes, x.isOfPageSize = false) := by
  have hcloses := Draft.closes_of_finished (Draft.finished_of_normalize hdoc)
  obtain ⟨l, hlimit, hl⟩ := hcloses.limit_of_page p hpage
  refine ⟨l, hl, ?_⟩
  rw [← pageSize_made_eq_zero_iff hmade, ← hs.pageSize, ← PageRequest.rows_eq_zero_iff,
    ← PageRequest.count_of_toLimit hlimit]
  exact UInt64.toNat_inj.symm

/-- The text of settings that says of the size of a page that it is zero. -/
def emptyPagesText : String := "\x7b\"default_page_size\":0\x7d"

/-- The first page of a table, without a size of its own. -/
def firstPageSample (settings : Settings) : Session :=
  (Call.runAll ⟨.new settings, none⟩ [.declare (.tables (.text "t")), .declare (.page ⟨1, 0⟩)]).1

/-- A page has no rows under a text that says so, and has some if the same zero is set in code. -/
theorem count_page_eq_zero_iff_emptySample :
    (∃ settings l, made (.json emptyPagesText) [] = .ok settings ∧
      (firstPageSample settings).draft.normalize.1 = .ok { tables := ["t"], limit := some l } ∧
      l.count = 0) ∧
      ∃ settings l, made (.json emptyPagesText) [.pageSize 0] = .ok settings ∧
        (firstPageSample settings).draft.normalize.1 = .ok { tables := ["t"], limit := some l } ∧
        l.count ≠ 0 := by
  have hread : (Json.read? emptyPagesText).bind ofJson? = some { pageSize := 0 } := by
    decide +kernel
  have hstart : (Start.json emptyPagesText).settings = .ok { pageSize := 0 } := by
    change read emptyPagesText = _
    rw [read, hread]
  have hempty : (Start.json emptyPagesText).GivesNoRows := (Start.pageSize_eq_zero_iff hstart).1 rfl
  constructor
  · have hmade : made (.json emptyPagesText) [] = .ok { pageSize := 0 } := by
      rw [made, hstart]
      rfl
    have hdoc : (firstPageSample { pageSize := 0 }).draft.normalize.1 =
        .ok { tables := ["t"], limit := some ⟨some 0, 0⟩ } := rfl
    obtain ⟨l, hl, hiff⟩ := count_page_eq_zero_iff hmade (Governs.new.runAll _) rfl hdoc
    have hcount : l.count = 0 := hiff.2 ⟨by decide, fun _ h => (by cases h), hempty, by simp⟩
    exact ⟨_, l, hmade, by rw [hdoc, ← hl], hcount⟩
  · have hmade : made (.json emptyPagesText) [.pageSize 0] = .ok {} := by
      rw [made, hstart]
      rfl
    have hdoc : (firstPageSample {}).draft.normalize.1 =
        .ok { tables := ["t"], limit := some ⟨some 0, 20⟩ } := rfl
    obtain ⟨l, hl, hiff⟩ := count_page_eq_zero_iff hmade (Governs.new.runAll _) rfl hdoc
    have hcount : l.count ≠ 0 := fun h => by
      simpa [Change.isOfPageSize] using (hiff.1 h).2.2.2
    exact ⟨_, l, hmade, by rw [hdoc, ← hl], hcount⟩

end Settings

end SqlSelect
