import SqlSelect.Proofs.Document.Leaves
import SqlSelect.Proofs.Validation.Criteria

/-!
# Normal documents

A finished document is in normal form, and so is each document in it, at any depth.

* `Document.IsNormal`: a table, no page, and a WHERE clause in normal form, in which a connective
  has one branch at most, a branch has entries, a field has conditions and a group has branches.
  The documents of its conditions, of its entries and of its unions are normal themselves;
* `Draft.HoldsNormal`: what a draft holds of other documents, in its clause, in its ledger and in
  its unions, is normal. Each call keeps this up (`Call.holdsNormal_run`);
* `Reachable s`: a program can come to the session `s`, at any depth of nesting. Programs take
  subqueries from nested drafts only;
* `Reachable.isNormal`: what closing gives in a reachable session is normal.
-/

namespace SqlSelect

/-! ### The normal form -/

mutual

/-- A condition whose subquery, if it has one, is normal. -/
inductive Condition.IsNormal : Condition → Prop
  | flat {c : Condition} : c.IsFlat → Condition.IsNormal c
  | inQuery {query : Document} {negated : Bool} :
      Document.IsNormal query → Condition.IsNormal (.inQuery query negated)

/-- A member of a clause with something in it, and nothing but what is normal. -/
inductive Entry.IsNormal : Entry → Prop
  | field {name : String} {cs : List Condition} :
      cs ≠ [] → (∀ c ∈ cs, Condition.IsNormal c) → Entry.IsNormal (.field name cs)
  | raw {sql : String} {binds : List Param} : Entry.IsNormal (.raw sql binds)
  | group {bs : List Branch} : bs ≠ [] → Filter.IsNormal bs → Entry.IsNormal (.group bs)
  | exist {query : Document} {negated : Bool} :
      Document.IsNormal query → Entry.IsNormal (.exist query negated)

/-- A clause in which each connective has one branch at most, and each branch has entries. -/
inductive Filter.IsNormal : List Branch → Prop
  | intro {bs : List Branch} : (bs.map Branch.connective).Nodup → (∀ b ∈ bs, b.entries ≠ []) →
      (∀ b ∈ bs, ∀ e ∈ b.entries, Entry.IsNormal e) → Filter.IsNormal bs

/-- A united statement that is raw or normal. -/
inductive UnionItem.IsNormal : UnionItem → Prop
  | raw {sql : String} {all : Bool} : UnionItem.IsNormal (.raw sql all)
  | query {query : Document} {all : Bool} :
      Document.IsNormal query → UnionItem.IsNormal (.query query all)

/-- A document with a table and without a page, of which all parts are normal. -/
inductive Document.IsNormal : Document → Prop
  | intro {d : Document} : d.tables ≠ [] → d.page = none → Filter.IsNormal d.filter →
      (∀ x ∈ d.softDelete, Condition.IsNormal x.condition) →
      (∀ u ∈ d.unions, UnionItem.IsNormal u) → Document.IsNormal d

end

/-! ### Clauses -/

namespace Filter

variable {k : Connective} {f : List Entry → List Entry} {bs : List Branch}

theorem IsNormal.nil : IsNormal [] :=
  .intro List.nodup_nil (fun _ hb => absurd hb List.not_mem_nil)
    fun _ hb => absurd hb List.not_mem_nil

/-- A change under a connective keeps the connectives, or adds its own behind them. -/
theorem connectives_update (k : Connective) (f : List Entry → List Entry) (bs : List Branch) :
    (update k f bs).map Branch.connective =
      if k ∈ bs.map Branch.connective then bs.map Branch.connective
      else bs.map Branch.connective ++ [k] := by
  induction bs with
  | nil => simp [update]
  | cons b bs ih =>
    rw [update]
    split
    · next hb => simp [hb]
    · next hb =>
      have hne : k ≠ b.connective := fun e => hb e.symm
      rw [List.map_cons, List.map_cons, ih]
      by_cases hk : k ∈ bs.map Branch.connective
      · rw [if_pos hk, if_pos (List.mem_cons_of_mem _ hk)]
      · rw [if_neg hk, if_neg (by simp only [List.mem_cons, hne, hk, or_self, not_false_eq_true])]
        rfl

/-- A branch of the changed clause is an old one, or that of the connective with its entries
changed. -/
theorem mem_update {b : Branch} (h : b ∈ update k f bs) :
    b ∈ bs ∨ b.entries = f [] ∨ ∃ old ∈ bs, b.entries = f old.entries := by
  induction bs with
  | nil =>
    rw [List.mem_singleton.1 h]
    exact .inr (.inl rfl)
  | cons first bs ih =>
    rw [update] at h
    split at h
    · rcases List.mem_cons.1 h with rfl | h
      · exact .inr (.inr ⟨first, List.mem_cons_self, rfl⟩)
      · exact .inl (List.mem_cons_of_mem _ h)
    · rcases List.mem_cons.1 h with rfl | h
      · exact .inl List.mem_cons_self
      · rcases ih h with hb | hb | ⟨old, hold, hb⟩
        · exact .inl (List.mem_cons_of_mem _ hb)
        · exact .inr (.inl hb)
        · exact .inr (.inr ⟨old, List.mem_cons_of_mem _ hold, hb⟩)

/-- A change that leaves normal entries behind, and not none, keeps a clause normal. -/
theorem IsNormal.update (h : IsNormal bs)
    (hf : ∀ es : List Entry, (∀ e ∈ es, e.IsNormal) → f es ≠ [] ∧ ∀ e ∈ f es, e.IsNormal) :
    IsNormal (update k f bs) := by
  obtain ⟨hnodup, hne, hentries⟩ := h
  have hchanged : ∀ b ∈ Filter.update k f bs, b.entries ≠ [] ∧ ∀ e ∈ b.entries, e.IsNormal := by
    intro b hb
    rcases mem_update hb with hb | hb | ⟨old, hold, hb⟩
    · exact ⟨hne b hb, hentries b hb⟩
    · rw [hb]
      exact hf [] fun _ he => absurd he List.not_mem_nil
    · rw [hb]
      exact hf old.entries (hentries old hold)
  refine .intro ?_ (fun b hb => (hchanged b hb).1) fun b hb => (hchanged b hb).2
  rw [connectives_update]
  split
  · exact hnodup
  · next hk => exact List.nodup_append.2 ⟨hnodup, List.nodup_singleton k, by
      rintro j hj _ hk' rfl
      exact hk (List.mem_singleton.1 hk' ▸ hj)⟩

theorem IsNormal.push (h : IsNormal bs) (k : Connective) {e : Entry} (he : e.IsNormal) :
    IsNormal (push k e bs) :=
  h.update fun _ hes => ⟨List.append_ne_nil_of_right_ne_nil _ (List.cons_ne_nil _ _),
    List.forall_mem_append.2 ⟨hes, List.forall_mem_singleton.2 he⟩⟩

theorem putFieldEntry_ne_nil (name : String) (cs : List Condition) (es : List Entry) :
    putFieldEntry name cs es ≠ [] := by
  cases es with
  | nil => exact List.cons_ne_nil _ _
  | cons e es =>
    cases e with
    | field n ds =>
      rw [putFieldEntry]
      split <;> exact List.cons_ne_nil _ _
    | _ => exact List.cons_ne_nil _ _

/-- The conditions on a field come in one entry; the others are old ones. -/
theorem eq_or_mem_of_mem_putFieldEntry {name : String} {cs : List Condition} {es : List Entry}
    {e : Entry} (h : e ∈ putFieldEntry name cs es) : e = .field name cs ∨ e ∈ es := by
  induction es with
  | nil => exact .inl (List.mem_singleton.1 h)
  | cons first es ih =>
    have hrest : e ∈ first :: putFieldEntry name cs es → e = .field name cs ∨ e ∈ first :: es := by
      intro h
      rcases List.mem_cons.1 h with rfl | h
      · exact .inr List.mem_cons_self
      · exact (ih h).imp_right (List.mem_cons_of_mem _)
    cases first with
    | field n ds =>
      rw [putFieldEntry] at h
      split at h
      · exact (List.mem_cons.1 h).imp_right (List.mem_cons_of_mem _)
      · exact hrest h
    | _ => exact hrest h

theorem IsNormal.putField (h : IsNormal bs) (k : Connective) (name : String)
    {cs : List Condition} (hne : cs ≠ []) (hcs : ∀ c ∈ cs, c.IsNormal) :
    IsNormal (putField k name cs bs) := by
  refine h.update fun es hes => ⟨putFieldEntry_ne_nil name cs es, fun e he => ?_⟩
  rcases eq_or_mem_of_mem_putFieldEntry he with rfl | he
  · exact .field hne hcs
  · exact hes e he

/-- Other names keep the connective and the number of entries of each branch. -/
theorem renameBranch_eq (f : String → String) (b : Branch) :
    renameBranch f b = ⟨b.connective, b.entries.map (renameEntry f)⟩ := by
  cases b
  rw [renameBranch, renameEntries_eq_map]

/-- A clause with other names is normal if its entries with other names are. -/
theorem IsNormal.renameFields_of_forall {f : String → String} (h : IsNormal bs)
    (hentries : ∀ b ∈ bs, ∀ e ∈ b.entries, e.IsNormal → (renameEntry f e).IsNormal) :
    IsNormal (renameFields f bs) := by
  obtain ⟨hnodup, hne, hnormal⟩ := h
  rw [renameFields_eq_map]
  refine .intro ?_ (List.forall_mem_map.2 fun b hb => ?_) (List.forall_mem_map.2 fun b hb => ?_)
  · have hconnective : Branch.connective ∘ renameBranch f = Branch.connective := by
      funext b
      rw [Function.comp_apply, renameBranch_eq]
    rw [List.map_map, hconnective]
    exact hnodup
  · rw [renameBranch_eq]
    exact mt List.map_eq_nil_iff.1 (hne b hb)
  · rw [renameBranch_eq]
    exact List.forall_mem_map.2 fun e he => hentries b hb e he (hnormal b hb e he)

/-- The induction for other names: below an entry only groups have names to change. -/
theorem renameInduction (f : String → String) :
    DocumentInduction (fun _ => True) (fun e => e.IsNormal → (renameEntry f e).IsNormal)
      (fun b => ∀ e ∈ b.entries, e.IsNormal → (renameEntry f e).IsNormal)
      (fun _ => True) (fun _ => True) where
  compare _ _ := trivial
  compareRaw _ _ := trivial
  isNull := trivial
  isNotNull := trivial
  inList _ _ := trivial
  between _ _ _ := trivial
  exp _ _ := trivial
  inQuery _ _ _ := trivial
  field name cs _ h := by
    cases h with
    | field hne hcs => exact .field hne hcs
  raw sql binds h := h
  group bs ih h := by
    cases h with
    | group hne hbs =>
      rw [renameEntry]
      refine .group ?_ (hbs.renameFields_of_forall ih)
      rw [renameFields_eq_map]
      exact mt List.map_eq_nil_iff.1 hne
  exist query negated _ h := h
  branch _ _ ih := ih
  unionRaw _ _ := trivial
  unionQuery _ _ _ := trivial
  document _ _ _ _ := trivial

/-- Other names keep a clause normal. -/
theorem IsNormal.renameFields (h : IsNormal bs) (f : String → String) :
    IsNormal (renameFields f bs) :=
  h.renameFields_of_forall fun b _ => (renameInduction f).ofBranch b

end Filter

/-! ### Documents -/

namespace Document

/-- The parts of a document that hold other documents are normal. -/
structure HoldsNormal (d : Document) : Prop where
  filter : Filter.IsNormal d.filter
  softDelete : ∀ x ∈ d.softDelete, x.condition.IsNormal
  unions : ∀ u ∈ d.unions, u.IsNormal

variable {d e : Document}

theorem HoldsNormal.empty : HoldsNormal {} :=
  ⟨.nil, fun _ hx => absurd hx (Option.not_mem_none _), fun _ hu => absurd hu List.not_mem_nil⟩

/-- Tables, columns and the other flat clauses do not matter. -/
theorem HoldsNormal.congr (hd : d.HoldsNormal) (hfilter : e.filter = d.filter)
    (hsoft : e.softDelete = d.softDelete) (hunions : e.unions = d.unions) : e.HoldsNormal :=
  ⟨hfilter ▸ hd.filter, hsoft ▸ hd.softDelete, hunions ▸ hd.unions⟩

theorem HoldsNormal.addAliases (hd : d.HoldsNormal) (pre : String)
    (pairs : List (String × String)) : (d.addAliases pre pairs).HoldsNormal := by
  unfold Document.addAliases
  induction pairs generalizing d with
  | nil => exact hd
  | cons p pairs ih => exact ih (hd.congr rfl rfl rfl)

theorem HoldsNormal.addFields (hd : d.HoldsNormal) (text : String) :
    (d.addFields text).HoldsNormal := by
  obtain ⟨fields, hfields⟩ := addFields_eq text d
  rw [hfields]
  exact hd.congr rfl rfl rfl

theorem HoldsNormal.addJoin (hd : d.HoldsNormal) (pre table : String) (on : List JoinOn)
    (kind : JoinKind) : (d.addJoin pre table on kind).HoldsNormal := by
  unfold Document.addJoin
  dsimp only
  generalize (if Text.has (Text.trim table) ')' then (Text.trim table, none)
    else TableSpec.entry (Text.trim table)) = entry
  rcases entry with ⟨name, _ | short⟩ <;> exact hd.congr rfl rfl rfl

theorem HoldsNormal.addUnion (hd : d.HoldsNormal) {u : UnionItem} (hu : u.IsNormal) :
    HoldsNormal { d with unions := d.unions ++ [u] } where
  filter := hd.filter
  softDelete := hd.softDelete
  unions := List.forall_mem_append.2 ⟨hd.unions, List.forall_mem_singleton.2 hu⟩

end Document

/-- Is a condition that the declaration gives as it is free of subqueries? -/
def Declaration.IsFlat : Declaration → Prop
  | softDelete _ c => c.IsFlat
  | _ => True

/-- A declaration that is free of subqueries adds nothing but what is normal. -/
theorem Document.HoldsNormal.declare {d : Document} (hd : d.HoldsNormal) (pre own : String)
    {x : Declaration} (hx : x.IsFlat) : (d.declare pre own x).HoldsNormal := by
  cases x with
  | softDelete field c => exact ⟨hd.filter, fun x hs => Option.mem_some.1 hs ▸ .flat hx, hd.unions⟩
  | unionRaw sql all => exact hd.addUnion .raw
  | tables spec => exact (hd.addAliases pre _).congr rfl rfl rfl
  | aliases pairs => exact hd.addAliases pre pairs
  | fields text => exact hd.addFields text
  | join table on kind => exact hd.addJoin pre table on kind
  | _ => exact hd.congr rfl rfl rfl

/-! ### Criteria and the ledger -/

namespace Criterion

/-- Is a condition that the criterion gives as it is free of subqueries? Those of the short forms
are. -/
def IsFlat : Criterion → Prop
  | onField _ c => c.IsFlat
  | _ => True

variable {c : Criterion} {field : String} {cond : Condition}

theorem isFlat_of_bindExtra {name : String} {extra : List Param} {given : Condition}
    (hgiven : given.IsFlat) (h : bindExtra name extra given = .ok (.onField field cond)) :
    cond.IsFlat := by
  unfold bindExtra at h
  split at h
  · next sql _ =>
    cases hcheck : checkBinds sql extra with
    | error f =>
      rw [hcheck] at h
      cases h
    | ok u =>
      rw [hcheck] at h
      cases h
      trivial
  · cases h
    exact hgiven

theorem ne_onField_of_ofRaw {sql : String} {binds : List Param} :
    Demand.ofRaw sql binds ≠ .ok (.onField field cond) := by
  intro h
  unfold Demand.ofRaw at h
  cases hcheck : checkBinds sql binds with
  | error f =>
    rw [hcheck] at h
    cases h
  | ok u =>
    rw [hcheck] at h
    cases h

/-- A criterion makes no subquery. -/
theorem IsFlat.of_read (hc : c.IsFlat) (h : c.read = .ok (.onField field cond)) :
    cond.IsFlat := by
  cases c with
  | stated name op operand extra =>
    simp only [read, readStated] at h
    split at h
    · cases h
    · split at h
      · obtain ⟨binds, -, hraw⟩ := exists_of_bind_eq_ok h
        exact absurd hraw ne_onField_of_ofRaw
      · obtain ⟨given, hgiven, hextra⟩ := exists_of_bind_eq_ok h
        exact isFlat_of_bindExtra (isFlat_condition hgiven) hextra
  | onField name given =>
    cases h
    exact hc
  | raw sql binds => exact absurd h ne_onField_of_ofRaw

end Criterion

namespace Ledger

/-- All conditions in the ledger are normal. -/
def IsNormal (l : Ledger) : Prop := ∀ r ∈ l, ∀ c ∈ r.conditions, c.IsNormal

variable {l : Ledger} {k : Connective} {field : String}

theorem IsNormal.conditions (hl : l.IsNormal) (k : Connective) (field : String) :
    ∀ c ∈ l.conditions k field, c.IsNormal := by
  induction l with
  | nil => exact fun _ hc => absurd hc List.not_mem_nil
  | cons r l ih =>
    obtain ⟨hr, hrest⟩ := List.forall_mem_cons.1 hl
    rw [Ledger.conditions]
    split
    · exact hr
    · exact ih hrest

theorem IsNormal.record (hl : l.IsNormal) (k : Connective) (field : String) {c : Condition}
    (hc : c.IsNormal) : (l.record k field c).IsNormal := by
  induction l with
  | nil =>
    exact List.forall_mem_singleton.2 (List.forall_mem_singleton.2 hc)
  | cons r l ih =>
    obtain ⟨hr, hrest⟩ := List.forall_mem_cons.1 hl
    rw [Ledger.record]
    split
    · exact List.forall_mem_cons.2
        ⟨List.forall_mem_append.2 ⟨hr, List.forall_mem_singleton.2 hc⟩, hrest⟩
    · exact List.forall_mem_cons.2 ⟨hr, ih hrest⟩

/-- What has been recorded is there. -/
theorem conditions_record_ne_nil (k : Connective) (field : String) (c : Condition) (l : Ledger) :
    (l.record k field c).conditions k field ≠ [] := by
  rw [conditions_record, if_pos ⟨rfl, rfl⟩]
  exact List.append_ne_nil_of_right_ne_nil _ (List.cons_ne_nil _ _)

end Ledger

/-! ### Drafts -/

namespace Draft

/-- What a draft holds of other documents is normal. -/
structure HoldsNormal (d : Draft) : Prop where
  document : d.document.HoldsNormal
  ledger : d.ledger.IsNormal

variable {d e inner : Draft} {doc : Document}

theorem HoldsNormal.of_empty (hdocument : d.document = {}) (hledger : d.ledger = []) :
    d.HoldsNormal :=
  ⟨hdocument ▸ .empty, fun _ hr => absurd hr (hledger ▸ List.not_mem_nil)⟩

/-- The name, the settings, the binds and the fault do not matter. -/
theorem HoldsNormal.congr (hd : d.HoldsNormal) (hdocument : e.document = d.document)
    (hledger : e.ledger = d.ledger) : e.HoldsNormal :=
  ⟨hdocument ▸ hd.document, hledger ▸ hd.ledger⟩

theorem HoldsNormal.declare (hd : d.HoldsNormal) {x : Declaration} (hx : x.IsFlat) :
    (d.declare x).HoldsNormal := ⟨hd.document.declare _ _ hx, hd.ledger⟩

theorem HoldsNormal.updateFilter (hd : d.HoldsNormal) {f : List Branch → List Branch}
    (hf : Filter.IsNormal (f d.document.filter)) : (d.updateFilter f).HoldsNormal :=
  ⟨⟨hf, hd.document.softDelete, hd.document.unions⟩, hd.ledger⟩

theorem HoldsNormal.pushEntry (hd : d.HoldsNormal) (k : Connective) {e : Entry}
    (he : e.IsNormal) : (d.pushEntry k e).HoldsNormal :=
  hd.updateFilter (hd.document.filter.push k he)

/-- The entry of the field takes its conditions from the ledger, and there is at least the new
one. -/
theorem HoldsNormal.addCondition (hd : d.HoldsNormal) (k : Connective) (field : String)
    {c : Condition} (hc : c.IsNormal) : (d.addCondition k field c).HoldsNormal := by
  have hledger := hd.ledger.record k field hc
  have hrecorded : ({ d with ledger := d.ledger.record k field c } : Draft).HoldsNormal :=
    ⟨hd.document, hledger⟩
  exact hrecorded.updateFilter (hd.document.filter.putField k field
    (Ledger.conditions_record_ne_nil k field c d.ledger) (hledger.conditions k field))

theorem HoldsNormal.require (hd : d.HoldsNormal) (k : Connective) {c : Criterion}
    (hc : c.IsFlat) : (d.require k c).HoldsNormal := by
  unfold Draft.require
  cases hread : c.read with
  | error f => exact hd.congr rfl rfl
  | ok x =>
    cases x with
    | onField field cond => exact hd.addCondition k field (.flat (hc.of_read hread))
    | raw sql binds => exact hd.pushEntry k .raw

theorem HoldsNormal.requireAll (hd : d.HoldsNormal) (k : Connective) {cs : List Criterion}
    (hcs : ∀ c ∈ cs, c.IsFlat) : (d.requireAll k cs).HoldsNormal := by
  unfold Draft.requireAll
  induction cs generalizing d with
  | nil => exact hd
  | cons c cs ih =>
    obtain ⟨hc, hrest⟩ := List.forall_mem_cons.1 hcs
    exact ih (hd.require k hc) hrest

/-- A group is taken in only if there is something in it. -/
theorem HoldsNormal.adoptGroup (hd : d.HoldsNormal) (hi : inner.HoldsNormal) (k : Connective) :
    (d.adoptGroup k inner).HoldsNormal := by
  have hfault : ((inner.fault.map d.recordFault).getD d).HoldsNormal := by
    cases inner.fault with
    | none => exact hd
    | some f => exact hd.congr rfl rfl
  have hbind : (((inner.fault.map d.recordFault).getD d).bind inner.binds).HoldsNormal :=
    hfault.congr rfl rfl
  unfold Draft.adoptGroup
  dsimp only
  split
  · exact hbind
  · next hempty =>
    refine hbind.pushEntry k (.group ?_ hi.document.filter)
    rintro hnil
    rw [hnil] at hempty
    exact hempty rfl

/-- The finished document of a draft that holds what is normal is normal: the tables are at least
its own, the page has become a limit, and a view changes nothing but names. -/
theorem HoldsNormal.of_finished (hd : d.HoldsNormal) (h : d.finished = .ok doc) :
    doc.IsNormal := by
  have hcloses := closes_of_finished h
  have hsoft : doc.kept.softDelete = d.document.kept.softDelete := by rw [hcloses.kept]
  have hunions : doc.kept.unions = d.document.kept.unions := by rw [hcloses.kept]
  refine .intro ?_ hcloses.page ?_ (hsoft.symm ▸ hd.document.softDelete)
    (hunions.symm ▸ hd.document.unions)
  · rw [hcloses.tables]
    split
    · exact List.cons_ne_nil _ _
    · assumption
  · cases hview : d.document.view with
    | none =>
      rw [(hcloses.unviewed hview).1]
      exact hd.document.filter
    | some v =>
      rw [(hcloses.viewed v hview).1]
      exact hd.document.filter.renameFields _

/-- A subquery is closed before it is taken in, so that it comes as a normal document. -/
theorem HoldsNormal.adoptQuery (hd : d.HoldsNormal) (hi : inner.HoldsNormal)
    {place : Draft → Document → Draft}
    (hplace : ∀ d doc, HoldsNormal d → doc.IsNormal → (place d doc).HoldsNormal) :
    (d.adoptQuery inner place).HoldsNormal := by
  have hbind : (d.bind inner.binds).HoldsNormal := hd.congr rfl rfl
  unfold Draft.adoptQuery
  cases hdoc : inner.finished with
  | ok doc => exact hplace _ doc hbind (hi.of_finished hdoc)
  | error f => exact hbind.congr rfl rfl

theorem HoldsNormal.adoptExists (hd : d.HoldsNormal) (hi : inner.HoldsNormal) (k : Connective)
    (negated : Bool) : (d.adoptExists k negated inner).HoldsNormal :=
  hd.adoptQuery hi fun _ _ hd hdoc => hd.pushEntry k (.exist hdoc)

theorem HoldsNormal.adoptMembership (hd : d.HoldsNormal) (hi : inner.HoldsNormal)
    (k : Connective) (field : String) (negated : Bool) :
    (d.adoptMembership k field negated inner).HoldsNormal :=
  hd.adoptQuery hi fun _ _ hd hdoc => hd.addCondition k _ (.inQuery hdoc)

theorem HoldsNormal.adoptUnion (hd : d.HoldsNormal) (hi : inner.HoldsNormal) (all : Bool) :
    (d.adoptUnion all inner).HoldsNormal :=
  hd.adoptQuery hi fun _ _ hd hdoc => ⟨hd.document.addUnion (.query hdoc), hd.ledger⟩

end Draft

/-! ### Programs -/

mutual

/-- Are all conditions that the call gives as they are free of subqueries? -/
def Call.IsFlat : Call → Prop
  | .declare x => x.IsFlat
  | .require _ c => c.IsFlat
  | .requireAll _ cs => ∀ c ∈ cs, c.IsFlat
  | .group _ body => Call.AreFlat body
  | .exist _ _ body => Call.AreFlat body
  | .membership _ _ _ body => Call.AreFlat body
  | .union _ body => Call.AreFlat body
  | .fork body => Call.AreFlat body
  | .child body => Call.AreFlat body
  | _ => True

/-- Is this so for each of the calls? -/
def Call.AreFlat : List Call → Prop
  | [] => True
  | c :: cs => c.IsFlat ∧ Call.AreFlat cs

end

mutual

/-- A call leaves a draft that holds what is normal as such a draft. -/
theorem Call.holdsNormal_run (s : Session) (hs : s.draft.HoldsNormal) :
    ∀ c : Call, c.IsFlat → (c.run s).1.draft.HoldsNormal
  | .name _, _ => hs.congr rfl rfl
  | .key _, _ => hs.congr rfl rfl
  | .renderer _, _ => hs.congr rfl rfl
  | .declare _, hc => hs.declare hc
  | .bind _, _ => hs.congr rfl rfl
  | .clearBinds, _ => hs.congr rfl rfl
  | .require k _, hc => hs.require k hc
  | .requireAll k _, hc => hs.requireAll k hc
  | .group k body, hc =>
    hs.adoptGroup (Call.holdsNormal_runAll _ (.of_empty rfl rfl) body hc) k
  | .exist k negated body, hc =>
    hs.adoptExists (Call.holdsNormal_runAll _ (.of_empty rfl rfl) body hc) k negated
  | .membership k field negated body, hc =>
    hs.adoptMembership (Call.holdsNormal_runAll _ (.of_empty rfl rfl) body hc) k field negated
  | .union all body, hc =>
    hs.adoptUnion (Call.holdsNormal_runAll _ (.of_empty rfl rfl) body hc) all
  | .fork _, _ => hs
  | .child _, _ => hs
  | .normalize, _ => by
    rw [Call.draft_run_normalize]
    exact .of_empty rfl rfl
  | .finish, _ => by
    rw [Call.draft_run_finish]
    exact hs
  | .select, _ => .of_empty rfl rfl
  | .find, _ => .of_empty rfl rfl
  | .findByKey _, _ => .of_empty rfl rfl
  | .build, _ => hs
  | .render, _ => hs
  | .requireKey data, _ => by
    rw [Call.draft_run_requireKey]
    exact hs
  | .look, _ => hs
  | .getBind _, _ => hs

theorem Call.holdsNormal_runAll (s : Session) (hs : s.draft.HoldsNormal) :
    ∀ cs : List Call, Call.AreFlat cs → (Call.runAll s cs).1.draft.HoldsNormal
  | [], _ => hs
  | c :: cs, hcs => Call.holdsNormal_runAll _ (Call.holdsNormal_run s hs c hcs.1) cs hcs.2

end

/-- The sessions that a program can come to, at any depth of nesting. -/
inductive Reachable : Session → Prop
  | new (settings : Settings) : Reachable ⟨.new settings, none⟩
  | call {s : Session} {c : Call} : Reachable s → c.IsFlat → Reachable (c.run s).1
  /-- The draft of a group or a subquery, on which nothing has been declared. -/
  | nested {s : Session} : Reachable s → Reachable ⟨s.draft.child, none⟩
  /-- A copy of the draft, which goes its own way. -/
  | fork {s : Session} : Reachable s → Reachable ⟨s.draft, none⟩

namespace Reachable

variable {s : Session}

theorem runAll (hs : Reachable s) {cs : List Call} (hcs : Call.AreFlat cs) :
    Reachable (Call.runAll s cs).1 := by
  induction cs generalizing s with
  | nil => exact hs
  | cons c cs ih => exact ih (hs.call hcs.1) hcs.2

theorem holdsNormal (hs : Reachable s) : s.draft.HoldsNormal := by
  induction hs with
  | new settings => exact .of_empty rfl rfl
  | call _ hc ih => exact Call.holdsNormal_run _ ih _ hc
  | nested _ _ => exact .of_empty rfl rfl
  | fork _ ih => exact ih

/-- Normal all the way down: whatever calls led here, the document that closing gives is normal,
and so are all documents in it. The ledger holds no other documents either. -/
theorem isNormal (hs : Reachable s) :
    (∀ doc, s.draft.normalize.1 = .ok doc → doc.IsNormal) ∧ s.draft.ledger.IsNormal :=
  ⟨fun _ hdoc => hs.holdsNormal.of_finished (Draft.finished_of_normalize hdoc),
    hs.holdsNormal.ledger⟩

end Reachable

/-- A page under a view, with a group in a group, a membership beside another condition on its
field, an existence test in the subquery, and a union with a draft that has a page of its own. -/
def Call.normalSample : List Call :=
  [.name "User",
   .declare (.view [("x", "c")]),
   .require .and (.is "x" (.value (.int 3))),
   .membership .and "x" true
     [.declare (.tables (.text "a")),
      .exist .or false [.name "Log", .declare (.page ⟨2, 5⟩)],
      .declare (.softDelete "gone" .isNull)],
   .group .or [.group .xor [.require .and (.isNull "x")], .group .and []],
   .union false [.name "Old", .declare (.page ⟨1, 9⟩)],
   .declare (.page ⟨3, 2⟩)]

/-- The document of the calls above. The column behind the name in the view has come into the
group, and each page is a limit. -/
def Document.normalSample : Document :=
  { tables := ["user"]
    view := some (.ofList [("x", "c")])
    filter :=
      [⟨.and, [.field "c" [.compare .eq (.int 3),
        .inQuery
          { tables := ["a"]
            filter := [⟨.or, [.exist { tables := ["log"], limit := some ⟨some 5, 5⟩ } false]⟩]
            softDelete := some ⟨"gone", .isNull⟩ } true]]⟩,
       ⟨.or, [.group [⟨.xor, [.group [⟨.and, [.field "c" [.isNull]]⟩]]⟩]]⟩]
    limit := some ⟨some 4, 2⟩
    unions := [.query { tables := ["old"], limit := some ⟨some 0, 9⟩ } false] }

theorem Reachable.isNormal_normalSample :
    Reachable (Call.runAll ⟨.new {}, none⟩ Call.normalSample).1 ∧
      (Call.runAll ⟨.new {}, none⟩ Call.normalSample).1.draft.normalize.1 =
        .ok Document.normalSample ∧
      Document.normalSample.IsNormal := by
  have hflat : Call.AreFlat Call.normalSample := by
    simp [Call.normalSample, Call.AreFlat, Call.IsFlat, Declaration.IsFlat, Criterion.IsFlat,
      Condition.IsFlat, Criterion.is, Criterion.isNull]
  have hreachable := (Reachable.new {}).runAll hflat
  have hdoc : (Call.runAll ⟨.new {}, none⟩ Call.normalSample).1.draft.normalize.1 =
      .ok Document.normalSample := by
    -- the calls are run first: `rfl` would go through them again for each member of the document
    simp only [Call.normalSample, Call.runAll, Call.run]
    rfl
  exact ⟨hreachable, hdoc, (Reachable.isNormal hreachable).1 _ hdoc⟩

end SqlSelect
