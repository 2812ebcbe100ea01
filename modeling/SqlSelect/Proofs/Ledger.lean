import SqlSelect.Call
import SqlSelect.Proofs.Filter.Accepted

/-!
# The ledger and the WHERE clause

A draft keeps the conditions on a field twice, in its WHERE clause and in its ledger, and each call
changes both in place.

* `Call.accepted s h c`: the declarations that are accepted when the call `c` has been made, if
  those in `h` were accepted since the draft was last closed;
* `Draft.Tracks d h`: the clause and the ledger of the draft are those of the declarations `h`. Each
  call keeps this up (`Call.tracks_run`);
* `Reached s h`: a program can come to the session `s`, at any depth of nesting, with the accepted
  declarations `h`;
* `Reached.filter_eq_ofAccepted`: the clause of a draft is that of its accepted declarations.
-/

namespace SqlSelect

/-! ### Accepted declarations -/

namespace Accepted

/-- The declaration that a demand makes. -/
def ofDemand (k : Connective) : Demand → Accepted
  | .onField field c => .onField k field c
  | .raw sql binds => .whole k (.raw sql binds) rfl

/-- The declaration that a criterion makes; one at fault makes none. -/
def ofCriterion (k : Connective) (c : Criterion) : List Accepted :=
  match c.read with
  | .ok x => [ofDemand k x]
  | .error _ => []

/-- The group of the declarations on a nested draft; without any there is no group. -/
def ofGroup (k : Connective) (inner : List Accepted) : List Accepted :=
  if inner.isEmpty then [] else [.whole k (.group (Filter.ofAccepted inner)) rfl]

/-- The declaration that a subquery makes; one at fault makes none. -/
def ofQuery (inner : Draft) (declaration : Document → Accepted) : List Accepted :=
  match inner.finished with
  | .ok doc => [declaration doc]
  | .error _ => []

end Accepted

/-- The draft that calls on a new nested draft leave. -/
def Session.nested (s : Session) (body : List Call) : Draft :=
  (Call.runAll ⟨s.draft.child, none⟩ body).1.draft

mutual

/-- The declarations accepted since the draft was last closed, after a call. Before it they were
`h`. -/
def Call.accepted (s : Session) (h : List Accepted) : Call → List Accepted
  | .require k c => h ++ Accepted.ofCriterion k c
  | .requireAll k cs => h ++ cs.flatMap (Accepted.ofCriterion k)
  | .group k body => h ++ Accepted.ofGroup k (Call.acceptedAll ⟨s.draft.child, none⟩ [] body)
  | .exist k negated body =>
    h ++ Accepted.ofQuery (s.nested body) fun doc => .whole k (.exist doc negated) rfl
  | .membership k field negated body =>
    h ++ Accepted.ofQuery (s.nested body) fun doc =>
      .onField k (Text.trim field) (.inQuery doc negated)
  | .normalize => []
  | .select => []
  | .find => []
  | .findByKey _ => []
  | _ => h

/-- The declarations accepted since the draft was last closed, after some calls. -/
def Call.acceptedAll (s : Session) (h : List Accepted) : List Call → List Accepted
  | [] => h
  | c :: cs => Call.acceptedAll (c.run s).1 (c.accepted s h) cs

end

/-! ### What declarations do to the clause and the ledger -/

namespace Document

theorem filter_addAliases (pre : String) (pairs : List (String × String)) (d : Document) :
    (d.addAliases pre pairs).filter = d.filter := by
  unfold addAliases
  induction pairs generalizing d with
  | nil => rfl
  | cons p pairs ih => exact ih (d.addAlias pre p.1 p.2)

/-- Fields in words change nothing but the fields. -/
theorem addFields_eq (text : String) (d : Document) :
    ∃ fields, d.addFields text = { d with fields } := by
  have hfold : ∀ (items : List String) (d : Document), ∃ fields,
      items.foldl (fun d item => d.addField (FieldItem.ofText item)) d = { d with fields } := by
    intro items
    induction items with
    | nil => exact fun d => ⟨d.fields, by cases d; rfl⟩
    | cons item items ih => exact fun d => ih (d.addField (FieldItem.ofText item))
  unfold addFields
  dsimp only
  split
  · exact ⟨_, rfl⟩
  · split
    · exact ⟨_, rfl⟩
    · exact hfold _ d

theorem filter_addFields (text : String) (d : Document) : (d.addFields text).filter = d.filter := by
  obtain ⟨fields, hfields⟩ := addFields_eq text d
  rw [hfields]

theorem filter_addJoin (pre table : String) (on : List JoinOn) (kind : JoinKind) (d : Document) :
    (d.addJoin pre table on kind).filter = d.filter := by
  unfold addJoin
  dsimp only
  generalize (if Text.has (Text.trim table) ')' then (Text.trim table, none)
    else TableSpec.entry (Text.trim table)) = entry
  rcases entry with ⟨name, _ | tableAlias⟩ <;> rfl

/-- Declarations about flat clauses leave the conditions alone. -/
theorem filter_declare (pre own : String) (d : Document) (x : Declaration) :
    (d.declare pre own x).filter = d.filter := by
  cases x with
  | tables spec => exact filter_addAliases pre _ d
  | aliases pairs => exact filter_addAliases pre pairs d
  | fields text => exact filter_addFields text d
  | join table on kind => exact filter_addJoin pre table on kind d
  | _ => rfl

end Document

namespace Draft

/-- The clause and the ledger of a draft are those of the declarations. -/
structure Tracks (d : Draft) (h : List Accepted) : Prop where
  filter : d.document.filter = Filter.ofAccepted h
  ledger : ∀ k field, d.ledger.conditions k field = Accepted.conditions k field h

variable {d e : Draft} {h : List Accepted}

/-- A change to anything else does not matter. -/
theorem Tracks.congr (hd : d.Tracks h) (hf : e.document.filter = d.document.filter)
    (hl : e.ledger = d.ledger) : e.Tracks h :=
  ⟨hf.trans hd.filter, fun k field => hl ▸ hd.ledger k field⟩

theorem tracks_of_empty (hf : d.document.filter = []) (hl : d.ledger = []) : d.Tracks [] :=
  ⟨hf, fun k field => by rw [hl]; rfl⟩

theorem tracks_reset (d : Draft) : d.reset.Tracks [] := tracks_of_empty rfl rfl

theorem Tracks.pushEntry (hd : d.Tracks h) (k : Connective) {e : Entry} (he : e.isWhole = true) :
    (d.pushEntry k e).Tracks (h ++ [.whole k e he]) := by
  constructor
  · rw [Filter.ofAccepted_append_whole, ← hd.filter]
    rfl
  · intro j field
    rw [Accepted.conditions_append, Accepted.conditions_whole, List.append_nil]
    exact hd.ledger j field

theorem Tracks.addCondition (hd : d.Tracks h) (k : Connective) (field : String) (c : Condition) :
    (d.addCondition k field c).Tracks (h ++ [.onField k field c]) := by
  constructor
  · -- the clause takes the conditions of the field from the ledger
    have hcs : (d.ledger.record k field c).conditions k field =
        Accepted.conditions k field h ++ [c] := by
      rw [Ledger.conditions_record, if_pos ⟨rfl, rfl⟩, hd.ledger]
    rw [Filter.ofAccepted_append_onField, ← hd.filter, ← hcs]
    rfl
  · intro j other
    have hrow : (d.addCondition k field c).ledger = d.ledger.record k field c := rfl
    rw [hrow, Ledger.conditions_record, Accepted.conditions_append, Accepted.conditions_onField,
      hd.ledger, hd.ledger]
    by_cases hj : j = k ∧ other = field
    · obtain ⟨rfl, rfl⟩ := hj
      simp
    · have hk : ¬(k = j ∧ field = other) := fun e => hj ⟨e.1.symm, e.2.symm⟩
      simp [hj, hk]

/-- A criterion at fault changes neither. -/
theorem Tracks.require (hd : d.Tracks h) (k : Connective) (c : Criterion) :
    (d.require k c).Tracks (h ++ Accepted.ofCriterion k c) := by
  unfold Draft.require Accepted.ofCriterion
  cases c.read with
  | ok x =>
    cases x with
    | onField field c => exact hd.addCondition k field c
    | raw sql binds => exact hd.pushEntry k rfl
  | error f =>
    rw [List.append_nil]
    exact hd.congr rfl rfl

theorem Tracks.requireAll (hd : d.Tracks h) (k : Connective) (cs : List Criterion) :
    (d.requireAll k cs).Tracks (h ++ cs.flatMap (Accepted.ofCriterion k)) := by
  unfold Draft.requireAll
  induction cs generalizing d h with
  | nil =>
    rw [List.flatMap_nil, List.append_nil]
    exact hd
  | cons c cs ih =>
    rw [List.foldl_cons, List.flatMap_cons, ← List.append_assoc]
    exact ih (hd.require k c)

theorem Tracks.adoptGroup (hd : d.Tracks h) (k : Connective) {inner : Draft} {g : List Accepted}
    (hi : inner.Tracks g) : (d.adoptGroup k inner).Tracks (h ++ Accepted.ofGroup k g) := by
  -- a fault in the group is recorded, and what was declared in it is still taken
  have hfault : ((inner.fault.map d.recordFault).getD d).Tracks h := by
    cases inner.fault with
    | none => exact hd
    | some f => exact hd.congr rfl rfl
  have hbind :=
    hfault.congr (e := ((inner.fault.map d.recordFault).getD d).bind inner.binds) rfl rfl
  unfold Draft.adoptGroup Accepted.ofGroup
  rw [hi.filter, Filter.isEmpty_ofAccepted]
  dsimp only
  split
  · rw [List.append_nil]
    exact hbind
  · exact hbind.pushEntry k rfl

/-- What a subquery gives to a draft, if putting its document in place is one declaration. -/
theorem Tracks.adoptQuery (hd : d.Tracks h) {inner : Draft} {place : Draft → Document → Draft}
    {declaration : Document → Accepted}
    (hplace : ∀ e doc, e.Tracks h → (place e doc).Tracks (h ++ [declaration doc])) :
    (d.adoptQuery inner place).Tracks (h ++ Accepted.ofQuery inner declaration) := by
  have hbind := hd.congr (e := d.bind inner.binds) rfl rfl
  unfold Draft.adoptQuery Accepted.ofQuery
  cases inner.finished with
  | ok doc => exact hplace _ doc hbind
  | error f =>
    rw [List.append_nil]
    exact hbind.congr rfl rfl

theorem Tracks.adoptExists (hd : d.Tracks h) (k : Connective) (negated : Bool) (inner : Draft) :
    (d.adoptExists k negated inner).Tracks
      (h ++ Accepted.ofQuery inner fun doc => .whole k (.exist doc negated) rfl) :=
  hd.adoptQuery fun _ _ he => he.pushEntry k rfl

theorem Tracks.adoptMembership (hd : d.Tracks h) (k : Connective) (field : String) (negated : Bool)
    (inner : Draft) :
    (d.adoptMembership k field negated inner).Tracks
      (h ++ Accepted.ofQuery inner fun doc =>
        .onField k (Text.trim field) (.inQuery doc negated)) :=
  hd.adoptQuery fun _ doc he => he.addCondition k (Text.trim field) (.inQuery doc negated)

theorem Tracks.adoptUnion (hd : d.Tracks h) (all : Bool) (inner : Draft) :
    (d.adoptUnion all inner).Tracks h := by
  unfold Draft.adoptUnion Draft.adoptQuery
  dsimp only
  split
  · exact hd.congr rfl rfl
  · exact hd.congr rfl rfl

end Draft

/-! ### Runs -/

/-- Saving a document leaves the draft alone. -/
theorem Session.draft_save (s : Session) (result : Except Error Document) :
    (s.save result).draft = s.draft := by
  cases result <;> rfl

namespace Call

theorem draft_run_normalize (s : Session) : (normalize.run s).1.draft = s.draft.reset :=
  Session.draft_save _ _

theorem draft_run_finish (s : Session) : (finish.run s).1.draft = s.draft :=
  Session.draft_save _ _

/-- A key condition is added to the saved document, and not to the draft. -/
theorem draft_run_requireKey (s : Session) (data : KeyData) :
    ((requireKey data).run s).1.draft = s.draft := by
  rw [run]
  cases s.keyed? data with
  | none => rfl
  | some result => exact Session.draft_save _ _

end Call

mutual

/-- A call keeps the clause and the ledger in step with the accepted declarations. -/
theorem Call.tracks_run (s : Session) (h : List Accepted) (hs : s.draft.Tracks h) :
    ∀ c : Call, (c.run s).1.draft.Tracks (c.accepted s h)
  | .name _ => hs.congr rfl rfl
  | .key _ => hs.congr rfl rfl
  | .renderer _ => hs.congr rfl rfl
  | .declare x => hs.congr (Document.filter_declare _ _ _ x) rfl
  | .bind _ => hs.congr rfl rfl
  | .clearBinds => hs.congr rfl rfl
  | .require k c => hs.require k c
  | .requireAll k cs => hs.requireAll k cs
  | .group k body =>
    hs.adoptGroup k (Call.tracks_runAll _ _ (Draft.tracks_of_empty rfl rfl) body)
  | .exist k negated body => hs.adoptExists k negated (s.nested body)
  | .membership k field negated body => hs.adoptMembership k field negated (s.nested body)
  | .union all body => hs.adoptUnion all (s.nested body)
  | .fork _ => hs
  | .child _ => hs
  | .normalize => by
    rw [Call.draft_run_normalize]
    exact Draft.tracks_reset _
  | .finish => by
    rw [Call.draft_run_finish]
    exact hs
  | .select => Draft.tracks_reset _
  | .find => Draft.tracks_reset _
  | .findByKey _ => Draft.tracks_reset _
  | .build => hs
  | .render => hs
  | .requireKey data => by
    rw [Call.draft_run_requireKey]
    exact hs
  | .look => hs
  | .getBind _ => hs

theorem Call.tracks_runAll (s : Session) (h : List Accepted) (hs : s.draft.Tracks h) :
    ∀ cs : List Call, (Call.runAll s cs).1.draft.Tracks (Call.acceptedAll s h cs)
  | [] => hs
  | c :: cs => Call.tracks_runAll _ _ (Call.tracks_run s h hs c) cs

end

/-- The sessions that a program can come to, at any depth of nesting, each with the declarations
that were accepted since its draft was last closed. -/
inductive Reached : Session → List Accepted → Prop
  | new (settings : Settings) : Reached ⟨.new settings, none⟩ []
  | call {s : Session} {h : List Accepted} (c : Call) :
    Reached s h → Reached (c.run s).1 (c.accepted s h)
  /-- The draft of a group or a subquery, on which nothing has been declared. -/
  | nested {s : Session} {h : List Accepted} : Reached s h → Reached ⟨s.draft.child, none⟩ []
  /-- A copy of the draft, which goes its own way. -/
  | fork {s : Session} {h : List Accepted} : Reached s h → Reached ⟨s.draft, none⟩ h

namespace Reached

variable {s : Session} {h : List Accepted}

theorem runAll (hs : Reached s h) (cs : List Call) :
    Reached (Call.runAll s cs).1 (Call.acceptedAll s h cs) := by
  induction cs generalizing s h with
  | nil => exact hs
  | cons c cs ih => exact ih (hs.call c)

theorem tracks (hs : Reached s h) : s.draft.Tracks h := by
  induction hs with
  | new settings => exact Draft.tracks_of_empty rfl rfl
  | call c _ ih => exact Call.tracks_run _ _ ih c
  | nested _ _ => exact Draft.tracks_of_empty rfl rfl
  | fork _ ih => exact ih

/-- The clause of a draft is that of the declarations accepted since the draft was last closed. No
connective has two branches and no field has two entries in a branch, and the entry of a field holds
all conditions declared for it under the connective. -/
theorem filter_eq_ofAccepted (hs : Reached s h) :
    s.draft.document.filter = Filter.ofAccepted h ∧
      (s.draft.document.filter.map Branch.connective).Nodup ∧
      (∀ b ∈ s.draft.document.filter, (b.entries.filterMap Entry.fieldName?).Nodup) ∧
      ∀ k field cs, .field field cs ∈ Filter.entries k s.draft.document.filter ↔
        cs = Accepted.conditions k field h ∧ cs ≠ [] := by
  rw [hs.tracks.filter]
  refine ⟨rfl, ?_, ?_, ?_⟩
  · have hmap : (Filter.ofAccepted h).map Branch.connective = Accepted.connectives h := by
      simp [Filter.ofAccepted, Function.comp_def]
    rw [hmap]
    exact Filter.nodup_connectives h
  · intro b hb
    obtain ⟨k, -, rfl⟩ := List.mem_map.1 hb
    exact Accepted.nodup_fieldNames_entries k h
  · intro k field cs
    rw [Filter.entries_ofAccepted]
    exact Accepted.field_mem_entries

end Reached

/-- Conditions on one field in turn with others, at fault and nested. -/
def Call.ledgerSample : List Call :=
  [.require .or (.is "a" (.value (.int 1))),
   .require .and (.is " b " (.value (.int 2))),
   .require .or (.raw "x = ?" []),
   .group .xor [.require .and (.raw "?" [])],
   .group .or [.require .and (.is "a" (.value (.int 3)))],
   .require .or (.compares "a" "<>" (.value (.int 4))),
   .require .and (.isNull "b")]

/-- The clause after the calls above: the fragment without its bind and the empty group are left
out, and the conditions on `a` stand together in front of the group. -/
theorem Reached.filter_ledgerSample :
    (Call.runAll ⟨.new {}, none⟩ Call.ledgerSample).1.draft.document.filter =
      [⟨.or, [.field "a" [.compare .eq (.int 1), .compare .neq (.int 4)],
        .group [⟨.and, [.field "a" [.compare .eq (.int 3)]]⟩]]⟩,
       ⟨.and, [.field "b" [.compare .eq (.int 2), .isNull]]⟩] :=
  (Reached.filter_eq_ofAccepted ((Reached.new {}).runAll Call.ledgerSample)).1.trans (by rfl)

end SqlSelect
