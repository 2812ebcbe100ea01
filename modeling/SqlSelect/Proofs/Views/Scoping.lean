import SqlSelect.Proofs.Normal
import SqlSelect.Proofs.Views.Programs
import SqlSelect.Proofs.Views.Renaming

/-!
# Each name is seen through one view

* `Document.Embeds d q`: the document `q` stands in a condition, in an existence test or in a union
  of `d`, in groups of any depth;
* `Call.OpensAll s cs t body`: when the calls are made in the session `s`, a subquery is opened in
  the session `t`, and `body` is called on its draft;
* `Call.exists_opensAll_of_embeds`: what a draft embeds, it has from its subqueries;
* `Session.views_are_scoped`: closing puts in the columns of the view of the draft, once, and leaves
  subqueries as they were closed.
-/

namespace SqlSelect

/-! ### Embedded documents -/

/-- A subquery in the entry. -/
inductive Entry.Embeds : Entry → Document → Prop
  | inQuery {name : String} {cs : List Condition} {q : Document} {negated : Bool} :
    .inQuery q negated ∈ cs → Embeds (.field name cs) q
  | exist {q : Document} {negated : Bool} : Embeds (.exist q negated) q
  | group {bs : List Branch} {b : Branch} {e : Entry} {q : Document} :
    b ∈ bs → e ∈ b.entries → Embeds e q → Embeds (.group bs) q

/-- A subquery in the document, but not inside of another one. -/
inductive Document.Embeds (d q : Document) : Prop
  | entry {b : Branch} {e : Entry} : b ∈ d.filter → e ∈ b.entries → e.Embeds q → Embeds d q
  | union {all : Bool} : .query q all ∈ d.unions → Embeds d q

/-- An entry of a clause with new names is an entry of the clause with new names. -/
theorem Filter.exists_of_mem_renameFields {f : String → String} {bs : List Branch} {b : Branch}
    {e : Entry} (hb : b ∈ renameFields f bs) (he : e ∈ b.entries) :
    ∃ b ∈ bs, ∃ old ∈ b.entries, e = renameEntry f old := by
  rw [renameFields_eq_map] at hb
  obtain ⟨⟨k, es⟩, hbranch, rfl⟩ := List.mem_map.1 hb
  rw [renameBranch, renameEntries_eq_map] at he
  obtain ⟨old, hold, rfl⟩ := List.mem_map.1 he
  exact ⟨⟨k, es⟩, hbranch, old, hold, rfl⟩

/-- New names do not get into subqueries. -/
theorem Entry.Embeds.of_renameEntry {f : String → String} {e e' : Entry} {q : Document}
    (h : e'.Embeds q) (he : e' = Filter.renameEntry f e) : e.Embeds q := by
  induction h generalizing e with
  | inQuery hmem =>
    cases e with
    | field name cs =>
      cases he
      exact .inQuery hmem
    | _ => cases he
  | exist =>
    cases e with
    | exist q negated =>
      cases he
      exact .exist
    | _ => cases he
  | group hb hx _ ih =>
    cases e with
    | group bs =>
      cases he
      obtain ⟨b, hb, x, hx, hrename⟩ := Filter.exists_of_mem_renameFields hb hx
      exact .group hb hx (ih hrename)
    | _ => cases he

/-- A document embeds the same with a view and without. -/
theorem Document.Viewed.embeds {pairs : List (String × String)} {plain doc q : Document}
    (h : Document.Viewed pairs plain doc) (hq : doc.Embeds q) : plain.Embeds q := by
  rw [Document.viewed_iff.1 h] at hq
  cases hq with
  | entry hb he hq =>
    obtain ⟨b, hb, e, he, hrename⟩ := Filter.exists_of_mem_renameFields hb he
    exact .entry hb he (hq.of_renameEntry hrename)
  | union hq => exact .union hq

/-! ### Opened subqueries -/

mutual

/-- The call, made in a session, opens a subquery: the draft of the subquery is a new one in the
session that comes next, and the calls on it are the last. -/
inductive Call.Opens : Session → Call → Session → List Call → Prop
  | exist {s : Session} {k : Connective} {negated : Bool} {body : List Call} :
    Call.Opens s (.exist k negated body) s body
  | membership {s : Session} {k : Connective} {field : String} {negated : Bool}
    {body : List Call} : Call.Opens s (.membership k field negated body) s body
  | union {s : Session} {all : Bool} {body : List Call} : Call.Opens s (.union all body) s body
  /-- In a group, the session is that of the draft of the group. -/
  | group {s t : Session} {k : Connective} {inner body : List Call} :
    Call.OpensAll ⟨s.draft.child, none⟩ inner t body → Call.Opens s (.group k inner) t body

/-- One of the calls opens the subquery. -/
inductive Call.OpensAll : Session → List Call → Session → List Call → Prop
  | head {s t : Session} {c : Call} {cs body : List Call} : Call.Opens s c t body →
    Call.OpensAll s (c :: cs) t body
  | tail {s t : Session} {c : Call} {cs body : List Call} :
    Call.OpensAll (c.run s).1 cs t body → Call.OpensAll s (c :: cs) t body

end

mutual

/-- Are all conditions that are required as they are free of subqueries, in groups too? Those of the
short forms of criteria are. -/
def Call.RequiresFlat : Call → Prop
  | .require _ c => c.IsFlat
  | .requireAll _ cs => ∀ c ∈ cs, c.IsFlat
  | .group _ body => Call.RequireFlat body
  | _ => True

/-- Is this so for each of the calls? -/
def Call.RequireFlat : List Call → Prop
  | [] => True
  | c :: cs => c.RequiresFlat ∧ Call.RequireFlat cs

end

/-! ### What the clause embeds -/

/-- A subquery in the declaration. -/
inductive Accepted.Embeds : Accepted → Document → Prop
  | onField {k : Connective} {field : String} {q : Document} {negated : Bool} :
    Embeds (.onField k field (.inQuery q negated)) q
  | whole {k : Connective} {e : Entry} {he : e.isWhole = true} {q : Document} : e.Embeds q →
    Embeds (.whole k e he) q

namespace Accepted

variable {k : Connective} {h : List Accepted} {q : Document}

/-- An entry that stands for itself was declared. -/
theorem mem_of_mem_entriesFrom {C : String → List Condition} {seen : List String} {e : Entry}
    (he : e.isWhole = true) (hmem : e ∈ entriesFrom k C seen h) : .whole k e he ∈ h := by
  induction h generalizing seen with
  | nil => cases hmem
  | cons a h ih =>
    cases a with
    | onField j f c =>
      rw [entriesFrom] at hmem
      split at hmem
      · rcases List.mem_cons.1 hmem with rfl | hmem
        · cases he
        · exact List.mem_cons_of_mem _ (ih hmem)
      · exact List.mem_cons_of_mem _ (ih hmem)
    | whole j d hd =>
      rw [entriesFrom] at hmem
      split at hmem
      · next hj =>
        subst hj
        rcases List.mem_cons.1 hmem with rfl | hmem
        · exact List.mem_cons_self
        · exact List.mem_cons_of_mem _ (ih hmem)
      · exact List.mem_cons_of_mem _ (ih hmem)

/-- What an entry embeds, a declaration does. -/
theorem exists_embeds_of_entry {e : Entry} (he : e ∈ entries k h) (hq : e.Embeds q) :
    ∃ a ∈ h, a.Embeds q := by
  cases e with
  | field name cs =>
    obtain ⟨rfl, -⟩ := field_mem_entries.1 he
    cases hq with
    | inQuery hmem =>
      obtain ⟨a, ha, hcondition⟩ := List.mem_filterMap.1 hmem
      cases a with
      | onField j f c =>
        rw [condition?] at hcondition
        split at hcondition
        · cases hcondition
          exact ⟨_, ha, .onField⟩
        · cases hcondition
      | whole j e he => cases hcondition
  | raw sql binds => cases hq
  | group bs => exact ⟨_, mem_of_mem_entriesFrom rfl he, .whole hq⟩
  | exist query negated => exact ⟨_, mem_of_mem_entriesFrom rfl he, .whole hq⟩

theorem exists_embeds_of_branch {b : Branch} {e : Entry} (hb : b ∈ Filter.ofAccepted h)
    (he : e ∈ b.entries) (hq : e.Embeds q) : ∃ a ∈ h, a.Embeds q := by
  obtain ⟨k, -, rfl⟩ := List.mem_map.1 hb
  exact exists_embeds_of_entry he hq

/-- A criterion without a subquery makes no declaration with one. -/
theorem not_embeds_of_isFlat {c : Criterion} (hc : c.IsFlat) {a : Accepted}
    (ha : a ∈ ofCriterion k c) : ¬a.Embeds q := by
  unfold ofCriterion at ha
  split at ha
  · next x hread =>
    rw [List.mem_singleton.1 ha]
    cases x with
    | onField field cond =>
      have hflat := hc.of_read hread
      rintro ⟨⟩
      exact hflat
    | raw sql binds =>
      rintro (_ | ⟨hq⟩)
      cases hq
  · cases ha

/-- A subquery makes a declaration of its document, and none if it is at fault. -/
theorem exists_of_mem_ofQuery {inner : Draft} {declaration : Document → Accepted} {a : Accepted}
    (ha : a ∈ ofQuery inner declaration) :
    ∃ doc, inner.finished = .ok doc ∧ a = declaration doc := by
  unfold ofQuery at ha
  split at ha
  · next doc hdoc => exact ⟨doc, hdoc, List.mem_singleton.1 ha⟩
  · cases ha

theorem exists_embeds_of_ofGroup {inner : List Accepted} {a : Accepted} (ha : a ∈ ofGroup k inner)
    (hq : a.Embeds q) : ∃ b ∈ inner, b.Embeds q := by
  unfold ofGroup at ha
  split at ha
  · cases ha
  · rw [List.mem_singleton.1 ha] at hq
    cases hq with
    | whole hq =>
      cases hq with
      | group hb he hq => exact exists_embeds_of_branch hb he hq

end Accepted

/-! ### What the unions embed -/

namespace Draft

theorem unions_require (d : Draft) (k : Connective) (c : Criterion) :
    (d.require k c).document.unions = d.document.unions := by
  unfold require
  cases c.read with
  | ok x => cases x <;> rfl
  | error f => rfl

theorem unions_requireAll (d : Draft) (k : Connective) (cs : List Criterion) :
    (d.requireAll k cs).document.unions = d.document.unions := by
  unfold requireAll
  induction cs generalizing d with
  | nil => rfl
  | cons c cs ih => exact (ih (d.require k c)).trans (d.unions_require k c)

theorem unions_adoptGroup (d : Draft) (k : Connective) (inner : Draft) :
    (d.adoptGroup k inner).document.unions = d.document.unions := by
  have hfault : ((inner.fault.map d.recordFault).getD d).document.unions = d.document.unions := by
    cases inner.fault <;> rfl
  unfold adoptGroup
  dsimp only
  split
  · exact hfault
  · exact hfault

end Draft

theorem Document.unions_addAliases (pre : String) (pairs : List (String × String)) (d : Document) :
    (d.addAliases pre pairs).unions = d.unions := by
  rw [addAliases_eq]

/-- A declaration about a flat clause makes no subquery. -/
theorem Document.query_mem_unions_declare {pre own : String} {d q : Document} {x : Declaration}
    {all : Bool} (h : .query q all ∈ (d.declare pre own x).unions) : .query q all ∈ d.unions := by
  cases x with
  | tables spec => rwa [← unions_addAliases pre _ d]
  | aliases pairs => rwa [← unions_addAliases pre pairs d]
  | fields text =>
    obtain ⟨fields, hfields⟩ := addFields_eq text d
    have hunions : (d.addFields text).unions = d.unions := by rw [hfields]
    rwa [← hunions]
  | join table on kind =>
    have hunions : (d.addJoin pre table on kind).unions = d.unions := by
      unfold addJoin
      dsimp only
      generalize (if Text.has (Text.trim table) ')' then (Text.trim table, none)
        else TableSpec.entry (Text.trim table)) = entry
      rcases entry with ⟨name, _ | tableAlias⟩ <;> rfl
    rwa [← hunions]
  | unionRaw sql kept =>
    refine (List.mem_append.1 h).resolve_right fun h => ?_
    cases List.mem_singleton.1 h
  | _ => exact h

/-- What a subquery gives to a draft, if putting its document in place adds it to the unions or not
at all. -/
theorem Draft.query_mem_unions_adoptQuery {d inner : Draft} {place : Draft → Document → Draft}
    {q : Document} {all : Bool}
    (hplace : ∀ e doc, .query q all ∈ (place e doc).document.unions →
      .query q all ∈ e.document.unions ∨ q = doc)
    (h : .query q all ∈ (d.adoptQuery inner place).document.unions) :
    .query q all ∈ d.document.unions ∨ inner.finished = .ok q := by
  unfold adoptQuery at h
  cases hdoc : inner.finished with
  | ok doc =>
    rw [hdoc] at h
    refine (hplace _ doc h).imp_right ?_
    rintro rfl
    rfl
  | error f =>
    rw [hdoc] at h
    exact .inl h

/-! ### Runs -/

mutual

/-- A subquery in an accepted declaration is an old one, or one that the call opened. -/
theorem Call.exists_opens_of_accepted {s : Session} {h : List Accepted} {q : Document}
    {a : Accepted} (c : Call) (hc : c.RequiresFlat) (ha : a ∈ c.accepted s h) (hq : a.Embeds q) :
    a ∈ h ∨ ∃ t body, c.Opens s t body ∧ (t.nested body).finished = .ok q := by
  cases c with
  | require k c =>
    exact .inl ((List.mem_append.1 ha).resolve_right fun ha =>
      Accepted.not_embeds_of_isFlat hc ha hq)
  | requireAll k cs =>
    refine .inl ((List.mem_append.1 ha).resolve_right fun ha => ?_)
    obtain ⟨c, hmem, ha⟩ := List.mem_flatMap.1 ha
    exact Accepted.not_embeds_of_isFlat (hc c hmem) ha hq
  | group k body =>
    refine (List.mem_append.1 ha).imp_right fun ha => ?_
    obtain ⟨b, hb, hq⟩ := Accepted.exists_embeds_of_ofGroup ha hq
    rcases Call.exists_opensAll_of_accepted body hc hb hq with hb | ⟨t, inner, hopen, hfinished⟩
    · cases hb
    · exact ⟨t, inner, .group hopen, hfinished⟩
  | exist k negated body =>
    refine (List.mem_append.1 ha).imp_right fun ha => ?_
    obtain ⟨doc, hdoc, rfl⟩ := Accepted.exists_of_mem_ofQuery ha
    cases hq with
    | whole hq =>
      cases hq
      exact ⟨s, body, .exist, hdoc⟩
  | membership k field negated body =>
    refine (List.mem_append.1 ha).imp_right fun ha => ?_
    obtain ⟨doc, hdoc, rfl⟩ := Accepted.exists_of_mem_ofQuery ha
    cases hq
    exact ⟨s, body, .membership, hdoc⟩
  | normalize => cases ha
  | select => cases ha
  | find => cases ha
  | findByKey data => cases ha
  | _ => exact .inl ha

theorem Call.exists_opensAll_of_accepted {s : Session} {h : List Accepted} {q : Document}
    {a : Accepted} (cs : List Call) (hcs : Call.RequireFlat cs) (ha : a ∈ Call.acceptedAll s h cs)
    (hq : a.Embeds q) :
    a ∈ h ∨ ∃ t body, Call.OpensAll s cs t body ∧ (t.nested body).finished = .ok q := by
  cases cs with
  | nil => exact .inl ha
  | cons c cs =>
    rcases Call.exists_opensAll_of_accepted cs hcs.2 ha hq with ha | ⟨t, body, hopen, hfinished⟩
    · rcases Call.exists_opens_of_accepted c hcs.1 ha hq with ha | ⟨t, body, hopen, hfinished⟩
      · exact .inl ha
      · exact .inr ⟨t, body, .head hopen, hfinished⟩
    · exact .inr ⟨t, body, .tail hopen, hfinished⟩

end

namespace Call

/-- A subquery in the unions is an old one, or one that the call opened. -/
theorem exists_opens_of_unions {s : Session} {q : Document} {all : Bool} (c : Call)
    (hq : .query q all ∈ (c.run s).1.draft.document.unions) :
    .query q all ∈ s.draft.document.unions ∨
      ∃ t body, c.Opens s t body ∧ (t.nested body).finished = .ok q := by
  cases c with
  | declare x => exact .inl (Document.query_mem_unions_declare hq)
  | require k c =>
    left
    rwa [← s.draft.unions_require k c]
  | requireAll k cs =>
    left
    rwa [← s.draft.unions_requireAll k cs]
  | group k body =>
    left
    rwa [← s.draft.unions_adoptGroup k (s.nested body)]
  | exist k negated body =>
    refine (Draft.query_mem_unions_adoptQuery (fun e doc h => ?_) hq).imp_right
      fun h => ⟨s, body, .exist, h⟩
    exact .inl h
  | membership k field negated body =>
    refine (Draft.query_mem_unions_adoptQuery (fun e doc h => ?_) hq).imp_right
      fun h => ⟨s, body, .membership, h⟩
    exact .inl h
  | union kept body =>
    refine (Draft.query_mem_unions_adoptQuery (fun e doc h => ?_) hq).imp_right
      fun h => ⟨s, body, .union, h⟩
    refine (List.mem_append.1 h).imp_right fun h => ?_
    cases List.mem_singleton.1 h
    rfl
  | normalize =>
    rw [draft_run_normalize] at hq
    cases hq
  | select => cases hq
  | find => cases hq
  | findByKey data => cases hq
  | finish =>
    rw [draft_run_finish] at hq
    exact .inl hq
  | requireKey data =>
    rw [draft_run_requireKey] at hq
    exact .inl hq
  | _ => exact .inl hq

theorem exists_opensAll_of_unions {s : Session} {q : Document} {all : Bool} (cs : List Call)
    (hq : .query q all ∈ (runAll s cs).1.draft.document.unions) :
    .query q all ∈ s.draft.document.unions ∨
      ∃ t body, OpensAll s cs t body ∧ (t.nested body).finished = .ok q := by
  induction cs generalizing s with
  | nil => exact .inl hq
  | cons c cs ih =>
    rcases ih (s := (c.run s).1) hq with hq | ⟨t, body, hopen, hfinished⟩
    · rcases exists_opens_of_unions c hq with hq | ⟨t, body, hopen, hfinished⟩
      · exact .inl hq
      · exact .inr ⟨t, body, .head hopen, hfinished⟩
    · exact .inr ⟨t, body, .tail hopen, hfinished⟩

/-- What a new draft embeds after some calls are the documents of subqueries that were opened. -/
theorem exists_opensAll_of_embeds (s : Session) {cs : List Call} (hcs : RequireFlat cs)
    {q : Document} (hq : (s.nested cs).document.Embeds q) :
    ∃ t body, OpensAll ⟨s.draft.child, none⟩ cs t body ∧ (t.nested body).finished = .ok q := by
  cases hq with
  | entry hb he hq =>
    have htracks : (s.nested cs).Tracks (acceptedAll ⟨s.draft.child, none⟩ [] cs) :=
      tracks_runAll _ [] (Draft.tracks_of_empty rfl rfl) cs
    rw [htracks.filter] at hb
    obtain ⟨a, ha, hq⟩ := Accepted.exists_embeds_of_branch hb he hq
    exact (exists_opensAll_of_accepted cs hcs ha hq).resolve_left List.not_mem_nil
  | union hq => exact (exists_opensAll_of_unions cs hq).resolve_left List.not_mem_nil

end Call

/-! ### Closing -/

theorem Draft.normalize_of_finished {d : Draft} {doc : Document} (h : d.finished = .ok doc) :
    d.normalize.1 = .ok doc := by
  rw [normalize, h]
  rfl

/-- A document has its subqueries from the draft, whatever the view of the draft is. -/
theorem Draft.Closes.embeds {d : Draft} {doc q : Document} (h : d.Closes doc)
    (hview : d.document.view = none) (hq : doc.Embeds q) (v : Option NameMap) :
    (d.document.withView v).Embeds q := by
  have hunions : doc.kept.unions = d.document.kept.unions := congrArg Document.unions h.kept
  cases hq with
  | entry hb he hq =>
    rw [(h.unviewed hview).1] at hb
    exact .entry hb he hq
  | union hq =>
    change _ ∈ doc.kept.unions at hq
    rw [hunions] at hq
    exact .union hq

/-- Views are scoped, and each is applied once. Let calls be made on a new draft, and let it be
closed to the document `doc`. The draft is the one that the calls leave without their views, with
the view that was last given to it; so the views of groups have no effect. That draft is closed
too, to a document `plain`. If there is no view then `doc` is `plain`, and else it is `plain` as it
is seen through the view. What is embedded in `doc` is embedded in `plain`. Unless a condition that
is required as it is brought it along, it is what the draft of a subquery was closed to; the same
holds of that draft and the calls on it. -/
theorem Session.views_are_scoped (s : Session) {cs : List Call} {doc : Document}
    (hdoc : (s.nested cs).normalize.1 = .ok doc) :
    s.nested cs = (s.nested (Call.unviewedAll cs)).withView
        ((cs.foldl Call.viewPairs none).map .ofList) ∧
      ∃ plain, (s.nested (Call.unviewedAll cs)).normalize.1 = .ok plain ∧ plain.view = none ∧
        (cs.foldl Call.viewPairs none = none → doc = plain) ∧
        (∀ pairs, cs.foldl Call.viewPairs none = some pairs → Document.Viewed pairs plain doc) ∧
        ∀ q, doc.Embeds q → plain.Embeds q ∧
          (Call.RequireFlat cs → ∃ t body, Call.OpensAll ⟨s.draft.child, none⟩ cs t body ∧
            (t.nested body).normalize.1 = .ok q) := by
  have hdraft := s.nested_eq_withView cs
  have hview : (s.nested (Call.unviewedAll cs)).document.view = none := by
    rw [s.nested_unviewedAll, Draft.view_withView]
  have hfinished := Draft.finished_of_normalize hdoc
  rw [hdraft] at hfinished
  obtain ⟨plain, hplain, hplainView, hcolumns⟩ :=
    Draft.exists_of_finished_withView hview hfinished
  have hnone (hpairs : cs.foldl Call.viewPairs none = none) : doc = plain := by
    have hself : plain.withView none = plain := hplainView ▸ plain.withView_view
    rw [hcolumns, hpairs]
    exact hself
  have hsome (pairs : List (String × String)) (hpairs : cs.foldl Call.viewPairs none = some pairs) :
      Document.Viewed pairs plain doc := by
    rw [Document.viewed_iff, hcolumns, hpairs]
    rfl
  refine ⟨hdraft, plain, Draft.normalize_of_finished hplain, hplainView, hnone, hsome,
    fun q hq => ?_⟩
  have hembeds : plain.Embeds q := by
    cases hpairs : cs.foldl Call.viewPairs none with
    | none => exact hnone hpairs ▸ hq
    | some pairs => exact (hsome pairs hpairs).embeds hq
  have hopened : (s.nested cs).document.Embeds q := by
    rw [hdraft]
    exact (Draft.closes_of_finished hplain).embeds hview hembeds _
  refine ⟨hembeds, fun hcs => ?_⟩
  obtain ⟨t, body, hopen, hbody⟩ := Call.exists_opensAll_of_embeds s hcs hopened
  exact ⟨t, body, hopen, Draft.normalize_of_finished hbody⟩

/-- A view that swaps two names and leads from a third one to a fourth, in front of a group with a
view of its own and of subqueries with and without one. -/
def Call.viewedSample : List Call :=
  [.declare (.tables (.text "t")),
   .declare (.view [("a", "x"), ("a", "b"), ("b", "a"), ("c", "d"), ("d", "e")]),
   .require .and (.is "a" (.value (.int 1))),
   .require .and (.is "c" (.value (.int 2))),
   .require .and (.isNull "c & k|b"),
   .require .and (.raw "a = ?" [.positional (.int 3)]),
   .membership .and "d" true
    [.declare (.tables (.text "v")), .declare (.view [("d", "r")]), .require .and (.isNull "d")],
   .group .or
    [.declare (.view [("b", "y")]),
     .require .xor (.isNull "b"),
     .group .and [.require .and (.isNull "d")]],
   .exist .or false
    [.declare (.tables (.text "u")), .declare (.view [("a", "s")]), .require .and (.isNull "a"),
     .require .and (.isNull "b")],
   .union true [.declare (.tables (.text "w")), .require .and (.isNull "a")],
   .declare (.order "a, c|b desc"),
   .declare (.orderRaw "b")]

/-- The document of the calls above. -/
def Document.viewedSample : Document :=
  { tables := ["t"]
    view := some (.ofList [("a", "b"), ("b", "a"), ("c", "d"), ("d", "e")])
    filter :=
      [⟨.and,
        [.field "b" [.compare .eq (.int 1)], .field "d" [.compare .eq (.int 2)],
         .field "c & k|a" [.isNull], .raw "a = ?" [.positional (.int 3)],
         .field "e" [.inQuery
          { tables := ["v"]
            view := some (.ofList [("d", "r")])
            filter := [⟨.and, [.field "r" [.isNull]]⟩] } true]]⟩,
       ⟨.or,
        [.group [⟨.xor, [.field "a" [.isNull]]⟩, ⟨.and, [.group [⟨.and, [.field "e" [.isNull]]⟩]]⟩],
         .exist
          { tables := ["u"]
            view := some (.ofList [("a", "s")])
            filter := [⟨.and, [.field "s" [.isNull], .field "b" [.isNull]]⟩] } false]⟩]
    order := [.field "b" none, .field "c|b" (some .descending), .raw "b"]
    unions := [.query
      { tables := ["w"], filter := [⟨.and, [.field "a" [.isNull]]⟩] } true] }

/-- Swapped names are swapped, and the name that is led to is not led on. -/
theorem Session.views_are_scoped_swapSample :
    Call.RequireFlat Call.viewedSample ∧
      (nested ⟨.new {}, none⟩ Call.viewedSample).normalize.1 = .ok Document.viewedSample ∧
      ∃ plain, (nested ⟨.new {}, none⟩ (Call.unviewedAll Call.viewedSample)).normalize.1 =
          .ok plain ∧
        Document.Viewed [("a", "x"), ("a", "b"), ("b", "a"), ("c", "d"), ("d", "e")] plain
          Document.viewedSample ∧
        ∀ q, Document.viewedSample.Embeds q → plain.Embeds q ∧
          ∃ t body, Call.OpensAll ⟨.new {}, none⟩ Call.viewedSample t body ∧
            (t.nested body).normalize.1 = .ok q := by
  have hflat : Call.RequireFlat Call.viewedSample := by
    simp [Call.viewedSample, Call.RequireFlat, Call.RequiresFlat, Criterion.IsFlat,
      Condition.IsFlat, Criterion.is, Criterion.isNull]
  have hdoc : (nested ⟨.new {}, none⟩ Call.viewedSample).normalize.1 =
      .ok Document.viewedSample := by
    -- the calls are run first: `rfl` would go through them again for each member of the document
    simp only [nested, Call.viewedSample, Call.runAll, Call.run]
    rfl
  obtain ⟨-, plain, hplain, -, -, hviewed, hembeds⟩ := views_are_scoped ⟨.new {}, none⟩ hdoc
  exact ⟨hflat, hdoc, plain, hplain, hviewed _ rfl, fun q hq => (hembeds q hq).imp_right (· hflat)⟩

end SqlSelect
