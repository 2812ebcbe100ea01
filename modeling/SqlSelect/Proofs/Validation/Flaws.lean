import Mathlib.Logic.Function.Iterate
import SqlSelect.Proofs.Closing
import SqlSelect.Proofs.Ledger

/-!
# The first fault of a program

A draft keeps one fault, the first one, and says nothing of it until it is closed. A group hands its
fault on as it is, and a subquery hands on whatever is wrong with it when it ends.

* `Flaw`: a fault with the number of subqueries around the place where it was made;
* `Call.flaws s h c`: all flaws since the draft was last closed, in the order of the calls, after
  the call `c`, if they were `h` before;
* `Draft.endFault?`: what can be wrong with a draft that has no flaws: no table, or a page that is
  too far off;
* `Draft.Bears d h`: the fault of the draft is that of the first flaw. Each call keeps this up
  (`Call.bears_run`);
* `Settings.refuses_first_flaw`: a program with a flaw gives no document and no statement.
-/

namespace SqlSelect

/-! ### Flaws -/

theorem Fault.message_subquery (f : Fault) : (subquery f).message = "subquery: " ++ f.message := rfl

/-- A fault with the number of subqueries around its place. -/
structure Flaw where
  depth : Nat
  cause : Fault
  deriving DecidableEq, Repr

namespace Flaw

/-- The fault that the statement around the subqueries has. -/
def fault (x : Flaw) : Fault := Fault.subquery^[x.depth] x.cause

/-- The flaw with one more subquery around it. -/
def deeper (x : Flaw) : Flaw := { x with depth := x.depth + 1 }

/-- What stands in front of the wording of a fault that has some subqueries around it. -/
def preamble : Nat → String
  | 0 => ""
  | n + 1 => "subquery: " ++ preamble n

@[simp] theorem fault_deeper (x : Flaw) : x.deeper.fault = .subquery x.fault :=
  Function.iterate_succ_apply' Fault.subquery x.depth x.cause

/-- Each subquery puts its word in front. -/
theorem message_iterate (n : Nat) (f : Fault) :
    (Fault.subquery^[n] f).message = preamble n ++ f.message := by
  induction n with
  | zero =>
    rw [Function.iterate_zero_apply, preamble]
    exact String.empty_append.symm
  | succ n ih =>
    rw [Function.iterate_succ_apply', Fault.message_subquery, ih, preamble, String.append_assoc]

end Flaw

/-- The flaw of a criterion, if it is at fault. -/
def Criterion.flaws (c : Criterion) : List Flaw :=
  match c.read with
  | .ok _ => []
  | .error f => [⟨0, f⟩]

namespace Draft

/-- What is wrong with a draft that has no flaws: it names no table, or the first row of its page
has no number. -/
def endFault? (d : Draft) : Option Fault :=
  if d.document.tables = [] ∧ d.name = "" then some .noTable
  else
    d.document.page.bind fun p =>
      let rows := p.rows d.document.limit d.settings.pageSize
      if rows * (p.index - 1) < UInt64.size then none
      else some (.pageOverflow p.number.toInt rows)

/-- The flaws of a subquery, seen from outside: those in it, and what is wrong with its end. -/
def queryFlaws (inner : Draft) (h : List Flaw) : List Flaw :=
  (h ++ (inner.endFault?.map (Flaw.mk 0)).toList).map Flaw.deeper

end Draft

mutual

/-- The flaws since the draft was last closed, after a call. Before it they were `h`. -/
def Call.flaws (s : Session) (h : List Flaw) : Call → List Flaw
  | .require _ c => h ++ c.flaws
  | .requireAll _ cs => h ++ cs.flatMap Criterion.flaws
  | .group _ body => h ++ Call.flawsAll ⟨s.draft.child, none⟩ [] body
  | .exist _ _ body =>
    h ++ (s.nested body).queryFlaws (Call.flawsAll ⟨s.draft.child, none⟩ [] body)
  | .membership _ _ _ body =>
    h ++ (s.nested body).queryFlaws (Call.flawsAll ⟨s.draft.child, none⟩ [] body)
  | .union _ body =>
    h ++ (s.nested body).queryFlaws (Call.flawsAll ⟨s.draft.child, none⟩ [] body)
  | .normalize => []
  | .select => []
  | .find => []
  | .findByKey _ => []
  | _ => h

/-- The flaws since the draft was last closed, after some calls. -/
def Call.flawsAll (s : Session) (h : List Flaw) : List Call → List Flaw
  | [] => h
  | c :: cs => Call.flawsAll (c.run s).1 (c.flaws s h) cs

end

/-! ### The end of a draft -/

/-- A page has no limit exactly if the number of its first row does not fit. -/
theorem PageRequest.toLimit_eq_error_iff {p : PageRequest} {limit : Option Limit}
    {standard : UInt64} {f : Fault} :
    p.toLimit limit standard = .error f ↔
      UInt64.size ≤ p.rows limit standard * (p.index - 1) ∧
        f = .pageOverflow p.number.toInt (p.rows limit standard) := by
  unfold toLimit
  by_cases h : p.rows limit standard * (p.index - 1) < UInt64.size
  · rw [if_pos h]
    constructor
    · intro heq
      cases heq
    · intro heq
      omega
  · rw [if_neg h]
    constructor
    · intro heq
      cases heq
      exact ⟨Nat.not_lt.1 h, rfl⟩
    · rintro ⟨-, rfl⟩
      rfl

namespace Draft

variable {d e inner : Draft} {f : Fault}

/-- No table is found exactly if none was declared and the draft has no name. -/
theorem withTable_eq_error_iff :
    d.withTable = .error f ↔ (d.document.tables = [] ∧ d.name = "") ∧ f = .noTable := by
  unfold withTable
  by_cases htables : d.document.tables = []
  · rw [if_neg (not_not_intro htables)]
    by_cases hname : d.name = ""
    · rw [if_pos hname]
      constructor
      · intro h
        cases h
        exact ⟨⟨htables, hname⟩, rfl⟩
      · rintro ⟨-, rfl⟩
        rfl
    · rw [if_neg hname]
      exact ⟨nofun, fun h => absurd h.1.2 hname⟩
  · rw [if_pos htables]
    exact ⟨nofun, fun h => absurd h.1.1 htables⟩

theorem withLimit_eq_error_iff {standard : UInt64} {first : Document} :
    withLimit standard first = .error f ↔
      ∃ p, first.page = some p ∧ p.toLimit first.limit standard = .error f := by
  unfold withLimit
  cases first.page with
  | none => exact ⟨nofun, fun ⟨p, hp, _⟩ => nomatch hp⟩
  | some page =>
    simp only [Option.some.injEq, exists_eq_left']
    cases page.toLimit first.limit standard with
    | error g => simp [Except.map]
    | ok l => exact ⟨nofun, nofun⟩

/-- The end of a draft is where its table is looked for and its page becomes a limit. -/
theorem endFault?_eq_some_iff :
    d.endFault? = some f ↔ d.withTable = .error f ∨
      ∃ first, d.withTable = .ok first ∧ withLimit d.settings.pageSize first = .error f := by
  unfold endFault?
  by_cases hnone : d.document.tables = [] ∧ d.name = ""
  · rw [if_pos hnone, withTable_eq_error_iff.2 ⟨hnone, rfl⟩]
    simp
  · rw [if_neg hnone]
    cases hwith : d.withTable with
    | error g => exact absurd (withTable_eq_error_iff.1 hwith).1 hnone
    | ok first =>
      have hpage : first.page = d.document.page := by rw [withTable_eq hwith]
      have hlimit : first.limit = d.document.limit := by rw [withTable_eq hwith]
      simp only [Option.bind_eq_some_iff, Except.ok.injEq, exists_eq_left', reduceCtorEq, false_or,
        withLimit_eq_error_iff, hpage, hlimit, PageRequest.toLimit_eq_error_iff]
      refine exists_congr fun p => and_congr_right fun _ => ?_
      constructor
      · intro h
        split at h
        · cases h
        · next hsize =>
          cases h
          exact ⟨Nat.not_lt.1 hsize, rfl⟩
      · rintro ⟨hsize, rfl⟩
        exact if_neg (Nat.not_lt.2 hsize)

/-- A draft cannot be finished for its first fault, or else for its end. -/
theorem finished_eq_error_iff : d.finished = .error f ↔ d.fault.or d.endFault? = some f := by
  unfold finished
  cases d.fault with
  | some g => simp
  | none =>
    rw [Option.none_or, endFault?_eq_some_iff]
    simp only [bind_eq_error_iff]
    -- the columns of a view can always be put in place
    have hpure : ∀ doc : Document, (pure (withColumns doc) : Except Fault Document) ≠ .error f :=
      fun doc => nofun
    simp only [hpure, and_false, exists_false, or_false]

/-- A draft without a fault and with a good end can be finished. -/
theorem exists_finished (h : d.fault.or d.endFault? = none) : ∃ doc, d.finished = .ok doc := by
  cases hfinished : d.finished with
  | ok doc => exact ⟨doc, rfl⟩
  | error f =>
    rw [finished_eq_error_iff.1 hfinished] at h
    cases h

/-! ### The fault of a draft -/

/-- The fault of the draft is that of the first flaw. -/
def Bears (d : Draft) (h : List Flaw) : Prop := d.fault = h.head?.map Flaw.fault

variable {h g : List Flaw}

/-- Of two lists of flaws, one behind the other, the first one counts if there is any in it. -/
theorem head?_fault_append (h g : List Flaw) :
    (h ++ g).head?.map Flaw.fault = (h.head?.map Flaw.fault).or (g.head?.map Flaw.fault) := by
  rw [List.head?_append, Option.map_or]

/-- Nothing but the fault counts. -/
theorem Bears.congr (hd : d.Bears h) (hfault : e.fault = d.fault) : e.Bears h := hfault.trans hd

theorem Bears.recordFault (hd : d.Bears h) (x : Flaw) :
    (d.recordFault x.fault).Bears (h ++ [x]) := by
  show d.fault.or (some x.fault) = _
  rw [hd, head?_fault_append]
  rfl

theorem Bears.require (hd : d.Bears h) (k : Connective) (c : Criterion) :
    (d.require k c).Bears (h ++ c.flaws) := by
  unfold Draft.require Criterion.flaws
  cases c.read with
  | ok x =>
    rw [List.append_nil]
    cases x with
    | onField field c => exact hd.congr rfl
    | raw sql binds => exact hd.congr rfl
  | error f => exact hd.recordFault ⟨0, f⟩

theorem Bears.requireAll (hd : d.Bears h) (k : Connective) (cs : List Criterion) :
    (d.requireAll k cs).Bears (h ++ cs.flatMap Criterion.flaws) := by
  unfold Draft.requireAll
  induction cs generalizing d h with
  | nil =>
    rw [List.flatMap_nil, List.append_nil]
    exact hd
  | cons c cs ih =>
    rw [List.foldl_cons, List.flatMap_cons, ← List.append_assoc]
    exact ih (hd.require k c)

/-- A group hands on its fault as it is. -/
theorem Bears.adoptGroup (hd : d.Bears h) (hi : inner.Bears g) (k : Connective) :
    (d.adoptGroup k inner).Bears (h ++ g) := by
  have hfault : (d.adoptGroup k inner).fault = ((inner.fault.map d.recordFault).getD d).fault := by
    unfold Draft.adoptGroup
    dsimp only
    split <;> rfl
  show (d.adoptGroup k inner).fault = _
  rw [hfault, head?_fault_append, ← hd, ← hi]
  cases inner.fault with
  | none => exact (Option.or_none).symm
  | some f => rfl

/-- A subquery hands on whatever is wrong with it. -/
theorem Bears.adoptQuery (hd : d.Bears h) (hi : inner.Bears g) {place : Draft → Document → Draft}
    (hplace : ∀ e doc, (place e doc).fault = e.fault) :
    (d.adoptQuery inner place).Bears (h ++ inner.queryFlaws g) := by
  have hdeeper : Flaw.fault ∘ Flaw.deeper = Fault.subquery ∘ Flaw.fault := funext Flaw.fault_deeper
  have hhead : (inner.queryFlaws g).head?.map Flaw.fault =
      (inner.fault.or inner.endFault?).map Fault.subquery := by
    unfold queryFlaws
    rw [List.head?_map, Option.map_map, hdeeper, ← Option.map_map, head?_fault_append, ← hi]
    cases inner.endFault? <;> rfl
  show (d.adoptQuery inner place).fault = _
  rw [head?_fault_append, ← hd, hhead]
  unfold Draft.adoptQuery
  cases hwrong : inner.fault.or inner.endFault? with
  | some f =>
    rw [finished_eq_error_iff.2 hwrong]
    rfl
  | none =>
    obtain ⟨doc, hdoc⟩ := exists_finished hwrong
    rw [hdoc, Option.map_none, Option.or_none]
    exact hplace _ doc

theorem bears_reset (d : Draft) : d.reset.Bears [] := rfl

end Draft

mutual

/-- A call keeps the first fault. -/
theorem Call.bears_run (s : Session) (h : List Flaw) (hs : s.draft.Bears h) :
    ∀ c : Call, (c.run s).1.draft.Bears (c.flaws s h)
  | .name _ => hs.congr rfl
  | .key _ => hs.congr rfl
  | .renderer _ => hs.congr rfl
  | .declare _ => hs.congr rfl
  | .bind _ => hs.congr rfl
  | .clearBinds => hs.congr rfl
  | .require k c => hs.require k c
  | .requireAll k cs => hs.requireAll k cs
  | .group k body => hs.adoptGroup (Call.bears_runAll ⟨s.draft.child, none⟩ [] rfl body) k
  | .exist _ _ body =>
    hs.adoptQuery (Call.bears_runAll ⟨s.draft.child, none⟩ [] rfl body) fun _ _ => rfl
  | .membership _ _ _ body =>
    hs.adoptQuery (Call.bears_runAll ⟨s.draft.child, none⟩ [] rfl body) fun _ _ => rfl
  | .union _ body =>
    hs.adoptQuery (Call.bears_runAll ⟨s.draft.child, none⟩ [] rfl body) fun _ _ => rfl
  | .fork _ => hs
  | .child _ => hs
  | .normalize =>
    (Draft.bears_reset s.draft).congr (congrArg Draft.fault (Call.draft_run_normalize s))
  | .finish => hs.congr (congrArg Draft.fault (Call.draft_run_finish s))
  | .select => Draft.bears_reset s.draft
  | .find => Draft.bears_reset s.draft
  | .findByKey _ => Draft.bears_reset s.draft
  | .build => hs
  | .render => hs
  | .requireKey data => hs.congr (congrArg Draft.fault (Call.draft_run_requireKey s data))
  | .look => hs
  | .getBind _ => hs

theorem Call.bears_runAll (s : Session) (h : List Flaw) (hs : s.draft.Bears h) :
    ∀ cs : List Call, (Call.runAll s cs).1.draft.Bears (Call.flawsAll s h cs)
  | [] => hs
  | c :: cs => Call.bears_runAll _ _ (Call.bears_run s h hs c) cs

end

/-! ### Refusals -/

/-- Whatever result is asked for, the answer is the error. -/
structure Session.Refuses (s : Session) (e : Error) : Prop where
  normalize : (Call.normalize.run s).2.1 = .document (.error e)
  finish : (Call.finish.run s).2.1 = .document (.error e)
  select : (Call.select.run s).2.1 = .statement (.error e)
  find : (Call.find.run s).2.1 = .statement (.error e)
  findByKey : ∀ data, ((Call.findByKey data).run s).2.1 = .statement (.error e)

/-- All results are made of the finished document. -/
theorem Session.refuses_of_finished {s : Session} {f : Fault} (h : s.draft.finished = .error f) :
    s.Refuses (.invalid f) := by
  have hnormalize : s.draft.normalize.1 = .error (.invalid f) := by
    show s.draft.finished.mapError Error.invalid = _
    rw [h]
    rfl
  constructor
  case normalize => exact congrArg Answer.document hnormalize
  case finish => exact congrArg Answer.document hnormalize
  case select =>
    show Answer.statement (s.draft.normalize.1.map s.draft.build) = _
    rw [hnormalize]
    rfl
  case find =>
    show Answer.statement (s.draft.normalize.1.map fun doc => s.draft.build (Draft.oneRow doc)) = _
    rw [hnormalize]
    rfl
  case findByKey =>
    intro data
    show Answer.statement (s.draft.findByKey data).1 = _
    unfold Draft.findByKey
    rw [hnormalize]
    rfl

/-- The first flaw is what all results are refused for. -/
theorem Session.refuses_of_bears {s : Session} {h : List Flaw} (hs : s.draft.Bears h) {x : Flaw}
    (hx : h.head? = some x) : s.Refuses (.invalid x.fault) := by
  have hfault : s.draft.fault = some x.fault := by
    rw [hs, hx]
    rfl
  exact refuses_of_finished (Draft.finished_eq_error_iff.2 (by rw [hfault, Option.some_or]))

/-- Without flaws, all results are refused for a bad end of the draft. -/
theorem Session.refuses_of_endFault? {s : Session} (hs : s.draft.Bears []) {f : Fault}
    (hf : s.draft.endFault? = some f) : s.Refuses (.invalid f) := by
  have hfault : s.draft.fault = none := hs
  exact refuses_of_finished (Draft.finished_eq_error_iff.2 (by rw [hfault, Option.none_or, hf]))

/-- Without flaws and with a good end, a draft has a document. -/
theorem Session.exists_normalize {s : Session} (hs : s.draft.Bears [])
    (hend : s.draft.endFault? = none) : ∃ doc, s.draft.normalize.1 = .ok doc := by
  have hfault : s.draft.fault = none := hs
  obtain ⟨doc, hdoc⟩ := Draft.exists_finished (by rw [hfault, Option.none_or, hend])
  refine ⟨doc, ?_⟩
  show s.draft.finished.mapError Error.invalid = _
  rw [hdoc]
  rfl

/-- No flaw is lost. If there is any since the draft was last closed, at any depth, then every
result is refused with the fault of the first one, and the wording says how many subqueries are
around it. Without any, nothing can be wrong but the end of the draft itself. -/
theorem Settings.refuses_first_flaw (settings : Settings) (cs : List Call) :
    let s : Session := ⟨.new settings, none⟩
    let t := (Call.runAll s cs).1
    (∀ x, (Call.flawsAll s [] cs).head? = some x →
      t.Refuses (.invalid x.fault) ∧
        (Error.invalid x.fault).message = Flaw.preamble x.depth ++ x.cause.message) ∧
      (Call.flawsAll s [] cs = [] →
        (∀ f, t.draft.endFault? = some f → t.Refuses (.invalid f)) ∧
          (t.draft.endFault? = none → ∃ doc, t.draft.normalize.1 = .ok doc)) := by
  intro s t
  have hbears : t.draft.Bears (Call.flawsAll s [] cs) := Call.bears_runAll s [] rfl cs
  constructor
  · intro x hx
    exact ⟨Session.refuses_of_bears hbears hx, Flaw.message_iterate x.depth x.cause⟩
  · intro hnone
    rw [hnone] at hbears
    exact ⟨fun f hf => Session.refuses_of_endFault? hbears hf,
      fun hend => Session.exists_normalize hbears hend⟩

/-- A condition without a field in a united statement, which has no table either and stands in a
group of a subquery; and a fragment without its bind behind them. -/
def Call.flawedSample : List Call :=
  [.declare (.tables (.text "t")),
   .exist .or false
    [.declare (.tables (.text "u")),
     .group .and [.union true [.require .and (.is " " (.value (.int 1)))]]],
   .require .and (.raw "x = ?" []),
   .require .and (.is "a" (.value (.int 2)))]

/-- The first flaw of the calls above stands in two subqueries, and the group does not count. -/
theorem Settings.refuses_flawedSample :
    (Call.flawsAll ⟨.new {}, none⟩ [] Call.flawedSample).head? = some ⟨2, .blankField⟩ ∧
      (Call.runAll ⟨.new {}, none⟩ Call.flawedSample).1.Refuses
        (.invalid (.subquery (.subquery .blankField))) ∧
      (Error.invalid (.subquery (.subquery .blankField))).message =
        "subquery: subquery: Empty field name in where condition" ∧
      Call.flawsAll ⟨.new {}, none⟩ [] [.require .and (.is "a" (.value (.int 2)))] = [] ∧
      (Call.runAll ⟨.new {}, none⟩ [.require .and (.is "a" (.value (.int 2)))]).1.Refuses
        (.invalid .noTable) := by
  have hhead : (Call.flawsAll ⟨.new {}, none⟩ [] Call.flawedSample).head? =
      some ⟨2, .blankField⟩ := by rfl
  have hnone : Call.flawsAll ⟨.new {}, none⟩ [] [.require .and (.is "a" (.value (.int 2)))] = [] := by
    rfl
  obtain ⟨hrefuses, hmessage⟩ := (Settings.refuses_first_flaw {} Call.flawedSample).1 _ hhead
  have hend := ((Settings.refuses_first_flaw {}
    [.require .and (.is "a" (.value (.int 2)))]).2 hnone).1 .noTable rfl
  exact ⟨hhead, hrefuses, hmessage.trans (by decide), hnone, hend⟩

end SqlSelect
