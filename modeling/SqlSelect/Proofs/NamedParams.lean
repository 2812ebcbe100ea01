import SqlSelect.Proofs.Ledger

/-!
# Named parameters

Named parameters that are bound on a nested draft are handed to the draft around it, by a group and
by a subquery, with or without a fault.

* `Call.bound`: the parameters that a call binds on a draft, at any depth of nesting, in the order
  of the calls;
* `Call.keepsBinds`: no call on the draft or on a nested one forgets the parameters;
* `Call.binds_run`, `Call.binds_runAll`: what a call and a program add to the parameters of a draft;
* `Call.asked?`: the document whose statement a call asks a draft for;
* `Session.bound_runAll`: the parameters after a program, and in the statements that are made then.
-/

namespace SqlSelect

/-! ### Parameters bound by a program -/

mutual

/-- The parameters that a call binds on the draft or on a nested one. Copies and new drafts that are
dropped keep theirs to themselves. -/
def Call.bound : Call → List Param
  | .bind ps => ps
  | .group _ body => Call.boundAll body
  | .exist _ _ body => Call.boundAll body
  | .membership _ _ _ body => Call.boundAll body
  | .union _ body => Call.boundAll body
  | _ => []

/-- The parameters that some calls bind, in the order of the calls. -/
def Call.boundAll : List Call → List Param
  | [] => []
  | c :: cs => c.bound ++ Call.boundAll cs

end

mutual

/-- Does the call forget no parameters, neither of the draft nor of a nested one? -/
def Call.keepsBinds : Call → Bool
  | .clearBinds => false
  | .group _ body => Call.allKeepBinds body
  | .exist _ _ body => Call.allKeepBinds body
  | .membership _ _ _ body => Call.allKeepBinds body
  | .union _ body => Call.allKeepBinds body
  | _ => true

/-- Do the calls forget no parameters? -/
def Call.allKeepBinds : List Call → Bool
  | [] => true
  | c :: cs => c.keepsBinds && Call.allKeepBinds cs

end

/-! ### What declarations do to the parameters -/

namespace Draft

/-- A criterion has no named parameters, whether it is at fault or not. -/
@[simp] theorem binds_require (d : Draft) (k : Connective) (c : Criterion) :
    (d.require k c).binds = d.binds := by
  unfold require
  cases c.read with
  | ok x => cases x <;> rfl
  | error f => rfl

@[simp] theorem binds_requireAll (d : Draft) (k : Connective) (cs : List Criterion) :
    (d.requireAll k cs).binds = d.binds := by
  unfold requireAll
  induction cs generalizing d with
  | nil => rfl
  | cons c cs ih => exact (ih (d.require k c)).trans (binds_require d k c)

/-- A group hands its parameters over even if it is left out. -/
@[simp] theorem binds_adoptGroup (d : Draft) (k : Connective) (inner : Draft) :
    (d.adoptGroup k inner).binds = d.binds ++ inner.binds := by
  have hfault : ((inner.fault.map d.recordFault).getD d).binds = d.binds := by
    cases inner.fault <;> rfl
  unfold adoptGroup
  dsimp only
  split
  · exact congrArg (· ++ inner.binds) hfault
  · exact congrArg (· ++ inner.binds) hfault

/-- A subquery hands its parameters over even if it is at fault. -/
theorem binds_adoptQuery (d inner : Draft) {place : Draft → Document → Draft}
    (hplace : ∀ e doc, (place e doc).binds = e.binds) :
    (d.adoptQuery inner place).binds = d.binds ++ inner.binds := by
  unfold adoptQuery
  dsimp only
  split
  · exact hplace _ _
  · rfl

@[simp] theorem binds_adoptExists (d : Draft) (k : Connective) (negated : Bool) (inner : Draft) :
    (d.adoptExists k negated inner).binds = d.binds ++ inner.binds :=
  d.binds_adoptQuery inner fun _ _ => rfl

@[simp] theorem binds_adoptMembership (d : Draft) (k : Connective) (field : String)
    (negated : Bool) (inner : Draft) :
    (d.adoptMembership k field negated inner).binds = d.binds ++ inner.binds :=
  d.binds_adoptQuery inner fun _ _ => rfl

@[simp] theorem binds_adoptUnion (d : Draft) (all : Bool) (inner : Draft) :
    (d.adoptUnion all inner).binds = d.binds ++ inner.binds :=
  d.binds_adoptQuery inner fun _ _ => rfl

end Draft

/-! ### Runs -/

mutual

/-- A call adds the parameters that it binds, behind those that are bound. A nested draft starts
without parameters. -/
theorem Call.binds_run (s : Session) :
    ∀ c : Call, c.keepsBinds = true → (c.run s).1.draft.binds = s.draft.binds ++ c.bound
  | .bind ps, _ => rfl
  | .clearBinds, h => nomatch h
  | .require k c, _ => (s.draft.binds_require k c).trans (List.append_nil _).symm
  | .requireAll k cs, _ => (s.draft.binds_requireAll k cs).trans (List.append_nil _).symm
  | .group k body, h =>
    (s.draft.binds_adoptGroup k _).trans
      (congrArg _ (Call.binds_runAll ⟨s.draft.child, none⟩ body h))
  | .exist k negated body, h =>
    (s.draft.binds_adoptExists k negated _).trans
      (congrArg _ (Call.binds_runAll ⟨s.draft.child, none⟩ body h))
  | .membership k field negated body, h =>
    (s.draft.binds_adoptMembership k field negated _).trans
      (congrArg _ (Call.binds_runAll ⟨s.draft.child, none⟩ body h))
  | .union all body, h =>
    (s.draft.binds_adoptUnion all _).trans
      (congrArg _ (Call.binds_runAll ⟨s.draft.child, none⟩ body h))
  | .normalize, _ => by
    rw [Call.draft_run_normalize]
    exact (List.append_nil _).symm
  | .finish, _ => by
    rw [Call.draft_run_finish]
    exact (List.append_nil _).symm
  | .requireKey data, _ => by
    rw [Call.draft_run_requireKey]
    exact (List.append_nil _).symm
  | .name _, _ | .key _, _ | .renderer _, _ | .declare _, _ | .fork _, _ | .child _, _ | .select, _
  | .find, _ | .findByKey _, _ | .build, _ | .render, _ | .look, _ | .getBind _, _ =>
    (List.append_nil _).symm

/-- A program adds the parameters that it binds at any depth, in the order of its calls. -/
theorem Call.binds_runAll (s : Session) :
    ∀ cs : List Call, Call.allKeepBinds cs = true →
      (Call.runAll s cs).1.draft.binds = s.draft.binds ++ Call.boundAll cs
  | [], _ => (List.append_nil _).symm
  | c :: cs, h => by
    have hkeeps := Bool.and_eq_true_iff.1 h
    calc (Call.runAll (c.run s).1 cs).1.draft.binds
        = (c.run s).1.draft.binds ++ Call.boundAll cs := Call.binds_runAll _ cs hkeeps.2
      _ = s.draft.binds ++ c.bound ++ Call.boundAll cs := by rw [Call.binds_run s c hkeeps.1]
      _ = s.draft.binds ++ Call.boundAll (c :: cs) := List.append_assoc ..

end

/-! ### Statements -/

/-- The document whose statement a call asks the draft for, or what is wrong with it. -/
def Call.asked? (s : Session) : Call → Option (Except Error Document)
  | .select => some s.draft.normalize.1
  | .find => some (s.draft.normalize.1.map Draft.oneRow)
  | .findByKey data => some do
    let doc ← s.draft.normalize.1
    let doc ← doc.requireKey s.draft.settings data
    return Draft.oneRow doc
  | .build => s.saved.map .ok
  | _ => none

/-- Such a call answers with the statement of the document. -/
theorem Call.answer_run_of_asked? {s : Session} {c : Call} {x : Except Error Document}
    (h : c.asked? s = some x) : (c.run s).2.1 = .statement (x.map s.draft.build) := by
  cases c with
  | select =>
    cases h
    rfl
  | find =>
    cases h
    rw [run, Draft.find]
    cases s.draft.normalize.1 <;> rfl
  | findByKey data =>
    cases h
    -- what is wrong with the draft or with the key is the answer
    rw [run, Draft.findByKey]
    cases s.draft.normalize.1 with
    | error e => rfl
    | ok doc =>
      refine congrArg Answer.statement ?_
      show (doc.requireKey _ data >>= _) = ((doc.requireKey _ data >>= _).map s.draft.build)
      cases doc.requireKey s.draft.settings data <;> rfl
  | build =>
    obtain ⟨doc, hsaved, rfl⟩ := Option.map_eq_some_iff.1 h
    simp [run, Session.ofSaved, hsaved, Except.map]
  | _ => cases h

/-- But for the renderer, only such a call answers with a statement. -/
theorem Call.exists_asked?_of_answer {s : Session} {c : Call} {result : Except Error Statement}
    (hc : c ≠ .render) (h : (c.run s).2.1 = .statement result) : ∃ x, c.asked? s = some x := by
  cases c with
  | select => exact ⟨_, rfl⟩
  | find => exact ⟨_, rfl⟩
  | findByKey data => exact ⟨_, rfl⟩
  | build =>
    cases hsaved : s.saved with
    | none => simp [run, Session.ofSaved, hsaved] at h
    | some doc => exact ⟨.ok doc, by simp [asked?, hsaved]⟩
  | render => exact absurd rfl hc
  | requireKey data =>
    rw [run] at h
    cases hkeyed : s.keyed? data <;> simp [hkeyed] at h
  | _ => cases h

/-- Named parameters are neither lost nor bound twice. After any program that forgets none, a draft
has those that it had and those that were bound since, at any depth of nesting and in the order of
the calls. Every statement that the draft then makes has the parameters of the document, as the
renderer writes it, and behind them exactly these. -/
theorem Session.bound_runAll (s : Session) {cs : List Call} (h : Call.allKeepBinds cs = true) :
    let t := (Call.runAll s cs).1
    t.draft.binds = s.draft.binds ++ Call.boundAll cs ∧
      ∀ (c : Call) (result : Except Error Statement), c ≠ .render →
        ((c.run t).2.1 = .statement result ↔
          ∃ x, c.asked? t = some x ∧ result = x.map fun doc =>
            { sql := (t.draft.renderer.select doc).sql
              params := (t.draft.renderer.select doc).params ++
                (s.draft.binds ++ Call.boundAll cs)
              fetchSql := doc.fetchSql }) := by
  intro t
  have hbinds : t.draft.binds = s.draft.binds ++ Call.boundAll cs := Call.binds_runAll s cs h
  refine ⟨hbinds, fun c result hc => ?_⟩
  rw [← hbinds]
  constructor
  · intro hanswer
    obtain ⟨x, hx⟩ := Call.exists_asked?_of_answer hc hanswer
    rw [Call.answer_run_of_asked? hx] at hanswer
    exact ⟨x, hx, (Answer.statement.inj hanswer).symm⟩
  · rintro ⟨x, hx, rfl⟩
    exact Call.answer_run_of_asked? hx

/-- Parameters bound on a draft, in a group without conditions, in a group of a subquery at fault
and in a union, with two closing calls in between and a copy that forgets its own. -/
def Call.bindSample : List Call :=
  [.declare (.tables (.text "t")), .require .and (.is "x" (.value (.int 0))),
   .bind [.named "a" (.int 1)],
   .group .and [.bind [.named "b" (.int 2)]],
   .select,
   .exist .or false
    [.bind [.named "c" (.int 3)], .group .and [.bind [.named "d" (.int 4)]]],
   .find,
   .fork [.clearBinds, .bind [.named "e" (.int 5)]],
   .declare (.tables (.text "t")), .require .and (.is "x" (.value (.int 6))),
   .union true [.declare (.tables (.text "u")), .bind [.named "a" (.int 7), .named "f" (.int 8)]]]

/-- The parameters that the calls above bind. -/
def Call.bindSampleBound : List Param :=
  [.named "a" (.int 1), .named "b" (.int 2), .named "c" (.int 3), .named "d" (.int 4),
    .named "a" (.int 7), .named "f" (.int 8)]

/-- The calls above leave their parameters, and the statement that is made then has them. -/
theorem Session.bound_runAll_bindSample :
    let t := (Call.runAll ⟨.new {}, none⟩ Call.bindSample).1
    Call.allKeepBinds Call.bindSample = true ∧ t.draft.binds = Call.bindSampleBound ∧
      ∃ doc, t.draft.normalize.1 = .ok doc ∧ (Call.select.run t).2.1 = .statement (.ok
        { sql := (t.draft.renderer.select doc).sql
          params := (t.draft.renderer.select doc).params ++ Call.bindSampleBound
          fetchSql := doc.fetchSql }) := by
  have hkeeps : Call.allKeepBinds Call.bindSample = true := rfl
  have hbound : (⟨.new {}, none⟩ : Session).draft.binds ++ Call.boundAll Call.bindSample =
    Call.bindSampleBound := rfl
  obtain ⟨hbinds, hanswer⟩ := Session.bound_runAll ⟨.new {}, none⟩ hkeeps
  have hok : (Call.runAll ⟨.new {}, none⟩ Call.bindSample).1.draft.normalize.1.toOption.isSome =
    true := by decide +kernel
  rw [hbound] at hbinds hanswer
  -- how the calls come to this need not be looked into again
  generalize (Call.runAll ⟨.new {}, none⟩ Call.bindSample).1 = t at hbinds hanswer hok ⊢
  cases hdoc : t.draft.normalize.1 with
  | error e =>
    rw [hdoc] at hok
    cases hok
  | ok doc =>
    exact ⟨hkeeps, hbinds, doc, hdoc, (hanswer .select _ nofun).2 ⟨_, congrArg some hdoc, rfl⟩⟩

end SqlSelect
