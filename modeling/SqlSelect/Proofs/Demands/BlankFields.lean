import SqlSelect.Proofs.Selection.Carried
import SqlSelect.Proofs.Validation.Flaws

/-!
# Demands without a field

What is stated in words about a field is refused if the field text is blank. The calls that put a
condition on a field as it is, and those that look for a field in a subquery, do not look at the
field text: their condition is declared for the empty name.

* `Call.field?`: the field text of a call that demands something of one field;
* `Call.isStated`: the calls that do so in words;
* `Call.placed?`: the condition that any other call puts on its field;
* `Session.Rejects`: a call that changes nothing but the fault, which then is what every result is
  refused for;
* `Session.rejects_blank_iff_isStated`: which calls reject a blank field, and what the others do.
-/

namespace SqlSelect

namespace Call

/-- The field text of a call that demands something of one field. -/
def field? : Call → Option String
  | require _ (.stated field _ _ _) => some field
  | require _ (.onField field _) => some field
  | membership _ field _ _ => some field
  | _ => none

/-- Does the call say in words what it demands of a field? -/
def isStated : Call → Bool
  | require _ (.stated _ _ _ _) => true
  | _ => false

/-- The condition that a call has ready for its field, with the connective. A subquery that does not
end well makes none. -/
def placed? (s : Session) : Call → Option (Connective × Condition)
  | require k (.onField _ c) => some (k, c)
  | membership k _ negated body =>
    match (s.nested body).finished with
    | .ok doc => some (k, .inQuery doc negated)
    | .error _ => none
  | _ => none

end Call

/-- The draft with another fault, or with none. -/
def Draft.withFault (d : Draft) (f : Option Fault) : Draft := { d with fault := f }

/-- The call changes nothing but the fault, and whatever is called from then on, every result is
refused for it until the draft is closed. -/
structure Session.Rejects (s : Session) (c : Call) (f : Fault) : Prop where
  run_eq : (c.run s).1 = s.withDraft (s.draft.withFault (some f))
  refuses : ∀ cs : List Call, (∀ x ∈ cs, x.isClosing = false) →
    (Call.runAll (c.run s).1 cs).1.Refuses (.invalid f)

/-! ### A fault stays -/

section
variable {s : Session} {h : List Flaw} {x : Flaw}

/-- A call that does not close the draft puts its flaws behind the others. -/
theorem Call.head?_flaws {c : Call} (hc : c.isClosing = false) (hx : h.head? = some x) :
    (c.flaws s h).head? = some x := by
  have happend : ∀ g : List Flaw, (h ++ g).head? = some x := fun g => by
    rw [List.head?_append, hx, Option.some_or]
  cases c with
  | require _ _ => exact happend _
  | requireAll _ _ => exact happend _
  | group _ _ => exact happend _
  | exist _ _ _ => exact happend _
  | membership _ _ _ _ => exact happend _
  | union _ _ => exact happend _
  | normalize => cases hc
  | select => cases hc
  | find => cases hc
  | findByKey _ => cases hc
  | _ => exact hx

theorem Call.head?_flawsAll {cs : List Call} (hcs : ∀ c ∈ cs, c.isClosing = false)
    (hx : h.head? = some x) : (Call.flawsAll s h cs).head? = some x := by
  induction cs generalizing s h with
  | nil => exact hx
  | cons c cs ih =>
    rw [List.forall_mem_cons] at hcs
    exact ih hcs.2 (Call.head?_flaws hcs.1 hx)

/-- A fault that is recorded is what all results are refused for. -/
theorem Session.refuses_runAll {f : Fault} (hf : s.draft.fault = some f) {cs : List Call}
    (hcs : ∀ c ∈ cs, c.isClosing = false) : (Call.runAll s cs).1.Refuses (.invalid f) := by
  have hbears : s.draft.Bears [⟨0, f⟩] := hf
  exact Session.refuses_of_bears (Call.bears_runAll s _ hbears cs)
    (Call.head?_flawsAll hcs (x := ⟨0, f⟩) rfl)

end

namespace Draft

variable {d e : Draft} {f : Fault}

/-- A condition and named parameters do not bear on whether a draft can be finished. -/
theorem finished_addCondition_bind (d : Draft) (ps : List Param) (k : Connective) (field : String)
    (c : Condition) :
    ((d.bind ps).addCondition k field c).finished = .error f ↔ d.finished = .error f := by
  rw [finished_eq_error_iff, finished_eq_error_iff]
  rfl

/-- What a criterion changes, but for the fault, does not depend on the fault. -/
theorem withFault_require (hde : d.withFault none = e.withFault none) (k : Connective)
    (c : Criterion) : (d.require k c).withFault none = (e.require k c).withFault none := by
  obtain ⟨g, rfl⟩ : ∃ g, e = d.withFault g := by
    refine ⟨e.fault, ?_⟩
    calc e = (e.withFault none).withFault e.fault := rfl
      _ = d.withFault e.fault := by
        rw [← hde]
        rfl
  unfold require
  cases c.read with
  | ok x => cases x <;> rfl
  | error f => rfl

theorem withFault_requireAll (hde : d.withFault none = e.withFault none) (k : Connective)
    (cs : List Criterion) :
    (d.requireAll k cs).withFault none = (e.requireAll k cs).withFault none := by
  induction cs generalizing d e with
  | nil => exact hde
  | cons c cs ih => exact ih (withFault_require hde k c)

end Draft

/-! ### Blank fields -/

section
variable {field : String}

/-- Whatever else is stated, the missing field is the fault. -/
theorem Criterion.read_stated_of_blank (hblank : Text.isBlank field = true) (op : Option String)
    (operand : Option Operand) (extra : List Param) :
    (stated field op operand extra).read = .error .blankField :=
  if_pos (of_decide_eq_true hblank)

/-- A condition that is ready is put on the field, whatever this is. -/
theorem Call.draft_run_of_placed? {s : Session} {c : Call} (hc : c.field? = some field)
    {k : Connective} {condition : Condition} (hplaced : c.placed? s = some (k, condition)) :
    ∃ ps, (c.run s).1.draft =
      (s.draft.bind ps).addCondition k (Text.trim field) condition := by
  cases c with
  | require j e =>
    cases e with
    | onField name ready =>
      cases hc
      cases hplaced
      refine ⟨[], ?_⟩
      rw [Draft.bind, List.append_nil]
      rfl
    | _ => cases hplaced
  | membership j name negated body =>
    cases hc
    refine ⟨(s.nested body).binds, ?_⟩
    show s.draft.adoptMembership j field negated (s.nested body) = _
    unfold Draft.adoptMembership Draft.adoptQuery
    cases hfinished : (s.nested body).finished with
    | ok doc =>
      rw [Call.placed?, hfinished] at hplaced
      cases hplaced
      rfl
    | error f =>
      rw [Call.placed?, hfinished] at hplaced
      cases hplaced
  | _ => cases hplaced

/-- Only a subquery that does not end well is a fault of a call that is not in words. -/
theorem Call.fault_run_ne_blankField {s : Session} (hfault : s.draft.fault = none) {c : Call}
    (hc : c.field? = some field) (hstated : c.isStated = false) :
    (c.run s).1.draft.fault ≠ some .blankField := by
  cases c with
  | require k e =>
    cases e with
    | stated _ _ _ _ => cases hstated
    | onField name ready =>
      show s.draft.fault ≠ _
      rw [hfault]
      exact nofun
    | raw _ _ => cases hc
  | membership k name negated body =>
    show (s.draft.adoptMembership k name negated (s.nested body)).fault ≠ _
    unfold Draft.adoptMembership Draft.adoptQuery
    cases (s.nested body).finished with
    | ok doc =>
      show s.draft.fault ≠ _
      rw [hfault]
      exact nofun
    | error f =>
      rw [Draft.fault_recordFault]
      show some (s.draft.fault.getD _) ≠ _
      rw [hfault]
      exact nofun
  | _ => cases hc

variable {s : Session} {c : Call}

/-- A call in words needs a field. -/
theorem Session.rejects_of_isStated (hfault : s.draft.fault = none)
    (hblank : Text.isBlank field = true) (hc : c.field? = some field)
    (hstated : c.isStated = true) : s.Rejects c .blankField := by
  cases c with
  | require k e =>
    cases e with
    | stated name op operand extra =>
      cases hc
      have hrun : ((Call.require k (.stated field op operand extra)).run s).1 =
          s.withDraft (s.draft.withFault (some .blankField)) := by
        rw [Call.run, Draft.require, Criterion.read_stated_of_blank hblank]
        show s.withDraft { s.draft with fault := s.draft.fault.or (some .blankField) } = _
        rw [hfault]
        rfl
      refine ⟨hrun, fun cs hcs => ?_⟩
      rw [hrun]
      exact Session.refuses_runAll rfl hcs
    | _ => cases hstated
  | _ => cases hstated

/-- A condition that is ready is declared behind those of its field, and is no fault. -/
theorem Session.declares_of_placed? (hc : c.field? = some field) {k : Connective}
    {condition : Condition} (hplaced : c.placed? s = some (k, condition)) :
    let t := (c.run s).1
    let conditions := s.draft.ledger.conditions k (Text.trim field) ++ [condition]
    (∀ f, t.draft.finished = .error f ↔ s.draft.finished = .error f) ∧
      .field (Text.trim field) conditions ∈ Filter.entries k t.draft.document.filter ∧
      t.draft.ledger.conditions k (Text.trim field) = conditions := by
  intro t conditions
  obtain ⟨ps, hdraft⟩ := Call.draft_run_of_placed? hc hplaced
  have ht : t.draft = (s.draft.bind ps).addCondition k (Text.trim field) condition := hdraft
  rw [ht]
  refine ⟨fun f => Draft.finished_addCondition_bind _ _ _ _ _,
    Draft.mem_entries_addCondition (s.draft.bind ps) k (Text.trim field) condition, ?_⟩
  show (s.draft.ledger.record k (Text.trim field) condition).conditions k (Text.trim field) =
    conditions
  rw [Ledger.conditions_record, if_pos ⟨rfl, rfl⟩]

/-- One of several criteria needs a field: it is left out, and the others are declared. -/
theorem Draft.requireAll_blank {e : Criterion} (hread : e.read = .error .blankField) (d : Draft)
    (k : Connective) (before after : List Criterion) :
    (d.requireAll k (before ++ e :: after)).withFault none =
      (d.requireAll k (before ++ after)).withFault none := by
  rw [requireAll, requireAll, List.foldl_append, List.foldl_append, List.foldl_cons]
  refine withFault_requireAll ?_ k after
  rw [require, hread]
  rfl

/-- There is a first fault if one of several criteria needs a field. It is this one, if those in
front of it are not at fault. -/
theorem Session.refuses_requireAll_blank {e : Criterion} (hread : e.read = .error .blankField)
    (hfault : s.draft.fault = none) (k : Connective) (before after : List Criterion) :
    ∃ f, (before.flatMap Criterion.flaws = [] → f = .blankField) ∧
      ∀ cs : List Call, (∀ x ∈ cs, x.isClosing = false) →
        (Call.runAll ((Call.requireAll k (before ++ e :: after)).run s).1 cs).1.Refuses
          (.invalid f) := by
  have hflaws : e.flaws = [⟨0, .blankField⟩] := by rw [Criterion.flaws, hread]
  have hclean : s.draft.Bears [] := hfault
  have hbears := Call.bears_run s [] hclean (.requireAll k (before ++ e :: after))
  rw [Call.flaws, List.nil_append, List.flatMap_append, List.flatMap_cons, hflaws] at hbears
  cases hbefore : before.flatMap Criterion.flaws with
  | nil =>
    rw [hbefore] at hbears
    exact ⟨.blankField, fun _ => rfl, fun cs hcs => Session.refuses_runAll hbears hcs⟩
  | cons x xs =>
    rw [hbefore] at hbears
    exact ⟨x.fault, nofun, fun cs hcs => Session.refuses_runAll hbears hcs⟩

/-- A blank field text is rejected by the calls in words, and by no others. Another call with its
condition ready declares it for the empty name, behind the conditions that stand there, and the
draft can be finished if it could be before. Of several criteria the one without a field is left out and
the others are declared; if those in front of it are not at fault, it is what all is refused for. -/
theorem Session.rejects_blank_iff_isStated (hfault : s.draft.fault = none)
    (hblank : Text.isBlank field = true) :
    (∀ c : Call, c.field? = some field →
      (s.Rejects c .blankField ↔ c.isStated = true) ∧
        ∀ k condition, c.placed? s = some (k, condition) →
          let t := (c.run s).1
          let conditions := s.draft.ledger.conditions k "" ++ [condition]
          (∀ f, t.draft.finished = .error f ↔ s.draft.finished = .error f) ∧
            .field "" conditions ∈ Filter.entries k t.draft.document.filter ∧
            t.draft.ledger.conditions k "" = conditions) ∧
      ∀ k before op operand extra after,
        let e := Criterion.stated field op operand extra
        let t := ((Call.requireAll k (before ++ e :: after)).run s).1
        t.draft.withFault none =
            ((Call.requireAll k (before ++ after)).run s).1.draft.withFault none ∧
          ∃ f, (before.flatMap Criterion.flaws = [] → f = .blankField) ∧
            ∀ cs : List Call, (∀ x ∈ cs, x.isClosing = false) →
              (Call.runAll t cs).1.Refuses (.invalid f) := by
  have htrim : Text.trim field = "" := of_decide_eq_true hblank
  refine ⟨fun c hc => ⟨⟨fun hrejects => ?isStated, Session.rejects_of_isStated hfault hblank hc⟩,
    fun k condition hplaced => ?placed⟩, fun k before op operand extra after => ?several⟩
  case isStated =>
    by_contra hnot
    have hne := Call.fault_run_ne_blankField hfault hc (Bool.eq_false_iff.2 hnot)
    rw [hrejects.run_eq] at hne
    exact hne rfl
  case placed =>
    have hdeclares := Session.declares_of_placed? hc hplaced
    rw [htrim] at hdeclares
    exact hdeclares
  case several =>
    have hread := Criterion.read_stated_of_blank hblank op operand extra
    exact ⟨Draft.requireAll_blank hread s.draft k before after,
      Session.refuses_requireAll_blank hread hfault k before after⟩

end

/-- A draft on a table, and nothing else. -/
def Session.tableSample : Session := ⟨Draft.bareSample, none⟩

/-- Tests for null with nothing to test: in words, as a condition that is ready, and among other
criteria. The second one goes into the statement. -/
theorem Session.rejects_blank_iff_isStated_nullSample :
    let s := Session.tableSample
    let blank := " \t"
    Text.isBlank blank = true ∧ s.draft.fault = none ∧
      s.Rejects (.require .and (.alone blank)) .blankField ∧
      ¬ s.Rejects (.require .and (.isNull blank)) .blankField ∧
      (∃ st, ((Call.require .and (.isNull blank)).run s).1.draft.select.1 = .ok st ∧
        st.sql = "SELECT * FROM t WHERE  IS NULL") ∧
      (Call.runAll ((Call.requireAll .and [.is "a" (.value (.int 1)), .alone blank]).run s).1
        [.declare (.comment "c")]).1.Refuses (.invalid .blankField) := by
  intro s blank
  have hblank : Text.isBlank blank = true := by decide
  obtain ⟨hcalls, hseveral⟩ :=
    Session.rejects_blank_iff_isStated (s := s) rfl hblank
  obtain ⟨-, f, hf, hrefuses⟩ :=
    hseveral .and [.is "a" (.value (.int 1))] none none [] []
  obtain rfl : f = .blankField := hf (by rfl)
  refine ⟨hblank, rfl, (hcalls (.require .and (.alone blank)) rfl).1.2 rfl,
    fun h => absurd ((hcalls (.require .and (.isNull blank)) rfl).1.1 h) nofun,
    ⟨_, rfl, by decide +kernel⟩, hrefuses _ ?_⟩
  rw [List.forall_mem_singleton]
  rfl

end SqlSelect
