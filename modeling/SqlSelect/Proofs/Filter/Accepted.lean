import Mathlib
import SqlSelect.Filter

/-!
# The WHERE clause of accepted declarations

What a WHERE clause should be, told from the declarations alone and not from the way in which it is
built up.

* `Accepted`: a declaration that was accepted: a condition on a field, or an entry that stands for
  itself;
* `Accepted.conditions k f`: all conditions on the field `f` under the connective `k`;
* `Accepted.entries k`: the entries under `k`. Each field has one, at its first declaration, with
  all of its conditions;
* `Filter.ofAccepted`: the clause: each connective once, in the order of first use.

`Filter.ofAccepted_append_whole` and `Filter.ofAccepted_append_onField` say how one more declaration
changes the clause, and these are the operations by which a draft changes it.
-/

namespace SqlSelect

/-- Is the entry none of a field? -/
def Entry.isWhole : Entry → Bool
  | .field _ _ => false
  | _ => true

/-- The field of the entry, if it is one of a field. -/
def Entry.fieldName? : Entry → Option String
  | .field name _ => some name
  | _ => none

/-- A declaration that was accepted. -/
inductive Accepted
  /-- A condition on a field. -/
  | onField (k : Connective) (field : String) (c : Condition)
  /-- An entry that stands for itself. -/
  | whole (k : Connective) (e : Entry) (h : e.isWhole = true)

namespace Accepted

/-- The connective under which the declaration was made. -/
def connective : Accepted → Connective
  | onField k _ _ => k
  | whole k _ _ => k

/-- The condition of the declaration, if it is one on the field under the connective. -/
def condition? (k : Connective) (field : String) : Accepted → Option Condition
  | onField j f c => if j = k ∧ f = field then some c else none
  | whole _ _ _ => none

/-- All conditions on a field under a connective. -/
def conditions (k : Connective) (field : String) (h : List Accepted) : List Condition :=
  h.filterMap (condition? k field)

/-- The entries under a connective, of fields with the conditions that `conditions` gives them. The
fields in `seen` have had their entry. -/
def entriesFrom (k : Connective) (conditions : String → List Condition) :
    List String → List Accepted → List Entry
  | _, [] => []
  | seen, .onField j f _ :: h =>
    if j = k ∧ f ∉ seen then .field f (conditions f) :: entriesFrom k conditions (f :: seen) h
    else entriesFrom k conditions seen h
  | seen, .whole j e _ :: h =>
    if j = k then e :: entriesFrom k conditions seen h else entriesFrom k conditions seen h

/-- The entries under a connective. -/
def entries (k : Connective) (h : List Accepted) : List Entry :=
  entriesFrom k (fun f => conditions k f h) [] h

/-- The connectives in the order of their first use. -/
def connectives (h : List Accepted) : List Connective := (h.map connective).eraseDups

/-! ### One more declaration -/

variable {k : Connective} {f : String} {h : List Accepted} {a : Accepted}

@[simp] theorem conditions_append (k : Connective) (f : String) (h g : List Accepted) :
    conditions k f (h ++ g) = conditions k f h ++ conditions k f g := by
  simp [conditions]

@[simp] theorem conditions_whole (k j : Connective) (f : String) (e : Entry)
    (he : e.isWhole = true) : conditions k f [.whole j e he] = [] := rfl

theorem conditions_onField (k j : Connective) (f g : String) (c : Condition) :
    conditions k f [.onField j g c] = if j = k ∧ g = f then [c] else [] := by
  by_cases hj : j = k ∧ g = f <;> simp [conditions, condition?, hj]

/-- Under another connective nothing changes. -/
theorem conditions_append_of_ne (hk : a.connective ≠ k) (f : String) :
    conditions k f (h ++ [a]) = conditions k f h := by
  cases a with
  | onField j g c =>
    have hj : ¬(j = k ∧ g = f) := fun e => hk e.1
    simp [conditions_onField, hj]
  | whole j e he => simp

/-- Only the conditions of fields that are not seen yet matter. -/
theorem entriesFrom_congr {C D : String → List Condition} {seen : List String}
    (hC : ∀ f, f ∉ seen → C f = D f) : entriesFrom k C seen h = entriesFrom k D seen h := by
  induction h generalizing seen with
  | nil => rfl
  | cons a h ih =>
    cases a with
    | onField j f c =>
      rw [entriesFrom, entriesFrom]
      split
      · next hf =>
        rw [hC f hf.2, ih fun g hg => hC g fun hm => hg (List.mem_cons_of_mem _ hm)]
      · exact ih hC
    | whole j e he =>
      rw [entriesFrom, entriesFrom]
      split
      · rw [ih hC]
      · exact ih hC

theorem entriesFrom_append_of_ne {C : String → List Condition} {seen : List String}
    (hk : a.connective ≠ k) : entriesFrom k C seen (h ++ [a]) = entriesFrom k C seen h := by
  induction h generalizing seen with
  | nil =>
    cases a with
    | onField j f c =>
      have hj : ¬(j = k ∧ f ∉ seen) := fun e => hk e.1
      simp [entriesFrom, hj]
    | whole j e he =>
      have hj : j ≠ k := hk
      simp [entriesFrom, hj]
  | cons b h ih => cases b <;> simp only [List.cons_append, entriesFrom, ih]

theorem entries_append_of_ne (hk : a.connective ≠ k) : entries k (h ++ [a]) = entries k h := by
  rw [entries, entriesFrom_append_of_ne hk]
  exact entriesFrom_congr fun f _ => conditions_append_of_ne hk f

theorem entriesFrom_append_whole {C : String → List Condition} {seen : List String} {e : Entry}
    (he : e.isWhole = true) :
    entriesFrom k C seen (h ++ [.whole k e he]) = entriesFrom k C seen h ++ [e] := by
  induction h generalizing seen with
  | nil => simp [entriesFrom]
  | cons b h ih =>
    cases b with
    | onField j f c =>
      simp only [List.cons_append, entriesFrom, ih]
      split <;> rfl
    | whole j e' he' =>
      simp only [List.cons_append, entriesFrom, ih]
      split <;> rfl

/-- An entry that stands for itself comes behind the others. -/
theorem entries_append_whole {e : Entry} (he : e.isWhole = true) :
    entries k (h ++ [.whole k e he]) = entries k h ++ [e] := by
  rw [entries, entriesFrom_append_whole]
  congr 1
  exact entriesFrom_congr fun f _ => by simp

/-- One more condition on a field that has had its entry adds none. -/
theorem entriesFrom_append_of_mem {C : String → List Condition} {seen : List String} {c : Condition}
    (hf : f ∈ seen) :
    entriesFrom k C seen (h ++ [.onField k f c]) = entriesFrom k C seen h := by
  induction h generalizing seen with
  | nil => simp [entriesFrom, hf]
  | cons b h ih =>
    cases b with
    | onField j g d =>
      simp only [List.cons_append, entriesFrom, ih hf, ih (List.mem_cons_of_mem g hf)]
    | whole j e he => simp only [List.cons_append, entriesFrom, ih hf]

/-- Behind an entry of its own, or a whole one, a field is looked for further on. -/
theorem putFieldEntry_cons {e : Entry} (he : ∀ cs, e ≠ .field f cs) (cs : List Condition)
    (es : List Entry) :
    Filter.putFieldEntry f cs (e :: es) = e :: Filter.putFieldEntry f cs es := by
  cases e with
  | field g ds =>
    have hg : g ≠ f := by
      rintro rfl
      exact he ds rfl
    simp [Filter.putFieldEntry, hg]
  | raw sql binds => rfl
  | group bs => rfl
  | exist query negated => rfl

/-- One more condition on a field is put in at its entry, or makes one at the end. -/
theorem entriesFrom_append_onField {C D : String → List Condition} {seen : List String}
    {c : Condition} (hf : f ∉ seen) (hD : ∀ g, g ≠ f → D g = C g) :
    entriesFrom k D seen (h ++ [.onField k f c]) =
      Filter.putFieldEntry f (D f) (entriesFrom k C seen h) := by
  induction h generalizing seen with
  | nil => simp [entriesFrom, hf, Filter.putFieldEntry]
  | cons b h ih =>
    cases b with
    | onField j g d =>
      simp only [List.cons_append, entriesFrom]
      split
      · next hg =>
        by_cases hgf : g = f
        · subst hgf
          -- the entry of the field itself; what stands behind it does not change
          have hrest : entriesFrom k D (g :: seen) h = entriesFrom k C (g :: seen) h :=
            entriesFrom_congr fun x hx => hD x fun e => hx (e ▸ List.mem_cons_self)
          simp [Filter.putFieldEntry, entriesFrom_append_of_mem, hrest]
        · have hseen : f ∉ g :: seen := by simpa [Ne.symm hgf] using hf
          rw [ih hseen, hD g hgf, putFieldEntry_cons]
          rintro cs ⟨⟩
          exact hgf rfl
      · exact ih hf
    | whole j e he =>
      simp only [List.cons_append, entriesFrom]
      split
      · rw [ih hf, putFieldEntry_cons]
        rintro cs rfl
        exact absurd he (by simp [Entry.isWhole])
      · exact ih hf

theorem entries_append_onField (c : Condition) :
    entries k (h ++ [.onField k f c]) =
      Filter.putFieldEntry f (conditions k f h ++ [c]) (entries k h) := by
  have hD : ∀ g, g ≠ f →
      conditions k g (h ++ [.onField k f c]) = conditions k g h := by
    intro g hg
    simp [conditions_onField, Ne.symm hg]
  rw [entries, entriesFrom_append_onField List.not_mem_nil hD]
  simp [conditions_onField, entries]

/-! ### One entry for each field -/

/-- The entry of a field holds all conditions on the field, and a field without any has none. -/
theorem field_mem_entriesFrom {C : String → List Condition} {seen : List String}
    {cs : List Condition} :
    .field f cs ∈ entriesFrom k C seen h ↔ f ∉ seen ∧ cs = C f ∧ conditions k f h ≠ [] := by
  induction h generalizing seen with
  | nil => simp [entriesFrom, conditions]
  | cons a h ih =>
    have hcons : conditions k f (a :: h) = conditions k f [a] ++ conditions k f h :=
      conditions_append k f [a] h
    cases a with
    | onField j g c =>
      rw [entriesFrom, hcons, conditions_onField]
      by_cases hgf : g = f
      · subst hgf
        by_cases hj : j = k <;> by_cases hg : g ∈ seen <;> simp [hj, hg, ih]
      · split
        · simp [ih, hgf, Ne.symm hgf]
        · simp [ih, hgf]
    | whole j e he =>
      have hne : .field f cs ≠ e := by
        rintro rfl
        exact absurd he (by simp [Entry.isWhole])
      rw [entriesFrom, hcons, conditions_whole]
      split <;> simp [ih, hne]

theorem field_mem_entries {cs : List Condition} :
    .field f cs ∈ entries k h ↔ cs = conditions k f h ∧ cs ≠ [] := by
  rw [entries, field_mem_entriesFrom]
  constructor
  · rintro ⟨-, rfl, hne⟩
    exact ⟨rfl, hne⟩
  · rintro ⟨rfl, hne⟩
    exact ⟨List.not_mem_nil, rfl, hne⟩

theorem nodup_fieldNames_entriesFrom {C : String → List Condition} {seen : List String} :
    ((entriesFrom k C seen h).filterMap Entry.fieldName?).Nodup := by
  induction h generalizing seen with
  | nil => simp [entriesFrom]
  | cons a h ih =>
    cases a with
    | onField j f c =>
      rw [entriesFrom]
      split
      · -- the field is seen now, so that no entry further on is its own
        have hf : f ∉ (entriesFrom k C (f :: seen) h).filterMap Entry.fieldName? := by
          intro hm
          obtain ⟨e, he, hname⟩ := List.mem_filterMap.1 hm
          cases e with
          | field g cs =>
            obtain rfl : g = f := by simpa [Entry.fieldName?] using hname
            exact (field_mem_entriesFrom.1 he).1 List.mem_cons_self
          | _ => simp [Entry.fieldName?] at hname
        exact List.nodup_cons.2 ⟨hf, ih⟩
      · exact ih
    | whole j e he =>
      have hname : e.fieldName? = none := by cases e <;> simp_all [Entry.isWhole, Entry.fieldName?]
      rw [entriesFrom]
      split
      · simpa [hname] using ih
      · exact ih

/-- No field has two entries. -/
theorem nodup_fieldNames_entries (k : Connective) (h : List Accepted) :
    ((entries k h).filterMap Entry.fieldName?).Nodup :=
  nodup_fieldNames_entriesFrom

end Accepted

/-! ### The clause -/

namespace Filter

open Accepted

/-- The WHERE clause of accepted declarations. -/
def ofAccepted (h : List Accepted) : List Branch :=
  (connectives h).map fun k => ⟨k, Accepted.entries k h⟩

variable {k : Connective} {h : List Accepted} {a : Accepted}

theorem mem_connectives : k ∈ connectives h ↔ ∃ a ∈ h, a.connective = k := by
  simp [connectives]

/-- A connective comes last when it is used first. -/
theorem connectives_append (h : List Accepted) (a : Accepted) :
    connectives (h ++ [a]) =
      if a.connective ∈ connectives h then connectives h else connectives h ++ [a.connective] := by
  have hmem : a.connective ∈ connectives h ↔ a.connective ∈ h.map connective := by
    simp [connectives]
  rw [connectives, List.map_append, List.eraseDups_append]
  by_cases hk : a.connective ∈ connectives h
  · have hin := hmem.1 hk
    simp only [List.map_cons, List.map_nil, List.removeAll, hk, if_true]
    simp_all [connectives]
  · have hin : a.connective ∉ h.map connective := fun hm => hk (hmem.2 hm)
    simp only [List.map_cons, List.map_nil, List.removeAll, hk, if_false]
    simp_all [connectives, List.eraseDups_cons]

/-- What is kept of a list without its repetitions has none. -/
theorem nodup_eraseDups (ks : List Connective) : ks.eraseDups.Nodup := by
  match ks with
  | [] => exact List.nodup_nil
  | k :: ks =>
    rw [List.eraseDups_cons, List.nodup_cons]
    exact ⟨by simp, nodup_eraseDups _⟩
  termination_by ks.length
  decreasing_by
    have := List.length_filter_le (fun j => !j == k) ks
    simp only [List.length_cons]
    omega

/-- No connective comes twice. -/
theorem nodup_connectives (h : List Accepted) : (connectives h).Nodup := nodup_eraseDups _

theorem entriesFrom_eq_nil {C : String → List Condition} {seen : List String}
    (hk : ∀ a ∈ h, a.connective ≠ k) : entriesFrom k C seen h = [] := by
  induction h generalizing seen with
  | nil => rfl
  | cons a h ih =>
    obtain ⟨ha, hh⟩ := List.forall_mem_cons.1 hk
    cases a with
    | onField j f c =>
      have hj : ¬(j = k ∧ f ∉ seen) := fun e => ha e.1
      rw [entriesFrom, if_neg hj, ih hh]
    | whole j e he =>
      have hj : j ≠ k := ha
      rw [entriesFrom, if_neg hj, ih hh]

theorem entries_eq_nil (hk : k ∉ connectives h) : Accepted.entries k h = [] :=
  entriesFrom_eq_nil fun a ha e => hk (mem_connectives.2 ⟨a, ha, e⟩)

/-- Changing the entries under a connective that has a branch. -/
theorem update_map_of_mem {ks : List Connective} (hks : ks.Nodup) (hk : k ∈ ks)
    (E : Connective → List Entry) (g : List Entry → List Entry) :
    update k g (ks.map fun j => ⟨j, E j⟩) =
      ks.map fun j => ⟨j, if j = k then g (E j) else E j⟩ := by
  induction ks with
  | nil => exact absurd hk List.not_mem_nil
  | cons j ks ih =>
    obtain ⟨hj, hks⟩ := List.nodup_cons.1 hks
    by_cases hjk : j = k
    · subst hjk
      have hrest : ∀ i ∈ ks, i ≠ j := fun i hi e => hj (e ▸ hi)
      simp +contextual [update, hrest]
    · have hk : k ∈ ks := (List.mem_cons.1 hk).resolve_left (Ne.symm hjk)
      simp [update, hjk, ih hks hk]

/-- Changing the entries under a connective that has no branch gives it one at the end. -/
theorem update_map_of_not_mem {ks : List Connective} (hk : k ∉ ks)
    (E : Connective → List Entry) (g : List Entry → List Entry) :
    update k g (ks.map fun j => ⟨j, E j⟩) = ks.map (fun j => ⟨j, E j⟩) ++ [⟨k, g []⟩] := by
  induction ks with
  | nil => rfl
  | cons j ks ih =>
    have hjk : j ≠ k := fun e => hk (e ▸ List.mem_cons_self)
    simp [update, hjk, ih fun hm => hk (List.mem_cons_of_mem _ hm)]

/-- One more declaration changes the entries under its connective and nothing else. -/
theorem ofAccepted_append {g : List Entry → List Entry}
    (hg : Accepted.entries a.connective (h ++ [a]) = g (Accepted.entries a.connective h)) :
    ofAccepted (h ++ [a]) = update a.connective g (ofAccepted h) := by
  have hne : ∀ j, j ≠ a.connective → Accepted.entries j (h ++ [a]) = Accepted.entries j h :=
    fun j hj => entries_append_of_ne (Ne.symm hj)
  rw [ofAccepted, ofAccepted, connectives_append]
  split
  · next hk =>
    rw [update_map_of_mem (nodup_connectives h) hk]
    refine List.map_congr_left fun j _ => ?_
    by_cases hj : j = a.connective
    · rw [if_pos hj, hj, hg]
    · rw [if_neg hj, hne j hj]
  · next hk =>
    have hmap : ∀ j ∈ connectives h, (⟨j, Accepted.entries j (h ++ [a])⟩ : Branch) =
        ⟨j, Accepted.entries j h⟩ := by
      intro j hj
      rw [hne j fun e => hk (e ▸ hj)]
    rw [update_map_of_not_mem hk, List.map_append, List.map_congr_left hmap, List.map_cons,
      List.map_nil, hg, entries_eq_nil hk]

/-- An entry that stands for itself is pushed. -/
theorem ofAccepted_append_whole {e : Entry} (he : e.isWhole = true) :
    ofAccepted (h ++ [.whole k e he]) = push k e (ofAccepted h) :=
  ofAccepted_append (entries_append_whole he)

/-- A condition on a field is put in with all those that the field has. -/
theorem ofAccepted_append_onField (f : String) (c : Condition) :
    ofAccepted (h ++ [.onField k f c]) =
      putField k f (conditions k f h ++ [c]) (ofAccepted h) :=
  ofAccepted_append (entries_append_onField c)

theorem entries_cons (k : Connective) (b : Branch) (bs : List Branch) :
    entries k (b :: bs) = if b.connective = k then b.entries else entries k bs := by
  by_cases hb : b.connective = k
  · simp [entries, hb]
  · simp [entries, hb, beq_false_of_ne hb]

/-- The entries of the clause under a connective. -/
theorem entries_ofAccepted (k : Connective) (h : List Accepted) :
    entries k (ofAccepted h) = Accepted.entries k h := by
  -- for any connectives, since those of the declarations are not closed under taking the tail
  have hfind : ∀ ks : List Connective,
      entries k (ks.map fun j => ⟨j, Accepted.entries j h⟩) =
        if k ∈ ks then Accepted.entries k h else [] := by
    intro ks
    induction ks with
    | nil => rfl
    | cons j ks ih =>
      rw [List.map_cons, entries_cons, ih]
      by_cases hj : j = k
      · simp [hj]
      · simp [hj, Ne.symm hj]
  rw [ofAccepted, hfind]
  split
  · rfl
  · next hk => rw [entries_eq_nil hk]

/-- The clause is empty only if nothing was accepted. -/
theorem isEmpty_ofAccepted (h : List Accepted) : isEmpty (ofAccepted h) = h.isEmpty := by
  cases h with
  | nil => rfl
  | cons a h =>
    have hentries : Accepted.entries a.connective (a :: h) ≠ [] := by
      cases a <;> simp [Accepted.entries, entriesFrom, connective]
    simp [isEmpty, ofAccepted, connectives, List.eraseDups_cons, hentries]

end Filter

end SqlSelect
