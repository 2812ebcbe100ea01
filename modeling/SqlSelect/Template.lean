import SqlSelect.Layout
import SqlSelect.Text.Split

/-!
# Templates

The order of the clauses is given by a template, in which the name of a clause stands between two
percent signs.

* `Slot.name`, `Slot.ofName?`: the names of the clauses;
* `Template.select`: the template of a SELECT statement;
* `Template.fill`: a template with its places filled.

The places are found from the left, and the search goes on in the template behind each of them.
-/

namespace SqlSelect

namespace Slot

/-- The name of a clause in a template. -/
def name : Slot → String
  | distinct => "DISTINCT"
  | fields => "FIELD"
  | tables => "TABLE"
  | forced => "FORCE"
  | joins => "JOIN"
  | filter => "WHERE"
  | group => "GROUP"
  | having => "HAVING"
  | unions => "UNION"
  | order => "ORDER"
  | limit => "LIMIT"
  | lock => "LOCK"
  | comment => "COMMENT"

/-- The clause that a name stands for. -/
def ofName? : String → Option Slot
  | "DISTINCT" => some distinct
  | "FIELD" => some fields
  | "TABLE" => some tables
  | "FORCE" => some forced
  | "JOIN" => some joins
  | "WHERE" => some filter
  | "GROUP" => some group
  | "HAVING" => some having
  | "UNION" => some unions
  | "ORDER" => some order
  | "LIMIT" => some limit
  | "LOCK" => some lock
  | "COMMENT" => some comment
  | _ => none

theorem ofName?_name (s : Slot) : ofName? s.name = some s := by cases s <;> rfl

theorem percent_not_mem_name (s : Slot) : '%' ∉ s.name.toList := by cases s <;> decide

end Slot

namespace Template

/-- The template of a SELECT statement. -/
def select : String :=
  "SELECT%DISTINCT% %FIELD% FROM %TABLE%%FORCE%%JOIN%%WHERE%%GROUP%%HAVING%%UNION%%ORDER%" ++
    "%LIMIT%%LOCK%%COMMENT%"

/-- Characters of a template that are written as they stand. -/
def literal (cs : List Char) : Fragment := if cs = [] then [] else .ofText (String.ofList cs)

/-- The characters of a template with the clauses in their places. Of a name that no clause has the
first percent sign is written as it stands, and the second may begin a place. -/
def fillChars (clause : Slot → Fragment) (cs : List Char) : Fragment :=
  match h : Chars.splitFirst? '%' cs with
  | none => literal cs
  | some (before, after) =>
    have := Chars.length_lt_of_splitFirst? h
    match h : Chars.splitFirst? '%' after with
    | none => literal cs
    | some (name, rest) =>
      have := Chars.length_lt_of_splitFirst? h
      match Slot.ofName? (String.ofList name) with
      | some slot => literal before ++ clause slot ++ fillChars clause rest
      | none => literal (before ++ ['%']) ++ fillChars clause after
  termination_by cs.length

/-- The template with the clauses in their places. -/
def fill (clause : Slot → Fragment) (template : String) : Fragment :=
  fillChars clause template.toList

/-! ### Filling a template -/

variable (clause : Slot → Fragment)

/-- Without a percent sign there is no place. -/
theorem fillChars_of_not_mem {cs : List Char} (h : '%' ∉ cs) : fillChars clause cs = literal cs := by
  have hnone := Chars.splitFirst?_eq_none_iff.2 h
  rw [fillChars]
  split
  · rfl
  · next before after hfirst =>
    rw [hnone] at hfirst
    cases hfirst

/-- A percent sign without another behind it begins no place. -/
theorem fillChars_of_lone {word after : List Char} (hword : '%' ∉ word) (hafter : '%' ∉ after) :
    fillChars clause (word ++ '%' :: after) = literal (word ++ '%' :: after) := by
  have hcut := Chars.splitFirst?_append_cons hword after
  have hnone := Chars.splitFirst?_eq_none_iff.2 hafter
  rw [fillChars]
  split
  · rfl
  · next before after hfirst =>
    rw [hcut] at hfirst
    cases hfirst
    split
    · rfl
    · next name rest hsecond =>
      rw [hnone] at hsecond
      cases hsecond

/-- A name between two percent signs is looked up. -/
theorem fillChars_of_name {word name : List Char} (hword : '%' ∉ word) (hname : '%' ∉ name)
    (rest : List Char) : fillChars clause (word ++ '%' :: (name ++ '%' :: rest)) =
      match Slot.ofName? (String.ofList name) with
      | some slot => literal word ++ clause slot ++ fillChars clause rest
      | none => literal (word ++ ['%']) ++ fillChars clause (name ++ '%' :: rest) := by
  have hcut := Chars.splitFirst?_append_cons hword (name ++ '%' :: rest)
  have hagain := Chars.splitFirst?_append_cons hname rest
  rw [fillChars]
  split
  · next hfirst =>
    rw [hcut] at hfirst
    cases hfirst
  · next before after hfirst =>
    rw [hcut] at hfirst
    cases hfirst
    split
    · next hsecond =>
      rw [hagain] at hsecond
      cases hsecond
    · next name' rest' hsecond =>
      rw [hagain] at hsecond
      cases hsecond
      rfl

/-- The first place is filled, and the search goes on behind it. -/
theorem fillChars_place {word : List Char} (hword : '%' ∉ word) (slot : Slot) (rest : List Char) :
    fillChars clause (word ++ '%' :: (slot.name.toList ++ '%' :: rest)) =
      literal word ++ clause slot ++ fillChars clause rest := by
  rw [fillChars_of_name clause hword slot.percent_not_mem_name, String.ofList_toList,
    Slot.ofName?_name]

/-- The template in which each word stands in front of the place of a clause. -/
def text (places : List (String × Slot)) : List Char :=
  places.flatMap fun p => p.1.toList ++ '%' :: (p.2.name.toList ++ ['%'])

/-- Each word is written, and the clause behind it. -/
theorem fillChars_text {places : List (String × Slot)} (h : ∀ p ∈ places, '%' ∉ p.1.toList) :
    fillChars clause (text places) =
      places.flatMap fun p => literal p.1.toList ++ clause p.2 := by
  induction places with
  | nil => exact fillChars_of_not_mem clause List.not_mem_nil
  | cons p places ih =>
    obtain ⟨hp, hplaces⟩ := List.forall_mem_cons.1 h
    have hcons : text (p :: places) =
        p.1.toList ++ '%' :: (p.2.name.toList ++ '%' :: text places) := by
      simp [text]
    rw [hcons, fillChars_place clause hp, ih hplaces, List.flatMap_cons]

/-- The words of the template of a SELECT statement, each with the clause behind it. -/
def places : List (String × Slot) :=
  [("SELECT", .distinct), (" ", .fields), (" FROM ", .tables), ("", .forced), ("", .joins),
   ("", .filter), ("", .group), ("", .having), ("", .unions), ("", .order), ("", .limit),
   ("", .lock), ("", .comment)]

/-- The template of a SELECT statement is filled with its clauses in the order of the layout. -/
theorem fill_select : fill clause select = Layout.fill clause Layout.select := by
  have htext : select.toList = text places := by decide +kernel
  rw [fill, htext, fillChars_text clause (by decide)]
  rfl

end Template

end SqlSelect
