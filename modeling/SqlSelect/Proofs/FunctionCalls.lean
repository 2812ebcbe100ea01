import SqlSelect.Proofs.Backticks.Identifiers
import SqlSelect.Proofs.Equalities

/-!
# Calls of functions in an order

An order in words is a list, and is cut at each of its commas before any of its items is read. A
call with several arguments has commas of its own.

* `SortDirection.Spelling`: a direction as it is written, in any case;
* `FunctionCall`: a call as it is written in an order, perhaps with a direction;
* `FunctionCall.map_ofText_items`: what an order makes of a call with several arguments;
* `FunctionCall.Survives`: the clause says what it says if the call is given as raw SQL;
* `FunctionCall.survives_iff`: which calls survive.
-/

namespace SqlSelect

/-! ### Directions -/

/-- A direction as it is written. -/
structure SortDirection.Spelling where
  word : String
  direction : SortDirection
  parse?_word : SortDirection.parse? word = some direction

namespace SortDirection.Spelling

/-- The direction as a clause has it. -/
def standard (x : Spelling) : Spelling :=
  ⟨x.direction.keyword, x.direction, by cases x.direction <;> decide⟩

variable (x : Spelling)

/-- All spellings differ in case only. -/
theorem lowerAscii_word : Text.lowerAscii x.word = Text.lowerAscii x.direction.keyword := by
  have hasc : Text.lowerAscii "asc" = Text.lowerAscii "ASC" := by decide
  have hdesc : Text.lowerAscii "desc" = Text.lowerAscii "DESC" := by decide
  obtain ⟨word, direction, h⟩ := x
  rw [parse?, Text.equalsIgnoringCase, Text.equalsIgnoringCase, hasc, hdesc] at h
  split at h
  · next hword =>
    cases h
    exact eq_of_beq hword
  · split at h
    · next hword =>
      cases h
      exact eq_of_beq hword
    · cases h

theorem length_word : x.word.toList.length = x.direction.keyword.toList.length := by
  have hlength := congrArg (fun s => s.toList.length) x.lowerAscii_word
  simpa [Text.lowerAscii, Chars.lowerAscii] using hlength

theorem isOver_word : Text.IsOver Char.isAlpha x.word := by
  have hkeyword : Text.IsOver Char.isAlpha (Text.lowerAscii x.direction.keyword) := by
    cases x.direction <;> decide
  intro c hc
  have hmem : c.toLower ∈ (Text.lowerAscii x.direction.keyword).toList := by
    rw [← x.lowerAscii_word, Text.lowerAscii, String.toList_ofList]
    exact List.mem_map_of_mem hc
  exact Chars.isAlpha_of_toLower (hkeyword _ hmem)

theorem isWord : Text.IsWord x.word := by
  refine ⟨fun hempty => ?_, ?_⟩
  · have h := x.parse?_word
    rw [hempty] at h
    cases h
  · rw [Text.hasWhiteSpace, List.any_eq_false]
    intro c hc
    have hplain : Name.isPlainChar c = true := by
      simp [Name.isPlainChar, Char.isAlphanum, x.isOver_word c hc]
    rw [(Name.not_special_of_isPlainChar hplain).1]
    exact Bool.false_ne_true

end SortDirection.Spelling

/-! ### Items with a direction -/

namespace OrderItem

open SortDirection (Spelling)

/-- What stands behind a field. -/
def ending : Option Spelling → String
  | some x => " " ++ x.word
  | none => ""

variable {gap w : String} {direction direction' : Option Spelling}

theorem not_mem_ending {c : Char} (hletter : c.isAlpha = false) (hspace : c ≠ ' ')
    (direction : Option Spelling) : c ∉ (ending direction).toList := by
  cases direction with
  | none => exact List.not_mem_nil
  | some x =>
    have hmem : c ∉ x.word.toList := fun hmem => by
      rw [x.isOver_word c hmem] at hletter
      cases hletter
    simpa [ending] using ⟨hspace, hmem⟩

/-- Spellings of one direction can be taken off the end. -/
theorem eq_of_append_ending {s t : String}
    (h : direction.map Spelling.direction = direction'.map Spelling.direction)
    (he : (s ++ ending direction).toList = (t ++ ending direction').toList) : s = t := by
  have hlength : (ending direction).toList.length = (ending direction').toList.length := by
    cases direction <;> cases direction'
    case none.none => rfl
    case some.some x y =>
      have hxy : x.direction = y.direction := Option.some.inj h
      simp [ending, x.length_word, y.length_word, hxy]
    all_goals cases h
  rw [String.toList_append, String.toList_append] at he
  exact String.toList_inj.1 (List.append_inj_left' he hlength)

theorem words_append_ending (hgap : Text.IsOver Chars.isWhiteSpace gap) (hw : Text.IsWord w)
    (direction : Option Spelling) :
    Text.words (gap ++ (w ++ ending direction)) = w :: (direction.map Spelling.word).toList := by
  have hword := Chars.words_of_isWord (Text.isWord_iff.1 hw)
  rw [Text.words, String.toList_append, Chars.words_blank_append hgap]
  cases direction with
  | none => simp [ending, hword]
  | some x =>
    have hchars : (w ++ ending (some x)).toList = w.toList ++ ' ' :: x.word.toList := by
      simp [ending]
    rw [hchars, Chars.words_append_cons (by decide), hword,
      Chars.words_of_isWord (Text.isWord_iff.1 x.isWord)]
    simp

/-- A word with a direction is read as a field. -/
theorem ofText_trim (hgap : Text.IsOver Chars.isWhiteSpace gap) (hw : Text.IsWord w)
    (direction : Option Spelling) : ofText (Text.trim (gap ++ (w ++ ending direction))) =
      .field w (direction.map Spelling.direction) := by
  rw [ofText, Text.words_trim, words_append_ending hgap hw]
  cases direction with
  | none => rfl
  | some x => simp [x.parse?_word]

theorem map_ofText_items (hgap : Text.IsOver Chars.isWhiteSpace gap) (hw : Text.IsWord w)
    (hcomma : ',' ∉ (gap ++ (w ++ ending direction)).toList) :
    (Text.items ',' (gap ++ (w ++ ending direction))).map ofText =
      [.field w (direction.map Spelling.direction)] := by
  have hwords := Text.words_eq_iff.1 (words_append_ending hgap hw direction)
  rw [Text.items_of_not_mem hcomma hwords.trim_ne_empty, List.map_singleton, ofText_trim hgap hw]

theorem front_append_ending (hw : Text.IsWord w) (direction : Option Spelling) :
    ∀ c ∈ (w ++ ending direction).toList.head?, Chars.isWhiteSpace c = false := by
  have hchars := Text.isWord_iff.1 hw
  rw [String.toList_append]
  exact Chars.front_append (fun c hc => hchars.noSpace c (List.mem_of_mem_head? hc))
    fun hnil => absurd hnil hchars.ne_nil

end OrderItem

/-- A field is written with the keyword of its direction. -/
theorem Scope.orderItem_field (s : Scope) (name : String)
    (direction : Option SortDirection.Spelling) :
    s.orderItem (.field name (direction.map (·.direction))) =
      s.key name ++ OrderItem.ending (direction.map (·.standard)) := by
  cases direction with
  | none => exact (String.append_empty ..).symm
  | some x => exact String.append_assoc ..

/-! ### Calls -/

/-- Digits, perhaps with a sign in front of them. -/
inductive Numeral.IsInteger : String → Prop
  | digits {digits : String} (hne : digits ≠ "") (hdigits : Text.IsOver Char.isDigit digits) :
    IsInteger digits
  | signed {sign digits : String} (hsign : sign ∈ ["-", "+"]) (hne : digits ≠ "")
    (hdigits : Text.IsOver Char.isDigit digits) : IsInteger (sign ++ digits)

namespace FunctionCall

/-- An argument of a call. -/
structure Argument where
  text : String
  isArgument : Name.IsIdentifier text ∨ Numeral.IsInteger text

/-- An argument with the white space between a comma and it. -/
structure FurtherArgument extends Argument where
  gap : String
  isBlank : Text.IsOver Chars.isWhiteSpace gap

/-- The argument behind the white space. -/
def FurtherArgument.written (a : FurtherArgument) : String := a.gap ++ a.text

end FunctionCall

/-- A call of a function as it can be written in an order, perhaps with a direction behind it. -/
structure FunctionCall where
  name : String
  first : FunctionCall.Argument
  others : List FunctionCall.FurtherArgument
  direction : Option SortDirection.Spelling
  name_isWord : Text.IsWordWithout [','] name

namespace FunctionCall

open OrderItem (ending)
open SortDirection (Spelling)

/-- The name and the arguments. -/
def expr (f : FunctionCall) : String :=
  f.name ++ "(" ++ Text.join "," (f.first.text :: f.others.map FurtherArgument.written) ++ ")"

/-- The call with some direction. -/
def textWith (f : FunctionCall) (direction : Option Spelling) : String := f.expr ++ ending direction

/-- The call as it is written. -/
def text (f : FunctionCall) : String := f.textWith f.direction

/-- If the order of a document goes on with the call, the clause is the one for which the call is
given as raw SQL, up to white space behind commas and the spelling of the direction. -/
def Survives (f : FunctionCall) (d : Document) (r : Renderer) (pre own : String) : Prop :=
  ∃ direction : Option Spelling,
    direction.map Spelling.direction = f.direction.map Spelling.direction ∧
      Text.tight ((d.declare pre own (.order f.text)).clauseText r .order) =
        Text.tight ((d.declare pre own (.orderRaw (f.textWith direction))).clauseText r .order)

/-! ### Arguments -/

/-- A character of an argument. -/
def isArgumentChar (c : Char) : Bool := Name.isIdentifierChar c || c == '-' || c == '+'

theorem isExpressionChar_of_isArgumentChar {c : Char} (h : isArgumentChar c = true) :
    Name.isExpressionChar c = false := by
  simp only [isArgumentChar, Bool.or_eq_true, beq_iff_eq] at h
  rcases h with (h | rfl) | rfl
  · exact Name.isExpressionChar_of_isPlainChar (Name.isPlainChar_of_isIdentifierChar h)
  · decide
  · decide

theorem isWhiteSpace_of_isArgumentChar {c : Char} (h : isArgumentChar c = true) :
    Chars.isWhiteSpace c = false := by
  have hexpression := isExpressionChar_of_isArgumentChar h
  rw [Name.isExpressionChar, Bool.or_eq_false_iff] at hexpression
  exact hexpression.2

namespace Argument

variable (a : Argument)

theorem ne_empty : a.text ≠ "" := by
  obtain ⟨text, h | h⟩ := a
  · exact h.ne_empty
  · cases h with
    | digits hne _ => exact hne
    | signed _ hne _ => exact fun he => hne (String.append_eq_empty_iff.1 he).2

theorem isOver : Text.IsOver isArgumentChar a.text := by
  have hdigit : ∀ c : Char, c.isDigit = true → isArgumentChar c = true := fun c hc => by
    simp [isArgumentChar, Name.isIdentifierChar, Char.isAlphanum, hc]
  obtain ⟨text, h | h⟩ := a
  · exact h.isOver.mono fun c hc => by simp [isArgumentChar, hc]
  · cases h with
    | digits _ hdigits => exact hdigits.mono hdigit
    | @signed sign digits hsign _ hdigits =>
      have hsigns : Text.IsOver isArgumentChar sign := by
        simp only [List.mem_cons, List.not_mem_nil, or_false] at hsign
        rcases hsign with rfl | rfl <;> decide
      exact Text.isOver_append.2 ⟨hsigns, hdigits.mono hdigit⟩

theorem isWord : Text.IsWord a.text := by
  refine ⟨a.ne_empty, ?_⟩
  rw [Text.hasWhiteSpace, List.any_eq_false]
  intro c hc
  rw [isWhiteSpace_of_isArgumentChar (a.isOver c hc)]
  exact Bool.false_ne_true

/-- The argument with the parenthesis behind it, if it is the last. -/
def closing : String := a.text ++ ")"

theorem paren_mem_closing : ')' ∈ a.closing.toList := by simp [closing]

theorem of_mem_closing {c : Char} (hc : c ∈ a.closing.toList) :
    isArgumentChar c = true ∨ c = ')' := by
  rw [closing, String.toList_append, List.mem_append] at hc
  exact hc.imp (a.isOver c) (by simp)

theorem isWord_closing : Text.IsWord a.closing := a.isWord.append (by decide)

/-- An argument and the parenthesis behind it would be quoted. -/
theorem isUnquotable_closing : Dialect.isUnquotable a.closing = false := by
  have hstar : a.closing ≠ "*" := fun he => by
    have hparen := a.paren_mem_closing
    rw [he] at hparen
    exact absurd hparen (by decide)
  have htick : Text.has a.closing '\x60' = false := by
    refine Text.has_eq_false_iff.2 fun hmem => ?_
    rcases a.of_mem_closing hmem with h | h
    · exact absurd h (by decide)
    · exact absurd h (by decide)
  have hexpression : Name.isExpression a.closing = false := by
    rw [Name.isExpression, List.any_eq_false]
    intro c hc
    rcases a.of_mem_closing hc with h | rfl
    · rw [isExpressionChar_of_isArgumentChar h]
      exact Bool.false_ne_true
    · decide
  have hnumber : Dialect.isNumber a.closing = false := by
    rw [Dialect.isNumber, ← Bool.not_eq_true, Option.isSome_iff_exists]
    rintro ⟨n, hn⟩
    exact absurd (Numeral.isNumeralChar_of_parse? hn _ a.paren_mem_closing) (by decide)
  rw [Dialect.isUnquotable, decide_eq_false hstar, htick, hexpression, hnumber]
  rfl

theorem comma_not_mem : ',' ∉ a.text.toList := fun hmem =>
  absurd (a.isOver _ hmem) (by decide)

theorem dot_not_mem : '.' ∉ a.text.toList := fun hmem =>
  absurd (a.isOver _ hmem) (by decide)

theorem comma_not_mem_closing (direction : Option Spelling) :
    ',' ∉ (a.closing ++ ending direction).toList := by
  have hending := OrderItem.not_mem_ending (c := ',') (by decide) (by decide) direction
  simpa [closing] using ⟨a.comma_not_mem, hending⟩

end Argument

namespace FurtherArgument

variable (a : FurtherArgument)

theorem not_mem_gap {c : Char} (hc : Chars.isWhiteSpace c = false) : c ∉ a.gap.toList := by
  intro hmem
  rw [a.isBlank c hmem] at hc
  cases hc

theorem comma_not_mem_written : ',' ∉ a.written.toList := by
  simpa [written] using ⟨a.not_mem_gap (by decide), a.comma_not_mem⟩

theorem comma_not_mem_item (direction : Option Spelling) :
    ',' ∉ (a.gap ++ (a.closing ++ ending direction)).toList := by
  rw [String.toList_append, List.mem_append, not_or]
  exact ⟨a.not_mem_gap (by decide), a.comma_not_mem_closing direction⟩

theorem trim_written_ne_empty : Text.trim a.written ≠ "" := by
  obtain ⟨c, cs, hcs⟩ := List.exists_cons_of_ne_nil (mt String.toList_eq_nil_iff.1 a.ne_empty)
  have hmem : c ∈ a.text.toList := by simp [hcs]
  exact Text.trim_ne_empty_of_mem (isWhiteSpace_of_isArgumentChar (a.isOver c hmem))
    (by simp [written, hmem])

end FurtherArgument

/-! ### The items of a call -/

variable {f : FunctionCall} {mid : List FurtherArgument} {last : FurtherArgument}

/-- The name and the first argument, with the parenthesis between them. -/
def opening (f : FunctionCall) : String := f.name ++ "(" ++ f.first.text

theorem paren_mem_opening (f : FunctionCall) : '(' ∈ f.opening.toList := by simp [opening]

theorem isWord_opening (f : FunctionCall) : Text.IsWord f.opening :=
  (f.name_isWord.toIsWord.append (by decide)).append f.first.isWord.noSpace

theorem comma_not_mem_opening (f : FunctionCall) : ',' ∉ f.opening.toList := by
  have hname := f.name_isWord.lacks ',' (List.mem_singleton_self _)
  simpa [opening] using ⟨hname, f.first.comma_not_mem⟩

theorem comma_not_mem_pieces (f : FunctionCall) (mid : List FurtherArgument) :
    ∀ t ∈ f.opening :: mid.map (·.written), ',' ∉ t.toList :=
  List.forall_mem_cons.2
    ⟨f.comma_not_mem_opening, List.forall_mem_map.2 fun a _ => a.comma_not_mem_written⟩

theorem trim_opening_ne_empty (f : FunctionCall) : Text.trim f.opening ≠ "" :=
  Text.trim_ne_empty_of_mem (c := '(') (by decide) f.paren_mem_opening

theorem expr_of_single (h : f.others = []) : f.expr = f.opening ++ ")" := by
  rw [expr, h, opening]
  simp only [List.map_nil, Text.join_singleton, String.append_assoc]

/-- A call with further arguments is cut at its last comma. -/
theorem expr_of_others (h : f.others = mid ++ [last]) :
    f.expr = Text.join "," (f.opening :: mid.map (·.written)) ++ "," ++
      (last.gap ++ last.closing) := by
  have hjoin := Text.join_append "," (List.cons_ne_nil f.first.text (mid.map (·.written)))
    (List.cons_ne_nil last.written [])
  rw [expr, h, List.map_append, List.map_singleton, ← List.cons_append, hjoin, opening,
    ← Text.append_join_cons "," (f.name ++ "(") f.first.text, Text.join_singleton,
    FurtherArgument.written, Argument.closing]
  simp only [String.append_assoc]

theorem textWith_of_others (h : f.others = mid ++ [last]) (direction : Option Spelling) :
    f.textWith direction = Text.join "," (f.opening :: mid.map (·.written)) ++ "," ++
      (last.gap ++ (last.closing ++ ending direction)) := by
  rw [textWith, expr_of_others h]
  simp only [String.append_assoc]

/-- What stands in front of the last comma is taken for fields, and so is the last argument with the
parenthesis behind it. -/
theorem map_ofText_items (h : f.others = mid ++ [last]) :
    (Text.items ',' f.text).map OrderItem.ofText =
      (f.opening :: mid.map (·.text)).map (.field · none) ++
        [.field last.closing (f.direction.map Spelling.direction)] := by
  have hblanks : ∀ t ∈ f.opening :: mid.map (·.written), Text.trim t ≠ "" := List.forall_mem_cons.2
    ⟨f.trim_opening_ne_empty, List.forall_mem_map.2 fun a _ => a.trim_written_ne_empty⟩
  have hopening : OrderItem.ofText (Text.trim f.opening) = .field f.opening none := by
    have hread := OrderItem.ofText_trim Text.isOver_empty f.isWord_opening none
    rwa [ending, String.append_empty, String.empty_append] at hread
  have hwritten : ∀ a : FurtherArgument, OrderItem.ofText (Text.trim a.written) =
      .field a.text none := fun a => by
    have hread := OrderItem.ofText_trim a.isBlank a.isWord none
    rwa [ending, String.append_empty] at hread
  have hlast := OrderItem.map_ofText_items last.isBlank last.isWord_closing
    (last.comma_not_mem_item f.direction)
  rw [text, textWith_of_others h, Text.items_append_comma, List.map_append,
    Text.items_join (f.comma_not_mem_pieces mid) hblanks, hlast]
  simp [hopening, hwritten]

theorem isWord_expr (h : f.others = []) : Text.IsWord f.expr := by
  rw [expr_of_single h]
  exact f.isWord_opening.append (by decide)

theorem comma_not_mem_textWith (h : f.others = []) (direction : Option Spelling) :
    ',' ∉ (f.textWith direction).toList := by
  have hending := OrderItem.not_mem_ending (c := ',') (by decide) (by decide) direction
  rw [textWith, expr_of_single h]
  simpa using ⟨f.comma_not_mem_opening, hending⟩

/-- A call with one argument is a single item. -/
theorem map_ofText_items_of_single (h : f.others = []) :
    (Text.items ',' f.text).map OrderItem.ofText =
      [.field f.expr (f.direction.map Spelling.direction)] := by
  have hcomma := comma_not_mem_textWith h f.direction
  have hread := OrderItem.map_ofText_items Text.isOver_empty (isWord_expr h)
    (by rwa [String.empty_append])
  rwa [String.empty_append] at hread

end FunctionCall

/-! ### The clause -/

namespace Document

variable {d : Document} {r : Renderer} {pre own : String}

/-- What the clause for the order has in front of further items. -/
def orderFront (d : Document) (r : Renderer) : String :=
  " ORDER BY " ++
    if d.order = [] then "" else Text.join "," (d.order.map (d.scope r).orderItem) ++ ","

theorem clauseText_order_append {items : List OrderItem} (hne : items ≠ []) :
    ({ d with order := d.order ++ items } : Document).clauseText r .order =
      d.orderFront r ++ Text.join "," (items.map (d.scope r).orderItem) := by
  have hclause : ({ d with order := d.order ++ items } : Document).clauseText r .order =
      " ORDER BY " ++ Text.join "," (d.order.map (d.scope r).orderItem ++
        items.map (d.scope r).orderItem) := by
    rw [clauseText, if_neg (List.append_ne_nil_of_right_ne_nil _ hne), List.map_append]
    rfl
  rw [hclause, orderFront]
  split
  · next hnil => rw [hnil, List.map_nil, List.nil_append, String.append_empty]
  · next hold =>
    rw [Text.join_append _ (by simpa using hold) (by simpa using hne)]
    simp only [String.append_assoc]

theorem clauseText_orderRaw (sql : String) :
    (d.declare pre own (.orderRaw sql)).clauseText r .order = d.orderFront r ++ sql := by
  rw [declare, clauseText_order_append (List.cons_ne_nil _ _), List.map_singleton,
    Text.join_singleton, Scope.orderItem]

end Document

namespace FunctionCall

open OrderItem (ending)
open SortDirection (Spelling)

variable {f : FunctionCall} {mid : List FurtherArgument} {last : FurtherArgument} {d : Document}
  {r : Renderer}

/-- How the clause is written for a call with further arguments. -/
theorem clauseText_of_others (h : f.others = mid ++ [last]) (d : Document) (r : Renderer)
    (pre own : String) :
    (d.declare pre own (.order f.text)).clauseText r .order = d.orderFront r ++
      (Text.join "," ((f.opening :: mid.map (·.text)).map (d.scope r).key) ++ "," ++
        ((d.scope r).key last.closing ++ ending (f.direction.map (·.standard)))) := by
  have hne : (f.opening :: mid.map (·.text)).map (d.scope r).key ≠ [] := List.cons_ne_nil _ _
  rw [Document.declare, map_ofText_items h, Document.clauseText_order_append (by simp),
    List.map_append, List.map_map, List.map_singleton, Scope.orderItem_field]
  exact congrArg (d.orderFront r ++ ·) (Text.join_append "," hne (List.cons_ne_nil _ _))

/-- How the clause is written for a call with one argument. -/
theorem clauseText_of_single (h : f.others = []) (d : Document) (r : Renderer) (pre own : String) :
    (d.declare pre own (.order f.text)).clauseText r .order = d.orderFront r ++
      ((d.scope r).key f.expr ++ ending (f.direction.map (·.standard))) := by
  rw [Document.declare, map_ofText_items_of_single h,
    Document.clauseText_order_append (List.cons_ne_nil _ _), List.map_singleton,
    Scope.orderItem_field, Text.join_singleton]

theorem map_direction_standard (f : FunctionCall) :
    (f.direction.map (·.standard)).map Spelling.direction = f.direction.map Spelling.direction := by
  rw [Option.map_map]
  rfl

/-! ### With backticks -/

/-- No white space is left in front of the last argument. -/
theorem tightFrom_closing (last : FurtherArgument) (direction : Option Spelling) :
    Chars.tightFrom true (last.gap ++ (last.closing ++ ending direction)).toList =
      (last.closing ++ ending direction).toList := by
  rw [String.toList_append, Chars.tightFrom_blank_append last.isBlank,
    Chars.tightFrom_of_front (last.comma_not_mem_closing direction)
      (OrderItem.front_append_ending last.isWord_closing direction)]

/-- The last argument is not written as it is. A text with a parenthesis and without a backtick
would have been left without quotes, and this one is quoted. -/
theorem key_closing_ne (hr : r.dialect = .mysql) {direction direction' : Option Spelling}
    (hdirection : direction.map Spelling.direction = direction'.map Spelling.direction)
    (hcomma : ',' ∉ ((d.scope r).key last.closing ++ ending direction).toList) :
    Chars.tightFrom true ((d.scope r).key last.closing ++ ending direction).toList ≠
      (last.closing ++ ending direction').toList := by
  intro htight
  obtain ⟨k, hk⟩ : ∃ k, (d.scope r).key last.closing = Dialect.quoteParts k :=
    ⟨_, by rw [Scope.key, Scope.quote, Document.scope, hr, Dialect.quote_mysql]⟩
  rw [hk] at htight hcomma
  -- nothing but letters and white space can be told apart from the argument
  have hmem : ∀ c : Char, c.isAlpha = false → Chars.isWhiteSpace c = false →
      (c ∈ (Dialect.quoteParts k).toList ↔ c ∈ last.closing.toList) := by
    intro c hletter hspace
    have hne : c ≠ ' ' := by
      rintro rfl
      exact absurd hspace (by decide)
    have hiff := Chars.mem_tightFrom hspace true (Dialect.quoteParts k ++ ending direction).toList
    rw [htight] at hiff
    simpa [OrderItem.not_mem_ending hletter hne] using hiff.symm
  have hparen := (hmem ')' (by decide) (by decide)).2 last.paren_mem_closing
  have htick : '\x60' ∉ (Dialect.quoteParts k).toList := fun htick => by
    rcases last.of_mem_closing ((hmem '\x60' (by decide) (by decide)).1 htick) with h | h
    · exact absurd h (by decide)
    · exact absurd h (by decide)
  obtain ⟨htrim, hunquotable⟩ := Dialect.isUnquotable_of_quoteParts hparen htick
  rw [htrim] at htight hcomma hparen
  rw [Chars.tightFrom_of_front hcomma (Text.front_trim_append hparen _)] at htight
  rw [OrderItem.eq_of_append_ending hdirection htight, last.isUnquotable_closing] at hunquotable
  cases hunquotable

/-- A call with several arguments does not survive: its last argument is quoted together with the
closing parenthesis. -/
theorem not_survives_of_others (hr : r.dialect = .mysql) (hothers : f.others = mid ++ [last])
    (pre own : String) : ¬ f.Survives d r pre own := by
  rintro ⟨direction, hdirection, htight⟩
  have hchars : ∀ s t : String, (d.orderFront r ++ (s ++ "," ++ t)).toList =
      ((d.orderFront r).toList ++ s.toList) ++ ',' :: t.toList := fun s t => by simp
  rw [clauseText_of_others hothers, Document.clauseText_orderRaw, textWith_of_others hothers,
    Text.tight_inj, hchars, hchars] at htight
  -- the pieces are joined again with as many commas, so that none of them can have a comma
  have hcount : ((d.orderFront r).toList ++
        (Text.join "," (f.opening :: mid.map (·.written))).toList).count ',' ≤
      ((d.orderFront r).toList ++
        (Text.join "," ((f.opening :: mid.map (·.text)).map (d.scope r).key)).toList).count
          ',' := by
    have hraw := Text.count_join_of_not_mem (List.cons_ne_nil f.opening (mid.map (·.written)))
      (f.comma_not_mem_pieces mid)
    have hkeys := Text.length_le_count_join
      (List.cons_ne_nil ((d.scope r).key f.opening) ((mid.map (·.text)).map (d.scope r).key))
    rw [List.count_append, List.count_append, List.map_cons]
    simp only [List.length_cons, List.length_map] at hraw hkeys
    omega
  obtain ⟨hcomma, hlast⟩ :=
    Chars.tightFrom_of_append_comma hcount (last.comma_not_mem_item direction) htight
  rw [tightFrom_closing] at hlast
  exact key_closing_ne hr (f.map_direction_standard.trans hdirection.symm) hcomma hlast

/-- A call is an expression. Its placeholders are resolved, and nothing else is done with it. -/
theorem key_expr (hr : r.dialect = .mysql) (f : FunctionCall) (d : Document) :
    (d.scope r).key f.expr = Text.trim (TableName.expand r.tablePrefix f.expr) ∧
      '(' ∈ (Text.trim (TableName.expand r.tablePrefix f.expr)).toList := by
  have hparen : '(' ∈ (TableName.expand r.tablePrefix f.expr).toList := by
    have hsingle : "(" = String.singleton '(' := by decide
    rw [expr, String.append_assoc, hsingle, TableName.expand_append_singleton (by decide)]
    simp
  have htrim : '(' ∈ (Text.trim (TableName.expand r.tablePrefix f.expr)).toList := by
    rwa [Text.toList_trim, Chars.mem_trim (by decide)]
  have hexpression : ∀ {s : String}, '(' ∈ s.toList → Name.isExpression s = true :=
    fun hmem => List.any_eq_true.2 ⟨'(', hmem, by decide⟩
  have hunquotable : Dialect.isUnquotable
      (Text.trim (TableName.expand r.tablePrefix f.expr)) = true := by
    rw [Dialect.isUnquotable, hexpression htrim, Bool.or_true, Bool.true_or]
  refine ⟨?_, htrim⟩
  rw [Scope.key_of_isExpression (hexpression (by simp [expr])), Scope.quote, Document.scope, hr,
    Dialect.quote_mysql, Dialect.quoteParts]
  exact if_pos hunquotable

/-- A call with one argument survives if it stays as it is when its placeholders are resolved. -/
theorem survives_iff_of_single (hr : r.dialect = .mysql) (hothers : f.others = [])
    (pre own : String) :
    f.Survives d r pre own ↔ Text.trim (TableName.expand r.tablePrefix f.expr) = f.expr := by
  obtain ⟨hkey, hparen⟩ := key_expr hr f d
  have hchars : ∀ s : String, (d.orderFront r ++ s).toList = (d.orderFront r).toList ++ s.toList :=
    fun s => String.toList_append
  constructor
  · rintro ⟨direction, hdirection, htight⟩
    rw [clauseText_of_single hothers, hkey, Document.clauseText_orderRaw, Text.tight_inj, hchars,
      hchars] at htight
    exact OrderItem.eq_of_append_ending (f.map_direction_standard.trans hdirection.symm)
      (Chars.eq_of_tightFrom_append (comma_not_mem_textWith hothers direction)
        (OrderItem.front_append_ending (isWord_expr hothers) direction)
        (Text.front_trim_append hparen _) htight)
  · intro hself
    refine ⟨_, f.map_direction_standard, ?_⟩
    rw [clauseText_of_single hothers, hkey, hself, Document.clauseText_orderRaw, textWith]

/-! ### Without quotes -/

/-- Without a placeholder, an expression or a name without a dot is written as it is. -/
theorem key_of_generic (hr : r.dialect = .generic) {name : String}
    (hplain : ¬ ['_', '_'] <:+: name.toList)
    (hname : Name.isExpression name = true ∨ '.' ∉ name.toList) : (d.scope r).key name = name := by
  have hexpand : (d.scope r).expand name = name := TableName.expand_of_not_infix _ hplain
  have hqualify : (d.scope r).qualify name = name := by
    rw [Scope.qualify]
    split
    · next hsplit =>
      rcases hname with h | h
      · rw [if_pos h]
      · have hdot := (Text.splitFirst?_eq_some_iff.1 hsplit).1
        exact absurd (by simp [hdot]) h
    · rfl
  rw [Scope.key, hexpand, hqualify, Scope.quote, Document.scope, hr, Dialect.quote_generic]

/-- Without placeholders all pieces of a call are written as they are. -/
theorem key_pieces_of_generic (hr : r.dialect = .generic) (h : f.others = mid ++ [last])
    (hplain : ¬ ['_', '_'] <:+: f.expr.toList) (d : Document) :
    (f.opening :: mid.map (·.text)).map (d.scope r).key = f.opening :: mid.map (·.text) ∧
      (d.scope r).key last.closing = last.closing := by
  have hexpr : f.expr.toList = (Text.join "," (f.opening :: mid.map (·.written))).toList ++
      ',' :: (last.gap.toList ++ last.closing.toList) := by
    rw [expr_of_others h]
    simp
  have hpiece : ∀ t ∈ f.opening :: mid.map (·.written), t.toList <:+: f.expr.toList := by
    intro t ht
    rw [hexpr]
    exact (Text.infix_toList_join "," ht).trans (List.prefix_append _ _).isInfix
  have hlast : last.closing.toList <:+: f.expr.toList := by
    rw [hexpr]
    exact ((List.suffix_append _ _).trans
      (List.suffix_append_of_suffix (List.suffix_cons _ _))).isInfix
  have hkey : ∀ t ∈ f.opening :: mid.map (·.text), (d.scope r).key t = t := by
    refine List.forall_mem_cons.2 ⟨?_, List.forall_mem_map.2 fun a ha => ?_⟩
    · have hparen := f.paren_mem_opening
      exact key_of_generic hr (fun hmark => hplain (hmark.trans (hpiece _ List.mem_cons_self)))
        (.inl (List.any_eq_true.2 ⟨'(', hparen, by decide⟩))
    · have hwritten := hpiece _ (List.mem_cons_of_mem _ (List.mem_map_of_mem ha))
      rw [FurtherArgument.written, String.toList_append] at hwritten
      exact key_of_generic hr (fun hmark => hplain
        (hmark.trans ((List.suffix_append _ _).isInfix.trans hwritten))) (.inr a.dot_not_mem)
  refine ⟨(List.map_congr_left hkey).trans (List.map_id _), ?_⟩
  refine key_of_generic hr (fun hmark => hplain (hmark.trans hlast)) (.inr fun hmem => ?_)
  rcases last.of_mem_closing hmem with hdot | hdot
  · exact absurd hdot (by decide)
  · exact absurd hdot (by decide)

/-- The white space behind commas does not matter. -/
theorem tightFrom_join_written (behind : Bool) (s : String) (mid : List FurtherArgument)
    (cs : List Char) :
    Chars.tightFrom behind ((Text.join "," (s :: mid.map (·.written))).toList ++ ',' :: cs) =
      Chars.tightFrom behind ((Text.join "," (s :: mid.map (·.text))).toList ++ ',' :: cs) := by
  induction mid generalizing behind s with
  | nil => rfl
  | cons a mid ih =>
    have hjoin : ∀ t ts, (Text.join "," (s :: t :: ts)).toList ++ ',' :: cs =
        s.toList ++ ',' :: ((Text.join "," (t :: ts)).toList ++ ',' :: cs) := fun t ts => by simp
    have hgap : (Text.join "," (a.written :: mid.map (·.written))).toList =
        a.gap.toList ++ (Text.join "," (a.text :: mid.map (·.written))).toList := by
      rw [FurtherArgument.written, ← Text.append_join_cons, String.toList_append]
    rw [List.map_cons, List.map_cons, hjoin, hjoin, Chars.tightFrom_append_comma behind s.toList,
      Chars.tightFrom_append_comma behind s.toList, hgap, List.append_assoc,
      Chars.tightFrom_blank_append a.isBlank, ih]

/-- A call without placeholders survives. -/
theorem survives_of_generic (hr : r.dialect = .generic) (hplain : ¬ ['_', '_'] <:+: f.expr.toList)
    (d : Document) (pre own : String) : f.Survives d r pre own := by
  refine ⟨_, f.map_direction_standard, ?_⟩
  rcases List.eq_nil_or_concat' f.others with h | ⟨mid, last, h⟩
  · have hkey : (d.scope r).key f.expr = f.expr := by
      refine key_of_generic hr hplain (.inl (List.any_eq_true.2 ⟨'(', ?_, by decide⟩))
      simp [expr]
    rw [clauseText_of_single h, hkey, Document.clauseText_orderRaw, textWith]
  · obtain ⟨hkeys, hclosing⟩ := key_pieces_of_generic hr h hplain d
    have hchars : ∀ s t : String, (d.orderFront r ++ (s ++ "," ++ t)).toList =
        (d.orderFront r).toList ++ (s.toList ++ ',' :: t.toList) := fun s t => by simp
    have hgap : ∀ t : String, (last.gap ++ t).toList = last.gap.toList ++ t.toList :=
      fun t => String.toList_append
    obtain ⟨behind, hfront⟩ := Chars.exists_tightFrom_append false (d.orderFront r).toList
    rw [clauseText_of_others h, hkeys, hclosing, Document.clauseText_orderRaw, textWith_of_others h,
      Text.tight_inj, hchars, hchars, hfront, hfront, tightFrom_join_written,
      Chars.tightFrom_append_comma, Chars.tightFrom_append_comma, hgap,
      Chars.tightFrom_blank_append last.isBlank]

/-! ### Which calls survive -/

/-- Which calls survive in an order. Without quotes it is every call without placeholders. With
backticks it is the calls with one argument, unless a placeholder is resolved in them: the commas of
all other calls are taken for the commas between the items of the order, and the last argument is
quoted together with the parenthesis behind it. -/
theorem survives_iff (f : FunctionCall) (d : Document) (r : Renderer) (pre own : String) :
    (r.dialect = .generic → ¬ ['_', '_'] <:+: f.expr.toList → f.Survives d r pre own) ∧
      (r.dialect = .mysql → (f.Survives d r pre own ↔
        f.others = [] ∧ Text.trim (TableName.expand r.tablePrefix f.expr) = f.expr)) := by
  refine ⟨fun hr hplain => survives_of_generic hr hplain d pre own, fun hr => ?_⟩
  rcases List.eq_nil_or_concat' f.others with h | ⟨mid, last, h⟩
  · rw [survives_iff_of_single hr h]
    exact (and_iff_right h).symm
  · refine ⟨fun hsurvives => absurd hsurvives (not_survives_of_others hr h pre own), ?_⟩
    rintro ⟨hnil, -⟩
    simp [h] at hnil

/-- The call `LENGTH(name)`. -/
def lengthCall : FunctionCall where
  name := "LENGTH"
  first := ⟨"name", .inl (by decide)⟩
  others := []
  direction := none
  name_isWord := ⟨by decide, by decide⟩

/-- The call `FIELD(id, 3, 1) desc`. -/
def fieldCall : FunctionCall where
  name := "FIELD"
  first := ⟨"id", .inl (by decide)⟩
  others :=
    [⟨⟨"3", .inr (.digits (by decide) (by decide))⟩, " ", by decide⟩,
      ⟨⟨"1", .inr (.digits (by decide) (by decide))⟩, " ", by decide⟩]
  direction := some ⟨"desc", .descending, by decide⟩
  name_isWord := ⟨by decide, by decide⟩

/-- Both calls survive without quotes. With backticks one survives, and of the other the last
argument is put between backticks. -/
theorem survives_iff_fieldSample :
    let generic : Renderer := {}
    let mysql : Renderer := { dialect := .mysql }
    fieldCall.text = "FIELD(id, 3, 1) desc" ∧ fieldCall.Survives {} generic "" "t" ∧
      lengthCall.Survives {} mysql "" "t" ∧ ¬ fieldCall.Survives {} mysql "" "t" ∧
      (({} : Document).declare "" "t" (.order fieldCall.text)).clauseText mysql .order =
        " ORDER BY FIELD(id,3,\x601)\x60 DESC" := by
  intro generic mysql
  have hlength := (survives_iff lengthCall {} mysql "" "t").2 rfl
  have hfield := (survives_iff fieldCall {} mysql "" "t").2 rfl
  refine ⟨by decide +kernel, (survives_iff fieldCall {} generic "" "t").1 rfl (by decide +kernel),
    hlength.2 ⟨rfl, by decide +kernel⟩, fun h => ?_, by decide +kernel⟩
  exact absurd (hfield.1 h).1 (List.cons_ne_nil _ _)

end FunctionCall

end SqlSelect
