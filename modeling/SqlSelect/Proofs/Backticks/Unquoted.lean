import SqlSelect.Proofs.Backticks.Names
import SqlSelect.Proofs.Text.Commas

/-!
# Texts without backticks

The dialect with backticks leaves numbers and expressions as they are.

* `Numeral.words`: `nan`, `inf` and `infinity`. Of the texts that begin as no decimal does, these
  are the numbers, in any case (`Numeral.isSome_parse?_iff`);
* `Numeral.isNumeralChar`: the characters of a number (`Numeral.isNumeralChar_of_parse?`);
* `Dialect.isUnquotable_of_quoteParts`: how it is seen from a written text that it was left alone.
-/

namespace SqlSelect

/-! ### Numbers that are words -/

theorem Chars.isAlpha_of_toLower {c : Char} (h : c.toLower.isAlpha = true) : c.isAlpha = true := by
  cases hupper : c.isUpper with
  | true => rw [Char.isAlpha, hupper, Bool.true_or]
  | false =>
    have hself : c.toLower = c := by
      simp only [Char.isUpper, decide_eq_false_iff_not] at hupper
      rw [Char.toLower, dif_neg hupper]
    rwa [hself] at h

namespace Numeral

/-- The words that are numbers. -/
def words : List String := ["nan", "inf", "infinity"]

/-- The signs of a number and the point. -/
def marks : List Char := ['-', '+', '.']

variable {cs : List Char}

theorem takeSign_of_front (h : ∀ c ∈ cs.head?, c ∉ marks) : takeSign cs = (false, cs) := by
  rcases cs with _ | ⟨c, cs⟩
  · rfl
  · have hc := h c rfl
    simp only [marks, List.mem_cons, not_or] at hc
    rw [takeSign]
    · exact fun _ he => hc.1 (List.cons.inj he).1
    · exact fun _ he => hc.2.1 (List.cons.inj he).1

/-- A decimal begins with a digit or with a point. -/
theorem decimal?_of_front (negative : Bool) (h : ∀ c ∈ cs.head?, c.isDigit = false ∧ c ∉ marks) :
    decimal? negative cs = none := by
  rcases cs with _ | ⟨c, cs⟩
  · rfl
  · obtain ⟨hdigit, hmark⟩ := h c rfl
    have hpoint : c ≠ '.' := by
      rintro rfl
      exact hmark (by decide)
    have hfraction : takeFraction (c :: cs) = ([], c :: cs) := by
      rw [takeFraction]
      exact fun _ he => hpoint (List.cons.inj he).1
    simp [decimal?, hdigit, hfraction]

/-- A text that begins as no decimal does is a number just if it is one of the words. -/
theorem isSome_parse?_iff (h : ∀ c ∈ cs.head?, c.isDigit = false ∧ c ∉ marks) :
    (parse? cs).isSome = true ↔ String.ofList (Chars.lowerAscii cs) ∈ words := by
  have hsign := takeSign_of_front fun c hc => (h c hc).2
  simp only [parse?, hsign, words]
  split
  · next hword => simp [hword]
  · next hword => simp [hword]
  · next hword => simp [hword]
  · next hnan hinf hinfinity =>
    rw [decimal?_of_front false h]
    simpa using ⟨hnan, hinf, hinfinity⟩

/-! ### The characters of a number -/

/-- A letter, a digit, a sign or a point. -/
def isNumeralChar (c : Char) : Bool := c.isAlphanum || marks.contains c

theorem isNumeralChar_of_isDigit {c : Char} (h : c.isDigit = true) : isNumeralChar c = true := by
  simp [isNumeralChar, Char.isAlphanum, h]

theorem isNumeralChar_of_mem_marks {c : Char} (h : c ∈ marks) : isNumeralChar c = true := by
  simp [isNumeralChar, h]

/-- What takes a sign off the front takes nothing else off. -/
theorem of_takeSign {p : Char → Bool} (hmarks : ∀ c ∈ marks, p c = true)
    (h : ∀ c ∈ (takeSign cs).2, p c = true) : ∀ c ∈ cs, p c = true := by
  unfold takeSign at h
  split at h
  · exact List.forall_mem_cons.2 ⟨hmarks _ (by decide), h⟩
  · exact List.forall_mem_cons.2 ⟨hmarks _ (by decide), h⟩
  · exact h

theorem isNumeralChar_of_exponent? {e : Int} (h : exponent? cs = some e) :
    ∀ c ∈ cs, isNumeralChar c = true := by
  rcases cs with _ | ⟨c, cs⟩
  · nofun
  · simp only [exponent?] at h
    split at h
    · next hparts =>
      obtain ⟨hc, -, hdigits⟩ := hparts
      have hletter : c.isAlpha = true := Chars.isAlpha_of_toLower (by rw [hc]; decide)
      refine List.forall_mem_cons.2 ⟨by simp [isNumeralChar, Char.isAlphanum, hletter], ?_⟩
      refine of_takeSign (fun _ => isNumeralChar_of_mem_marks) fun d hd => ?_
      exact isNumeralChar_of_isDigit (List.all_eq_true.1 hdigits d hd)
    · cases h

theorem isNumeralChar_of_decimal? {negative : Bool} {n : Numeral}
    (h : decimal? negative cs = some n) :
    ∀ c ∈ cs, isNumeralChar c = true := by
  have hdigits : ∀ ds : List Char, ∀ c ∈ ds.takeWhile Char.isDigit, isNumeralChar c = true :=
    fun ds c hc => isNumeralChar_of_isDigit (List.mem_takeWhile_imp hc)
  rw [decimal?] at h
  simp only at h
  split at h
  · cases h
  · obtain ⟨e, he, -⟩ := Option.map_eq_some_iff.1 h
    have hrest := isNumeralChar_of_exponent? he
    rw [← List.takeWhile_append_dropWhile (p := Char.isDigit) (l := cs), List.forall_mem_append]
    refine ⟨hdigits cs, ?_⟩
    unfold takeFraction at hrest
    split at hrest
    · next ds hds =>
      rw [hds, List.forall_mem_cons,
        ← List.takeWhile_append_dropWhile (p := Char.isDigit) (l := ds), List.forall_mem_append]
      exact ⟨isNumeralChar_of_mem_marks (by decide), hdigits ds, hrest⟩
    · exact hrest

theorem isNumeralChar_of_parse? {n : Numeral} (h : parse? cs = some n) :
    ∀ c ∈ cs, isNumeralChar c = true := by
  have hword : ∀ {w : String} {body : List Char}, String.ofList (Chars.lowerAscii body) = w →
      Text.IsOver Char.isAlpha w → ∀ c ∈ body, isNumeralChar c = true := by
    rintro _ body rfl hover c hc
    have hletter : c.isAlpha = true := Chars.isAlpha_of_toLower
      (Text.isOver_ofList.1 hover _ (List.mem_map_of_mem hc))
    simp [isNumeralChar, Char.isAlphanum, hletter]
  refine of_takeSign (fun _ => isNumeralChar_of_mem_marks) ?_
  simp only [parse?] at h
  split at h
  · next hnan => exact hword hnan (by decide)
  · next hinf => exact hword hinf (by decide)
  · next hinfinity => exact hword hinfinity (by decide)
  · exact isNumeralChar_of_decimal? h

end Numeral

/-! ### Written texts -/

namespace Dialect

/-- A text that is written with a closing parenthesis and without a backtick was not quoted. -/
theorem isUnquotable_of_quoteParts {key : String} (hparen : ')' ∈ (quoteParts key).toList)
    (htick : '\x60' ∉ (quoteParts key).toList) :
    quoteParts key = Text.trim key ∧ isUnquotable (Text.trim key) = true := by
  simp only [quoteParts] at hparen htick ⊢
  split at hparen
  · next hunquotable =>
    rw [if_pos hunquotable]
    exact ⟨rfl, hunquotable⟩
  · next hquotable =>
    -- a part without backticks is a star, and has no parenthesis
    rw [if_neg hquotable] at htick
    exfalso
    have hover : Text.IsOver (· != ')')
        (Text.join "." ((Text.splitOn '.' (Text.trim key)).map quotePart)) := by
      refine Text.isOver_join_map (by decide) fun part hpart => ?_
      have hnone : '\x60' ∉ (quotePart part).toList :=
        fun hmem => htick ((Text.infix_toList_join _ (List.mem_map_of_mem hpart)).subset hmem)
      rw [quotePart] at hnone ⊢
      split at hnone
      · next hstar =>
        rw [if_pos hstar, hstar]
        decide
      · simp at hnone
    exact absurd (hover _ hparen) (by decide)

end Dialect

end SqlSelect
