import SqlSelect.Connective
import SqlSelect.Proofs.Text.Alphabet
import SqlSelect.Value

/-!
# The tokens of a condition

The text of a condition is read again in two steps. Here it is cut into tokens; the grammar that
they follow comes after.

* `Keyword`: the words that a condition uses for itself;
* `Token.scan`: the tokens of a text. Characters of words stay together, and so do those of signs;
  a word that is no keyword is a name, of which the backticks are no part;
* `Token.bind`: the tokens with the next value in place of each mark.

Two texts are cut apart where they meet if the one that comes second begins with neither a word nor
a sign, or the first ends with neither (`Token.scan_append`).
-/

namespace SqlSelect

/-- A word that a condition uses for itself. -/
inductive Keyword
  | connective (k : Connective)
  | not
  | is
  | null
  | like
  | within
  | between
  deriving DecidableEq, Repr

namespace Keyword

/-- The keyword as SQL. -/
def text : Keyword → String
  | connective k => k.keyword
  | not => "NOT"
  | is => "IS"
  | null => "NULL"
  | like => "LIKE"
  | within => "IN"
  | between => "BETWEEN"

/-- The keywords. -/
def all : List Keyword :=
  [connective .and, connective .or, connective .xor, not, is, null, like, within, between]

/-- Reads a keyword, in any case. -/
def parse? (w : String) : Option Keyword := all.find? fun k => Text.equalsIgnoringCase w k.text

/-- A keyword has no backtick. -/
theorem parse?_of_has_backtick {w : String} (h : '\x60' ∈ w.toList) : parse? w = none := by
  have hlower : '\x60' ∈ Chars.lowerAscii w.toList := List.mem_map.2 ⟨'\x60', h, by decide⟩
  have htext : ∀ k ∈ all, '\x60' ∉ Chars.lowerAscii k.text.toList := by decide
  rw [parse?, List.find?_eq_none]
  intro k hk he
  -- reading in any case, the two have the same small letters
  have heq : Text.lowerAscii w = Text.lowerAscii k.text := by
    simpa [Text.equalsIgnoringCase] using he
  exact htext k hk (String.ofList_injective heq ▸ hlower)

end Keyword

/-- A token of a condition, with marks that carry an `α`. -/
inductive Token (α : Type)
  /-- A name or a number. -/
  | word (name : String)
  | keyword (k : Keyword)
  | sign (s : String)
  | mark (a : α)
  | opening
  | closing
  | comma
  /-- A character that has no place in a condition. -/
  | other (c : Char)
  deriving DecidableEq, Repr

namespace Token

/-! ### Cutting a text up -/

/-- A character of a name, or of a keyword or a number. -/
def isWordChar (c : Char) : Bool := Name.isPlainChar c || c == '\x60'

/-- A character of a sign of comparison. -/
def isSignChar (c : Char) : Bool := c == '=' || c == '<' || c == '>'

/-- Do the characters stay together? -/
def isJoined (c d : Char) : Bool := isWordChar c && isWordChar d || isSignChar c && isSignChar d

/-- A word as a token. -/
def ofWord (w : List Char) : Token Unit :=
  match Keyword.parse? (String.ofList w) with
  | some k => .keyword k
  | none => .word (String.ofList (w.filter (· ≠ '\x60')))

/-- Characters that stay together as a token; a space is none. -/
def ofRun : List Char → Option (Token Unit)
  | [] => none
  | c :: cs =>
    if isWordChar c then some (ofWord (c :: cs))
    else if isSignChar c then some (.sign (String.ofList (c :: cs)))
    else if c = ' ' then none
    else if c = '?' then some (.mark ())
    else if c = '(' then some .opening
    else if c = ')' then some .closing
    else if c = ',' then some .comma
    else some (.other c)

/-- The tokens of a text. -/
def scan (s : String) : List (Token Unit) := (s.toList.splitBy isJoined).filterMap ofRun

/-- A character that joins with no other. -/
def isApart (c : Char) : Bool := !isWordChar c && !isSignChar c

/-- Does the text begin with a character that joins with none before it? -/
def startsApart (s : String) : Bool := s.toList.head?.all isApart

/-- Does the text end with a character that joins with none behind it? -/
def endsApart (s : String) : Bool := s.toList.getLast?.all isApart

@[simp] theorem scan_empty : scan "" = [] := by decide

theorem isJoined_of_isApart {c d : Char} (h : isApart c = true ∨ isApart d = true) :
    isJoined c d = false := by
  simp only [isApart, Bool.and_eq_true, Bool.not_eq_true'] at h
  rcases h with ⟨hw, hs⟩ | ⟨hw, hs⟩ <;> simp [isJoined, hw, hs]

theorem startsApart_append {s t : String} (hs : startsApart s = true) (hne : s ≠ "") :
    startsApart (s ++ t) = true := by
  have hnil : s.toList ≠ [] := fun h => hne (String.toList_eq_nil_iff.1 h)
  rw [startsApart, String.toList_append, List.head?_append_of_ne_nil _ hnil]
  exact hs

theorem endsApart_append {s t : String} (ht : endsApart t = true) (hne : t ≠ "") :
    endsApart (s ++ t) = true := by
  have hnil : t.toList ≠ [] := fun h => hne (String.toList_eq_nil_iff.1 h)
  rw [endsApart, String.toList_append, List.getLast?_append_of_ne_nil _ hnil]
  exact ht

/-- Texts that do not join are cut up one after the other. -/
theorem scan_append {s t : String} (h : endsApart s = true ∨ startsApart t = true) :
    scan (s ++ t) = scan s ++ scan t := by
  rw [scan, String.toList_append, List.splitBy_append, List.filterMap_append]
  · rfl
  · intro c hc d hd
    refine isJoined_of_isApart (h.imp (fun hs => ?_) fun ht => ?_)
    · simpa [endsApart, Option.mem_def.1 hc] using hs
    · simpa [startsApart, Option.mem_def.1 hd] using ht

/-- A text of nothing but characters of words is one word. -/
theorem scan_word {w : String} (hne : w ≠ "") (hw : Text.IsOver isWordChar w) :
    scan w = [ofWord w.toList] := by
  have hchain : w.toList.IsChain fun c d => isJoined c d = true := by
    refine List.Pairwise.isChain (List.pairwise_of_forall_mem_list fun c hc d hd => ?_)
    simp [isJoined, hw c hc, hw d hd]
  have hnil : w.toList ≠ [] := fun h => hne (String.toList_eq_nil_iff.1 h)
  rw [scan, List.splitBy_of_isChain hnil hchain]
  cases hcs : w.toList with
  | nil => exact absurd hcs hnil
  | cons c cs =>
    have hc : isWordChar c = true := hw c (hcs ▸ List.mem_cons_self)
    simp [ofRun, hc]

/-- A word of which the backticks are put around a name is that name. -/
theorem scan_of_filter_eq {w n : String} (hne : n ≠ "") (hw : Text.IsOver isWordChar w)
    (hkey : Keyword.parse? w = none) (hfilter : w.toList.filter (· ≠ '\x60') = n.toList) :
    scan w = [.word n] := by
  have hw_ne : w ≠ "" := by
    rintro rfl
    exact hne (String.toList_eq_nil_iff.1 hfilter.symm)
  rw [scan_word hw_ne hw]
  simp only [ofWord, String.ofList_toList, hkey, hfilter]

/-! ### Values in place of marks -/

/-- The token with the next of the values if it is a mark, and the values that are left. -/
def take {α : Type} : Token Unit → List α → Option (Token α × List α)
  | .mark (), v :: vs => some (.mark v, vs)
  | .mark (), [] => none
  | .word w, vs => some (.word w, vs)
  | .keyword k, vs => some (.keyword k, vs)
  | .sign s, vs => some (.sign s, vs)
  | .opening, vs => some (.opening, vs)
  | .closing, vs => some (.closing, vs)
  | .comma, vs => some (.comma, vs)
  | .other c, vs => some (.other c, vs)

/-- The tokens with the next value in place of each mark. There must be a value for each mark and a
mark for each value. -/
def bind {α : Type} : List (Token Unit) → List α → Option (List (Token α))
  | [], [] => some []
  | [], _ :: _ => none
  | t :: ts, vs => do
    let (u, vs) ← t.take vs
    let us ← bind ts vs
    return u :: us

theorem take_append {α : Type} {t : Token Unit} {u : Token α} {vs ws : List α}
    (h : t.take vs = some (u, ws)) (xs : List α) : t.take (vs ++ xs) = some (u, ws ++ xs) := by
  cases t with
  | mark a =>
    cases vs with
    | nil => exact absurd h (by simp [take])
    | cons v vs =>
      simp only [take, Option.some.injEq, Prod.mk.injEq] at h
      obtain ⟨rfl, rfl⟩ := h
      rfl
  | _ =>
    simp only [take, Option.some.injEq, Prod.mk.injEq] at h
    obtain ⟨rfl, rfl⟩ := h
    rfl

/-- Two lists of tokens are bound one after the other. -/
theorem bind_append {α : Type} {ts us : List (Token Unit)} {vs ws : List α}
    {ts' us' : List (Token α)} (ht : bind ts vs = some ts') (hu : bind us ws = some us') :
    bind (ts ++ us) (vs ++ ws) = some (ts' ++ us') := by
  induction ts generalizing vs ts' with
  | nil =>
    cases vs with
    | nil =>
      obtain rfl : [] = ts' := by simpa [bind] using ht
      exact hu
    | cons v vs => exact absurd ht (by simp [bind])
  | cons t ts ih =>
    simp only [bind, Option.bind_eq_bind, Option.bind_eq_some_iff, Prod.exists, Option.pure_def,
      Option.some.injEq] at ht
    obtain ⟨u, xs, htake, rest, hrest, rfl⟩ := ht
    simp [bind, take_append htake, ih hrest]

end Token

end SqlSelect
