import SqlSelect.Proofs.Scanning.Loop

/-!
# The loop over the bytes finds the tokens

At each time the loop over the bytes of a text has given out some tokens, and others are still to
come. Together they are the tokens that the text has when it is read character by character.

* `Loop.Cut`: a text taken apart at the two positions of the loop;
* `Loop.Invariant`: the positions are between characters, and the tokens that have been given out,
  with those to come, are the tokens of the text;
* `Loop.Invariant.goesOn`: as long as there is text before it the loop goes on, and the invariant is
  kept;
* `Loop.scan?_eq`: so in the end the tokens of the text have been given out, and each cut was made
  between two characters;
* `Loop.quoted_last`: in the end the loop is in quoted text just if the text leaves some open.
-/

namespace SqlSelect

namespace Placeholder

open String (utf8Len utf8EncodeChar)
open Utf8

namespace Loop

variable {bs : List UInt8} {l l' : Loop}

/-! ### Names are of ASCII -/

theorem isAscii_isNameChar : IsAscii isNameChar := by
  intro c hc
  simp only [isNameChar, Char.isAlphanum, Char.isAlpha, Char.isUpper, Char.isLower, Char.isDigit,
    ge_iff_le, Bool.or_eq_true, Bool.and_eq_true, decide_eq_true_eq, beq_iff_eq,
    UInt32.le_iff_toNat_le] at hc
  rcases hc with ((⟨-, hle⟩ | ⟨-, hle⟩) | ⟨-, hle⟩) | rfl
  · exact hle.trans (by decide)
  · exact hle.trans (by decide)
  · exact hle.trans (by decide)
  · decide

theorem isAscii_isNameStart : IsAscii isNameStart :=
  fun c hc => isAscii_isNameChar c (isNameChar_of_isNameStart hc)

theorem utf8Len_colon_cons (cs : List Char) : utf8Len (':' :: cs) = 1 + utf8Len cs := by
  have hsize : ':'.utf8Size = 1 := by decide
  simp [hsize, Nat.add_comm]

theorem any_beq (o : Option Char) (c : Char) : o.any (· == c) = true ↔ o = some c := by
  cases o <;> simp

/-! ### What the loop has given out and what it has before it -/

/-- A text taken apart at the two positions of the loop, with the tokens of the front. -/
structure Cut where
  /-- What has been given out. -/
  given : List Char
  /-- What has been looked at and not been given out. -/
  kept : List Char
  /-- What has not been looked at. -/
  rest : List Char
  /-- The tokens of what has been given out. -/
  tokens : List Token

/-- The loop stands between two characters, the tokens that have been given out, with those that
are still to come, are the tokens of the text, and the loop knows whether it is in quoted text. A
backslash at the end leads the loop further. -/
structure Invariant (s : String) (l : Loop) (c : Cut) : Prop where
  text : s.toList = c.given ++ c.kept ++ c.rest
  start : l.start = utf8Len c.given
  le_here : utf8Len (c.given ++ c.kept) ≤ l.here
  here : c.rest ≠ [] → l.here = utf8Len (c.given ++ c.kept)
  given : l.spans.mapM (Span.token? s) = some c.tokens
  tokens : c.tokens ++ gather c.kept.reverse (lexemesFrom (mode l.quoted) c.rest) =
    Placeholder.tokens s
  isOpen : (after (mode l.quoted) c.rest).isOpen = (after .plain s.toList).isOpen

/-- The text in front of the loop can be cut out. -/
theorem mapM_piece {s : String} {given kept rest : List Char}
    (htext : s.toList = given ++ kept ++ rest) (hstart : l.start = utf8Len given) :
    (l.piece (utf8Len (given ++ kept))).mapM (Span.token? s) = some (pending kept.reverse) := by
  cases kept with
  | nil => simp [piece, hstart, pending]
  | cons c kept =>
    have hlt : l.start < utf8Len (given ++ c :: kept) := by
      have := c.utf8Size_pos
      simp only [hstart, String.utf8Len_append, String.utf8Len_cons]
      omega
    have hcut : slice? s l.start (utf8Len (given ++ c :: kept)) =
        some (String.ofList (c :: kept)) := hstart ▸ slice?_eq htext
    have hpending : pending (c :: kept).reverse = [.text (String.ofList (c :: kept))] := by
      cases h : (c :: kept).reverse with
      | nil => simp at h
      | cons d ds => rw [pending, ← h, List.reverse_reverse]
    rw [piece, if_pos hlt, hpending]
    generalize utf8Len (given ++ c :: kept) = j at hcut
    simp [Span.token?, hcut]

theorem gather_chars_append (p cs : List Char) (ls : List Lexeme) :
    gather p (cs.map .char ++ ls) = gather (cs.reverse ++ p) ls := by
  induction cs generalizing p with
  | nil => rfl
  | cons c cs ih => simp [gather, ih]

namespace Invariant

variable {s : String} {c : Cut} {front rest : List Char} {quoted quoted' : Bool}

/-- At the beginning everything is still to come. -/
theorem start_loop (s : String) : Invariant s {} ⟨[], [], s.toList, []⟩ where
  text := rfl
  start := rfl
  le_here := Nat.le_refl _
  here _ := rfl
  given := rfl
  tokens := rfl
  isOpen := rfl

/-- Some characters are looked at that are only themselves. -/
theorem keep (h : Invariant s l c) (hquoted : l.quoted = quoted)
    (hread : ReadsFront quoted front (front.map .char) quoted' rest)
    (hrest : c.rest = front ++ rest) (hne : c.rest ≠ []) :
    Invariant s { l.skip (utf8Len front) with quoted := quoted' }
      { c with kept := c.kept ++ front, rest := rest } := by
  have hhere : l.here + utf8Len front = utf8Len (c.given ++ (c.kept ++ front)) := by
    rw [h.here hne, ← List.append_assoc, String.utf8Len_append _ front]
  have htokens := h.tokens
  have hopen := h.isOpen
  rw [hquoted, hrest, hread.lexemesFrom_eq, gather_chars_append] at htokens
  rw [hquoted, hrest, hread.isOpen_eq] at hopen
  exact ⟨by simp [h.text, hrest], h.start, hhere.ge, fun _ => hhere, h.given,
    by simpa using htokens, hopen⟩

/-- A mark is looked at, and given out with the text in front of it. -/
theorem give (h : Invariant s l c) (hquoted : l.quoted = quoted) {lexeme : Lexeme}
    (hread : ReadsFront quoted front [lexeme] quoted rest) (hrest : c.rest = front ++ rest)
    (hne : c.rest ≠ []) {mark : Span} {t : Token} (hmark : mark.token? s = some t)
    (hgather : ∀ p ls, gather p (lexeme :: ls) = pending p ++ t :: gather [] ls) :
    Invariant s ((l.give mark (l.here + utf8Len front)).skip (utf8Len front))
      ⟨c.given ++ c.kept ++ front, [], rest, c.tokens ++ pending c.kept.reverse ++ [t]⟩ := by
  have hhere : l.here + utf8Len front = utf8Len (c.given ++ c.kept ++ front ++ []) := by
    rw [List.append_nil, h.here hne, String.utf8Len_append _ front]
  have hpiece := mapM_piece h.text h.start
  rw [← h.here hne] at hpiece
  have htokens := h.tokens
  have hopen := h.isOpen
  rw [hquoted, hrest, hread.lexemesFrom_eq, List.singleton_append, hgather] at htokens
  rw [hquoted, hrest, hread.isOpen_eq] at hopen
  refine ⟨by simp [h.text, hrest], ?_, hhere.ge, fun _ => hhere, ?_, ?_, ?_⟩
  · rw [← List.append_nil (c.given ++ c.kept ++ front), ← hhere]
    rfl
  · simp [Loop.give, Loop.skip, h.given, hpiece, hmark]
  · simpa [Loop.give, Loop.skip, hquoted] using htokens
  · simpa [Loop.give, Loop.skip, hquoted] using hopen

/-- At the end it does not matter how far the loop has gone. -/
theorem skip (h : Invariant s l c) (hend : c.rest = []) (n : Nat) : Invariant s (l.skip n) c where
  text := h.text
  start := h.start
  le_here := h.le_here.trans (Nat.le_add_right _ _)
  here hne := absurd hend hne
  given := h.given
  tokens := h.tokens
  isOpen := h.isOpen

/-! ### The bytes before the loop -/

theorem bytes_eq (h : Invariant s l c) : bytes s = encode (c.given ++ c.kept ++ c.rest) := by
  rw [bytes, h.text]

/-- A character of ASCII is found at its byte. -/
theorem charAt_here (h : Invariant s l c) {d : Char} (hrest : c.rest = d :: rest)
    (hd : d.toNat ≤ 127) : charAt (bytes s) l.here = some d := by
  have hany := any_charAt (IsAscii.beq hd) (c.given ++ c.kept) c.rest
  rw [← h.bytes_eq, ← h.here (by simp [hrest]), hrest] at hany
  simpa [any_beq] using hany

/-- The position behind a character that is one byte. -/
theorem here_succ (h : Invariant s l c) {d : Char} (hrest : c.rest = d :: rest)
    (hd : d.utf8Size = 1) : utf8Len (c.given ++ c.kept ++ [d]) = l.here + 1 := by
  rw [String.utf8Len_append, ← h.here (by simp [hrest])]
  simp [hd]

/-- A test for characters of ASCII may be made at the byte behind a colon. -/
theorem any_charAt_succ (h : Invariant s l c) (hrest : c.rest = ':' :: rest) {p : Char → Bool}
    (hp : IsAscii p) : (charAt (bytes s) (l.here + 1)).any p = rest.head?.any p := by
  have hany := any_charAt hp (c.given ++ c.kept ++ [':']) rest
  rwa [h.here_succ hrest (by decide), List.append_assoc, List.singleton_append, ← hrest,
    ← h.bytes_eq] at hany

theorem charAt_succ_eq_colon_iff (h : Invariant s l c) (hrest : c.rest = ':' :: rest) :
    charAt (bytes s) (l.here + 1) = some ':' ↔ rest.head? = some ':' := by
  rw [← any_beq, ← any_beq, h.any_charAt_succ hrest (IsAscii.beq (by decide))]

/-- The end of the name behind a colon. -/
theorem nameEnd_eq (h : Invariant s l c) (hrest : c.rest = ':' :: rest) :
    nameEnd (bytes s) (l.here + 1) = l.here + utf8Len (':' :: rest.takeWhile isNameChar) := by
  have hsucc := h.here_succ hrest (by decide)
  rw [← length_encode] at hsucc
  have hbytes : bytes s = encode (c.given ++ c.kept ++ [':']) ++ encode rest := by
    rw [h.bytes_eq, hrest]
    simp
  rw [nameEnd, hbytes, ← hsucc, List.drop_left, takeWhile_encode isAscii_isNameChar, hsucc,
    length_encode, utf8Len_colon_cons, Nat.add_assoc]

theorem turn_eq_turnColon (h : Invariant s l c) (hquoted : l.quoted = false)
    (hrest : c.rest = ':' :: rest) : turn (bytes s) l = l.turnColon (bytes s) := by
  rw [turn_of_charAt (h.charAt_here hrest (by decide))]
  simp [turnAt, hquoted]

/-! ### One turn after the other -/

/-- The loop comes to a state with less text before it, and the invariant is kept. -/
def GoesOn (s : String) (l : Loop) (c : Cut) : Prop :=
  ∃ l' c', Reaches (bytes s) l l' ∧ Invariant s l' c' ∧ c'.rest.length < c.rest.length

/-- Over a character at which it does not stop the loop goes on to the next one. -/
theorem goesOn_of_not_stops (h : Invariant s l c) {d : Char} (hrest : c.rest = d :: rest)
    (hd : stops l.quoted d = false) : GoesOn s l c := by
  have hne : c.rest ≠ [] := by simp [hrest]
  have hbytes : bytes s =
      encode (c.given ++ c.kept) ++ (utf8EncodeChar d ++ encode rest) := by
    rw [h.bytes_eq, hrest, encode_append, encode_cons]
  have hreach : Reaches (bytes s) l (l.skip (utf8EncodeChar d).length) :=
    reaches_skip hbytes ((h.here hne).trans (length_encode _).symm)
      fun b hb => (isAscii_stops l.quoted).eq_false_of_mem hd hb
  have hlen : utf8Len [d] = (utf8EncodeChar d).length := by simp
  refine ⟨_, _, ?_, h.keep rfl (.char hd rest) hrest hne, by simp [hrest]⟩
  rw [hlen]
  exact hreach

/-- At a quotation mark the loop goes over into quoted text, or out of it. -/
theorem goesOn_quote (h : Invariant s l c) (hrest : c.rest = '\'' :: rest) : GoesOn s l c := by
  have hturn : turn (bytes s) l = { l.skip 1 with quoted := !l.quoted } := by
    rw [turn_of_charAt (h.charAt_here hrest (by decide))]
    cases hq : l.quoted <;> simp [turnAt, hq]
  refine ⟨_, _, .of_turn ?_, h.keep rfl (.quote l.quoted rest) hrest (by simp [hrest]),
    by simp [hrest]⟩
  rw [hturn]
  exact .refl _ _

/-- Over a backslash in quoted text the loop goes on with the character behind it. -/
theorem goesOn_backslash (h : Invariant s l c) (hquoted : l.quoted = true)
    (hrest : c.rest = '\\' :: rest) : GoesOn s l c := by
  have hne : c.rest ≠ [] := by simp [hrest]
  have hturn : turn (bytes s) l = l.skip 2 := by
    rw [turn_of_charAt (h.charAt_here hrest (by decide))]
    simp [turnAt, hquoted]
  cases rest with
  | nil =>
    have hend : Invariant s { l.skip 1 with quoted := true } _ :=
      h.keep hquoted .backslash hrest hne
    have hstate : { l.skip 1 with quoted := true }.skip 1 = l.skip 2 := by
      simp [Loop.skip, ← hquoted]
    exact ⟨_, _, .of_turn (hturn ▸ .refl _ _), hstate ▸ hend.skip rfl 1, by simp [hrest]⟩
  | cons d ds =>
    -- the first byte of the character is skipped with the backslash
    obtain ⟨b, bs, hb⟩ := List.exists_cons_of_ne_nil (String.utf8EncodeChar_ne_nil (c := d))
    have hbytes : bytes s =
        encode (c.given ++ c.kept ++ ['\\']) ++ [b] ++ (bs ++ encode ds) := by
      rw [h.bytes_eq, hrest]
      simp [hb]
    have hhere : (l.skip 2).here = (encode (c.given ++ c.kept ++ ['\\']) ++ [b]).length := by
      rw [List.length_append, length_encode, h.here_succ hrest (by decide)]
      rfl
    have hreach : Reaches (bytes s) (l.skip 2) ((l.skip 2).skip bs.length) :=
      reaches_skip hbytes hhere fun e he =>
        (isAscii_stops l.quoted).eq_false_of_mem_tail (c := d) (by rwa [hb])
    have hlen : utf8Len ['\\', d] = 2 + bs.length := by
      have hsize : '\\'.utf8Size = 1 := by decide
      have hlength := String.length_utf8EncodeChar d
      rw [hb, List.length_cons] at hlength
      simp only [String.utf8Len_cons, String.utf8Len_nil]
      omega
    have hstate : { l.skip (utf8Len ['\\', d]) with quoted := true } =
        (l.skip 2).skip bs.length := by
      simp [Loop.skip, hlen, hquoted, Nat.add_assoc]
    refine ⟨_, _, .of_turn ?_, h.keep hquoted (.escaped d ds) hrest hne, by simp [hrest]⟩
    rwa [hturn, hstate]

/-- A positional mark is given out. -/
theorem goesOn_positional (h : Invariant s l c) (hquoted : l.quoted = false)
    (hrest : c.rest = '?' :: rest) : GoesOn s l c := by
  have hturn : turn (bytes s) l = (l.give .positional (l.here + 1)).skip 1 := by
    rw [turn_of_charAt (h.charAt_here hrest (by decide))]
    simp [turnAt, hquoted]
  have hmark : Span.positional.token? s = some .positional := rfl
  refine ⟨_, _, .of_turn ?_, h.give hquoted (.positional rest) hrest (by simp [hrest]) hmark
    fun _ _ => rfl, by simp [hrest]⟩
  rw [hturn]
  exact .refl _ _

/-- Two colons in a row are no mark. -/
theorem goesOn_colons (h : Invariant s l c) (hquoted : l.quoted = false)
    (hrest : c.rest = ':' :: ':' :: rest) : GoesOn s l c := by
  have hnext : charAt (bytes s) (l.here + 1) = some ':' :=
    (h.charAt_succ_eq_colon_iff hrest).2 rfl
  have hturn : turn (bytes s) l = { l.skip 2 with quoted := false } := by
    rw [h.turn_eq_turnColon hquoted hrest, turnColon, if_pos hnext, ← hquoted]
    rfl
  refine ⟨_, _, .of_turn ?_, h.keep hquoted (.colons rest) hrest (by simp [hrest]),
    by simp [hrest]⟩
  rw [hturn]
  exact .refl _ _

/-- The name behind a colon can be cut out. -/
theorem token?_named (h : Invariant s l c) (hrest : c.rest = ':' :: rest) :
    (Span.named (l.here + 1) (l.here + utf8Len (':' :: rest.takeWhile isNameChar))).token? s =
      some (.named (String.ofList (rest.takeWhile isNameChar))) := by
  have htext : s.toList = c.given ++ c.kept ++ [':'] ++ rest.takeWhile isNameChar ++
      rest.dropWhile isNameChar := by
    simp [h.text, hrest]
  have hcut := slice?_eq htext
  rw [String.utf8Len_append _ (rest.takeWhile isNameChar), h.here_succ hrest (by decide)] at hcut
  rw [Span.token?, utf8Len_colon_cons, ← Nat.add_assoc, hcut]
  rfl

/-- A named mark is given out. -/
theorem goesOn_name (h : Invariant s l c) (hquoted : l.quoted = false)
    (hrest : c.rest = ':' :: rest) (hstart : rest.head?.any isNameStart = true) :
    GoesOn s l c := by
  have hsplit := hrest.trans (ReadsFront.colon_append rest).symm
  have hcolon : charAt (bytes s) (l.here + 1) ≠ some ':' := by
    rw [Ne, h.charAt_succ_eq_colon_iff hrest]
    intro hhead
    rw [hhead] at hstart
    exact absurd hstart (by decide)
  have hany : (charAt (bytes s) (l.here + 1)).any isNameStart = true := by
    rw [h.any_charAt_succ hrest isAscii_isNameStart, hstart]
  have hlen : 1 < utf8Len (':' :: rest.takeWhile isNameChar) := by
    obtain ⟨d, ds, rfl⟩ : ∃ d ds, rest = d :: ds :=
      List.exists_cons_of_ne_nil fun hnil => by simp [hnil] at hstart
    have hname := isNameChar_of_isNameStart (c := d) (by simpa using hstart)
    have hpos := d.utf8Size_pos
    rw [utf8Len_colon_cons, List.takeWhile_cons_of_pos hname, String.utf8Len_cons]
    omega
  refine ⟨_, _, .of_turn ?_, h.give hquoted (.colon_name hstart) hsplit (by simp [hrest])
    (h.token?_named hrest) fun _ _ => rfl, ?_⟩
  · rw [h.turn_eq_turnColon hquoted hrest,
      turnColon_of_name hcolon hany (h.nameEnd_eq hrest) hlen]
    exact .refl _ _
  · rw [hsplit, List.length_append]
    exact Nat.lt_add_of_pos_left (Nat.succ_pos _)

/-- Over a lone colon, and digits behind it, the loop goes on. -/
theorem goesOn_colon (h : Invariant s l c) (hquoted : l.quoted = false)
    (hrest : c.rest = ':' :: rest) (hcolon : rest.head? ≠ some ':')
    (hstart : rest.head?.any isNameStart = false) : GoesOn s l c := by
  have hsplit := hrest.trans (ReadsFront.colon_append rest).symm
  have hnext : charAt (bytes s) (l.here + 1) ≠ some ':' :=
    mt (h.charAt_succ_eq_colon_iff hrest).1 hcolon
  have hany : (charAt (bytes s) (l.here + 1)).any isNameStart = false := by
    rw [h.any_charAt_succ hrest isAscii_isNameStart, hstart]
  have hlen : 1 ≤ utf8Len (':' :: rest.takeWhile isNameChar) := by
    rw [utf8Len_colon_cons]
    exact Nat.le_add_right _ _
  have hturn : turn (bytes s) l =
      { l.skip (utf8Len (':' :: rest.takeWhile isNameChar)) with quoted := false } := by
    rw [h.turn_eq_turnColon hquoted hrest,
      turnColon_of_alone hnext hany (h.nameEnd_eq hrest) hlen, ← hquoted]
    rfl
  refine ⟨_, _, .of_turn ?_, h.keep hquoted (.colon_alone hcolon hstart) hsplit (by simp [hrest]),
    ?_⟩
  · rw [hturn]
    exact .refl _ _
  · rw [hsplit, List.length_append]
    exact Nat.lt_add_of_pos_left (Nat.succ_pos _)

/-- As long as there is text before it, the loop goes on. -/
theorem goesOn (h : Invariant s l c) (hne : c.rest ≠ []) : GoesOn s l c := by
  obtain ⟨d, rest, hrest⟩ := List.exists_cons_of_ne_nil hne
  cases hstops : stops l.quoted d with
  | false => exact h.goesOn_of_not_stops hrest hstops
  | true =>
    cases hquoted : l.quoted with
    | true =>
      rw [hquoted, stops_true_iff] at hstops
      rcases hstops with rfl | rfl
      · exact h.goesOn_backslash hquoted hrest
      · exact h.goesOn_quote hrest
    | false =>
      rw [hquoted, stops_false_iff] at hstops
      rcases hstops with rfl | rfl | rfl
      · exact h.goesOn_quote hrest
      · exact h.goesOn_positional hquoted hrest
      · by_cases hcolon : rest.head? = some ':'
        · obtain ⟨rest, rfl⟩ := List.head?_eq_some_iff.1 hcolon
          exact h.goesOn_colons hquoted hrest
        · cases hstart : rest.head?.any isNameStart with
          | true => exact h.goesOn_name hquoted hrest hstart
          | false => exact h.goesOn_colon hquoted hrest hcolon hstart

/-- The loop comes to a state with nothing before it. -/
theorem reaches_end (h : Invariant s l c) :
    ∃ l' c', Reaches (bytes s) l l' ∧ Invariant s l' c' ∧ c'.rest = [] := by
  -- each time the loop goes on there is less before it
  induction hlen : c.rest.length using Nat.strong_induction_on generalizing l c with
  | _ n ih =>
    by_cases hend : c.rest = []
    · exact ⟨l, c, .refl _ _, h, hend⟩
    · obtain ⟨l', c', hreach, h', hlt⟩ := h.goesOn hend
      obtain ⟨l'', c'', hreach', h'', hend'⟩ := ih _ (hlen ▸ hlt) h' rfl
      exact ⟨l'', c'', hreach.trans hreach', h'', hend'⟩

theorem size_eq (h : Invariant s l c) (hend : c.rest = []) :
    s.utf8ByteSize = utf8Len (c.given ++ c.kept) := by
  rw [← String.utf8Len_toList, h.text, hend, List.append_nil]

end Invariant

/-! ### The end of the loop -/

/-- In its last state the loop has nothing before it. -/
theorem exists_invariant_last (s : String) : ∃ c, Invariant s (last s) c ∧ c.rest = [] := by
  obtain ⟨l, c, hreach, h, hend⟩ := (Invariant.start_loop s).reaches_end
  have hover : IsOver (bytes s) l := by
    rw [IsOver, length_bytes, h.size_eq hend]
    exact h.le_here
  exact ⟨c, hreach.last_eq hover ▸ h, hend⟩

/-- The loop gives out the tokens of the text, and only cuts the text between characters. -/
theorem scan?_eq (s : String) : scan? s = some (tokens s) := by
  obtain ⟨c, h, hend⟩ := exists_invariant_last s
  have hrest : lexemesFrom (mode (last s).quoted) c.rest = [] := by
    rw [hend]
    cases (last s).quoted <;> rfl
  have htokens := h.tokens
  rw [hrest, gather] at htokens
  rw [scan?, spansOf, List.mapM_append, h.given, h.size_eq hend, mapM_piece h.text h.start,
    ← htokens]
  rfl

/-- The loop ends in quoted text just if the text leaves quoted text open. -/
theorem quoted_last (s : String) : (last s).quoted = !isClosed s := by
  obtain ⟨c, h, hend⟩ := exists_invariant_last s
  have hclosed : isClosed s = (after .plain s.toList).isOpen := Bool.eq_iff_iff.2 isClosed_iff
  rw [hclosed, ← h.isOpen, hend]
  cases (last s).quoted <;> rfl

end Loop

end Placeholder

end SqlSelect
