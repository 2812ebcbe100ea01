import Mathlib.Data.String.Basic
import SqlSelect.Placeholder

/-!
# Texts as bytes

A text is stored as the bytes of its characters. A character of ASCII is one byte, its number, and
the bytes of any other character are all above the numbers of ASCII. So whoever looks for characters
of ASCII may look at the bytes.

* `Utf8.encode`, `Utf8.bytes`: the bytes of characters and of a text;
* `Utf8.charAt`: a byte of a text, as the character of its number;
* `Utf8.slice?`: the text between two positions, which there is only between characters
  (`Utf8.slice?_eq`);
* `Utf8.IsAscii p`: a test that only characters of ASCII pass. It may be made at bytes instead
  (`Utf8.any_charAt`, `Utf8.takeWhile_encode`).
-/

namespace SqlSelect

namespace Utf8

open String (utf8Len utf8EncodeChar)

/-- The bytes of characters. -/
def encode (cs : List Char) : List UInt8 := cs.flatMap utf8EncodeChar

/-- The bytes of a text. -/
def bytes (s : String) : List UInt8 := encode s.toList

/-- The byte at a position, as the character of its number. -/
def charAt (bs : List UInt8) (i : Nat) : Option Char := bs[i]?.map Char.ofUInt8

/-- The text between two positions. There is none unless the positions are in order and each stands
between two characters or at an end. -/
def slice? (s : String) (i j : Nat) : Option String :=
  if i ≤ j ∧ (String.Pos.Raw.mk i).IsValid s ∧ (String.Pos.Raw.mk j).IsValid s then
    some (String.Pos.Raw.extract s ⟨i⟩ ⟨j⟩)
  else none

/-- The bytes are those that the text is stored as. -/
theorem toByteArray_bytes (s : String) : (bytes s).toByteArray = s.toByteArray :=
  String.utf8Encode_toList

@[simp] theorem encode_nil : encode [] = [] := rfl

@[simp] theorem encode_cons (c : Char) (cs : List Char) :
    encode (c :: cs) = utf8EncodeChar c ++ encode cs := rfl

@[simp] theorem encode_append (cs ds : List Char) : encode (cs ++ ds) = encode cs ++ encode ds :=
  List.flatMap_append

@[simp] theorem length_encode (cs : List Char) : (encode cs).length = utf8Len cs := by
  induction cs with
  | nil => rfl
  | cons c cs ih => simp [ih, Nat.add_comm]

@[simp] theorem length_bytes (s : String) : (bytes s).length = s.utf8ByteSize := by
  rw [← List.size_toByteArray, toByteArray_bytes, String.size_toByteArray]

theorem charAt_eq_none_iff {bs : List UInt8} {i : Nat} : charAt bs i = none ↔ bs.length ≤ i := by
  simp [charAt]

theorem charAt_length_append (bs : List UInt8) (b : UInt8) (cs : List UInt8) :
    charAt (bs ++ b :: cs) bs.length = some (Char.ofUInt8 b) := by
  simp [charAt]

/-! ### Characters of ASCII -/

theorem toNat_ofUInt8 (b : UInt8) : (Char.ofUInt8 b).toNat = b.toNat := UInt8.toNat_toUInt32 b

/-- The bytes of a character that is not in ASCII are above the numbers of ASCII. -/
theorem lt_toNat_of_mem_utf8EncodeChar {c : Char} (hc : 127 < c.val.toNat) {b : UInt8}
    (hb : b ∈ utf8EncodeChar c) : 127 < b.toNat := by
  rw [utf8EncodeChar] at hb
  -- there are two, three or four bytes, each a remainder with leading bits added to it
  split at hb
  · omega
  · split at hb
    · simp only [List.mem_cons, List.not_mem_nil, or_false] at hb
      rcases hb with rfl | rfl <;> rw [UInt8.toNat_ofNat'] <;> omega
    · split at hb
      · simp only [List.mem_cons, List.not_mem_nil, or_false] at hb
        rcases hb with rfl | rfl | rfl <;> rw [UInt8.toNat_ofNat'] <;> omega
      · simp only [List.mem_cons, List.not_mem_nil, or_false] at hb
        rcases hb with rfl | rfl | rfl | rfl <;> rw [UInt8.toNat_ofNat'] <;> omega

/-- A character of ASCII is one byte, its number. Any other has no byte of ASCII. -/
theorem utf8EncodeChar_cases (c : Char) :
    (∃ b, utf8EncodeChar c = [b] ∧ Char.ofUInt8 b = c) ∨
      127 < c.toNat ∧ ∀ b ∈ utf8EncodeChar c, 127 < (Char.ofUInt8 b).toNat := by
  rcases Nat.lt_or_ge 127 c.val.toNat with hc | hc
  · refine .inr ⟨hc, fun b hb => ?_⟩
    rw [toNat_ofUInt8]
    exact lt_toNat_of_mem_utf8EncodeChar hc hb
  · have hsize : c.utf8Size = 1 := Char.utf8Size_eq_one_iff.2 (UInt32.le_iff_toNat_le.2 hc)
    refine .inl ⟨c.val.toUInt8, String.utf8EncodeChar_eq_singleton hsize, ?_⟩
    have hnum : (Char.ofUInt8 c.val.toUInt8).toNat = c.val.toNat := by
      rw [toNat_ofUInt8, UInt32.toNat_toUInt8]
      omega
    rw [← Char.val_inj, ← UInt32.toNat_inj]
    exact hnum

/-- Only characters of ASCII pass the test. -/
def IsAscii (p : Char → Bool) : Prop := ∀ c, p c = true → c.toNat ≤ 127

namespace IsAscii

variable {p : Char → Bool} {c : Char}

theorem eq_false (hp : IsAscii p) (hc : 127 < c.toNat) : p c = false :=
  Bool.eq_false_iff.2 fun h => absurd (hp c h) (by omega)

/-- A character that is looked for. -/
theorem beq (hc : c.toNat ≤ 127) : IsAscii (· == c) := by
  intro d hd
  rwa [eq_of_beq hd]

/-- If a character fails the test, so do all of its bytes. -/
theorem eq_false_of_mem (hp : IsAscii p) (hc : p c = false) {b : UInt8}
    (hb : b ∈ utf8EncodeChar c) : p (Char.ofUInt8 b) = false := by
  rcases utf8EncodeChar_cases c with ⟨d, hd, hchar⟩ | ⟨-, hbytes⟩
  · rw [hd, List.mem_singleton] at hb
    rwa [hb, hchar]
  · exact hp.eq_false (hbytes b hb)

/-- Behind its first byte a character has no byte of ASCII. -/
theorem eq_false_of_mem_tail (hp : IsAscii p) {b : UInt8} (hb : b ∈ (utf8EncodeChar c).tail) :
    p (Char.ofUInt8 b) = false := by
  rcases utf8EncodeChar_cases c with ⟨d, hd, -⟩ | ⟨-, hbytes⟩
  · simp [hd] at hb
  · exact hp.eq_false (hbytes b (List.mem_of_mem_tail hb))

/-- Where a character begins, its first byte passes the test just if the character does. -/
theorem ofUInt8_eq (hp : IsAscii p) {b : UInt8} {bs : List UInt8}
    (hc : utf8EncodeChar c = b :: bs) : p (Char.ofUInt8 b) = p c := by
  rcases utf8EncodeChar_cases c with ⟨d, hd, hchar⟩ | ⟨hlt, hbytes⟩
  · obtain ⟨rfl, -⟩ := List.cons.inj (hc.symm.trans hd)
    rw [hchar]
  · rw [hp.eq_false hlt, hp.eq_false (hbytes b (hc ▸ List.mem_cons_self))]

end IsAscii

variable {p : Char → Bool}

/-- A test for characters of ASCII may be made at the byte where a character begins. -/
theorem any_charAt (hp : IsAscii p) (front cs : List Char) :
    (charAt (encode (front ++ cs)) (utf8Len front)).any p = cs.head?.any p := by
  cases cs with
  | nil =>
    have hend : charAt (encode (front ++ [])) (utf8Len front) = none := by
      simp [charAt_eq_none_iff]
    rw [hend]
    rfl
  | cons c cs =>
    obtain ⟨b, bs, hc⟩ := List.exists_cons_of_ne_nil (String.utf8EncodeChar_ne_nil (c := c))
    rw [encode_append, encode_cons, hc, List.cons_append, ← length_encode, charAt_length_append]
    exact hp.ofUInt8_eq hc

/-- The first characters that pass a test for characters of ASCII are the first bytes that do. -/
theorem takeWhile_encode (hp : IsAscii p) (cs : List Char) :
    (encode cs).takeWhile (fun b => p (Char.ofUInt8 b)) = encode (cs.takeWhile p) := by
  induction cs with
  | nil => rfl
  | cons c cs ih =>
    cases hc : p c with
    | false =>
      obtain ⟨b, bs, hcons⟩ := List.exists_cons_of_ne_nil (String.utf8EncodeChar_ne_nil (c := c))
      simp [hcons, hc, hp.ofUInt8_eq hcons]
    | true =>
      rcases utf8EncodeChar_cases c with ⟨b, hb, hchar⟩ | ⟨hlt, -⟩
      · simp [hb, hchar, hc, ih]
      · exact absurd (hp c hc) (by omega)

/-! ### Positions -/

theorem isValid_utf8Len {s : String} {front back : List Char} (hs : s.toList = front ++ back) :
    (String.Pos.Raw.mk (utf8Len front)).IsValid s := by
  have htext : s = String.ofList front ++ String.ofList back := by
    rw [← String.toList_inj, hs]
    simp
  exact String.Pos.Raw.isValid_iff_exists_append.2 ⟨_, _, htext, by simp⟩

/-- Between characters a text can be cut. -/
theorem slice?_eq {s : String} {front mid back : List Char} (hs : s.toList = front ++ mid ++ back) :
    slice? s (utf8Len front) (utf8Len (front ++ mid)) = some (String.ofList mid) := by
  have hstart := isValid_utf8Len (hs.trans (List.append_assoc ..))
  have hcut := String.extract_of_valid front mid back
  rw [← hs, String.ofList_toList] at hcut
  rw [slice?, if_pos ⟨by simp, hstart, isValid_utf8Len hs⟩, String.utf8Len_append, hcut]

example : slice? "aé?" 1 3 = some "é" ∧ slice? "aé?" 1 2 = none := by decide

end Utf8

end SqlSelect
