import SqlSelect.KeyData
import SqlSelect.Proofs.Qualifiers

/-!
# Placeholders on both sides of a separator

No placeholder goes on over a character that no name has, so a text can be resolved part by part.
The dot of a key is such a character: what a key says in front of its dot is resolved to the name
under which the alias of the table is kept.

* `TableName.splitFirst?_expand_dot`: the two sides of the first dot of a resolved key;
* `Scope.key_of_splitFirst?`: a key of which the first side has an alias;
* `TableName.expand_separated`: texts and keys that are resolved in parts, and the alias that is
  found for a key.
-/

namespace SqlSelect

variable {pre table column : String}

namespace TableName

/-- Without a dot in the prefix, none comes into a text. -/
theorem dot_not_mem_expand (hpre : '.' ∉ pre.toList) (htable : '.' ∉ table.toList) :
    '.' ∉ (expand pre table).toList := by
  have hover : ∀ {s : String}, Text.IsOver (· != '.') s ↔ '.' ∉ s.toList := fun {s} => by
    simp only [Text.IsOver, bne_iff_ne]
    exact ⟨fun h hmem => h '.' hmem rfl, fun h c hc he => h (he ▸ hc)⟩
  have hlower : ∀ c : Char, (c != '.') = true → (c.toLower != '.') = true := fun c hc => by
    rcases Chars.toLower_eq_self_or c with he | he
    · rwa [he]
    · rw [bne_iff_ne]
      rintro hdot
      rw [hdot] at he
      exact absurd he (by decide)
  exact hover.1 (isOver_expand hlower (hover.2 hpre) (hover.2 htable))

/-- The first dot of a resolved key stands behind its resolved table. -/
theorem splitFirst?_expand_dot (hpre : '.' ∉ pre.toList) (htable : '.' ∉ table.toList)
    (column : String) :
    Text.splitFirst? '.' (expand pre (table ++ "." ++ column)) =
      some (expand pre table, expand pre column) := by
  have hchars : (expand pre (table ++ "." ++ column)).toList =
      (expand pre table).toList ++ '.' :: (expand pre column).toList := by
    rw [expand_dot]
    simp
  rw [Text.splitFirst?, hchars, Chars.splitFirst?_append_cons (dot_not_mem_expand hpre htable)]
  simp

end TableName

/-- A key is looked up under what is resolved in front of its first dot. -/
theorem Scope.key_of_splitFirst? {s : Scope} {field owner member short : String}
    (hsplit : Text.splitFirst? '.' (s.expand field) = some (owner, member))
    (hname : Name.isExpression (s.expand field) = false)
    (halias : s.aliases.get? owner = some short) :
    s.key field = s.quote (short ++ "." ++ member) := by
  rw [key, qualify, hsplit]
  simp only [hname, halias]
  rfl

namespace Document

variable {d : Document} {short : String}

/-- An alias is kept under the resolved name of its table. -/
theorem get?_addAlias (pre table short : String) (d : Document) :
    (d.addAlias pre table short).aliases.get? (TableName.expand pre table) = some short :=
  NameMap.get?_insert_self ..

/-- The column of a key is named by the alias that is kept for the main table. -/
theorem qualifyKey_of_alias (hmain : d.mainTable? = some table)
    (halias : d.aliases.get? (TableName.expand pre table) = some short) :
    d.qualifyKey pre column = short ++ "." ++ column := by
  rw [qualifyKey, mainAlias?, hmain, Option.bind_some, halias]
  rfl

end Document

/-- Texts around a character that no placeholder has are resolved each by itself, and a text without
two underscores in a row stays as it is. So without a dot in the prefix and in the table, a resolved
key has in front of its first dot the name to which the table is resolved by itself. Under this name
an alias of the table is kept, and by this name it is found when the key is written and when a
column of the primary key is named. -/
theorem TableName.expand_separated (pre : String) :
    (∀ (s t : String) (x : Char), isPlaceholderChar x = false →
      expand pre (s ++ String.singleton x ++ t) =
        expand pre s ++ String.singleton x ++ expand pre t) ∧
      (∀ s : String, ¬ ['_', '_'] <:+: s.toList → expand pre s = s) ∧
      ∀ table : String, '.' ∉ pre.toList → '.' ∉ table.toList →
        (∀ column, Text.splitFirst? '.' (expand pre (table ++ "." ++ column)) =
          some (expand pre table, expand pre column)) ∧
        ∀ (d : Document) (short : String),
          (d.addAlias pre table short).aliases.get? (expand pre table) = some short ∧
          (d.aliases.get? (expand pre table) = some short →
            (∀ r : Renderer, r.tablePrefix = pre → ∀ column,
              Name.isExpression (expand pre (table ++ "." ++ column)) = false →
              (d.scope r).key (table ++ "." ++ column) =
                r.dialect.quote (short ++ "." ++ expand pre column)) ∧
            (d.mainTable? = some table → ∀ column,
              d.qualifyKey pre column = short ++ "." ++ column)) := by
  refine ⟨fun s t x hx => expand_append_singleton hx pre s t,
    fun s hs => expand_of_not_infix pre hs,
    fun table hpre htable => ⟨splitFirst?_expand_dot hpre htable,
      fun d short => ⟨d.get?_addAlias pre table short, fun halias => ⟨?written, ?named⟩⟩⟩⟩
  case written =>
    rintro r rfl column hname
    exact Scope.key_of_splitFirst? (splitFirst?_expand_dot hpre htable column) hname halias
  case named => exact fun hmain column => Document.qualifyKey_of_alias hmain halias

/-- A table with an alias, named by its placeholder. -/
def Document.roleSample : Document :=
  Document.addAlias "think_" "__ROLE__" "r" { tables := ["__ROLE__"] }

/-- Underscores in front of a separator and behind it do not meet over it. The alias that is kept
for a placeholder is found for a key that names the table by the placeholder or by its name, and the
column of the key is resolved by itself. -/
theorem TableName.expand_separated_roleSample :
    let d := Document.roleSample
    let r : Renderer := { dialect := .mysql, tablePrefix := "think_" }
    isPlaceholderChar ' ' = false ∧
      expand "think_" ("__A_" ++ String.singleton ' ' ++ "_B__C__") = "__A_ _Bthink_c" ∧
      ¬ ['_', '_'] <:+: "A_B_".toList ∧ expand "think_" "A_B_" = "A_B_" ∧
      '.' ∉ "think_".toList ∧ '.' ∉ "__ROLE__".toList ∧ '.' ∉ "think_role".toList ∧
      d.aliases.get? "think_role" = some "r" ∧ d.mainTable? = some "__ROLE__" ∧
      (d.scope r).key ("__ROLE__" ++ "." ++ "__ID__") = "\x60r\x60.\x60think_id\x60" ∧
      (d.scope r).key ("think_role" ++ "." ++ "id") = "\x60r\x60.\x60id\x60" ∧
      d.qualifyKey "think_" "id" = "r.id" := by
  intro d r
  obtain ⟨hapart, hplain, hkeys⟩ := expand_separated "think_"
  have hrole : expand "think_" "__ROLE__" = "think_role" := by decide +kernel
  have hname : expand "think_" "think_role" = "think_role" := by decide +kernel
  have halias : d.aliases.get? "think_role" = some "r" := by decide +kernel
  obtain ⟨-, hplaceholder⟩ := hkeys "__ROLE__" (by decide) (by decide)
  obtain ⟨-, htable⟩ := hkeys "think_role" (by decide) (by decide)
  obtain ⟨hwritten, hnamed⟩ := (hplaceholder d "r").2 (by rw [hrole, halias])
  obtain ⟨hwritten', -⟩ := (htable d "r").2 (by rw [hname, halias])
  refine ⟨by decide, ?_, by decide, hplain _ (by decide), by decide, by decide, by decide, halias,
    rfl, ?_, ?_, hnamed rfl "id"⟩
  · rw [hapart "__A_" "_B__C__" ' ' (by decide)]
    decide +kernel
  · rw [hwritten r rfl "__ID__" (by decide +kernel)]
    decide +kernel
  · rw [hwritten' r rfl "id" (by decide +kernel)]
    decide +kernel

end SqlSelect
