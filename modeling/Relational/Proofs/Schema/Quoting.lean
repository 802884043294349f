import Relational.Migration.Dialect
import Relational.Schema.ConstraintScan

/-!
# Quoted names

Names are written in quotes in SQLite, and what is written there is read without them.

The two sides differ in what they make of a quote within a name.  It is written as it is, but
two of them in a row are read as one.  So a name is written as one quoted name if its quotes
stand in pairs, and it is read back if no quote follows another.  Both hold exactly of the names
without a quote: `quote_readsBack_iff`.
-/

namespace Relational.Schema

open Migration

/-- A name as it is written in SQLite. -/
def quoted (name : String) : List Char := '"' :: (name.toList ++ ['"'])

theorem toList_quote (name : String) : (Dialect.sqlite.quote name).toList = quoted name := by
  simp [Dialect.quote, quoted]

/-- Whether a text is one quoted name: between its quotes every quote is doubled. -/
def IsQuotedName (cs : List Char) : Prop :=
  ∃ inner, cs = '"' :: (inner ++ ['"']) ∧ Text.Paired '"' inner

theorem isQuotedName_quoted_iff (name : String) :
    IsQuotedName (quoted name) ↔ Text.Paired '"' name.toList := by
  constructor
  · rintro ⟨inner, hinner, hpaired⟩
    have heq : name.toList = inner := List.append_cancel_right (List.cons.inj hinner).2
    rwa [heq]
  · exact fun hpaired => ⟨name.toList, rfl, hpaired⟩

/-- White space does not matter before a quoted name, and it is kept within. -/
theorem trim_append_quoted {lead : List Char} (hlead : ∀ c ∈ lead, Text.isBlank c = true)
    (name : String) : Text.trim (lead ++ quoted name) = quoted name := by
  rw [Text.trim_append_of_isBlank hlead]
  apply Text.trim_eq_self
  · rfl
  · rw [quoted, ← List.cons_append, List.getLast?_concat]
    rfl

theorem unquote_append_quoted {lead : List Char} (hlead : ∀ c ∈ lead, Text.isBlank c = true)
    (name : String) : unquote (lead ++ quoted name) = Text.halve '"' name.toList := by
  rw [unquote, trim_append_quoted hlead, quoted, Text.between_append]

theorem unquote_quoted (name : String) : unquote (quoted name) = Text.halve '"' name.toList :=
  unquote_append_quoted (List.forall_mem_nil _) name

/-- A name without quotes is read back. -/
theorem unquote_append_quoted_eq {lead : List Char} (hlead : ∀ c ∈ lead, Text.isBlank c = true)
    {name : String} (h : '"' ∉ name.toList) : unquote (lead ++ quoted name) = name.toList := by
  rw [unquote_append_quoted hlead, Text.halve_of_not_mem h]

theorem unquote_quoted_eq {name : String} (h : '"' ∉ name.toList) :
    unquote (quoted name) = name.toList :=
  unquote_append_quoted_eq (List.forall_mem_nil _) h

/-- A name is written as one quoted name exactly if its quotes stand in pairs.  It is read back
exactly if no quote in it follows another.  So both hold exactly if there is no quote in it. -/
theorem quote_readsBack_iff (name : String) :
    (IsQuotedName (Dialect.sqlite.quote name).toList ↔ Text.Paired '"' name.toList) ∧
    (unquote (Dialect.sqlite.quote name).toList = name.toList ↔
      ¬['"', '"'] <:+: name.toList) ∧
    (IsQuotedName (Dialect.sqlite.quote name).toList ∧
        unquote (Dialect.sqlite.quote name).toList = name.toList ↔
      '"' ∉ name.toList) := by
  have hwritten := isQuotedName_quoted_iff name
  have hread : unquote (quoted name) = name.toList ↔ ¬['"', '"'] <:+: name.toList := by
    rw [unquote_quoted, Text.halve_eq_self_iff]
  rw [toList_quote]
  refine ⟨hwritten, hread, ?_⟩
  rw [hwritten, hread, Text.paired_and_not_infix_iff]

/-- A quote alone ends the name too early, and a pair of quotes is read as one. -/
theorem quote_loses_quotes :
    ¬IsQuotedName (Dialect.sqlite.quote "a\"b").toList ∧
      unquote (Dialect.sqlite.quote "a\"\"b").toList ≠ "a\"\"b".toList := by
  constructor
  · rw [toList_quote, isQuotedName_quoted_iff, ← Text.double_halve_eq_self_iff]
    decide
  · decide

/-! ## Lists of names -/

/-- The list of names in a unique constraint. -/
def quotedList (names : List String) : List Char := [',', ' '].intercalate (names.map quoted)

theorem toList_quoteList (names : List String) :
    (Dialect.sqlite.quoteList names).toList = quotedList names := by
  rw [Dialect.quoteList, String.toList_intercalate, List.map_map, quotedList]
  congr 1
  exact List.map_congr_left fun name _ => toList_quote name

theorem quotedList_singleton (name : String) : quotedList [name] = quoted name := by
  simp [quotedList]

theorem quotedList_cons_cons (name next : String) (names : List String) :
    quotedList (name :: next :: names) =
      quoted name ++ ',' :: ([' '] ++ quotedList (next :: names)) := by
  simp [quotedList, List.intercalate_cons_cons]

/-- A list of names without quotes is cut at its commas, if there are none in the names. -/
theorem parts_quotedList {names : List String} (hne : names ≠ [])
    (hquotes : ∀ name ∈ names, '"' ∉ name.toList) (hcommas : ∀ name ∈ names, ',' ∉ name.toList)
    {lead : List Char} (hlead : ∀ c ∈ lead, Text.isBlank c = true) :
    (Text.parts ',' (lead ++ quotedList names)).map (fun part => String.ofList (unquote part)) =
      names := by
  have hpart : ∀ name ∈ names, ∀ {lead : List Char}, (∀ c ∈ lead, Text.isBlank c = true) →
      ',' ∉ lead ++ quoted name := by
    intro name hname lead hlead hmem
    rcases List.mem_append.mp hmem with hmem | hmem
    · exact absurd (hlead ',' hmem) (by decide)
    · rw [quoted, List.mem_cons, List.mem_append, List.mem_singleton] at hmem
      rcases hmem with hmem | hmem | hmem
      · exact absurd hmem (by decide)
      · exact hcommas name hname hmem
      · exact absurd hmem (by decide)
  -- Every name but the first has a space before it, which belongs to its part.
  induction names generalizing lead with
  | nil => exact absurd rfl hne
  | cons name names ih =>
      have hname := hpart name List.mem_cons_self hlead
      have hread := unquote_append_quoted_eq hlead (hquotes name List.mem_cons_self)
      cases names with
      | nil =>
          rw [quotedList_singleton, Text.parts_of_not_mem hname, List.map_singleton, hread,
            String.ofList_toList]
      | cons next names =>
          rw [quotedList_cons_cons, ← List.append_assoc, Text.parts_append_cons hname,
            List.map_cons, hread, String.ofList_toList]
          congr 1
          exact ih (List.cons_ne_nil _ _) (fun n hn => hquotes n (List.mem_cons_of_mem name hn))
            (fun n hn => hcommas n (List.mem_cons_of_mem name hn))
            (fun c hc => List.mem_singleton.mp hc ▸ rfl)
            fun n hn => hpart n (List.mem_cons_of_mem name hn)

end Relational.Schema
