import Relational.Schema.ColumnType
import Relational.Text.Word

/-!
# Names of column types

The declared name of a type is read back as that type, and what is read from any text has a
name that is read as the same again: `ColumnType.parse_sqlName`.
-/

namespace Relational.Schema

namespace ColumnType

/-- The type that a text without white space around it names, if it is no custom one. -/
def known? (cs : List Char) : Option ColumnType :=
  ofParts (String.ofList (splitArguments (Text.upper cs)).1) (splitArguments (Text.upper cs)).2

theorem parse_eq (declared : String) :
    parse declared = (known? (Text.trim declared.toList)).getD
      (.custom (String.ofList (Text.trim declared.toList))) := by
  simp only [parse, known?]
  cases splitArguments (Text.upper (Text.trim declared.toList)) with
  | mk name arguments => cases ofParts (String.ofList name) arguments <;> rfl

/-! ## Custom types -/

/-- White space around a declared name does not matter. -/
theorem parse_trim (declared : String) :
    parse (String.ofList (Text.trim declared.toList)) = parse declared := by
  rw [parse_eq, parse_eq, String.toList_ofList, Text.trim_trim]

theorem ofParts_ne_custom {name : String} {arguments : Option (List Char)} {type : ColumnType}
    (h : ofParts name arguments = some type) (declared : String) : type ≠ .custom declared := by
  unfold ofParts at h
  split at h
  · obtain ⟨before, after, hnames, -⟩ := List.lookup_eq_some_iff.mp h
    have hplain : ∀ p ∈ plainNames, ∀ declared, p.2 ≠ .custom declared := by simp [plainNames]
    exact hplain (name, type) (by simp [hnames]) declared
  · split at h
    · obtain ⟨n, -, rfl⟩ := Option.map_eq_some_iff.mp h
      exact nofun
    · split at h
      · simp only [Option.bind_eq_bind, Option.bind_eq_some_iff, Option.pure_def] at h
        obtain ⟨-, -, p, -, n, -, htype⟩ := h
        cases htype
        exact nofun
      · cases h

/-- A custom type keeps the text that it was declared with, without white space around it. -/
theorem eq_trim_of_parse_eq_custom {declared name : String} (h : parse declared = .custom name) :
    name = String.ofList (Text.trim declared.toList) := by
  rw [parse_eq] at h
  cases hknown : known? (Text.trim declared.toList) with
  | some type =>
      rw [hknown] at h
      exact absurd h (ofParts_ne_custom hknown name)
  | none =>
      rw [hknown] at h
      exact (custom.inj h).symm

/-! ## Types with arguments -/

/-- A name with arguments in parentheses. -/
def withArguments (name arguments : List Char) : List Char := name ++ '(' :: (arguments ++ [')'])

theorem getLast?_withArguments (name arguments : List Char) :
    (withArguments name arguments).getLast? = some ')' := by
  have hlast : withArguments name arguments = (name ++ '(' :: arguments) ++ [')'] := by
    simp [withArguments]
  rw [hlast, List.getLast?_concat]

section

variable {name : List Char}

theorem trim_withArguments (hnonempty : name ≠ []) (hname : ∀ c ∈ name, Text.isBlank c = false)
    (arguments : List Char) :
    Text.trim (withArguments name arguments) = withArguments name arguments := by
  apply Text.trim_eq_self
  · cases name with
    | nil => exact absurd rfl hnonempty
    | cons c cs => exact hname c List.mem_cons_self
  · rw [getLast?_withArguments]
    rfl

theorem splitArguments_withArguments (hopening : '(' ∉ name)
    (hname : ∀ c ∈ name, Text.isBlank c = false) (arguments : List Char) :
    splitArguments (withArguments name arguments) = (name, some arguments) := by
  rw [splitArguments, withArguments, Text.cut_append_of_not_mem hopening]
  simp [Text.trim_eq_self_of_forall hname, beforeClosing]

/-- A type is read from its name and its arguments in upper case. -/
theorem parse_withArguments {arguments : List Char} {type : ColumnType} (hnonempty : name ≠ [])
    (hname : name.all Char.isUpper = true) (harguments : ∀ c ∈ arguments, c.isLower = false)
    (htype : ofParts (String.ofList name) (some arguments) = some type) :
    parse (String.ofList (withArguments name arguments)) = type := by
  rw [List.all_eq_true] at hname
  have hblank : ∀ c ∈ name, Text.isBlank c = false := by
    intro c hc
    apply Text.isBlank_eq_false_of_isAlpha
    show (c.isUpper || c.isLower) = true
    rw [hname c hc, Bool.true_or]
  have hopening : '(' ∉ name := fun hmem => absurd (hname '(' hmem) (by decide)
  have hupper : Text.upper (withArguments name arguments) = withArguments name arguments := by
    apply Text.upper_eq_self
    simp only [withArguments, List.forall_mem_append, List.forall_mem_cons]
    exact ⟨fun c hc => Text.isLower_eq_false (Or.inr (hname c hc)), rfl, harguments, rfl,
      fun c hc => absurd hc List.not_mem_nil⟩
  rw [parse_eq, String.toList_ofList, trim_withArguments hnonempty hblank, known?, hupper,
    splitArguments_withArguments hopening hblank, htype]
  rfl

end

theorem isLower_eq_false_of_mem_toDigits {n : Nat} {c : Char} (h : c ∈ Nat.toDigits 10 n) :
    c.isLower = false :=
  Text.isLower_eq_false (Or.inl (Text.isDigit_of_mem_toDigits h))

theorem trim_toDigits (n : Nat) : Text.trim (Nat.toDigits 10 n) = Nat.toDigits 10 n :=
  Text.trim_eq_self_of_forall fun _ hc =>
    Text.isBlank_eq_false_of_isDigit (Text.isDigit_of_mem_toDigits hc)

theorem parse_sqlName_varchar (length : UInt32) :
    parse (sqlName (.varchar length)) = .varchar length := by
  have hname : sqlName (.varchar length) =
      String.ofList (withArguments "VARCHAR".toList (Nat.toDigits 10 length.toNat)) := by
    apply String.toList_injective
    simp [sqlName, withArguments]
  rw [hname]
  apply parse_withArguments (by decide) rfl
  · exact fun c => isLower_eq_false_of_mem_toDigits
  · simp [ofParts, trim_toDigits, Text.readBelow_toDigits length.toNat_lt_size]

theorem parse_sqlName_decimal (precision scale : UInt8) :
    parse (sqlName (.decimal precision scale)) = .decimal precision scale := by
  have hname : sqlName (.decimal precision scale) =
      String.ofList (withArguments "DECIMAL".toList
        (Nat.toDigits 10 precision.toNat ++ ',' :: Nat.toDigits 10 scale.toNat)) := by
    apply String.toList_injective
    simp [sqlName, withArguments]
  -- So the arguments are cut behind the precision.
  have hcomma : ',' ∉ Nat.toDigits 10 precision.toNat := fun hmem =>
    absurd (Text.isDigit_of_mem_toDigits hmem) (by decide)
  rw [hname]
  apply parse_withArguments (by decide) rfl
  · simp only [List.forall_mem_append, List.forall_mem_cons]
    exact ⟨fun c => isLower_eq_false_of_mem_toDigits, rfl,
      fun c => isLower_eq_false_of_mem_toDigits⟩
  · simp [ofParts, Text.cut_append_of_not_mem hcomma, trim_toDigits,
      Text.readBelow_toDigits precision.toNat_lt_size, Text.readBelow_toDigits scale.toNat_lt_size]

/-! ## All types -/

theorem parse_sqlName_of_ne_custom {type : ColumnType} (h : ∀ name, type ≠ .custom name) :
    parse type.sqlName = type := by
  cases type with
  | varchar length => exact parse_sqlName_varchar length
  | decimal precision scale => exact parse_sqlName_decimal precision scale
  | custom name => exact absurd rfl (h name)
  | _ => rfl

theorem parse_sqlName_parse (declared : String) :
    parse (parse declared).sqlName = parse declared := by
  cases hparse : parse declared with
  | custom name =>
      -- The name is the trimmed text, on which alone the first reading depends.
      rw [sqlName, eq_trim_of_parse_eq_custom hparse, parse_trim, hparse,
        ← eq_trim_of_parse_eq_custom hparse]
  | _ => exact parse_sqlName_of_ne_custom (by simp)

/-- Column types survive their names.  The name of a type that is not custom is read as that
type; and the name of the type that any text is read as is read as the same type again. -/
theorem parse_sqlName :
    (∀ type : ColumnType, (∀ name, type ≠ .custom name) → parse type.sqlName = type) ∧
      ∀ declared, parse (parse declared).sqlName = parse declared :=
  ⟨fun _ => parse_sqlName_of_ne_custom, parse_sqlName_parse⟩

/-- The largest length, and a length that is too large by one. -/
theorem parse_sqlName_largest_length :
    (∀ name, varchar 4294967295 ≠ .custom name) ∧
      parse (sqlName (.varchar 4294967295)) = .varchar 4294967295 ∧
      parse " varchar(4294967296)\n" = .custom "varchar(4294967296)" ∧
      parse (sqlName (.custom "varchar(4294967296)")) = .custom "varchar(4294967296)" := by
  have hnotCustom : ∀ name, varchar 4294967295 ≠ .custom name := nofun
  have hcustom : parse " varchar(4294967296)\n" = .custom "varchar(4294967296)" := by
    decide
  have hagain := parse_sqlName.2 " varchar(4294967296)\n"
  rw [hcustom] at hagain
  exact ⟨hnotCustom, parse_sqlName.1 _ hnotCustom, hcustom, hagain⟩

end ColumnType

end Relational.Schema
