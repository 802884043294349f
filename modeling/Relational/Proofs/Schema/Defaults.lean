import Relational.Proofs.Binary64.Whole
import Relational.Schema.Default

/-!
# Default values that are read back

What becomes of a default value that is written as SQL and read from there:
`Default.ofSqlTyped_toSql_iff`.  A truth value needs a column of its type, since it is written as
zero or one, and so these integers do not come back there; a floating-point number must not look
like an integer, and an expression must not look like anything else.

Of what a database reports, not every reading is faithful.  Text is read as a string whenever it
begins and ends with an apostrophe, also if it is not one literal: `Default.ofSql_eq_string_iff`.
And a number is written without the point that made it a floating-point number, so that a whole
one becomes an integer when it is read again: `Default.ofSql_stable_iff`.
-/

namespace Relational.Schema

namespace Default

/-! ## Readings -/

/-- What a text without white space around it is read as.  Only the readings as numbers overlap, and
of these the one as an integer is preferred. -/
inductive Reads : List Char → Default → Prop where
  | null {cs : List Char} (hnull : Text.sameLetters cs ['N', 'U', 'L', 'L'] = true) : Reads cs .null
  | integer {cs : List Char} {value : Int64} (hinteger : Text.readInt64 cs = some value) :
      Reads cs (.integer value)
  | float {cs : List Char} {x : Binary64} (hinteger : Text.readInt64 cs = none)
      (hfloat : Binary64.ofText cs = some x) : Reads cs (.float x)
  | string (inner : List Char) :
      Reads ('\'' :: (inner ++ ['\''])) (.string (String.ofList (Text.halve '\'' inner)))
  | expression {cs : List Char} (hnull : Text.sameLetters cs ['N', 'U', 'L', 'L'] = false)
      (hinteger : Text.readInt64 cs = none) (hfloat : Binary64.ofText cs = none)
      (hstring : Text.between '\'' '\'' cs = none) : Reads cs (.expression (String.ofList cs))

section

variable {cs : List Char}

/-- The word for null is no number in any letter case. -/
theorem readInt64_and_ofText_of_null (h : Text.sameLetters cs ['N', 'U', 'L', 'L'] = true) :
    Text.readInt64 cs = none ∧ Binary64.ofText cs = none := by
  have hupper := Text.sameLetters_iff.mp h
  have hletters := Text.eq_false_of_sameLetters (p := (!·.isAlpha)) (by simp) (by decide) h
  cases cs with
  | nil => exact absurd hupper (by decide)
  | cons c cs =>
      have hletter : c.isAlpha = true := by simpa using hletters c List.mem_cons_self
      have hne {d : Char} (hd : d.isAlpha = false) : c ≠ d := by
        rintro rfl
        rw [hletter] at hd
        exact Bool.false_ne_true hd.symm
      have hsign : c ≠ '-' ∧ c ≠ '+' := ⟨hne rfl, hne rfl⟩
      have hdigit := Text.isDigit_eq_false_of_isAlpha hletter
      refine ⟨Text.readInt64_cons_eq_none hsign hdigit cs, ?_⟩
      rw [Binary64.ofText_cons hsign hdigit (hne rfl)]
      unfold Text.sameLetters
      rw [hupper]
      decide

theorem isNull_eq_false (h : Text.readInt64 cs ≠ none ∨ Binary64.ofText cs ≠ none) :
    Text.sameLetters cs ['N', 'U', 'L', 'L'] = false := by
  refine eq_false_of_ne_true fun hnull => ?_
  obtain ⟨hinteger, hfloat⟩ := readInt64_and_ofText_of_null hnull
  exact h.elim (absurd hinteger) (absurd hfloat)

/-- A text that begins with an apostrophe is no number. -/
theorem ofText_apostrophe (cs : List Char) : Binary64.ofText ('\'' :: cs) = none := by
  have hname {word : List Char} (hword : word.all Char.isAlpha = true) :
      Text.sameLetters ('\'' :: cs) word = false :=
    Text.sameLetters_eq_false_of_mem hword List.mem_cons_self rfl
  rw [Binary64.ofText_cons (by decide) rfl (by decide)]
  simp [hname]

/-- Every text has exactly one reading, and that is what is found. -/
theorem ofTrimmed_eq_iff {value : Default} : ofTrimmed cs = value ↔ Reads cs value := by
  constructor
  · rintro rfl
    unfold ofTrimmed
    cases hnull : Text.sameLetters cs ['N', 'U', 'L', 'L'] with
    | true => exact .null hnull
    | false =>
        cases hinteger : Text.readInt64 cs with
        | some n => exact .integer hinteger
        | none =>
            cases hfloat : Binary64.ofText cs with
            | some x => exact .float hinteger hfloat
            | none =>
                cases hstring : Text.between '\'' '\'' cs with
                | none => exact .expression hnull hinteger hfloat hstring
                | some inner =>
                    rw [Text.between_eq_some_iff] at hstring
                    exact hstring ▸ .string inner
  · intro h
    unfold ofTrimmed
    -- No earlier test succeeds: what is a number or begins with an apostrophe is not the word for
    -- null, and what begins with an apostrophe is no number.
    cases h with
    | null hnull => rw [if_pos hnull]
    | integer hinteger =>
        have hnull := isNull_eq_false (Or.inl (Option.ne_none_iff_exists'.mpr ⟨_, hinteger⟩))
        simp [hnull, hinteger]
    | float hinteger hfloat =>
        have hnull := isNull_eq_false (Or.inr (Option.ne_none_iff_exists'.mpr ⟨_, hfloat⟩))
        simp [hnull, hinteger, hfloat]
    | string inner =>
        have hnull : Text.sameLetters ('\'' :: (inner ++ ['\''])) ['N', 'U', 'L', 'L'] = false :=
          Text.sameLetters_eq_false_of_mem (by decide) List.mem_cons_self rfl
        have hinteger := Text.readInt64_cons_eq_none (c := '\'') (by decide) rfl (inner ++ ['\''])
        simp [hnull, hinteger, ofText_apostrophe, Text.between_append]
    | expression hnull hinteger hfloat hstring => simp [hnull, hinteger, hfloat, hstring]

end

theorem ofSql_eq_iff {sql : String} {value : Default} :
    ofSql (some sql) = value ↔ Reads (Text.trim sql.toList) value :=
  ofTrimmed_eq_iff

/-! ## Readings of what is written -/

section

variable {sql : String} {value : Default} {x : Binary64}

theorem ofSql_of_reads (hblank : ∀ c ∈ sql.toList, Text.isBlank c = false)
    (h : Reads sql.toList value) : ofSql (some sql) = value := by
  rw [ofSql_eq_iff, Text.trim_eq_self_of_forall hblank]
  exact h

theorem ofSql_toSql_bool (value : Bool) :
    ofSql (toSql (.bool value)) = .integer (if value then 1 else 0) := by
  cases value <;> decide

theorem ofSql_toSql_integer (value : Int64) : ofSql (toSql (.integer value)) = .integer value := by
  refine ofSql_of_reads (fun c hc => ?_) (.integer (Text.readInt64_toString value))
  rcases Text.isDigit_or_eq_minus_of_mem_toString hc with hdigit | rfl
  · exact Text.isBlank_eq_false_of_isDigit hdigit
  · rfl

theorem trim_quoted (inner : List Char) :
    Text.trim ('\'' :: (inner ++ ['\''])) = '\'' :: (inner ++ ['\'']) := by
  refine Text.trim_eq_self rfl ?_
  rw [← List.cons_append, List.getLast?_concat]
  rfl

theorem ofSql_toSql_string (text : String) : ofSql (toSql (.string text)) = .string text := by
  -- Inside of the apostrophes only pairs of them are left, and each is read as one again.
  have hreads := Reads.string (Text.double '\'' text.toList)
  rw [Text.halve_double, String.ofList_toList] at hreads
  rw [toSql, ofSql_eq_iff, stringLiteral, String.toList_ofList, trim_quoted]
  exact hreads

theorem ofSql_toSql_float (h : Reads x.toText value) : ofSql (toSql (.float x)) = value := by
  refine ofSql_of_reads ?_ ?_
  · rw [String.toList_ofList]
    exact fun c => Binary64.isBlank_eq_false_of_mem_toText
  · rwa [String.toList_ofList]

/-- What is not a number is read as the usual one of its kind. -/
theorem ofSql_toSql_of_isNaN (h : x.isNaN = true) :
    ofSql (toSql (.float x)) = .float (.nan false) := by
  refine ofSql_toSql_float ?_
  rw [Binary64.toText_of_isNaN h]
  exact .float (by decide) (by decide)

theorem ofSql_toSql_of_isWholeBelow (h : x.IsWholeBelow (2 ^ 63)) :
    ∃ n < 2 ^ 63, Binary64.ofRatio x.isNegative n 1 = x ∧ ofSql (toSql (.float x)) =
      .integer (Int64.ofInt (if x.isNegative then -n else n)) := by
  obtain ⟨n, hn, hratio, hread⟩ := Binary64.readInt64_toText h
  exact ⟨n, hn, hratio, ofSql_toSql_float (.integer hread)⟩

theorem ofSql_toSql_of_not_isWholeBelow (hnumber : x.isNaN = false)
    (h : ¬x.IsWholeBelow (2 ^ 63)) : ofSql (toSql (.float x)) = .float x :=
  ofSql_toSql_float
    (.float (Binary64.readInt64_toText_eq_none hnumber h) (Binary64.ofText_toText hnumber))

end

/-! ## Values that come back -/

/-- Whether SQL can be read as an expression only: there is no white space around it, it is not the
word for null or a number, and it does not stand between apostrophes. -/
structure IsOpaque (sql : String) : Prop where
  first : sql.toList.head?.any Text.isBlank = false
  last : sql.toList.getLast?.any Text.isBlank = false
  null : Text.sameLetters sql.toList ['N', 'U', 'L', 'L'] = false
  integer : Text.readInt64 sql.toList = none
  float : Binary64.ofText sql.toList = none
  string : ¬(2 ≤ sql.toList.length ∧ sql.toList.head? = some '\'' ∧
    sql.toList.getLast? = some '\'')

/-- Whether a default value can be told from its SQL in a column of some type. -/
def Survives (type : ColumnType) : Default → Prop
  | .unset | .null | .string _ => True
  | .bool _ => type = .boolean
  | .integer value => ¬(type = .boolean ∧ (value = 0 ∨ value = 1))
  | .float x => x = .nan false ∨ (x.isNaN = false ∧ ¬x.IsWholeBelow (2 ^ 63))
  | .expression sql => IsOpaque sql

section

variable {sql : Option String} {n : Int64}

theorem ofSqlTyped_of_integer (h : ofSql sql = .integer n) (type : ColumnType) :
    ofSqlTyped sql type =
      if type = .boolean ∧ n = 0 then .bool false
      else if type = .boolean ∧ n = 1 then .bool true else .integer n := by
  unfold ofSqlTyped
  rw [h]
  by_cases htype : type = .boolean
  · simp [htype]
  · simp [htype]

/-- The type of the column matters for truth values and integers only. -/
theorem ofSqlTyped_eq_iff {value : Default} (hbool : ∀ b, value ≠ .bool b)
    (hinteger : ∀ n, value ≠ .integer n) (type : ColumnType) :
    ofSqlTyped sql type = value ↔ ofSql sql = value := by
  by_cases h : ∃ n, ofSql sql = .integer n
  · obtain ⟨n, hn⟩ := h
    refine iff_of_false ?_ (fun heq => hinteger n (heq ▸ hn))
    rw [ofSqlTyped_of_integer hn]
    split
    · exact (hbool false).symm
    · split
      · exact (hbool true).symm
      · exact (hinteger n).symm
  · unfold ofSqlTyped
    split
    · next heq => exact absurd ⟨_, heq⟩ h
    · exact Iff.rfl

end

theorem reads_expression_iff {cs : List Char} {sql : String} :
    Reads cs (.expression sql) ↔ sql = String.ofList cs ∧
      Text.sameLetters cs ['N', 'U', 'L', 'L'] = false ∧ Text.readInt64 cs = none ∧
        Binary64.ofText cs = none ∧ Text.between '\'' '\'' cs = none := by
  constructor
  · intro h
    cases h with
    | expression hnull hinteger hfloat hstring =>
        exact ⟨rfl, hnull, hinteger, hfloat, hstring⟩
  · rintro ⟨rfl, hnull, hinteger, hfloat, hstring⟩
    exact .expression hnull hinteger hfloat hstring

theorem ofSql_eq_expression_iff {sql : String} :
    ofSql (some sql) = .expression sql ↔ IsOpaque sql := by
  rw [ofSql_eq_iff, reads_expression_iff]
  constructor
  · rintro ⟨htrim, hnull, hinteger, hfloat, hstring⟩
    have hfirst := Text.head?_trim sql.toList
    have hlast := Text.getLast?_trim sql.toList
    have hsame := congrArg String.toList htrim.symm
    rw [String.toList_ofList] at hsame
    rw [hsame] at hnull hinteger hfloat hstring hfirst hlast
    exact ⟨hfirst, hlast, hnull, hinteger, hfloat, Text.between_eq_none_iff.mp hstring⟩
  · intro h
    rw [Text.trim_eq_self h.first h.last]
    exact ⟨String.ofList_toList.symm, h.null, h.integer, h.float,
      Text.between_eq_none_iff.mpr h.string⟩

theorem ofSql_toSql_float_iff (x : Binary64) :
    ofSql (toSql (.float x)) = .float x ↔
      x = .nan false ∨ (x.isNaN = false ∧ ¬x.IsWholeBelow (2 ^ 63)) := by
  by_cases hnan : x.isNaN = true
  · rw [ofSql_toSql_of_isNaN hnan]
    simp [hnan, eq_comm]
  · rw [Bool.not_eq_true] at hnan
    have hne : x ≠ .nan false := by
      rintro rfl
      exact absurd hnan (by decide)
    by_cases hwhole : x.IsWholeBelow (2 ^ 63)
    · obtain ⟨n, -, -, hread⟩ := ofSql_toSql_of_isWholeBelow hwhole
      rw [hread]
      exact iff_of_false Default.noConfusion (not_or.mpr ⟨hne, fun hsurvives => hsurvives.2 hwhole⟩)
    · exact iff_of_true (ofSql_toSql_of_not_isWholeBelow hnan hwhole) (Or.inr ⟨hnan, hwhole⟩)

/-- A default value is read back from its SQL exactly if it can be told from it. -/
theorem ofSqlTyped_toSql_iff (value : Default) (type : ColumnType) :
    ofSqlTyped value.toSql type = value ↔ Survives type value := by
  cases value with
  | unset =>
      rw [ofSqlTyped_eq_iff (by simp) (by simp)]
      exact iff_of_true rfl trivial
  | null =>
      rw [ofSqlTyped_eq_iff (by simp) (by simp)]
      exact iff_of_true (by decide) trivial
  | bool b =>
      rw [ofSqlTyped_of_integer (ofSql_toSql_bool b)]
      cases b <;> simp [Survives]
  | integer n =>
      rw [ofSqlTyped_of_integer (ofSql_toSql_integer n)]
      by_cases htype : type = .boolean
      · by_cases hzero : n = 0
        · simp [Survives, htype, hzero]
        · by_cases hone : n = 1
          · simp [Survives, htype, hone]
          · simp [Survives, htype, hzero, hone]
      · simp [Survives, htype]
  | float x =>
      rw [ofSqlTyped_eq_iff (by simp) (by simp)]
      exact ofSql_toSql_float_iff x
  | string text =>
      rw [ofSqlTyped_eq_iff (by simp) (by simp)]
      exact iff_of_true (ofSql_toSql_string text) trivial
  | expression sql =>
      rw [ofSqlTyped_eq_iff (by simp) (by simp)]
      exact ofSql_eq_expression_iff

/-! ## String literals -/

theorem reads_string_iff {cs : List Char} {text : String} :
    Reads cs (.string text) ↔
      ∃ inner, cs = '\'' :: (inner ++ ['\'']) ∧ text = String.ofList (Text.halve '\'' inner) := by
  constructor
  · intro h
    cases h with
    | string inner => exact ⟨inner, rfl, rfl⟩
  · rintro ⟨inner, rfl, rfl⟩
    exact .string inner

theorem toSql_string_eq_iff (inner : List Char) :
    toSql (.string (String.ofList (Text.halve '\'' inner))) =
        some (String.ofList ('\'' :: (inner ++ ['\'']))) ↔ Text.Paired '\'' inner := by
  simp [toSql, stringLiteral, String.ofList_inj, Text.double_halve_eq_self_iff]

/-- A text is read as a string exactly if it begins and ends with an apostrophe.  That string
is written as the text again, as a single literal is, exactly if no apostrophe in between stands
alone. -/
theorem ofSql_eq_string_iff (sql text : String) :
    ofSql (some sql) = .string text ↔
      ∃ inner, Text.trim sql.toList = '\'' :: (inner ++ ['\'']) ∧
        text = String.ofList (Text.halve '\'' inner) ∧
          (toSql (.string text) = some (String.ofList (Text.trim sql.toList)) ↔
            Text.Paired '\'' inner) := by
  rw [ofSql_eq_iff, reads_string_iff]
  constructor
  · rintro ⟨inner, htrim, rfl⟩
    exact ⟨inner, htrim, rfl, htrim ▸ toSql_string_eq_iff inner⟩
  · rintro ⟨inner, htrim, htext, -⟩
    exact ⟨inner, htrim, htext⟩

/-- Two literals with an operator between them are read as one string. -/
theorem ofSql_joins_literals :
    ofSql (some "'x' || 'y'") = .string "x' || 'y" ∧
      toSql (.string "x' || 'y") ≠ some (String.ofList (Text.trim "'x' || 'y'".toList)) := by
  decide

/-! ## Readings that are stable -/

/-- Equality of default values in which whatever is not a number is the same. -/
inductive Alike : Default → Default → Prop where
  | refl (value : Default) : Alike value value
  | nan {x y : Binary64} (hx : x.isNaN = true) (hy : y.isNaN = true) : Alike (.float x) (.float y)

/-- White space around SQL does not matter. -/
theorem ofSql_trim (sql : String) :
    ofSql (some (String.ofList (Text.trim sql.toList))) = ofSql (some sql) := by
  rw [ofSql, ofSql, String.toList_ofList, Text.trim_trim]

/-- A number that is not written as an integer is read back. -/
theorem alike_ofSql_toSql_float {x : Binary64} (h : ¬x.IsWholeBelow (2 ^ 63)) :
    Alike (ofSql (toSql (.float x))) (.float x) := by
  cases hnan : x.isNaN with
  | true =>
      rw [ofSql_toSql_of_isNaN hnan]
      exact .nan (by decide) hnan
  | false =>
      rw [ofSql_toSql_of_not_isWholeBelow hnan h]
      exact .refl _

theorem not_alike_ofSql_toSql_float {x : Binary64} (h : x.IsWholeBelow (2 ^ 63)) :
    ¬Alike (ofSql (toSql (.float x))) (.float x) := by
  obtain ⟨n, -, -, hread⟩ := ofSql_toSql_of_isWholeBelow h
  rw [hread]
  exact nofun

/-- What has been read is read again, or is a number that is written as an integer. -/
theorem alike_ofSql_toSql_iff {sql : String} {value : Default} (h : ofSql (some sql) = value) :
    Alike (ofSql value.toSql) value ↔ ∀ x, value = .float x → ¬x.IsWholeBelow (2 ^ 63) := by
  have hsame (hreading : ofSql value.toSql = value) (hfloat : ∀ x, value ≠ .float x) :
      Alike (ofSql value.toSql) value ↔ ∀ x, value = .float x → ¬x.IsWholeBelow (2 ^ 63) := by
    rw [hreading]
    exact iff_of_true (.refl value) fun x hx => absurd hx (hfloat x)
  cases value with
  | unset => exact hsame rfl nofun
  | null => exact hsame (by decide) nofun
  | bool b =>
      have hreads := ofSql_eq_iff.mp h
      generalize Text.trim sql.toList = cs at hreads
      exact nomatch hreads
  | integer n => exact hsame (ofSql_toSql_integer n) nofun
  | float x =>
      constructor
      · rintro halike _ ⟨⟩ hwhole
        exact not_alike_ofSql_toSql_float hwhole halike
      · exact fun hwhole => alike_ofSql_toSql_float (hwhole x rfl)
  | string text => exact hsame (ofSql_toSql_string text) nofun
  | expression text =>
      refine hsame ?_ nofun
      -- The text of an expression has been trimmed, so it is read as the same text.
      have htext := (reads_expression_iff.mp (ofSql_eq_iff.mp h)).1
      have hagain := ofSql_trim sql
      rwa [← htext, h] at hagain

/-- What is read from SQL, written and read again is the same, except for a floating-point number
that is whole and below `2 ^ 63`: such a number becomes an integer. -/
theorem ofSql_stable_iff (sql : String) :
    (Alike (ofSql (ofSql (some sql)).toSql) (ofSql (some sql)) ↔
      ∀ x, ofSql (some sql) = .float x → ¬x.IsWholeBelow (2 ^ 63)) ∧
    ∀ x, ofSql (some sql) = .float x → x.IsWholeBelow (2 ^ 63) →
      ∃ n < 2 ^ 63, Binary64.ofRatio x.isNegative n 1 = x ∧
        ofSql (ofSql (some sql)).toSql =
          .integer (Int64.ofInt (if x.isNegative then -n else n)) := by
  refine ⟨alike_ofSql_toSql_iff rfl, fun x hfloat hwhole => ?_⟩
  rw [hfloat]
  exact ofSql_toSql_of_isWholeBelow hwhole

/-- The point is lost with the zero behind it, and a number becomes an integer. -/
theorem ofSql_loses_point :
    ofSql (some "1.0") = .float ⟨0x3FF0000000000000⟩ ∧
      ofSql (ofSql (some "1.0")).toSql = .integer 1 ∧
        ¬Alike (ofSql (ofSql (some "1.0")).toSql) (ofSql (some "1.0")) := by
  have hreadings : ofSql (some "1.0") = .float ⟨0x3FF0000000000000⟩ ∧
      ofSql (toSql (.float ⟨0x3FF0000000000000⟩)) = .integer 1 := by
    decide +kernel
  rw [hreadings.1, hreadings.2]
  exact ⟨rfl, rfl, nofun⟩

end Default

end Relational.Schema
