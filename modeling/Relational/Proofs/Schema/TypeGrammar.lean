import Relational.Proofs.Schema.TypeNames

/-!
# The grammar of type names

Which texts declare which column types.

A type is declared by a name that stands alone, or by a name with one or two numbers in
parentheses at the end of the text.  What the reader makes of a text is stated in these terms:
`ColumnType.parse_eq_iff`.  It also reads a name that stands alone out of a text in which a
parenthesis follows that the end of the text does not close, and so loses the rest of such a
text, where any other text that declares no type is kept.
-/

namespace Relational.Schema

namespace ColumnType

/-! ## Numbers between parentheses -/

/-- A number below a bound: digits, perhaps a plus before them, and white space around. -/
inductive IsNumber (bound : Nat) : List Char → Nat → Prop where
  | spelled {lead sign digits trail : List Char} {n : Nat}
      (hlead : ∀ c ∈ lead, Text.isBlank c = true) (hsign : sign = [] ∨ sign = ['+'])
      (hnonempty : digits ≠ []) (hdigits : ∀ c ∈ digits, c.isDigit = true)
      (htrail : ∀ c ∈ trail, Text.isBlank c = true)
      (hvalue : Nat.ofDigitChars 10 digits 0 = n) (hbound : n < bound) :
      IsNumber bound (lead ++ (sign ++ digits ++ trail)) n

/-- Whether a character is a digit or a plus. -/
def isNumeric (c : Char) : Bool := c.isDigit || c == '+'

theorem isNumeric_of_mem {sign digits : List Char} (hsign : sign = [] ∨ sign = ['+'])
    (hdigits : ∀ c ∈ digits, c.isDigit = true) : ∀ c ∈ sign ++ digits, isNumeric c = true := by
  intro c hc
  rw [isNumeric, Bool.or_eq_true, beq_iff_eq]
  rcases List.mem_append.mp hc with hmem | hmem
  · rcases hsign with rfl | rfl
    · exact absurd hmem List.not_mem_nil
    · exact Or.inr (List.mem_singleton.mp hmem)
  · exact Or.inl (hdigits c hmem)

theorem isBlank_eq_false_of_isNumeric {c : Char} (h : isNumeric c = true) :
    Text.isBlank c = false := by
  rw [isNumeric, Bool.or_eq_true, beq_iff_eq] at h
  rcases h with hdigit | rfl
  · exact Text.isBlank_eq_false_of_isDigit hdigit
  · rfl

theorem readBelow_trim_eq_some_iff {bound n : Nat} {cs : List Char} :
    Text.readBelow bound (Text.trim cs) = some n ↔ IsNumber bound cs n := by
  constructor
  · intro h
    obtain ⟨hbound, sign, digits, hsign, htrim, hdigits⟩ := Text.readBelow_eq_some_iff.mp h
    obtain ⟨lead, trail, hlead, htrail, hcs⟩ := Text.exists_blanks_of_trim cs
    obtain ⟨hnonempty, hall, hvalue⟩ := Text.readDigits_eq_some_iff.mp hdigits
    rw [htrim] at hcs
    exact hcs ▸ .spelled hlead hsign hnonempty hall htrail hvalue hbound
  · rintro ⟨hlead, hsign, hnonempty, hdigits, htrail, hvalue, hbound⟩
    rw [Text.trim_append_of_isBlank hlead, Text.trim_append_blanks htrail,
      Text.trim_eq_self_of_forall fun c hc =>
        isBlank_eq_false_of_isNumeric (isNumeric_of_mem hsign hdigits c hc)]
    exact Text.readBelow_eq_some_iff.mpr ⟨hbound, _, _, hsign, rfl,
      Text.readDigits_eq_some_iff.mpr ⟨hnonempty, hdigits, hvalue⟩⟩

theorem IsNumber.lt {bound n : Nat} {cs : List Char} (h : IsNumber bound cs n) : n < bound := by
  obtain ⟨-, -, -, -, -, -, hbound⟩ := h
  exact hbound

/-- No comma stands in a number, so the first one ends it. -/
theorem IsNumber.comma_notMem {bound n : Nat} {cs : List Char} (h : IsNumber bound cs n) :
    ',' ∉ cs := by
  obtain ⟨hlead, hsign, -, hdigits, htrail, -⟩ := h
  simp only [List.mem_append, not_or]
  refine ⟨fun hmem => absurd (hlead ',' hmem) (by decide), ?_,
    fun hmem => absurd (htrail ',' hmem) (by decide)⟩
  rw [← not_or, ← List.mem_append]
  exact fun hmem => absurd (isNumeric_of_mem hsign hdigits ',' hmem) (by decide)

/-! ## Declarations -/

/-- The type that a text without white space around it declares: a name in any letter case,
alone or before white space and a list in parentheses of as many numbers as the type has. -/
inductive Declares : List Char → ColumnType → Prop where
  | plain {cs : List Char} {name : String} {type : ColumnType}
      (hname : (name, type) ∈ plainNames) (hcase : Text.sameLetters cs name.toList = true) :
      Declares cs type
  | varchar {name blanks argument : List Char} {length : UInt32}
      (hname : Text.sameLetters name "VARCHAR".toList = true)
      (hblanks : ∀ c ∈ blanks, Text.isBlank c = true)
      (hlength : IsNumber UInt32.size argument length.toNat) :
      Declares (withArguments (name ++ blanks) argument) (.varchar length)
  | decimal {name blanks first second : List Char} {precision scale : UInt8}
      (hname : Text.sameLetters name "DECIMAL".toList = true)
      (hblanks : ∀ c ∈ blanks, Text.isBlank c = true)
      (hprecision : IsNumber UInt8.size first precision.toNat)
      (hscale : IsNumber UInt8.size second scale.toNat) :
      Declares (withArguments (name ++ blanks) (first ++ ',' :: second)) (.decimal precision scale)

/-- The type whose name stands in a text before a parenthesis that the end of the text does not
close. -/
inductive LeavesOpen : List Char → ColumnType → Prop where
  | unclosed {written blanks rest : List Char} {name : String} {type : ColumnType}
      (hname : (name, type) ∈ plainNames)
      (hcase : Text.sameLetters written name.toList = true)
      (hblanks : ∀ c ∈ blanks, Text.isBlank c = true) (hopen : rest.getLast? ≠ some ')') :
      LeavesOpen (written ++ blanks ++ '(' :: rest) type

/-! ## Names and arguments -/

theorem exists_blanks_of_head? {cs : List Char} (hfirst : cs.head?.any Text.isBlank = false) :
    ∃ blanks, (∀ c ∈ blanks, Text.isBlank c = true) ∧ cs = Text.trim cs ++ blanks := by
  rw [Text.trim, Text.dropWhile_isBlank_eq_self hfirst]
  exact Text.exists_blanks_of_trimEnd cs

theorem beforeClosing_eq_some_iff {cs inner : List Char} :
    beforeClosing cs = some inner ↔ cs = inner ++ [')'] := by
  unfold beforeClosing
  constructor
  · intro h
    split at h
    · next hlast =>
        obtain ⟨front, rfl⟩ := List.getLast?_eq_some_iff.mp hlast
        rw [List.dropLast_concat] at h
        rw [Option.some.inj h]
    · contradiction
  · rintro rfl
    simp

theorem beforeClosing_eq_none_iff {cs : List Char} :
    beforeClosing cs = none ↔ cs.getLast? ≠ some ')' := by
  simp [beforeClosing]

theorem beforeClosing_upper (cs : List Char) :
    beforeClosing (Text.upper cs) = (beforeClosing cs).map Text.upper := by
  cases hclosing : beforeClosing cs with
  | some inner =>
      rw [beforeClosing_eq_some_iff.mp hclosing]
      exact beforeClosing_eq_some_iff.mpr (by simp [Text.upper])
  | none =>
      rw [beforeClosing_eq_none_iff] at hclosing
      refine beforeClosing_eq_none_iff.mpr fun hlast => hclosing ?_
      rw [Text.upper, List.getLast?_map, Option.map_eq_some_iff] at hlast
      obtain ⟨c, hc, hupper⟩ := hlast
      rwa [(Text.toUpper_eq_iff (by decide)).mp hupper] at hc

/-- A text is split before its letters are put in upper case, or after. -/
theorem splitArguments_upper (cs : List Char) :
    splitArguments (Text.upper cs) =
      (Text.upper (splitArguments cs).1, (splitArguments cs).2.map Text.upper) := by
  have hcut : Text.cut '(' (Text.upper cs) =
      (Text.cut '(' cs).map (Prod.map Text.upper Text.upper) :=
    Text.cut_map (fun c => Text.toUpper_eq_iff (by decide)) cs
  unfold splitArguments
  rw [hcut]
  cases Text.cut '(' cs with
  | none => rfl
  | some parts => exact Prod.ext (Text.trim_upper parts.1) (beforeClosing_upper parts.2)

/-- Only the name is compared regardless of case; numbers have none. -/
theorem ofParts_upper (name : String) (arguments : Option (List Char)) :
    ofParts name (arguments.map Text.upper) = ofParts name arguments := by
  cases arguments with
  | none => rfl
  | some arguments =>
      have hcut : Text.cut ',' (Text.upper arguments) =
          (Text.cut ',' arguments).map (Prod.map Text.upper Text.upper) :=
        Text.cut_map (fun c => Text.toUpper_eq_iff (by decide)) arguments
      simp only [Option.map_some, ofParts, Text.trim_upper, Text.readBelow_upper, hcut]
      cases Text.cut ',' arguments with
      | none => rfl
      | some parts => simp [Text.trim_upper, Text.readBelow_upper]

theorem known?_eq (cs : List Char) :
    known? cs =
      ofParts (String.ofList (Text.upper (splitArguments cs).1)) (splitArguments cs).2 := by
  rw [known?, splitArguments_upper, ofParts_upper]

/-! ## What is known -/

theorem lookup_plainNames_eq_some_iff {name : String} {type : ColumnType} :
    plainNames.lookup name = some type ↔ (name, type) ∈ plainNames := by
  constructor
  · intro h
    obtain ⟨before, after, hnames, -⟩ := List.lookup_eq_some_iff.mp h
    simp [hnames]
  · have hall : ∀ p ∈ plainNames, plainNames.lookup p.1 = some p.2 := by decide
    exact hall (name, type)

theorem isAlpha_of_mem_plainNames {name : String} {type : ColumnType}
    (h : (name, type) ∈ plainNames) : name.toList.all Char.isAlpha = true := by
  have hall : ∀ p ∈ plainNames, p.1.toList.all Char.isAlpha = true := by decide
  exact hall (name, type) h

theorem upper_of_mem_plainNames {name : String} {type : ColumnType}
    (h : (name, type) ∈ plainNames) : Text.upper name.toList = name.toList := by
  have hall : ∀ p ∈ plainNames, Text.upper p.1.toList = p.1.toList := by decide
  exact hall (name, type) h

section

variable {written blanks : List Char} {name : String}

theorem opening_notMem_of_sameLetters (hname : name.toList.all Char.isAlpha = true)
    (hcase : Text.sameLetters written name.toList = true) : '(' ∉ written := by
  have hletter : ∀ c : Char, c.isAlpha = true → (c == '(') = false := by
    intro c hc
    rw [beq_eq_false_iff_ne]
    rintro rfl
    exact absurd hc (by decide)
  intro hmem
  exact absurd (Text.eq_false_of_sameLetters hletter hname hcase '(' hmem) (by decide)

theorem splitArguments_of_name (hname : name.toList.all Char.isAlpha = true)
    (hcase : Text.sameLetters written name.toList = true) :
    splitArguments written = (written, none) := by
  rw [splitArguments, Text.cut_eq_none_iff.mpr (opening_notMem_of_sameLetters hname hcase)]

/-- White space after a name does not belong to it, and a parenthesis ends it. -/
theorem splitArguments_of_name_append (hname : name.toList.all Char.isAlpha = true)
    (hcase : Text.sameLetters written name.toList = true)
    (hblanks : ∀ c ∈ blanks, Text.isBlank c = true) (rest : List Char) :
    splitArguments (written ++ blanks ++ '(' :: rest) = (written, beforeClosing rest) := by
  have hopening : '(' ∉ written ++ blanks := by
    rw [List.mem_append, not_or]
    exact ⟨opening_notMem_of_sameLetters hname hcase,
      fun hmem => absurd (hblanks '(' hmem) (by decide)⟩
  have htrim : Text.trim (written ++ blanks) = written := by
    rw [Text.trim_append_blanks hblanks]
    exact Text.trim_eq_self_of_forall
      (Text.eq_false_of_sameLetters (fun _ => Text.isBlank_eq_false_of_isAlpha) hname hcase)
  rw [splitArguments, Text.cut_append_of_not_mem hopening]
  exact congrArg (·, beforeClosing rest) htrim

theorem ofList_upper_eq (hname : Text.upper name.toList = name.toList)
    (hcase : Text.sameLetters written name.toList = true) :
    String.ofList (Text.upper written) = name := by
  rw [Text.sameLetters_iff.mp hcase, hname, String.ofList_toList]

theorem sameLetters_of_ofList_upper_eq (h : String.ofList (Text.upper written) = name) :
    Text.sameLetters written name.toList = true := by
  rw [Text.sameLetters_iff, ← h, String.toList_ofList, Text.upper_upper]

end

theorem ofParts_varchar_eq_some_iff {arguments : List Char} {type : ColumnType} :
    ofParts "VARCHAR" (some arguments) = some type ↔
      ∃ length : UInt32, IsNumber UInt32.size arguments length.toNat ∧ type = .varchar length := by
  simp only [ofParts, if_true, Option.map_eq_some_iff, readBelow_trim_eq_some_iff]
  constructor
  · rintro ⟨n, hn, rfl⟩
    refine ⟨UInt32.ofNat n, ?_, rfl⟩
    rwa [UInt32.toNat_ofNat_of_lt' hn.lt]
  · rintro ⟨length, hlength, rfl⟩
    exact ⟨length.toNat, hlength, by rw [UInt32.ofNat_toNat]⟩

theorem ofParts_decimal_eq_some_iff {arguments : List Char} {type : ColumnType} :
    ofParts "DECIMAL" (some arguments) = some type ↔
      ∃ (first second : List Char) (precision scale : UInt8),
        arguments = first ++ ',' :: second ∧ IsNumber UInt8.size first precision.toNat ∧
          IsNumber UInt8.size second scale.toNat ∧ type = .decimal precision scale := by
  have hname : "DECIMAL" ≠ "VARCHAR" := by decide
  simp only [ofParts, if_neg hname, if_true, Option.bind_eq_bind, Option.bind_eq_some_iff,
    Option.pure_def, Option.some.injEq, readBelow_trim_eq_some_iff, Prod.exists]
  constructor
  · rintro ⟨first, second, hcut, p, hp, q, hq, rfl⟩
    refine ⟨first, second, UInt8.ofNat p, UInt8.ofNat q, (Text.eq_append_of_cut hcut).1, ?_, ?_,
      rfl⟩
    · rwa [UInt8.toNat_ofNat_of_lt' hp.lt]
    · rwa [UInt8.toNat_ofNat_of_lt' hq.lt]
  · rintro ⟨first, second, precision, scale, rfl, hprecision, hscale, rfl⟩
    refine ⟨first, second, Text.cut_append_of_not_mem hprecision.comma_notMem second,
      precision.toNat, hprecision, scale.toNat, hscale, ?_⟩
    rw [UInt8.ofNat_toNat, UInt8.ofNat_toNat]

section

variable {cs written blanks arguments : List Char} {type : ColumnType}

/-- Arguments are known only behind the name of a type that has some. -/
theorem declares_of_ofParts (hblanks : ∀ c ∈ blanks, Text.isBlank c = true)
    (h : ofParts (String.ofList (Text.upper written)) (some arguments) = some type) :
    Declares (withArguments (written ++ blanks) arguments) type := by
  generalize hname : String.ofList (Text.upper written) = name at h
  have hcase := sameLetters_of_ofList_upper_eq hname
  by_cases hvarchar : name = "VARCHAR"
  · rw [hvarchar, ofParts_varchar_eq_some_iff] at h
    obtain ⟨length, hlength, rfl⟩ := h
    exact .varchar (hvarchar ▸ hcase) hblanks hlength
  · by_cases hdecimal : name = "DECIMAL"
    · rw [hdecimal, ofParts_decimal_eq_some_iff] at h
      obtain ⟨first, second, precision, scale, rfl, hprecision, hscale, rfl⟩ := h
      exact .decimal (hdecimal ▸ hcase) hblanks hprecision hscale
    · simp [ofParts, hvarchar, hdecimal] at h

theorem declares_or_leavesOpen_of_known? (hfirst : cs.head?.any Text.isBlank = false)
    (h : known? cs = some type) : Declares cs type ∨ LeavesOpen cs type := by
  rw [known?_eq] at h
  cases hcut : Text.cut '(' cs with
  | none =>
      rw [splitArguments, hcut, ofParts, lookup_plainNames_eq_some_iff] at h
      exact Or.inl (.plain h (sameLetters_of_ofList_upper_eq rfl))
  | some parts =>
      obtain ⟨before, after⟩ := parts
      obtain ⟨rfl, -⟩ := Text.eq_append_of_cut hcut
      have hhead : before.head?.any Text.isBlank = false := by
        cases before with
        | nil => rfl
        | cons c before => exact hfirst
      -- The name is what stands before the parenthesis without the white space in between.
      obtain ⟨blanks, hblanks, hbefore⟩ := exists_blanks_of_head? hhead
      rw [splitArguments, hcut] at h
      dsimp only at h
      rw [hbefore]
      cases hclosing : beforeClosing after with
      | none =>
          -- No arguments are found, as if there were no parenthesis.
          rw [hclosing, ofParts, lookup_plainNames_eq_some_iff] at h
          exact Or.inr (.unclosed h (sameLetters_of_ofList_upper_eq rfl) hblanks
            (beforeClosing_eq_none_iff.mp hclosing))
      | some arguments =>
          rw [hclosing] at h
          rw [beforeClosing_eq_some_iff.mp hclosing]
          exact Or.inl (declares_of_ofParts hblanks h)

theorem known?_of_declares (h : Declares cs type) : known? cs = some type := by
  rw [known?_eq]
  cases h with
  | plain hname hcase =>
      rw [splitArguments_of_name (isAlpha_of_mem_plainNames hname) hcase,
        ofList_upper_eq (upper_of_mem_plainNames hname) hcase]
      exact lookup_plainNames_eq_some_iff.mpr hname
  | varchar hname hblanks hlength =>
      rw [withArguments, splitArguments_of_name_append (by decide) hname hblanks,
        beforeClosing_eq_some_iff.mpr rfl, ofList_upper_eq rfl hname]
      exact ofParts_varchar_eq_some_iff.mpr ⟨_, hlength, rfl⟩
  | decimal hname hblanks hprecision hscale =>
      rw [withArguments, splitArguments_of_name_append (by decide) hname hblanks,
        beforeClosing_eq_some_iff.mpr rfl, ofList_upper_eq rfl hname]
      exact ofParts_decimal_eq_some_iff.mpr ⟨_, _, _, _, rfl, hprecision, hscale, rfl⟩

theorem known?_of_leavesOpen (h : LeavesOpen cs type) : known? cs = some type := by
  rw [known?_eq]
  cases h with
  | unclosed hname hcase hblanks hopen =>
      rw [splitArguments_of_name_append (isAlpha_of_mem_plainNames hname) hcase hblanks,
        beforeClosing_eq_none_iff.mpr hopen,
        ofList_upper_eq (upper_of_mem_plainNames hname) hcase]
      exact lookup_plainNames_eq_some_iff.mpr hname

/-- A text that does not begin with white space is known exactly if it declares a type, or
leaves a parenthesis open behind the name of one. -/
theorem known?_eq_some_iff (hfirst : cs.head?.any Text.isBlank = false) :
    known? cs = some type ↔ Declares cs type ∨ LeavesOpen cs type :=
  ⟨declares_or_leavesOpen_of_known? hfirst,
    fun h => h.elim known?_of_declares known?_of_leavesOpen⟩

end

/-- What a text is read as.  The type is the one that the text declares, or the one that it names
before a parenthesis that is left open; in every other case the text is kept as a custom type,
without the white space around it. -/
theorem parse_eq_iff (declared : String) (type : ColumnType) :
    parse declared = type ↔
      Declares (Text.trim declared.toList) type ∨ LeavesOpen (Text.trim declared.toList) type ∨
        (type = .custom (String.ofList (Text.trim declared.toList)) ∧
          ∀ other, ¬Declares (Text.trim declared.toList) other ∧
            ¬LeavesOpen (Text.trim declared.toList) other) := by
  have hknown : ∀ {other : ColumnType}, known? (Text.trim declared.toList) = some other ↔ _ :=
    fun {_} => known?_eq_some_iff (Text.head?_trim declared.toList)
  rw [parse_eq, ← or_assoc, ← hknown]
  simp only [← not_or, ← hknown]
  cases known? (Text.trim declared.toList) with
  | some known => simp
  | none => simp [eq_comm]

/-- The parenthesis after a name is not closed, and what follows the name is lost. -/
theorem parse_loses_unclosed_list :
    parse "TEXT (10" = .text ∧ ∀ type, ¬Declares "TEXT (10".toList type := by
  have hnotClosed : "TEXT (10".toList.getLast? ≠ some ')' := by decide
  refine ⟨by decide, fun type h => ?_⟩
  generalize hcs : "TEXT (10".toList = cs at h
  rw [hcs] at hnotClosed
  cases h with
  | plain hname hcase =>
      have hnone : ∀ p ∈ plainNames, Text.sameLetters "TEXT (10".toList p.1.toList = false := by
        decide
      rw [← hcs, hnone _ hname] at hcase
      contradiction
  | varchar => exact hnotClosed (getLast?_withArguments _ _)
  | decimal => exact hnotClosed (getLast?_withArguments _ _)

end ColumnType

end Relational.Schema
