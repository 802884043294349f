import Relational.Schema.ConstraintScan

/-!
# Searching for constraints

What the search for constraints does with the pieces of a statement.

A piece is followed by a character that is no part of a word.  `Yields` says which
constraints the search finds in it, whatever comes after that character.  A name in
quotes yields none, even if it is the word that begins a constraint, since that word
must be followed by white space.
-/

namespace Relational.Schema

namespace ConstraintScan

/-- The word that begins a constraint. -/
def keyword : List Char := ['C', 'O', 'N', 'S', 'T', 'R', 'A', 'I', 'N', 'T']

/-! ## The word that begins a constraint -/

theorem isAlphanum_of_toUpper_eq {letter c : Char} (hletter : letter.isUpper = true)
    (h : c.toUpper = letter) : c.isAlphanum = true := by
  show (c.isUpper || c.isLower || c.isDigit) = true
  by_cases hlower : c.isLower = true
  · rw [hlower, Bool.or_true, Bool.true_or]
  · rw [← h, Text.toUpper_eq_self (eq_false_of_ne_true hlower)] at hletter
    rw [hletter, Bool.true_or, Bool.true_or]

theorem isWord_of_isLetter {letter c : Char} (hletter : letter.isUpper = true)
    (h : isLetter letter c = true) : Text.isWord c = true := by
  simp only [isLetter, Bool.or_eq_true, Bool.and_eq_true, beq_iff_eq] at h
  rcases h with (h | ⟨-, rfl⟩) | ⟨-, rfl⟩
  · exact Text.isWord_of_isAlphanum c (isAlphanum_of_toUpper_eq hletter h)
  · decide
  · decide

/-- The long s and the kelvin sign are no ASCII characters. -/
theorem toUpper_eq_of_isLetter {letter c : Char} (hascii : c.toNat < 128)
    (h : isLetter letter c = true) : c.toUpper = letter := by
  simp only [isLetter, Bool.or_eq_true, Bool.and_eq_true, beq_iff_eq] at h
  rcases h with (h | ⟨-, rfl⟩) | ⟨-, rfl⟩
  · exact h
  · exact absurd hascii (by decide)
  · exact absurd hascii (by decide)

theorem isLetter_eq_false_of_isDigit {c : Char} (h : c.isDigit = true) :
    isLetter 'C' c = false := by
  have hsame : c.toUpper = c := Text.toUpper_eq_self (Text.isLower_eq_false (Or.inl h))
  have hne : c ≠ 'C' := by
    rintro rfl
    exact absurd h (by decide)
  simp [isLetter, hsame, hne]

theorem word?_eq_some {letters cs rest : List Char} (hletters : letters.all Char.isUpper = true)
    (h : word? letters cs = some rest) :
    ∃ found, cs = found ++ rest ∧ (∀ c ∈ found, Text.isWord c = true) ∧
      (Text.isAscii found = true → Text.upper found = letters) := by
  induction letters generalizing cs with
  | nil => exact ⟨[], Option.some.inj h, by simp, fun _ => rfl⟩
  | cons letter letters ih =>
      rw [List.all_cons, Bool.and_eq_true] at hletters
      cases cs with
      | nil => cases h
      | cons c cs =>
          by_cases hc : isLetter letter c = true
          · rw [word?, if_pos hc] at h
            obtain ⟨found, rfl, hword, hupper⟩ := ih hletters.2 h
            refine ⟨c :: found, rfl, ?_, ?_⟩
            · intro d hd
              rcases List.mem_cons.mp hd with rfl | hd
              · exact isWord_of_isLetter hletters.1 hc
              · exact hword d hd
            · intro hascii
              rw [Text.isAscii_cons] at hascii
              rw [Text.upper, List.map_cons, toUpper_eq_of_isLetter hascii.1 hc, ← Text.upper,
                hupper hascii.2]
          · rw [word?, if_neg hc] at h
            cases h

/-- A constraint begins with a whole word that white space follows. -/
theorem exists_of_beginning?_eq_some {cs : List Char} {result : List Char × Bool × List Char}
    (h : beginning? cs = some result) :
    ∃ found blank rest, cs = found ++ blank :: rest ∧ Text.isWord blank = false ∧
      Text.isBlank blank = true ∧ (∀ c ∈ found, Text.isWord c = true) ∧
      (Text.isAscii found = true → Text.upper found = keyword) := by
  unfold beginning? at h
  cases hfound : word? keyword cs with
  | none =>
      rw [← keyword, hfound] at h
      cases h
  | some after =>
      obtain ⟨found, rfl, hword, hupper⟩ := word?_eq_some (by decide) hfound
      rw [← keyword, hfound, Option.bind_eq_bind, Option.bind_some] at h
      cases after with
      | nil => cases h
      | cons blank rest =>
          have hblank : Text.isBlank blank = true := by
            by_cases hblank : Text.isBlank blank = true
            · exact hblank
            · rw [blanks?, if_neg hblank] at h
              cases h
          exact ⟨found, blank, rest, rfl, Text.isWord_eq_false_of_isBlank hblank, hblank, hword,
            hupper⟩

/-- Where a word ends is decided by its characters. -/
theorem eq_of_append_cons {name found rest rest' : List Char} {c d : Char}
    (hname : ∀ c ∈ name, Text.isWord c = true) (hc : Text.isWord c = false)
    (hfound : ∀ c ∈ found, Text.isWord c = true) (hd : Text.isWord d = false)
    (h : name ++ c :: rest = found ++ d :: rest') : name = found ∧ c = d := by
  have htake := congrArg (List.takeWhile Text.isWord) h
  rw [List.takeWhile_append_of_pos hname, List.takeWhile_append_of_pos hfound,
    List.takeWhile_cons_of_neg (by simp [hc]), List.takeWhile_cons_of_neg (by simp [hd]),
    List.append_nil, List.append_nil] at htake
  subst htake
  exact ⟨rfl, (List.cons.inj (List.append_cancel_left h)).1⟩

theorem beginning?_word_eq_none {name rest : List Char} {c : Char}
    (hname : ∀ c ∈ name, Text.isWord c = true) (hc : Text.isWord c = false)
    (hblank : Text.isBlank c = false) : beginning? (name ++ c :: rest) = none := by
  rw [Option.eq_none_iff_forall_ne_some]
  intro result hresult
  obtain ⟨found, blank, rest', hsplit, hnonword, hisblank, hfound, -⟩ :=
    exists_of_beginning?_eq_some hresult
  obtain ⟨-, rfl⟩ := eq_of_append_cons hname hc hfound hnonword hsplit
  rw [hblank] at hisblank
  cases hisblank

theorem beginning?_eq_none_of_not_startsWithWord {text rest : List Char} {c : Char}
    (hascii : Text.isAscii text = true) (hc : Text.isWord c = false)
    (h : Text.startsWithWord keyword text = false) : beginning? (text ++ c :: rest) = none := by
  rw [Option.eq_none_iff_forall_ne_some]
  intro result hresult
  obtain ⟨found, blank, rest', hsplit, hnonword, -, hfound, hupper⟩ :=
    exists_of_beginning?_eq_some hresult
  -- The word lies within the text, for it does not contain the character after it.
  have hwithin : ∃ more, text = found ++ more ∧ more.head?.any Text.isWord = false := by
    rcases List.append_eq_append_iff.mp hsplit with ⟨more, hmore, hrest⟩ | ⟨more, hmore, hrest⟩
    · cases more with
      | nil => exact ⟨[], by simpa using hmore.symm, rfl⟩
      | cons d more =>
          obtain ⟨rfl, -⟩ := List.cons.inj hrest
          have hword := hfound c (hmore ▸ List.mem_append_right _ List.mem_cons_self)
          rw [hc] at hword
          cases hword
    · refine ⟨more, hmore, ?_⟩
      cases more with
      | nil => rfl
      | cons d more =>
          obtain ⟨rfl, -⟩ := List.cons.inj hrest
          exact hnonword
  obtain ⟨more, rfl, hmore⟩ := hwithin
  have hspelled := hupper (Text.isAscii_of_append hascii)
  have hlength : keyword.length = found.length := by
    rw [← hspelled, Text.upper, List.length_map]
  have hprefix : keyword.isPrefixOf (Text.upper (found ++ more)) = true := by
    rw [List.isPrefixOf_iff_prefix, Text.upper, List.map_append, ← Text.upper, hspelled]
    exact List.prefix_append _ _
  rw [Text.startsWithWord, hprefix, hlength, List.drop_left, hmore] at h
  cases h

theorem beginning?_eq_none_of_not_isLetter {c : Char} {cs : List Char}
    (h : isLetter 'C' c = false) : beginning? (c :: cs) = none := by
  have hword : word? keyword (c :: cs) = none := by
    rw [keyword, word?, h]
    rfl
  rw [beginning?, ← keyword, hword]
  rfl

/-! ## Text that mentions the word -/

/-- Whether the word that begins a constraint stands at the start of the text, with white space
or nothing after it. -/
def startsWithKeyword (cs : List Char) : Bool :=
  (word? keyword cs).any fun rest => rest.head?.all Text.isBlank

/-- Whether the word that begins a constraint stands somewhere in the text, with white space or
nothing after it, given whether a word goes on into the text. -/
def mentions (inWord : Bool) : List Char → Bool
  | [] => false
  | c :: cs => (!inWord && startsWithKeyword (c :: cs)) || mentions (Text.isWord c) cs

theorem word?_append {letters : List Char} (hletters : letters.all Char.isUpper = true)
    {c : Char} (hc : Text.isWord c = false) (cs rest : List Char) :
    word? letters (cs ++ c :: rest) = (word? letters cs).map (· ++ c :: rest) := by
  induction letters generalizing cs with
  | nil => rfl
  | cons letter letters ih =>
      rw [List.all_cons, Bool.and_eq_true] at hletters
      cases cs with
      | nil =>
          have hletter : isLetter letter c ≠ true := fun h => by
            rw [isWord_of_isLetter hletters.1 h] at hc
            cases hc
          rw [List.nil_append, word?, if_neg hletter]
          rfl
      | cons d cs =>
          rw [List.cons_append, word?, word?, ih hletters.2]
          split
          · rfl
          · rfl

theorem beginning?_eq_none_of_not_startsWithKeyword {cs : List Char}
    (h : startsWithKeyword cs = false) {c : Char} (hc : Text.isWord c = false)
    (rest : List Char) : beginning? (cs ++ c :: rest) = none := by
  rw [beginning?, ← keyword, word?_append (by decide) hc]
  cases hword : word? keyword cs with
  | none => rfl
  | some after =>
      rw [startsWithKeyword, hword, Option.any_some] at h
      cases after with
      | nil => cases h
      | cons d after =>
          have hblank : Text.isBlank d ≠ true := by simpa using h
          rw [Option.map_some, Option.bind_eq_bind, Option.bind_some, List.cons_append, blanks?,
            if_neg hblank]
          rfl

/-! ## A name in quotes -/

theorem quotedName_append {name : List Char} (h : '"' ∉ name) {c : Char} (hc : c ≠ '"')
    (rest : List Char) :
    quotedName (name ++ '"' :: c :: rest) = some (name ++ ['"'], c :: rest) := by
  induction name with
  | nil =>
      rw [List.nil_append, quotedName]
      · rfl
      · rintro cs heq
        exact hc (List.cons.inj heq).1
  | cons d name ih =>
      have hd : d ≠ '"' := fun heq => h (heq ▸ List.mem_cons_self)
      rw [List.cons_append, quotedName, ih fun hmem => h (List.mem_cons_of_mem d hmem)]
      · rfl
      · rintro cs rfl
        exact absurd rfl hd
      · exact hd

theorem name?_quoted {name : List Char} (hne : name ≠ []) (h : '"' ∉ name) {c : Char}
    (hc : c ≠ '"') (rest : List Char) :
    name? ('"' :: (name ++ '"' :: c :: rest)) = some ('"' :: (name ++ ['"']), c :: rest) := by
  have hfull : name ++ ['"'] ≠ ['"'] := by
    intro heq
    exact hne (List.append_cancel_right (heq.trans (List.nil_append _).symm))
  rw [name?, quotedName_append h hc]
  simp only [if_neg hfull]

/-! ## One step of the search -/

theorem scan_cons_of_eq_none {inWord : Bool} {c : Char} {cs : List Char}
    (h : inWord = false → beginning? (c :: cs) = none) :
    scan inWord 0 (c :: cs) = scan (Text.isWord c) 0 cs := by
  cases inWord with
  | true => rfl
  | false =>
      rw [scan, if_neg Bool.false_ne_true, h rfl]

theorem scan_cons_of_not_isWord {c : Char} (hc : Text.isWord c = false) (inWord : Bool)
    (cs : List Char) : scan inWord 0 (c :: cs) = scan false 0 cs := by
  have hletter : isLetter 'C' c = false := by
    by_cases h : isLetter 'C' c = true
    · rw [isWord_of_isLetter (by decide) h] at hc
      cases hc
    · simpa using h
  rw [scan_cons_of_eq_none fun _ => beginning?_eq_none_of_not_isLetter hletter, hc]

theorem scan_read (read : List Char) (c : Char) (rest : List Char) (inWord : Bool) :
    scan inWord (read.length + 1) (read ++ c :: rest) = scan (Text.isWord c) 0 rest := by
  induction read generalizing inWord with
  | nil => rfl
  | cons d read ih => exact ih (Text.isWord d)

/-- After the beginning of a constraint the search goes on in its body. -/
theorem scan_beginning {start name body : List Char} {unique : Bool} {c : Char}
    (hstart : start ≠ []) (hc : Text.isWord c = false)
    (h : beginning? (start ++ c :: body) = some (name, unique, body)) :
    scan false 0 (start ++ c :: body) =
      (constraint? name unique body).toList ++ scan false 0 body := by
  obtain ⟨first, start, rfl⟩ := List.exists_cons_of_ne_nil hstart
  have hlength : (start ++ c :: body).length - body.length = start.length + 1 := by
    rw [List.length_append, List.length_cons]
    omega
  rw [List.cons_append] at h ⊢
  rw [scan, if_neg Bool.false_ne_true, h]
  show _ ++ scan _ ((start ++ c :: body).length - body.length) _ = _
  rw [hlength, scan_read, hc]

/-! ## Pieces of a statement -/

/-- The search passes over a text if what is known of it excludes a beginning at its start and is
known of the rest as well. -/
theorem scan_append_of_passes (Passes : Bool → List Char → Prop) {c : Char} {rest : List Char}
    (hc : Text.isWord c = false)
    (hstep : ∀ {inWord d text}, Passes inWord (d :: text) →
      (inWord = false → beginning? (d :: (text ++ c :: rest)) = none) ∧
        Passes (Text.isWord d) text)
    {inWord : Bool} {text : List Char} (h : Passes inWord text) :
    scan inWord 0 (text ++ c :: rest) = scan false 0 (c :: rest) := by
  induction text generalizing inWord with
  | nil => rw [List.nil_append, scan_cons_of_not_isWord hc, scan_cons_of_not_isWord hc]
  | cons d text ih =>
      obtain ⟨hnone, hrest⟩ := hstep h
      rw [List.cons_append, scan_cons_of_eq_none hnone]
      exact ih hrest

theorem scan_word {name : List Char} (hname : ∀ c ∈ name, Text.isWord c = true) {c : Char}
    (hc : Text.isWord c = false) (hblank : Text.isBlank c = false) (inWord : Bool)
    (rest : List Char) : scan inWord 0 (name ++ c :: rest) = scan false 0 (c :: rest) := by
  refine scan_append_of_passes (fun _ text => ∀ d ∈ text, Text.isWord d = true) hc ?_ hname
  intro inWord d text htext
  exact ⟨fun _ => beginning?_word_eq_none htext hc hblank, (List.forall_mem_cons.mp htext).2⟩

theorem scan_of_not_containsWord {text : List Char} (hascii : Text.isAscii text = true)
    {c : Char} (hc : Text.isWord c = false) {inWord : Bool}
    (h : Text.containsWord keyword inWord text = false) (rest : List Char) :
    scan inWord 0 (text ++ c :: rest) = scan false 0 (c :: rest) := by
  refine scan_append_of_passes (fun inWord text => Text.isAscii text = true ∧
    Text.containsWord keyword inWord text = false) hc ?_ ⟨hascii, h⟩
  rintro inWord d text ⟨hascii, h⟩
  rw [Text.containsWord, Bool.or_eq_false_iff, Bool.and_eq_false_iff] at h
  refine ⟨fun hstart => ?_, (Text.isAscii_cons.mp hascii).2, h.2⟩
  -- Within a word the search does not look for a beginning, as the hypothesis does not
  -- look for the keyword there.
  have hahead : Text.startsWithWord keyword (d :: text) = false := by
    simpa [hstart] using h.1
  exact beginning?_eq_none_of_not_startsWithWord hascii hc hahead

theorem scan_of_not_isLetter {text : List Char} (h : text.any (isLetter 'C') = false)
    {c : Char} (hc : Text.isWord c = false) (inWord : Bool) (rest : List Char) :
    scan inWord 0 (text ++ c :: rest) = scan false 0 (c :: rest) := by
  refine scan_append_of_passes (fun _ text => text.any (isLetter 'C') = false) hc ?_ h
  intro inWord d text htext
  rw [List.any_cons, Bool.or_eq_false_iff] at htext
  exact ⟨fun _ => beginning?_eq_none_of_not_isLetter htext.1, htext.2⟩

theorem scan_of_not_mentions {text : List Char} {c : Char} (hc : Text.isWord c = false)
    {inWord : Bool} (h : mentions inWord text = false) (rest : List Char) :
    scan inWord 0 (text ++ c :: rest) = scan false 0 (c :: rest) := by
  refine scan_append_of_passes (fun inWord text => mentions inWord text = false) hc ?_ h
  intro inWord d text htext
  rw [mentions, Bool.or_eq_false_iff, Bool.and_eq_false_iff] at htext
  refine ⟨fun hstart => ?_, htext.2⟩
  have hahead : startsWithKeyword (d :: text) = false := by
    simpa [hstart] using htext.1
  exact beginning?_eq_none_of_not_startsWithKeyword hahead hc rest

end ConstraintScan

open ConstraintScan

/-- The constraints that the search finds in a text after which no word goes on. -/
def Yields (text : List Char) (found : List Constraint) : Prop :=
  ∀ c rest, Text.isWord c = false →
    scan false 0 (text ++ c :: rest) = found ++ scan false 0 (c :: rest)

namespace Yields

variable {text : List Char} {found : List Constraint}

theorem nil : Yields [] [] := fun _ _ _ => rfl

theorem of_not_containsWord (hascii : Text.isAscii text = true)
    (h : Text.containsWord keyword false text = false) : Yields text [] :=
  fun _ rest hc => scan_of_not_containsWord hascii hc h rest

theorem of_not_isLetter (h : text.any (isLetter 'C') = false) : Yields text [] :=
  fun _ rest hc => scan_of_not_isLetter h hc false rest

theorem of_not_mentions (h : mentions false text = false) : Yields text [] :=
  fun _ rest hc => scan_of_not_mentions hc h rest

theorem cons {c : Char} (hc : Text.isWord c = false) (h : Yields text found) :
    Yields (c :: text) found := by
  intro d rest hd
  rw [List.cons_append, scan_cons_of_not_isWord hc]
  exact h d rest hd

theorem separated {separator : List Char} (hseparator : separator.any Text.isWord = false)
    (h : Yields text found) : Yields (separator ++ text) found := by
  induction separator with
  | nil => exact h
  | cons c separator ih =>
      rw [List.any_cons, Bool.or_eq_false_iff] at hseparator
      exact cons hseparator.1 (ih hseparator.2)

theorem append {c : Char} {more : List Char} {found' : List Constraint}
    (htext : Yields text found) (hc : Text.isWord c = false) (hmore : Yields (c :: more) found') :
    Yields (text ++ c :: more) (found ++ found') := by
  intro d rest hd
  rw [List.append_assoc, List.cons_append, htext c _ hc, List.append_assoc, ← hmore d rest hd,
    List.cons_append]

/-- Pieces with a separator between them yield what each of them yields. -/
theorem intercalate {c : Char} {separator : List Char}
    (hseparator : (c :: separator).any Text.isWord = false)
    {pieces : List (List Char × List Constraint)} (h : ∀ piece ∈ pieces, Yields piece.1 piece.2) :
    Yields ((c :: separator).intercalate (pieces.map fun piece => piece.1))
      (pieces.flatMap fun piece => piece.2) := by
  have hc : Text.isWord c = false := by
    rw [List.any_cons, Bool.or_eq_false_iff] at hseparator
    exact hseparator.1
  induction pieces with
  | nil => exact nil
  | cons piece pieces ih =>
      have hpiece := h piece List.mem_cons_self
      have hrest := ih fun p hp => h p (List.mem_cons_of_mem piece hp)
      cases pieces with
      | nil => simpa using hpiece
      | cons next pieces =>
          -- The separator goes with the pieces after it, so the first piece is followed by
          -- a character that ends its last word.
          rw [List.map_cons, List.map_cons, List.intercalate_cons_cons, List.append_assoc,
            List.flatMap_cons]
          exact hpiece.append hc (hrest.separated hseparator)

theorem intercalate_nil {c : Char} {separator : List Char}
    (hseparator : (c :: separator).any Text.isWord = false)
    {pieces : List (List Char)} (h : ∀ piece ∈ pieces, Yields piece []) :
    Yields ((c :: separator).intercalate pieces) [] := by
  have hpieces : ∀ piece ∈ pieces.map fun piece => (piece, ([] : List Constraint)),
      Yields piece.1 piece.2 := by
    simpa using h
  have hyields := intercalate hseparator hpieces
  rw [List.map_map, List.flatMap_map, List.flatMap_eq_nil_iff.mpr fun _ _ => rfl] at hyields
  simpa [Function.comp_def] using hyields

/-- A name in quotes yields nothing if it does not mention the word. -/
theorem enclosed_of_not_mentions {name : List Char} (h : mentions false name = false) :
    Yields ('"' :: (name ++ ['"'])) [] := by
  have hquote : Text.isWord '"' = false := Text.isWord_eq_false_of_isMark (by decide)
  exact ((of_not_mentions h).append hquote (nil.cons hquote)).cons hquote

/-- A name in quotes yields nothing, whatever word it is. -/
theorem enclosed {name : List Char} (hname : ∀ c ∈ name, Text.isWord c = true) :
    Yields ('"' :: (name ++ ['"'])) [] := by
  have hquote : Text.isWord '"' = false := Text.isWord_eq_false_of_isMark (by decide)
  intro c rest hc
  rw [List.cons_append, scan_cons_of_not_isWord hquote, List.append_assoc,
    List.singleton_append, scan_word hname hquote (by decide), scan_cons_of_not_isWord hquote]
  rfl

end Yields

end Relational.Schema
