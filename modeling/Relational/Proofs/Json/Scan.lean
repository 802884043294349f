import Relational.Json.Token
import Relational.Json.Writer
import Relational.Proofs.Json.Numeral

/-!
# The tokens of written JSON

What the pass over the characters makes of the pieces of a JSON text.

A word or number goes on as long as there are characters for it.  So the piece that
is scanned may only be followed by text that begins with another character, or by
nothing, and `Scans` leaves the rest of the text open otherwise.
-/

namespace Relational

namespace StringUnit

/-- A unit of a string literal stands for a character. -/
def Spells (unit : StringUnit) (c : Char) : Prop :=
  ∀ rest, text (unit :: rest) = (text rest).map (c :: ·)

theorem spells_char (c : Char) : Spells (.char c) c := fun _ => rfl

theorem spells_escape {code : Nat} (h : code < 0xD800) :
    Spells (.escape code) (Char.ofNat code) := by
  intro rest
  have hhigh : ¬(0xD800 ≤ code ∧ code < 0xDC00) := by omega
  have hlow : ¬(0xDC00 ≤ code ∧ code < 0xE000) := by omega
  have hlone : ¬(0xD800 ≤ code ∧ code < 0xE000) := by omega
  cases rest with
  | nil => simp only [text, if_neg hlone]
  | cons next rest =>
      cases next with
      | char d => simp only [text, if_neg hlone]
      | escape low => rw [text, if_neg hhigh, if_neg hlow]

end StringUnit

namespace Token

/-! ## One character -/

theorem scan_silent {pending : Pending} {c : Char} (next : Pending)
    (h : step pending c = some ([], next)) (cs : List Char) :
    scan pending (c :: cs) = scan next cs := by
  rw [scan, h]

theorem scan_token {pending next : Pending} {c : Char} {token : Token}
    (h : step pending c = some ([token], next)) (cs : List Char) :
    scan pending (c :: cs) = (scan next cs).map (token :: ·) := by
  rw [scan, h]
  rfl

theorem isGap_eq_false_of_isBare {c : Char} (h : isBare c = true) : isGap c = false := by
  rw [← Bool.not_eq_true]
  intro hgap
  simp only [isGap, Bool.or_eq_true, beq_iff_eq] at hgap
  rcases hgap with ((rfl | rfl) | rfl) | rfl <;> cases h

/-- What begins a word does nothing else. -/
theorem step_nothing_of_isBare {c : Char} (h : isBare c = true) :
    step .nothing c = some ([], .bare [c]) := by
  simp [step, start, isGap_eq_false_of_isBare h, h]

/-- A word ends at the first character that is not for words, and this is read as if
nothing had been begun. -/
theorem scan_bare_of_not_isBare {begun : List Char} {token : Token} {c : Char}
    (htoken : ofBare begun.reverse = some token) (hc : isBare c = false) (cs : List Char) :
    scan (.bare begun) (c :: cs) = (scan .nothing (c :: cs)).map (token :: ·) := by
  rw [scan, scan, step, step, if_neg (ne_true_of_eq_false hc), htoken]
  cases start c with
  | none => rfl
  | some next =>
      obtain ⟨other, next⟩ := next
      cases other with
      | none => rfl
      | some other => simp [Function.comp_def]

/-- The text does not go on with a word. -/
def NoBareFirst (cs : List Char) : Prop := cs.head?.any isBare = false

/-- A piece of text is scanned as these tokens, unless a word goes on after it. -/
def Scans (piece : List Char) (tokens : List Token) : Prop :=
  ∀ rest, NoBareFirst rest → scan .nothing (piece ++ rest) = (scan .nothing rest).map (tokens ++ ·)

/-! ## Words and numbers -/

/-- A word that has been begun goes on as long as it can. -/
theorem scan_bare {token : Token} {begun more rest : List Char}
    (hmore : ∀ c ∈ more, isBare c = true) (htoken : ofBare (begun.reverse ++ more) = some token)
    (hrest : NoBareFirst rest) :
    scan (.bare begun) (more ++ rest) = (scan .nothing rest).map (token :: ·) := by
  induction more generalizing begun with
  | cons c more ih =>
      have hstep : step (.bare begun) c = some ([], .bare (c :: begun)) := by
        rw [step, if_pos (hmore c List.mem_cons_self)]
      rw [List.cons_append, scan_silent _ hstep]
      exact ih (fun d hd => hmore d (List.mem_cons_of_mem c hd)) (by simpa using htoken)
  | nil =>
      rw [List.append_nil] at htoken
      cases rest with
      | cons c rest => exact scan_bare_of_not_isBare htoken hrest rest
      | nil =>
          show finish (.bare begun) = some [token]
          rw [finish, htoken]
          rfl

namespace Scans

theorem bare {word : List Char} {token : Token} (hne : word ≠ [])
    (hword : ∀ c ∈ word, isBare c = true) (htoken : ofBare word = some token) :
    Scans word [token] := by
  obtain ⟨c, more, rfl⟩ := List.exists_cons_of_ne_nil hne
  intro rest hrest
  rw [List.cons_append, scan_silent _ (step_nothing_of_isBare (hword c List.mem_cons_self))]
  have hbegun : ofBare ([c].reverse ++ more) = some token := htoken
  exact scan_bare (fun d hd => hword d (List.mem_cons_of_mem c hd)) hbegun hrest

/-! ## Pieces one after the other -/

theorem nil : Scans [] [] := by
  intro rest _
  simp

theorem append {first second : List Char} {tokens others : List Token}
    (hfirst : Scans first tokens) (hsecond : Scans second others) (hnext : NoBareFirst second) :
    Scans (first ++ second) (tokens ++ others) := by
  intro rest hrest
  have hbetween : NoBareFirst (second ++ rest) := by
    cases second with
    | nil => exact hrest
    | cons c second => exact hnext
  rw [List.append_assoc, hfirst _ hbetween, hsecond rest hrest, Option.map_map]
  simp [Function.comp_def]

/-- A bracket, comma or colon is a token by itself. -/
theorem punctuation {c : Char} {token : Token} {piece : List Char} {tokens : List Token}
    (hstart : start c = some (some token, .nothing)) (hpiece : Scans piece tokens) :
    Scans (c :: piece) (token :: tokens) := by
  intro rest hrest
  have hstep : step .nothing c = some ([token], .nothing) := by
    rw [step, hstart]
    rfl
  rw [List.cons_append, scan_token hstep, hpiece rest hrest, Option.map_map]
  rfl

/-- White space is passed over. -/
theorem gaps {gap piece : List Char} {tokens : List Token}
    (hgap : ∀ c ∈ gap, isGap c = true) (hpiece : Scans piece tokens) :
    Scans (gap ++ piece) tokens := by
  induction gap with
  | nil => exact hpiece
  | cons c gap ih =>
      intro rest hrest
      have hstep : step .nothing c = some ([], .nothing) := by
        simp [step, start, hgap c List.mem_cons_self]
      rw [List.cons_append, List.cons_append, scan_silent _ hstep]
      exact ih (fun d hd => hgap d (List.mem_cons_of_mem c hd)) rest hrest

end Scans

/-! ## String literals -/

theorem hexValue_hexDigit {n : Nat} (h : n < 16) : hexValue (Json.hexDigit n) = some n := by
  have hdigits : ∀ d : Fin 16, hexValue (Json.hexDigit d) = some d.val := by decide
  exact hdigits ⟨n, h⟩

/-- A control character is escaped by its code. -/
theorem scan_control {c : Char} (h : c.toNat < 0x20) (units : List StringUnit) (rest : List Char) :
    scan (.quoted units) (['\\', 'u', '0', '0', Json.hexDigit (c.toNat / 16),
      Json.hexDigit (c.toNat % 16)] ++ rest) = scan (.quoted (.escape c.toNat :: units)) rest := by
  have hhigh := hexValue_hexDigit (n := c.toNat / 16) (by omega)
  have hlow := hexValue_hexDigit (n := c.toNat % 16) (by omega)
  have hcode : c.toNat / 16 * 16 + c.toNat % 16 = c.toNat := by omega
  have hfirst : step (.hex units 2 0) (Json.hexDigit (c.toNat / 16)) =
      some ([], .hex units 1 (c.toNat / 16)) := by
    simp [step, hhigh]
  have hsecond : step (.hex units 1 (c.toNat / 16)) (Json.hexDigit (c.toNat % 16)) =
      some ([], .quoted (.escape c.toNat :: units)) := by
    simp [step, hlow, hcode]
  simp only [List.cons_append, List.nil_append]
  rw [scan_silent (.escaped units) rfl, scan_silent (.hex units 4 0) rfl,
    scan_silent (.hex units 3 0) rfl, scan_silent (.hex units 2 0) rfl,
    scan_silent _ hfirst, scan_silent _ hsecond]

/-- A letter behind a backslash is scanned as the character that it stands for. -/
theorem scan_letter {letter c : Char} (hunicode : letter ≠ 'u') (h : ofEscape letter = some c)
    (units : List StringUnit) (rest : List Char) :
    scan (.quoted units) (['\\', letter] ++ rest) = scan (.quoted (.char c :: units)) rest := by
  have hstep : step (.escaped units) letter = some ([], .quoted (.char c :: units)) := by
    rw [step, if_neg hunicode, h]
    rfl
  rw [List.cons_append, scan_silent (.escaped units) rfl, List.cons_append,
    scan_silent _ hstep, List.nil_append]

/-- A character inside a string literal is scanned as one unit that stands for it. -/
theorem exists_unit_of_escape (c : Char) :
    ∃ unit : StringUnit, unit.Spells c ∧ ∀ (units : List StringUnit) (rest : List Char),
      scan (.quoted units) (Json.escape c ++ rest) = scan (.quoted (unit :: units)) rest := by
  unfold Json.escape
  split
  -- Seven characters are written as letters.
  iterate 7
    · exact ⟨_, StringUnit.spells_char _, scan_letter (by decide) rfl⟩
  · next hquote hslash _ _ _ _ _ =>
      split
      · next hcontrol =>
          have hspells : (StringUnit.escape c.toNat).Spells (Char.ofNat c.toNat) :=
            StringUnit.spells_escape (by omega)
          rw [Char.ofNat_toNat] at hspells
          exact ⟨_, hspells, scan_control hcontrol⟩
      · next hplain =>
          refine ⟨_, StringUnit.spells_char c, fun units rest => ?_⟩
          have hstep : step (.quoted units) c = some ([], .quoted (.char c :: units)) := by
            rw [step, if_neg hquote, if_neg hslash, if_neg hplain]
          exact scan_silent _ hstep rest

/-- The characters inside a string literal are scanned as units that spell them. -/
theorem exists_units_of_escape (cs : List Char) :
    ∃ units : List StringUnit, StringUnit.text units = some cs ∧
      ∀ (begun : List StringUnit) (rest : List Char),
        scan (.quoted begun) (cs.flatMap Json.escape ++ rest) =
          scan (.quoted (units.reverse ++ begun)) rest := by
  induction cs with
  | nil => exact ⟨[], rfl, fun _ _ => rfl⟩
  | cons c cs ih =>
      obtain ⟨unit, hspells, hscan⟩ := exists_unit_of_escape c
      obtain ⟨units, htext, hmore⟩ := ih
      refine ⟨unit :: units, by rw [hspells, htext]; rfl, fun begun rest => ?_⟩
      rw [List.flatMap_cons, List.append_assoc, hscan, hmore]
      simp

/-- A string literal is scanned as the string. -/
theorem Scans.quote (s : String) : Scans (Json.quote s) [.string (some s)] := by
  intro rest _
  obtain ⟨units, htext, hscan⟩ := exists_units_of_escape s.toList
  have hclose : step (.quoted (units.reverse ++ [])) '"' =
      some ([.string (some s)], .nothing) := by
    simp [step, htext]
  rw [Json.quote, List.cons_append, scan_silent (.quoted []) rfl, List.append_assoc,
    hscan, List.singleton_append, scan_token hclose]
  rfl

end Token

end Relational
