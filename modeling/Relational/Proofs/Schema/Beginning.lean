import Relational.Proofs.Schema.Quoting
import Relational.Proofs.Schema.Scan

/-!
# How a constraint begins

What stands in a text where the search finds that a constraint begins: two words with a name
between them, and a parenthesis.  The name is written in one of the ways of `IsWrittenName`.
-/

namespace Relational.Schema

/-- The ways in which a name can be written.  Quotes are doubled in quotes, and other marks end a
name where they are first closed. -/
inductive IsWrittenName : List Char → Prop
  | word {name : List Char} (hname : ∀ c ∈ name, Text.isWord c = true) : IsWrittenName name
  | quoted {name : List Char} (hname : IsQuotedName name) : IsWrittenName name
  | marked {first last : Char} {inner : List Char}
      (hmarks : (first, last) ∈ [('\x60', '\x60'), ('[', ']')]) (hinner : last ∉ inner) :
      IsWrittenName (first :: (inner ++ [last]))

namespace ConstraintScan

variable {cs name rest : List Char}

/-! ## Names -/

theorem quotedName_eq_some (h : quotedName cs = some (name, rest)) :
    cs = name ++ rest ∧ ∃ inner, name = inner ++ ['"'] ∧ Text.Paired '"' inner := by
  fun_induction quotedName cs generalizing name with
  | case1 cs ih =>
      obtain ⟨⟨_, _⟩, hname, hresult⟩ := Option.map_eq_some_iff.mp h
      obtain ⟨rfl, rfl⟩ := Prod.mk.inj hresult
      obtain ⟨rfl, inner, rfl, hpaired⟩ := ih hname
      exact ⟨rfl, '"' :: '"' :: inner, rfl, .pair hpaired⟩
  | case2 cs _ =>
      obtain ⟨rfl, rfl⟩ := Prod.mk.inj (Option.some.inj h)
      exact ⟨rfl, [], rfl, .nil⟩
  | case3 c cs _ hquote ih =>
      obtain ⟨⟨_, _⟩, hname, hresult⟩ := Option.map_eq_some_iff.mp h
      obtain ⟨rfl, rfl⟩ := Prod.mk.inj hresult
      obtain ⟨rfl, inner, rfl, hpaired⟩ := ih hname
      exact ⟨rfl, c :: inner, rfl, .other hquote hpaired⟩
  | case4 => cases h

theorem markedName_eq_some {mark : Char} (h : markedName mark cs = some (name, rest)) :
    cs = name ++ rest ∧ ∃ inner, name = inner ++ [mark] ∧ mark ∉ inner := by
  rw [markedName] at h
  split at h
  · next inner after hcut =>
      split at h
      · cases h
      · obtain ⟨rfl, rfl⟩ := Prod.mk.inj (Option.some.inj h)
        obtain ⟨rfl, hmark⟩ := Text.eq_append_of_cut hcut
        exact ⟨by simp, inner, rfl, hmark⟩
  · cases h

/-- A name is what stands at the start of the text, in one of the ways to write it. -/
theorem name?_eq_some (h : name? cs = some (name, rest)) :
    cs = name ++ rest ∧ IsWrittenName name := by
  have hmarked {first last : Char} {cs name rest : List Char}
      (hmarks : (first, last) ∈ [('\x60', '\x60'), ('[', ']')])
      (h : markedName last cs = some (name, rest)) :
      first :: cs = first :: name ++ rest ∧ IsWrittenName (first :: name) := by
    obtain ⟨rfl, inner, rfl, hinner⟩ := markedName_eq_some h
    exact ⟨rfl, .marked hmarks hinner⟩
  unfold name? at h
  split at h
  · next cs =>
      split at h
      · next hname =>
          split at h
          · cases h
          · obtain ⟨rfl, rfl⟩ := Prod.mk.inj (Option.some.inj h)
            obtain ⟨rfl, inner, rfl, hpaired⟩ := quotedName_eq_some hname
            exact ⟨rfl, .quoted ⟨inner, rfl, hpaired⟩⟩
      · cases h
  · obtain ⟨⟨_, _⟩, hname, hresult⟩ := Option.map_eq_some_iff.mp h
    obtain ⟨rfl, rfl⟩ := Prod.mk.inj hresult
    exact hmarked (by simp) hname
  · obtain ⟨⟨_, _⟩, hname, hresult⟩ := Option.map_eq_some_iff.mp h
    obtain ⟨rfl, rfl⟩ := Prod.mk.inj hresult
    exact hmarked (by simp) hname
  · dsimp only at h
    split at h
    · cases h
    · obtain ⟨rfl, rfl⟩ := Prod.mk.inj (Option.some.inj h)
      exact ⟨List.takeWhile_append_dropWhile.symm, .word (List.all_eq_true.mp List.all_takeWhile)⟩

/-! ## What stands around a name -/

theorem blanks?_eq_some (h : blanks? cs = some rest) :
    ∃ blanks, cs = blanks ++ rest ∧ blanks.head?.any Text.isBlank = true ∧
      ∀ c ∈ blanks, Text.isBlank c = true := by
  unfold blanks? at h
  split at h
  · next c after =>
      split at h
      · next hblank =>
          obtain rfl := Option.some.inj h
          refine ⟨c :: after.takeWhile Text.isBlank, ?_, hblank, ?_⟩
          · rw [List.cons_append, List.takeWhile_append_dropWhile]
          · exact List.forall_mem_cons.mpr ⟨hblank, List.all_eq_true.mp List.all_takeWhile⟩
      · cases h
  · cases h

theorem kind?_eq_some {unique : Bool} (h : kind? cs = some (unique, rest)) :
    ∃ word, cs = word ++ rest ∧ ∀ c ∈ word, Text.isWord c = true := by
  unfold kind? at h
  split at h
  · next hword =>
      obtain ⟨-, rfl⟩ := Prod.mk.inj (Option.some.inj h)
      obtain ⟨word, hsplit, hletters, -⟩ := word?_eq_some (by decide) hword
      exact ⟨word, hsplit, hletters⟩
  · obtain ⟨after, hword, hresult⟩ := Option.map_eq_some_iff.mp h
    obtain ⟨-, rfl⟩ := Prod.mk.inj hresult
    obtain ⟨word, hsplit, hletters, -⟩ := word?_eq_some (by decide) hword
    exact ⟨word, hsplit, hletters⟩

theorem opening?_eq_some (h : opening? cs = some rest) :
    ∃ blanks, cs = blanks ++ '(' :: rest ∧ ∀ c ∈ blanks, Text.isBlank c = true := by
  unfold opening? at h
  split at h
  · next after hafter =>
      obtain rfl := Option.some.inj h
      refine ⟨cs.takeWhile Text.isBlank, ?_, List.all_eq_true.mp List.all_takeWhile⟩
      rw [← hafter, List.takeWhile_append_dropWhile]
  · cases h

/-- A constraint begins with a name between words and white space, up to a parenthesis. -/
theorem beginning?_eq_some {unique : Bool} (h : beginning? cs = some (name, unique, rest)) :
    ∃ lead kind, cs = lead ++ (name ++ (kind ++ '(' :: rest)) ∧ IsWrittenName name ∧
      kind.head?.any Text.isBlank = true ∧
      ∀ c ∈ lead ++ kind, Text.isWord c = true ∨ Text.isBlank c = true := by
  simp only [beginning?, Option.bind_eq_bind, Option.bind_eq_some_iff, Option.pure_def,
    Prod.exists] at h
  obtain ⟨_, hword, _, hblanks, _, _, hname, _, hblanks', _, _, hkind, _, hopening, hresult⟩ := h
  cases hresult
  obtain ⟨word, rfl, hletters, -⟩ := word?_eq_some (by decide) hword
  obtain ⟨blanks, rfl, -, hlead⟩ := blanks?_eq_some hblanks
  obtain ⟨rfl, hwritten⟩ := name?_eq_some hname
  obtain ⟨blanks', rfl, hfirst, htrail⟩ := blanks?_eq_some hblanks'
  obtain ⟨word', rfl, hletters'⟩ := kind?_eq_some hkind
  obtain ⟨blanks'', rfl, hgap⟩ := opening?_eq_some hopening
  refine ⟨word ++ blanks, blanks' ++ (word' ++ blanks''), by simp, hwritten, ?_, ?_⟩
  · cases blanks' with
    | nil => cases hfirst
    | cons c blanks' => exact hfirst
  · simp only [List.forall_mem_append]
    exact ⟨⟨fun c hc => .inl (hletters c hc), fun c hc => .inr (hlead c hc)⟩,
      fun c hc => .inr (htrail c hc), fun c hc => .inl (hletters' c hc),
      fun c hc => .inr (hgap c hc)⟩

/-- What the search finds begins somewhere in the text. -/
theorem exists_beginning_of_mem_scan {inWord : Bool} {read : Nat} {found : Constraint}
    (h : found ∈ scan inWord read cs) :
    ∃ start name unique rest, start <:+ cs ∧ beginning? start = some (name, unique, rest) ∧
      constraint? name unique rest = some found := by
  fun_induction scan inWord read cs with
  | case1 => cases h
  | case2 inWord c cs read ih | case3 inWord c cs _ ih =>
      obtain ⟨start, name, unique, rest, hstart, hbegins⟩ := ih h
      exact ⟨start, name, unique, rest, hstart.trans (List.suffix_cons c cs), hbegins⟩
  | case4 inWord c cs name unique rest hbegins ih =>
      rcases List.mem_append.mp h with h | h
      · have hstart : beginning? (c :: cs) = some (name, unique, rest) := by
          split at hbegins
          · cases hbegins
          · exact hbegins
        exact ⟨c :: cs, name, unique, rest, List.suffix_refl _, hstart, Option.mem_toList.mp h⟩
      · obtain ⟨start, name, unique, rest, hstart, hbegins⟩ := ih h
        exact ⟨start, name, unique, rest, hstart.trans (List.suffix_cons c cs), hbegins⟩

end ConstraintScan

end Relational.Schema
