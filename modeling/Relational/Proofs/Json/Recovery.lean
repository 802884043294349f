import Relational.Json.Reader
import Relational.Proofs.Json.Scan

/-!
# Written JSON is read back

The text of a tree is read as the same tree, on one line or indented:
`ofText_write`.

The tokens stand between the two.  The writer's text is scanned as the tokens of the
tree, and from these the reader builds the tree, whatever lists and objects are open
around it.
-/

namespace Relational.Json

/-- Trees that stand for a text: their numbers are well-formed, and no surrogate is
without its partner. -/
inductive IsWritable : Json → Prop
  | null : IsWritable .null
  | bool (b : Bool) : IsWritable (.bool b)
  | number {n : Numeral} : n.IsWellFormed → IsWritable (.number n)
  | string (s : String) : IsWritable (.string s)
  | array {items : List Json} : (∀ item ∈ items, IsWritable item) → IsWritable (.array items)
  | object {fields : List (String × Json)} :
      (∀ field ∈ fields, IsWritable field.2) → IsWritable (.object fields)

mutual

/-- The tokens of a tree. -/
def tokens : Json → List Token
  | .null => [.null]
  | .bool b => [.bool b]
  | .number n => [.number n]
  | .string s => [.string (some s)]
  | .unpaired => [.string none]
  | .array [] => [.openArray, .closeArray]
  | .array (item :: items) => .openArray :: (tokens item ++ (itemTokens items ++ [.closeArray]))
  | .object [] => [.openObject, .closeObject]
  | .object ((key, value) :: fields) =>
      .openObject :: .string (some key) :: .colon ::
        (tokens value ++ (fieldTokens fields ++ [.closeObject]))

/-- The tokens of the items after the first. -/
def itemTokens : List Json → List Token
  | [] => []
  | item :: items => .comma :: (tokens item ++ itemTokens items)

/-- The tokens of the members after the first. -/
def fieldTokens : List (String × Json) → List Token
  | [] => []
  | (key, value) :: fields =>
      .comma :: .string (some key) :: .colon :: (tokens value ++ fieldTokens fields)

end

/-! ## Scanning -/

open Token (Scans NoBareFirst)

theorem scans_number {n : Numeral} (h : n.IsWellFormed) : Scans n.toText [.number n] := by
  obtain ⟨first, more, htext, hfirst⟩ := Numeral.exists_cons_of_toText h
  have hbare : ∀ c ∈ n.toText, Token.isBare c = true := by
    intro c hc
    rcases Numeral.mem_toText h hc with hdigit | hmark
    · simp [Token.isBare, Char.isAlphanum, hdigit]
    · simp only [List.mem_cons, List.not_mem_nil, or_false] at hmark
      rcases hmark with rfl | rfl | rfl | rfl <;> rfl
  -- The words begin with letters.
  have hword : ∀ {letter : Char} {letters : List Char}, letter.isDigit = false → letter ≠ '-' →
      n.toText ≠ letter :: letters := by
    intro letter letters hdigit hminus heq
    rw [htext] at heq
    obtain ⟨rfl, -⟩ := List.cons.inj heq
    rcases hfirst with hc | hc
    · rw [hdigit] at hc
      cases hc
    · exact hminus hc
  refine .bare (by simp [htext]) hbare ?_
  rw [Token.ofBare, if_neg (hword rfl (by decide)), if_neg (hword rfl (by decide)),
    if_neg (hword rfl (by decide)), Numeral.ofText_toText h]
  rfl

theorem scans_lineBreak_append {layout : Layout} {depth : Nat} {piece : List Char}
    {tokens : List Token} (h : Scans piece tokens) :
    Scans (layout.lineBreak depth ++ piece) tokens := by
  refine h.gaps fun c hc => ?_
  cases layout with
  | compact => cases hc
  | indented =>
      rcases List.mem_cons.mp hc with rfl | hspace
      · rfl
      · rw [List.eq_of_mem_replicate hspace]
        rfl

theorem noBareFirst_lineBreak_append (layout : Layout) (depth : Nat) {cs : List Char}
    (h : NoBareFirst cs) : NoBareFirst (layout.lineBreak depth ++ cs) := by
  cases layout with
  | compact => exact h
  | indented => rfl

/-- A key with its colon and the value after it. -/
theorem scans_member {layout : Layout} {value : List Char} {tokens : List Token} (key : String)
    (hvalue : Scans value tokens) :
    Scans (quote key ++ (layout.colon ++ value)) (.string (some key) :: .colon :: tokens) := by
  have hspaced : Scans ([' '] ++ value) tokens := hvalue.gaps (List.forall_mem_singleton.mpr rfl)
  cases layout with
  | compact => exact (Scans.quote key).append (hvalue.punctuation rfl) rfl
  | indented => exact (Scans.quote key).append (hspaced.punctuation rfl) rfl

/-- The end of a list or object. -/
theorem scans_closing (layout : Layout) (depth : Nat) {c : Char} {token : Token}
    (hc : Token.start c = some (some token, .nothing)) :
    Scans (layout.lineBreak depth ++ [c]) [token] :=
  scans_lineBreak_append (Scans.nil.punctuation hc)

theorem noBareFirst_writeItems_append (layout : Layout) (depth : Nat) (items : List Json)
    {cs : List Char} (h : NoBareFirst cs) : NoBareFirst (writeItems layout depth items ++ cs) := by
  cases items with
  | nil => exact h
  | cons item items => rfl

theorem noBareFirst_writeFields_append (layout : Layout) (depth : Nat)
    (fields : List (String × Json)) {cs : List Char} (h : NoBareFirst cs) :
    NoBareFirst (writeFields layout depth fields ++ cs) := by
  cases fields with
  | nil => exact h
  | cons field fields => rfl

theorem scans_writeItems {layout : Layout} {depth : Nat} {items : List Json}
    (h : ∀ item ∈ items, Scans (write layout depth item) item.tokens) :
    Scans (writeItems layout depth items) (itemTokens items) := by
  induction items with
  | nil => exact .nil
  | cons item items ih =>
      have hitem := h item List.mem_cons_self
      have hitems := ih fun other hother => h other (List.mem_cons_of_mem item hother)
      have hnext : NoBareFirst (writeItems layout depth items) := by
        simpa using noBareFirst_writeItems_append layout depth items (show NoBareFirst [] from rfl)
      rw [writeItems, itemTokens, List.append_assoc]
      exact (scans_lineBreak_append (hitem.append hitems hnext)).punctuation rfl

theorem scans_writeFields {layout : Layout} {depth : Nat} {fields : List (String × Json)}
    (h : ∀ field ∈ fields, Scans (write layout depth field.2) field.2.tokens) :
    Scans (writeFields layout depth fields) (fieldTokens fields) := by
  induction fields with
  | nil => exact .nil
  | cons field fields ih =>
      obtain ⟨key, value⟩ := field
      have hvalue : Scans (write layout depth value) value.tokens := h _ List.mem_cons_self
      have hfields := ih fun other hother => h other (List.mem_cons_of_mem _ hother)
      have hnil : NoBareFirst [] := rfl
      have hnext : NoBareFirst (writeFields layout depth fields) := by
        simpa using noBareFirst_writeFields_append layout depth fields hnil
      simp only [writeFields, fieldTokens, List.append_assoc]
      exact (scans_lineBreak_append
        (scans_member key (hvalue.append hfields hnext))).punctuation rfl

/-- The text of a tree is scanned as its tokens. -/
theorem scans_write {json : Json} (h : json.IsWritable) (layout : Layout) (depth : Nat) :
    Scans (write layout depth json) json.tokens := by
  have hnull : Scans ['n', 'u', 'l', 'l'] [.null] :=
    .bare (List.cons_ne_nil _ _) (List.all_eq_true.mp rfl) rfl
  have htrue : Scans ['t', 'r', 'u', 'e'] [.bool true] :=
    .bare (List.cons_ne_nil _ _) (List.all_eq_true.mp rfl) rfl
  have hfalse : Scans ['f', 'a', 'l', 's', 'e'] [.bool false] :=
    .bare (List.cons_ne_nil _ _) (List.all_eq_true.mp rfl) rfl
  induction h generalizing depth with
  | null => exact hnull
  | bool b =>
      cases b with
      | true => exact htrue
      | false => exact hfalse
  | number hn => exact scans_number hn
  | string s => exact .quote s
  | @array items _ ih =>
      cases items with
      | nil => exact (Scans.nil.punctuation rfl).punctuation rfl
      | cons item items =>
          have hitem := ih item List.mem_cons_self (depth + 1)
          have hitems : Scans (writeItems layout (depth + 1) items) (itemTokens items) :=
            scans_writeItems fun other hother =>
              ih other (List.mem_cons_of_mem item hother) (depth + 1)
          have hend : NoBareFirst (layout.lineBreak depth ++ [']']) :=
            noBareFirst_lineBreak_append layout depth rfl
          have hrest := hitems.append (scans_closing layout depth rfl) hend
          have hnext := noBareFirst_writeItems_append layout (depth + 1) items hend
          simp only [write, tokens, List.append_assoc]
          exact (scans_lineBreak_append (hitem.append hrest hnext)).punctuation rfl
  | @object fields _ ih =>
      cases fields with
      | nil => exact (Scans.nil.punctuation rfl).punctuation rfl
      | cons field fields =>
          obtain ⟨key, value⟩ := field
          have hvalue : Scans (write layout (depth + 1) value) value.tokens :=
            ih _ List.mem_cons_self (depth + 1)
          have hfields : Scans (writeFields layout (depth + 1) fields) (fieldTokens fields) :=
            scans_writeFields fun other hother =>
              ih other (List.mem_cons_of_mem _ hother) (depth + 1)
          have hend : NoBareFirst (layout.lineBreak depth ++ ['\x7d']) :=
            noBareFirst_lineBreak_append layout depth rfl
          have hrest := hfields.append (scans_closing layout depth rfl) hend
          have hnext := noBareFirst_writeFields_append layout (depth + 1) fields hend
          simp only [write, tokens, List.append_assoc]
          exact (scans_lineBreak_append
            (scans_member key (hvalue.append hrest hnext))).punctuation rfl

/-! ## Building -/

/-- What begins a value does so too where the list could end. -/
theorem build_itemOrClose (stack : List Frame) (json : Json) (rest : List Token) :
    build stack .itemOrClose (json.tokens ++ rest) =
      build (.array [] :: stack) .value (json.tokens ++ rest) := by
  have hfirst : ∀ token more, token ≠ .closeArray →
      build stack .itemOrClose (token :: more) =
        build (.array [] :: stack) .value (token :: more) := by
    intro token more hne
    cases token <;> first | rfl | exact absurd rfl hne
  cases json with
  | null | bool | number | string | unpaired => exact hfirst _ _ nofun
  | array items => cases items <;> exact hfirst _ _ nofun
  | object fields => cases fields <;> exact hfirst _ _ nofun

theorem ofFields_reverse (fields : List (String × Json)) :
    ofFields (fields.map fun field => (some field.1, field.2)).reverse = .object fields := by
  have hread : ∀ fields : List (String × Json),
      (fields.map fun field => (some field.1, field.2)).mapM
        (fun (field : Option String × Json) => field.1.map fun key => (key, field.2)) =
          some fields := by
    intro fields
    induction fields with
    | nil => rfl
    | cons field fields ih => simp [ih]
  rw [ofFields, List.reverse_reverse, hread]

/-- From these tokens a value is read, whatever is open around it. -/
def Builds (tokens : List Token) (json : Json) : Prop :=
  ∀ stack rest, build stack .value (tokens ++ rest) = build stack (.after json) rest

/-- The rest of a list, after an item that has been read. -/
theorem build_itemTokens {others : List Json} (h : ∀ item ∈ others, Builds item.tokens item)
    (stack : List Frame) (items : List Json) (last : Json) (rest : List Token) :
    build (.array items.reverse :: stack) (.after last)
        (itemTokens others ++ .closeArray :: rest) =
      build stack (.after (.array (items ++ last :: others))) rest := by
  induction others generalizing items last with
  | nil =>
      show build stack (.after (.array (last :: items.reverse).reverse)) rest = _
      rw [List.reverse_cons, List.reverse_reverse]
  | cons item others ih =>
      have hitem := h item List.mem_cons_self
      have hothers := ih (fun other hother => h other (List.mem_cons_of_mem item hother))
        (items ++ [last]) item
      rw [List.reverse_append, List.append_assoc] at hothers
      rw [itemTokens, List.cons_append, List.append_assoc]
      show build (.array (last :: items.reverse) :: stack) .value _ = _
      rw [hitem]
      exact hothers

/-- The rest of an object, after a member whose value has been read. -/
theorem build_fieldTokens {others : List (String × Json)}
    (h : ∀ field ∈ others, Builds field.2.tokens field.2) (stack : List Frame)
    (fields : List (String × Json)) (key : String) (last : Json) (rest : List Token) :
    build (.object (fields.map fun field => (some field.1, field.2)).reverse (some key) :: stack)
        (.after last) (fieldTokens others ++ .closeObject :: rest) =
      build stack (.after (.object (fields ++ (key, last) :: others))) rest := by
  induction others generalizing fields key last with
  | nil =>
      have hfields := ofFields_reverse (fields ++ [(key, last)])
      rw [List.map_append, List.reverse_append] at hfields
      rw [← hfields]
      rfl
  | cons field others ih =>
      obtain ⟨next, value⟩ := field
      have hvalue : Builds value.tokens value := h _ List.mem_cons_self
      have hothers := ih (fun other hother => h other (List.mem_cons_of_mem _ hother))
        (fields ++ [(key, last)]) next value
      rw [List.map_append, List.reverse_append, List.append_assoc] at hothers
      simp only [fieldTokens, List.cons_append, List.append_assoc]
      show build (.object ((some key, last) ::
        (fields.map fun field => (some field.1, field.2)).reverse) (some next) :: stack)
          .value _ = _
      rw [hvalue]
      exact hothers

/-- From the tokens of a tree the tree is read. -/
theorem builds_tokens {json : Json} (h : json.IsWritable) : Builds json.tokens json := by
  induction h with
  | null | bool | number | string => exact fun _ _ => rfl
  | @array items _ ih =>
      intro stack rest
      cases items with
      | nil => rfl
      | cons item items =>
          have hitem := ih item List.mem_cons_self
          have hitems := build_itemTokens
            (fun other hother => ih other (List.mem_cons_of_mem item hother)) stack [] item rest
          simp only [tokens, List.cons_append, List.append_assoc]
          show build stack .itemOrClose _ = _
          rw [build_itemOrClose, hitem]
          exact hitems
  | @object fields _ ih =>
      intro stack rest
      cases fields with
      | nil => rfl
      | cons field fields =>
          obtain ⟨key, value⟩ := field
          have hvalue : Builds value.tokens value := ih _ List.mem_cons_self
          have hfields := build_fieldTokens
            (fun other hother => ih other (List.mem_cons_of_mem _ hother)) stack [] key value rest
          simp only [tokens, List.cons_append, List.append_assoc]
          show build (.object [] (some key) :: stack) .value _ = _
          rw [hvalue]
          exact hfields

/-- The text of a tree is read as the tree. -/
theorem ofText_write {json : Json} (h : json.IsWritable) (layout : Layout) :
    ofText (write layout 0 json) = some json := by
  have hscan := scans_write h layout 0 [] rfl
  have hbuild := builds_tokens h [] []
  simp only [List.append_nil] at hscan hbuild
  have htokens : Token.ofText (write layout 0 json) = some json.tokens := by
    rw [Token.ofText, hscan]
    simp [Token.scan, Token.finish]
  rw [ofText, htokens, Option.bind_some, ofTokens, hbuild]
  rfl

end Relational.Json
