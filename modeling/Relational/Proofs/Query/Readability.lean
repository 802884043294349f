import Relational.Proofs.Query.Literals
import Relational.Proofs.Query.Placeholders

/-!
# Unique readability

A condition can be read back from the statement that it is written as, if its
column names can be told from the text around them and each junction has two
operands or more: `Condition.eq_of_build_eq`.

The text gives the condition without its literals.  A leaf is read word by word; a
junction is cut at the parentheses that close its operands, which are the only ones
at which no parenthesis is open, because every text closes what it opens.  The
parameters then fill in the literals from left to right.
-/

namespace Relational.Query

/-! ## Parentheses -/

/-- How many parentheses are open after a text, given how many are before it.  There
is no answer if the text closes one that is not open. -/
def openAfter (depth : Nat) : List Char → Option Nat
  | [] => some depth
  | c :: cs =>
      if c = '(' then openAfter (depth + 1) cs
      else if c = ')' then if depth = 0 then none else openAfter (depth - 1) cs
      else openAfter depth cs

/-- A text that closes the parentheses that it opens and no others. -/
def Closed (cs : List Char) : Prop := ∀ depth, openAfter depth cs = some depth

theorem openAfter_append (depth : Nat) (cs ds : List Char) :
    openAfter depth (cs ++ ds) = (openAfter depth cs).bind fun d => openAfter d ds := by
  induction cs generalizing depth with
  | nil => rfl
  | cons c cs ih =>
      rw [List.cons_append, openAfter, openAfter]
      split
      · exact ih (depth + 1)
      · split
        · split
          · rfl
          · exact ih (depth - 1)
        · exact ih depth

namespace Closed

theorem nil : Closed [] := fun _ => rfl

theorem append {cs ds : List Char} (hcs : Closed cs) (hds : Closed ds) : Closed (cs ++ ds) := by
  intro depth
  rw [openAfter_append, hcs depth]
  exact hds depth

theorem enclosed {cs : List Char} (h : Closed cs) : Closed ('(' :: (cs ++ [')'])) := by
  intro depth
  show openAfter (depth + 1) (cs ++ [')']) = some depth
  rw [openAfter_append, h (depth + 1)]
  rfl

theorem of_forall {cs : List Char} (h : ∀ c ∈ cs, c ≠ '(' ∧ c ≠ ')') : Closed cs := by
  induction cs with
  | nil => exact nil
  | cons c cs ih =>
      intro depth
      obtain ⟨hopening, hclosing⟩ := h c List.mem_cons_self
      rw [openAfter, if_neg hopening, if_neg hclosing]
      exact ih (fun d hd => h d (List.mem_cons_of_mem c hd)) depth

theorem of_all {cs : List Char} (h : (cs.all fun c => c ≠ '(' && c ≠ ')') = true) :
    Closed cs := by
  apply of_forall
  simpa using h

theorem intercalate {separator : List Char} {parts : List (List Char)}
    (hseparator : Closed separator) (hparts : ∀ part ∈ parts, Closed part) :
    Closed (separator.intercalate parts) :=
  Text.intercalate_of_append nil append hseparator hparts

/-- A text that has been opened is closed at one place only. -/
theorem eq_of_append_closing {cs ds rest rest' : List Char} (hcs : Closed cs) (hds : Closed ds)
    (h : cs ++ ')' :: rest = ds ++ ')' :: rest') : cs = ds ∧ rest = rest' := by
  -- A text cannot go on after the parenthesis that closes what was open before it.
  have hstop : ∀ {before after : List Char}, Closed before →
      ¬ Closed (before ++ ')' :: after) := by
    intro before after hbefore hclosed
    have hnone : openAfter 0 (before ++ ')' :: after) = none := by
      rw [openAfter_append, hbefore 0]
      rfl
    rw [hclosed 0] at hnone
    cases hnone
  rcases List.append_eq_append_iff.mp h with ⟨more, hmore, hrest⟩ | ⟨more, hmore, hrest⟩
  · cases more with
    | nil => exact ⟨by simpa using hmore.symm, by simpa using hrest⟩
    | cons c more =>
        obtain ⟨rfl, -⟩ := List.cons.inj hrest
        exact absurd (hmore ▸ hds) (hstop hcs)
  · cases more with
    | nil => exact ⟨by simpa using hmore, by simpa using hrest.symm⟩
    | cons c more =>
        obtain ⟨rfl, -⟩ := List.cons.inj hrest
        exact absurd (hmore ▸ hcs) (hstop hds)

end Closed

/-! ## Legible conditions -/

/-- Whether a name can be told from the SQL around it. -/
def isLegible (name : String) : Bool :=
  name ≠ "" && name.toList.all fun c => c ∉ [' ', '(', ')', ',', '?']

theorem isLegible_iff {name : String} :
    isLegible name = true ↔
      name.toList ≠ [] ∧ ∀ c ∈ name.toList, c ≠ ' ' ∧ c ≠ '(' ∧ c ≠ ')' ∧ c ≠ ',' ∧ c ≠ '?' := by
  simp [isLegible]

namespace Condition

mutual

/-- Whether each junction in a condition has two operands or more. -/
def branches : Condition → Bool
  | .junction _ operands => 2 ≤ operands.length && branchesList operands
  | .not operand => branches operand
  | _ => true

/-- Whether each junction in some conditions has two operands or more. -/
def branchesList : List Condition → Bool
  | [] => true
  | c :: cs => branches c && branchesList cs

end

/-- A condition with legible names in which every junction joins something. -/
structure Legible (c : Condition) : Prop where
  names : ∀ name ∈ c.columns, isLegible name = true
  branches : c.branches = true

namespace Legible

theorem of_not {c : Condition} (h : (Condition.not c).Legible) : c.Legible :=
  ⟨h.names, h.branches⟩

theorem of_mem {kind : Junction} {operands : List Condition}
    (h : (junction kind operands).Legible) : ∀ c ∈ operands, c.Legible := by
  have hnames : ∀ name ∈ columnsOfList operands, isLegible name = true := h.names
  have hbranches : branchesList operands = true := by
    have := h.branches
    simp only [Condition.branches, Bool.and_eq_true] at this
    exact this.2
  clear h
  induction operands with
  | nil => exact fun c hc => absurd hc List.not_mem_nil
  | cons d operands ih =>
      simp only [columnsOfList, List.mem_append] at hnames
      simp only [branchesList, Bool.and_eq_true] at hbranches
      intro c hc
      rcases List.mem_cons.mp hc with rfl | hmem
      · exact ⟨fun name hname => hnames name (Or.inl hname), hbranches.1⟩
      · exact ih (fun name hname => hnames name (Or.inr hname)) hbranches.2 c hmem

theorem exists_cons_cons {kind : Junction} {operands : List Condition}
    (h : (junction kind operands).Legible) : ∃ c d cs, operands = c :: d :: cs := by
  have hbranches := h.branches
  simp only [Condition.branches, Bool.and_eq_true, decide_eq_true_eq] at hbranches
  match operands, hbranches.1 with
  | c :: d :: cs, _ => exact ⟨c, d, cs, rfl⟩

end Legible

/-! ## The text of a condition closes what it opens -/

theorem closed_of_isLegible {name : String} (h : isLegible name = true) : Closed name.toList := by
  apply Closed.of_forall
  intro c hc
  obtain ⟨-, hopening, hclosing, -⟩ := (isLegible_iff.mp h).2 c hc
  exact ⟨hopening, hclosing⟩

theorem closed_comparison (op : Comparison) : Closed op.sql.toList := by
  apply Closed.of_all
  cases op <;> decide

theorem closed_marks (values : List Value) :
    Closed (", ".intercalate (values.map fun _ => "?")).toList := by
  rw [String.toList_intercalate]
  apply Closed.intercalate (Closed.of_all (by decide))
  intro part hpart
  have hmark : part = ['?'] := by
    rw [List.map_const', List.map_replicate] at hpart
    exact List.eq_of_mem_replicate hpart
  rw [hmark]
  exact Closed.of_all (by decide)

theorem closed_enclosed {text : String} (h : Closed text.toList) :
    Closed ("(" ++ text ++ ")").toList := by
  have hshape : ("(" ++ text ++ ")").toList = '(' :: (text.toList ++ [')']) := by
    simp
  rw [hshape]
  exact h.enclosed

mutual

theorem closed_text :
    (c : Condition) → (∀ name ∈ c.columns, isLegible name = true) → Closed c.text.toList
  | .compare column op value, h => by
      have hcolumn := closed_of_isLegible (h column (by simp [columns]))
      simp only [text, String.toList_append]
      exact ((hcolumn.append (.of_all (by decide))).append (closed_comparison op)).append
        (.of_all (by decide))
  | .compareColumns left op right, h => by
      have hleft := closed_of_isLegible (h left (by simp [columns]))
      have hright := closed_of_isLegible (h right (by simp [columns]))
      simp only [text, String.toList_append]
      exact (((hleft.append (.of_all (by decide))).append (closed_comparison op)).append
        (.of_all (by decide))).append hright
  | .isNull column negated, h => by
      have hcolumn := closed_of_isLegible (h column (by simp [columns]))
      rw [text, String.toList_append]
      exact hcolumn.append (.of_all (by cases negated <;> decide))
  | .within column values negated, h => by
      have hcolumn := closed_of_isLegible (h column (by simp [columns]))
      have hkeyword : Closed (if negated then " NOT IN " else " IN ").toList :=
        .of_all (by cases negated <;> decide)
      have hshape : (text (.within column values negated)).toList =
          column.toList ++ ((if negated then " NOT IN " else " IN ").toList ++
            '(' :: ((", ".intercalate (values.map fun _ => "?")).toList ++ [')'])) := by
        cases negated <;> simp [text]
      rw [hshape]
      exact hcolumn.append (hkeyword.append (closed_marks values).enclosed)
  | .like column pattern negated, h => by
      have hcolumn := closed_of_isLegible (h column (by simp [columns]))
      rw [text, String.toList_append]
      exact hcolumn.append (.of_all (by cases negated <;> decide))
  | .between column low high, h => by
      have hcolumn := closed_of_isLegible (h column (by simp [columns]))
      rw [text, String.toList_append]
      exact hcolumn.append (.of_all (by decide))
  | .junction kind operands, h => by
      have hkeyword : Closed (" " ++ kind.keyword ++ " ").toList :=
        .of_all (by cases kind <;> decide)
      rw [text, String.toList_intercalate]
      apply Closed.intercalate hkeyword
      intro part hpart
      obtain ⟨operand, hoperand, rfl⟩ := List.mem_map.mp hpart
      exact closed_enclosedTexts operands h operand hoperand
  | .not operand, h => by
      have hshape : (text (.not operand)).toList =
          "NOT ".toList ++ '(' :: (operand.text.toList ++ [')']) := by
        simp [text]
      rw [hshape]
      exact Closed.append (.of_all (by decide)) (closed_text operand h).enclosed

theorem closed_enclosedTexts :
    (cs : List Condition) → (∀ name ∈ columnsOfList cs, isLegible name = true) →
      ∀ text ∈ enclosedTexts cs, Closed text.toList
  | [], _ => fun _ hmem => absurd hmem List.not_mem_nil
  | c :: cs, h => by
      intro text hmem
      rw [enclosedTexts] at hmem
      rcases List.mem_cons.mp hmem with rfl | hrest
      · apply closed_enclosed
        exact closed_text c fun name hname => h name (List.mem_append_left _ hname)
      · exact closed_enclosedTexts cs (fun name hname => h name (List.mem_append_right _ hname))
          text hrest

end

/-! ## Reading a leaf -/

/-- Whether a condition is made of no other conditions. -/
def isLeaf : Condition → Bool
  | .junction .. => false
  | .not _ => false
  | _ => true

/-- The comparison that is written as a word. -/
def comparison? (word : List Char) : Option Comparison :=
  [Comparison.eq, .notEq, .lt, .ltEq, .gt, .gtEq].find? fun op => op.sql.toList == word

/-- The blank leaf with a column, a first word after it, and what follows that word. -/
def predicate? (column : String) (keyword operand : List Char) : Option Condition :=
  match comparison? keyword with
  | some op =>
      if operand = ['?'] then some (.compare column op .null)
      else some (.compareColumns column op (String.ofList operand))
  | none =>
      let values := List.replicate (operand.count '?') Value.null
      if keyword = "IS".toList then some (.isNull column (operand = "NOT NULL".toList))
      else if keyword = "LIKE".toList then some (.like column "" false)
      else if keyword = "BETWEEN".toList then some (.between column .null .null)
      else if keyword = "IN".toList then some (.within column values false)
      else if keyword = "NOT".toList then
        if operand = "LIKE ?".toList then some (.like column "" true)
        else some (.within column values true)
      else none

/-- Reads the text of a leaf, up to its literals. -/
def readLeaf (cs : List Char) : Option Condition :=
  match Text.cut ' ' cs with
  | none => none
  | some (column, rest) =>
      match Text.cut ' ' rest with
      | none => none
      | some (keyword, operand) => predicate? (String.ofList column) keyword operand

theorem comparison?_sql (op : Comparison) : comparison? op.sql.toList = some op := by
  cases op <;> rfl

theorem readLeaf_words {column : String} {keyword operand : List Char}
    (hcolumn : ' ' ∉ column.toList) (hkeyword : ' ' ∉ keyword) :
    readLeaf (column.toList ++ ' ' :: (keyword ++ ' ' :: operand)) =
      predicate? column keyword operand := by
  simp only [readLeaf, Text.cut_append_of_not_mem hcolumn, Text.cut_append_of_not_mem hkeyword,
    String.ofList_toList]

theorem readLeaf_text {c : Condition} (hleaf : c.isLeaf = true) (h : c.Legible) :
    readLeaf c.text.toList = some c.blank := by
  have hword : ∀ name ∈ c.columns, ' ' ∉ name.toList := fun name hname hmem =>
    ((isLegible_iff.mp (h.names name hname)).2 ' ' hmem).1 rfl
  have hcomparison : ∀ op : Comparison, ' ' ∉ op.sql.toList := by
    intro op
    cases op <;> decide
  cases c with
  | junction | not => cases hleaf
  | compare column op value =>
      have hshape : (text (.compare column op value)).toList =
          column.toList ++ ' ' :: (op.sql.toList ++ ' ' :: ['?']) := by
        simp [text]
      rw [hshape, readLeaf_words (hword column (by simp [columns])) (hcomparison op), predicate?,
        comparison?_sql]
      rfl
  | compareColumns left op right =>
      have hshape : (text (.compareColumns left op right)).toList =
          left.toList ++ ' ' :: (op.sql.toList ++ ' ' :: right.toList) := by
        simp [text]
      have hmark : right.toList ≠ ['?'] := by
        intro heq
        have hmem : '?' ∈ right.toList := heq ▸ List.mem_cons_self
        exact ((isLegible_iff.mp (h.names right (by simp [columns]))).2 '?' hmem).2.2.2.2 rfl
      rw [hshape, readLeaf_words (hword left (by simp [columns])) (hcomparison op), predicate?,
        comparison?_sql]
      simp only [if_neg hmark, String.ofList_toList, blank]
  | isNull column negated =>
      have hshape : (text (.isNull column negated)).toList =
          column.toList ++ ' ' :: ("IS".toList ++
            ' ' :: (if negated then "NOT NULL" else "NULL").toList) := by
        cases negated <;> simp [text]
      rw [hshape, readLeaf_words (hword column (by simp [columns])) (by decide)]
      cases negated <;> rfl
  | within column values negated =>
      have hshape : (text (.within column values negated)).toList =
          column.toList ++ ' ' :: ((if negated then "NOT" else "IN").toList ++
            ' ' :: ((if negated then "IN (" else "(").toList ++
              (", ".intercalate (values.map fun _ => "?")).toList ++ [')'])) := by
        cases negated <;> simp [text]
      have hkeyword : ' ' ∉ (if negated then "NOT" else "IN").toList := by
        cases negated <;> decide
      -- Of the marks only their number matters, which gives the length of the list.
      have hmarks := placeholders_marks values
      unfold placeholders at hmarks
      generalize (", ".intercalate (values.map fun _ => "?")).toList = marks at hshape hmarks
      have hcount : ((if negated then "IN (" else "(").toList ++ marks ++ [')']).count '?' =
          values.length := by
        rw [List.count_append, List.count_append, hmarks]
        cases negated <;> simp
      rw [hshape, readLeaf_words (hword column (by simp [columns])) hkeyword, blank,
        List.map_const', ← hcount]
      cases negated with
      | false => rfl
      | true => simp [predicate?, comparison?, Comparison.sql]
  | like column pattern negated =>
      have hshape : (text (.like column pattern negated)).toList =
          column.toList ++ ' ' :: ((if negated then "NOT" else "LIKE").toList ++
            ' ' :: (if negated then "LIKE ?" else "?").toList) := by
        cases negated <;> simp [text]
      have hkeyword : ' ' ∉ (if negated then "NOT" else "LIKE").toList := by
        cases negated <;> decide
      rw [hshape, readLeaf_words (hword column (by simp [columns])) hkeyword]
      cases negated <;> rfl
  | between column low high =>
      have hshape : (text (.between column low high)).toList =
          column.toList ++ ' ' :: ("BETWEEN".toList ++ ' ' :: "? AND ?".toList) := by
        simp [text]
      rw [hshape, readLeaf_words (hword column (by simp [columns])) (by decide)]
      rfl

/-! ## Telling the forms apart -/

/-- The three forms of a condition. -/
theorem form (c : Condition) :
    c.isLeaf = true ∨ (∃ kind operands, c = junction kind operands) ∨
      ∃ operand, c = .not operand := by
  cases c with
  | junction kind operands => exact Or.inr (Or.inl ⟨kind, operands, rfl⟩)
  | not operand => exact Or.inr (Or.inr ⟨operand, rfl⟩)
  | _ => exact Or.inl rfl

mutual

/-- Induction on the three forms of a condition. -/
theorem induction {motive : Condition → Prop} (leaf : ∀ c, c.isLeaf = true → motive c)
    (junction : ∀ kind operands, (∀ c ∈ operands, motive c) → motive (.junction kind operands))
    (not : ∀ operand, motive operand → motive (.not operand)) : (c : Condition) → motive c
  | .junction kind operands =>
      junction kind operands (inductionList leaf junction not operands)
  | .not operand => not operand (induction leaf junction not operand)
  | .compare .. => leaf _ rfl
  | .compareColumns .. => leaf _ rfl
  | .isNull .. => leaf _ rfl
  | .within .. => leaf _ rfl
  | .like .. => leaf _ rfl
  | .between .. => leaf _ rfl

theorem inductionList {motive : Condition → Prop} (leaf : ∀ c, c.isLeaf = true → motive c)
    (junction : ∀ kind operands, (∀ c ∈ operands, motive c) → motive (.junction kind operands))
    (not : ∀ operand, motive operand → motive (.not operand)) :
    (cs : List Condition) → ∀ c ∈ cs, motive c
  | [] => fun _ hmem => absurd hmem List.not_mem_nil
  | d :: ds => by
      rw [List.forall_mem_cons]
      exact ⟨induction leaf junction not d, inductionList leaf junction not ds⟩

end

theorem head?_text_ne_of_isLeaf {c : Condition} (hleaf : c.isLeaf = true) (h : c.Legible) :
    c.text.toList.head? ≠ some '(' := by
  have hcolumn : ∃ name ∈ c.columns, ∃ rest, c.text.toList = name.toList ++ rest := by
    cases c with
    | junction | not => cases hleaf
    | compare column | compareColumns column | isNull column | within column | like column
    | between column =>
        refine ⟨column, List.mem_cons_self, ?_⟩
        simp only [text, String.toList_append, List.append_assoc]
        exact ⟨_, rfl⟩
  obtain ⟨name, hname, rest, hshape⟩ := hcolumn
  obtain ⟨hne, hchars⟩ := isLegible_iff.mp (h.names name hname)
  obtain ⟨first, chars, hfirst⟩ := List.exists_cons_of_ne_nil hne
  have hmem : first ∈ name.toList := hfirst ▸ List.mem_cons_self
  rw [hshape, hfirst]
  intro hhead
  exact (hchars first hmem).2.1 (Option.some.inj hhead)

theorem toList_text_not (operand : Condition) :
    (text (.not operand)).toList =
      "NOT".toList ++ ' ' :: '(' :: (operand.text.toList ++ [')']) := by
  simp [text]

theorem predicate?_opening (column : String) (word operand : List Char) :
    predicate? column ('(' :: word) operand = none := by
  have hcomparison : comparison? ('(' :: word) = none := by
    rw [comparison?, List.find?_eq_none]
    intro op _
    cases op <;> simp [Comparison.sql]
  rw [predicate?, hcomparison]
  simp

/-- A negation is not read as a leaf on a column named like the keyword: a
parenthesis begins where the word after the column would. -/
theorem readLeaf_text_not (operand : Condition) : readLeaf (text (.not operand)).toList = none := by
  rw [toList_text_not, readLeaf, Text.cut_append_of_not_mem (by decide)]
  show (match Text.cut ' ' ('(' :: (operand.text.toList ++ [')'])) with
    | none => none
    | some (keyword, rest) => predicate? (String.ofList "NOT".toList) keyword rest) = none
  cases hcut : Text.cut ' ' ('(' :: (operand.text.toList ++ [')'])) with
  | none => rfl
  | some words =>
      obtain ⟨keyword, rest⟩ := words
      obtain ⟨hsplit, -⟩ := Text.eq_append_of_cut hcut
      cases keyword with
      | nil =>
          rw [List.nil_append] at hsplit
          exact absurd (List.cons.inj hsplit).1 (by decide)
      | cons first keyword =>
          obtain ⟨rfl, -⟩ := List.cons.inj hsplit
          exact predicate?_opening _ keyword rest

/-- What stands after the first operand of a junction and the parenthesis that closes
it: the other operands, each after the keyword. -/
def furtherOperands (kind : Junction) : List Condition → List Char
  | [] => []
  | c :: cs =>
      ' ' :: (kind.keyword.toList ++ ' ' :: '(' :: (c.text.toList ++ ')' :: furtherOperands kind cs))

theorem toList_text_junction (kind : Junction) (c : Condition) (cs : List Condition) :
    (text (.junction kind (c :: cs))).toList =
      '(' :: (c.text.toList ++ ')' :: furtherOperands kind cs) := by
  induction cs generalizing c with
  | nil => simp [text, enclosedTexts, furtherOperands]
  | cons d ds ih =>
      have hrest := ih d
      rw [text] at hrest ⊢
      rw [enclosedTexts, enclosedTexts, String.intercalate_cons_cons, ← enclosedTexts,
        String.toList_append, hrest]
      simp [furtherOperands]

/-- The first keyword tells the kind of a junction. -/
theorem kind_eq_of_furtherOperands_eq {kind kind' : Junction} {c d : Condition}
    {cs ds : List Condition}
    (h : furtherOperands kind (c :: cs) = furtherOperands kind' (d :: ds)) : kind = kind' := by
  cases kind <;> cases kind' <;> simp [furtherOperands, Junction.keyword] at h ⊢

/-- The operands are cut where no parenthesis is open. -/
theorem texts_eq_of_furtherOperands_eq {kind : Junction} {cs ds : List Condition}
    (hcs : ∀ c ∈ cs, c.Legible) (hds : ∀ d ∈ ds, d.Legible)
    (h : furtherOperands kind cs = furtherOperands kind ds) : cs.map text = ds.map text := by
  induction cs generalizing ds with
  | nil =>
      cases ds with
      | nil => rfl
      | cons d ds => cases h
  | cons c cs ih =>
      cases ds with
      | nil => cases h
      | cons d ds =>
          have hc := closed_text c (hcs c List.mem_cons_self).names
          have hd := closed_text d (hds d List.mem_cons_self).names
          have hopened : c.text.toList ++ ')' :: furtherOperands kind cs =
              d.text.toList ++ ')' :: furtherOperands kind ds := by
            simpa [furtherOperands] using h
          obtain ⟨hfirst, hrest⟩ := Closed.eq_of_append_closing hc hd hopened
          have htexts := ih (fun e he => hcs e (List.mem_cons_of_mem c he))
            (fun e he => hds e (List.mem_cons_of_mem d he)) hrest
          rw [List.map_cons, List.map_cons, String.toList_inj.mp hfirst, htexts]

theorem blankList_eq_of_texts_eq {cs ds : List Condition}
    (hread : ∀ c ∈ cs, ∀ d ∈ ds, c.text = d.text → c.blank = d.blank)
    (h : cs.map text = ds.map text) : blankList cs = blankList ds := by
  induction cs generalizing ds with
  | nil =>
      cases ds with
      | nil => rfl
      | cons d ds => cases h
  | cons c cs ih =>
      cases ds with
      | nil => cases h
      | cons d ds =>
          obtain ⟨hfirst, hrest⟩ := List.cons.inj h
          have hc := hread c List.mem_cons_self d List.mem_cons_self hfirst
          have hcs := ih (fun a ha b hb => hread a (List.mem_cons_of_mem c ha) b
            (List.mem_cons_of_mem d hb)) hrest
          rw [blankList, blankList, hc, hcs]

/-- The text of a legible condition is the condition without its literals. -/
theorem blank_eq_of_text_eq {a b : Condition} (ha : a.Legible) (hb : b.Legible)
    (h : a.text = b.text) : a.blank = b.blank := by
  induction a using induction generalizing b with
  | leaf a hleaf =>
      have hhead := head?_text_ne_of_isLeaf hleaf ha
      have hread := readLeaf_text hleaf ha
      rw [h] at hhead hread
      -- A junction begins with a parenthesis and a negation is not read as a leaf.
      rcases b.form with hleaf' | ⟨kind, operands, rfl⟩ | ⟨operand, rfl⟩
      · rw [readLeaf_text hleaf' hb] at hread
        exact (Option.some.inj hread).symm
      · obtain ⟨c, d, cs, rfl⟩ := hb.exists_cons_cons
        rw [toList_text_junction] at hhead
        exact absurd rfl hhead
      · rw [readLeaf_text_not] at hread
        cases hread
  | not a ih =>
      rcases b.form with hleaf | ⟨kind, operands, rfl⟩ | ⟨operand, rfl⟩
      · have hread := readLeaf_text hleaf hb
        rw [← h, readLeaf_text_not] at hread
        cases hread
      · obtain ⟨c, d, cs, rfl⟩ := hb.exists_cons_cons
        have htexts := congrArg String.toList h
        rw [toList_text_not, toList_text_junction] at htexts
        cases htexts
      · have htexts := congrArg String.toList h
        rw [toList_text_not, toList_text_not] at htexts
        have hinner : a.text = operand.text := by
          simpa [String.toList_inj] using htexts
        rw [blank, blank, ih ha.of_not hb.of_not hinner]
  | junction kind operands ih =>
      obtain ⟨c, c', cs, rfl⟩ := ha.exists_cons_cons
      have htexts := congrArg String.toList h
      rw [toList_text_junction] at htexts
      rcases b.form with hleaf | ⟨kind', operands', rfl⟩ | ⟨operand, rfl⟩
      · have hhead := head?_text_ne_of_isLeaf hleaf hb
        rw [← htexts] at hhead
        exact absurd rfl hhead
      · obtain ⟨d, d', ds, rfl⟩ := hb.exists_cons_cons
        rw [toList_text_junction] at htexts
        -- The first operands end at the same parenthesis, and the keyword after it tells
        -- the kind; only then can the others be compared.
        have hc := closed_text c (ha.of_mem c List.mem_cons_self).names
        have hd := closed_text d (hb.of_mem d List.mem_cons_self).names
        obtain ⟨hfirst, hrest⟩ := Closed.eq_of_append_closing hc hd (List.cons.inj htexts).2
        obtain rfl := kind_eq_of_furtherOperands_eq hrest
        have hothers := texts_eq_of_furtherOperands_eq
          (fun e he => ha.of_mem e (List.mem_cons_of_mem c he))
          (fun e he => hb.of_mem e (List.mem_cons_of_mem d he)) hrest
        have hall : (c :: c' :: cs).map text = (d :: d' :: ds).map text := by
          rw [List.map_cons, List.map_cons (l := d' :: ds), String.toList_inj.mp hfirst, hothers]
        have hblank := blankList_eq_of_texts_eq
          (fun e he e' he' => ih e he (ha.of_mem e he) (hb.of_mem e' he')) hall
        rw [blank, blank, hblank]
      · rw [toList_text_not] at htexts
        cases htexts

/-! ## Filling in the literals -/

mutual

/-- Puts values in the places of the literals of a condition, from left to right, and
keeps those that are left over. -/
def fill : Condition → List Value → Condition × List Value
  | .compare column op _, value :: rest => (.compare column op value, rest)
  | .within column values negated, rest =>
      (.within column (rest.take values.length) negated, rest.drop values.length)
  | .like column _ negated, .text pattern :: rest => (.like column pattern negated, rest)
  | .between column _ _, low :: high :: rest => (.between column low high, rest)
  | .junction kind operands, rest =>
      (.junction kind (fillList operands rest).1, (fillList operands rest).2)
  | .not operand, rest => (.not (fill operand rest).1, (fill operand rest).2)
  | c, rest => (c, rest)

/-- Puts values in the places of the literals of several conditions. -/
def fillList : List Condition → List Value → List Condition × List Value
  | [], rest => ([], rest)
  | c :: cs, rest =>
      ((fill c rest).1 :: (fillList cs (fill c rest).2).1, (fillList cs (fill c rest).2).2)

end

mutual

/-- The literals of a condition fill its blank form, and exactly these are used. -/
theorem fill_blank :
    (c : Condition) → (rest : List Value) → c.blank.fill (c.literals ++ rest) = (c, rest)
  | .compare .., _ => rfl
  | .compareColumns .., _ => rfl
  | .isNull .., _ => rfl
  | .within column values negated, rest => by
      have hliterals : (within column values negated).literals = values := by
        simp [literals, bindings, Function.comp_def]
      simp [hliterals, blank, fill]
  | .like .., _ => rfl
  | .between .., _ => rfl
  | .junction kind operands, rest => by
      rw [blank, literals_junction, fill, fillList_blankList operands rest]
  | .not operand, rest => by
      have hoperand := fill_blank operand rest
      have hliterals : (Condition.not operand).literals = operand.literals := by
        rw [literals, bindings, literals]
      rw [blank, hliterals, fill, hoperand]

theorem fillList_blankList :
    (cs : List Condition) → (rest : List Value) →
      fillList (blankList cs) (literalsOfList cs ++ rest) = (cs, rest)
  | [], _ => rfl
  | c :: cs, rest => by
      rw [blankList, literalsOfList_cons, List.append_assoc, fillList, fill_blank c,
        fillList_blankList cs rest]

end

/-- A condition is made up of its blank form and its literals. -/
theorem eq_of_blank_eq {a b : Condition} (hblank : a.blank = b.blank)
    (hliterals : a.literals = b.literals) : a = b := by
  have hfill : (a, ([] : List Value)) = (b, []) := by
    rw [← fill_blank a [], hblank, hliterals, fill_blank b []]
  exact (Prod.mk.inj hfill).1

/-- Conditions are unambiguous in SQL.  Two legible conditions that are written as the
same text with the same parameters are equal. -/
theorem eq_of_build_eq {a b : Condition} {statement : Statement} (ha : a.Legible)
    (hb : b.Legible) (hbuild : a.build = .ok statement) (hbuild' : b.build = .ok statement) :
    a = b := by
  rw [build, render_eq, valueUnless_eq_ok_iff] at hbuild hbuild'
  have hsame : a.statement = b.statement := hbuild.2.trans hbuild'.2.symm
  have htext : a.text = b.text := congrArg Statement.sql hsame
  have hliterals : a.literals = b.literals := congrArg Statement.params hsame
  exact eq_of_blank_eq (blank_eq_of_text_eq ha hb htext) hliterals

/-- Columns that are named like keywords, in a condition that is put together in two
ways. -/
theorem eq_of_build_eq_keyword_columns :
    let first : Condition := .not (.within "NOT" [.null, .int 1] true)
    let second : Condition := .any [.between "AND" (.int 1) (.int 2), .compareColumns "a" .lt "IN"]
    let third : Condition := .like "LIKE" "?) OR (" true
    let a : Condition := (first.and second).and third
    let b : Condition := .all [first, second, third]
    let statement : Statement :=
      ⟨"(NOT (NOT NOT IN (?, ?))) AND ((AND BETWEEN ? AND ?) OR (a < IN)) AND (LIKE NOT LIKE ?)",
        [.null, .int 1, .int 1, .int 2, .text "?) OR ("]⟩
    (a.Legible ∧ b.Legible ∧ a.build = .ok statement ∧ b.build = .ok statement) ∧ a = b := by
  intro first second third a b statement
  have ha : a.Legible := ⟨by decide, by decide⟩
  have hb : b.Legible := ⟨by decide, by decide⟩
  have hbuild : a.build = .ok statement := by
    rw [build, render_eq, valueUnless_eq_ok_iff]
    decide
  have hbuild' : b.build = .ok statement := by
    rw [build, render_eq, valueUnless_eq_ok_iff]
    decide
  exact ⟨⟨ha, hb, hbuild, hbuild'⟩, eq_of_build_eq ha hb hbuild hbuild'⟩

end Condition

end Relational.Query
