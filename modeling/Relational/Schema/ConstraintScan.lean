import Relational.Schema.Table
import Relational.Text.Blank
import Relational.Text.Doubled
import Relational.Text.Letters
import Relational.Text.Split
import Relational.Text.Word

/-!
# Constraints in the text of a table

The named constraints in the text of a `CREATE TABLE` statement.

The text is searched from left to right for the words that begin a named
unique or check constraint.  What such a beginning needs is decided by the
characters in front of it, so at each place there is at most one way to read
it.  The search goes on right after the opening parenthesis.
-/

namespace Relational.Schema

/-- A name without its quotes, in any of three styles, and without the white
space around it. -/
def unquote (cs : List Char) : List Char :=
  let trimmed := Text.trim cs
  match Text.between '"' '"' trimmed with
  | some inner => Text.halve '"' inner
  | none =>
      match Text.between '\x60' '\x60' trimmed with
      | some inner => inner
      | none => (Text.between '[' ']' trimmed).getD trimmed

/-- The text up to the parenthesis that closes `depth + 1` open ones.
Parentheses between apostrophes do not count. -/
def balancedBody (depth : Nat) (quoted : Bool) : List Char → Option (List Char)
  | [] => none
  | c :: cs =>
      if c = '\'' then (balancedBody depth (!quoted) cs).map (c :: ·)
      else if c = '(' ∧ quoted = false then (balancedBody (depth + 1) quoted cs).map (c :: ·)
      else if c = ')' ∧ quoted = false then
        match depth with
        | 0 => some []
        | depth + 1 => (balancedBody depth quoted cs).map (c :: ·)
      else (balancedBody depth quoted cs).map (c :: ·)

namespace ConstraintScan

/-- Whether a character is an upper-case letter in either case.  The long s and
the kelvin sign are cases of S and K. -/
def isLetter (letter c : Char) : Bool :=
  c.toUpper == letter || (letter == 'S' && c == '\u017f') || (letter == 'K' && c == '\u212a')

/-- The text after a word at its start, in any case. -/
def word? : List Char → List Char → Option (List Char)
  | [], cs => some cs
  | letter :: letters, c :: cs => if isLetter letter c then word? letters cs else none
  | _ :: _, [] => none

/-- The text after the white space at its start, of which there must be
some. -/
def blanks? (cs : List Char) : Option (List Char) :=
  match cs with
  | c :: rest => if Text.isBlank c then some (rest.dropWhile Text.isBlank) else none
  | [] => none

/-- A name in double quotes after the first one, with its closing quote, and
the text after it.  A quote inside is doubled. -/
def quotedName : List Char → Option (List Char × List Char)
  | '"' :: '"' :: cs =>
      (quotedName cs).map fun (name, rest) => ('"' :: '"' :: name, rest)
  | '"' :: cs => some (['"'], cs)
  | c :: cs => (quotedName cs).map fun (name, rest) => (c :: name, rest)
  | [] => none

/-- A name up to a closing mark, with the mark, and the text after it. -/
def markedName (mark : Char) (cs : List Char) : Option (List Char × List Char) :=
  match Text.cut mark cs with
  | some (name, rest) => if name = [] then none else some (name ++ [mark], rest)
  | none => none

/-- A name as it is written, and the text after it. -/
def name? : List Char → Option (List Char × List Char)
  | '"' :: cs =>
      match quotedName cs with
      | some (name, rest) => if name = ['"'] then none else some ('"' :: name, rest)
      | none => none
  | '\x60' :: cs => (markedName '\x60' cs).map fun (name, rest) => ('\x60' :: name, rest)
  | '[' :: cs => (markedName ']' cs).map fun (name, rest) => ('[' :: name, rest)
  | cs =>
      let name := cs.takeWhile Text.isWord
      if name = [] then none else some (name, cs.dropWhile Text.isWord)

/-- Whether a constraint is a unique or a check constraint, and the text after
the word that says so. -/
def kind? (cs : List Char) : Option (Bool × List Char) :=
  match word? ['U', 'N', 'I', 'Q', 'U', 'E'] cs with
  | some rest => some (true, rest)
  | none => (word? ['C', 'H', 'E', 'C', 'K'] cs).map fun rest => (false, rest)

/-- The text after an opening parenthesis that white space may precede. -/
def opening? (cs : List Char) : Option (List Char) :=
  match cs.dropWhile Text.isBlank with
  | '(' :: rest => some rest
  | _ => none

/-- The beginning of a constraint at the start of the text: its name as it is
written, whether it is a unique constraint, and the text after the opening
parenthesis. -/
def beginning? (cs : List Char) : Option (List Char × Bool × List Char) := do
  let cs ← word? ['C', 'O', 'N', 'S', 'T', 'R', 'A', 'I', 'N', 'T'] cs
  let cs ← blanks? cs
  let (name, cs) ← name? cs
  let cs ← blanks? cs
  let (unique, cs) ← kind? cs
  let cs ← opening? cs
  return (name, unique, cs)

/-- The constraint whose parenthesis has been opened before the text, if it is
closed. -/
def constraint? (name : List Char) (unique : Bool) (cs : List Char) : Option Constraint :=
  (balancedBody 0 false cs).map fun body =>
    let name := String.ofList (unquote name)
    if unique then
      .unique name ((Text.parts ',' body).map fun column => String.ofList (unquote column))
    else .check name (String.ofList (Text.trim body))

/-- The constraints in the text, given whether a word goes on into it and how
many of its first characters have been read as the beginning of a
constraint. -/
def scan (inWord : Bool) (read : Nat) : List Char → List Constraint
  | [] => []
  | c :: cs =>
      match read with
      | read + 1 => scan (Text.isWord c) read cs
      | 0 =>
          match if inWord then none else beginning? (c :: cs) with
          | none => scan (Text.isWord c) 0 cs
          | some (name, unique, rest) =>
              (constraint? name unique rest).toList ++
                scan (Text.isWord c) (cs.length - rest.length) cs

end ConstraintScan

/-- The named unique and check constraints that the text contains, in order. -/
def scanConstraints (sql : String) : List Constraint :=
  ConstraintScan.scan false 0 sql.toList

end Relational.Schema
