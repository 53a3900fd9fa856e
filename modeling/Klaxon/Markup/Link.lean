import Klaxon.Markup.Entity
import Klaxon.Markup.Tag
import Klaxon.Text.Blank
import Klaxon.Text.CaseFold

/-!
# Where links lead

A link names its target behind its text, `[text](address "title")`, or refers to a definition by a
label, `[text][label]`. `target?` reads the former, `label?` and `resolveLabel` the latter, and
`takeDefinitions` takes the definitions off the front of a paragraph.

Labels are compared without regard to the case of ASCII letters and to the amount of blanks in them.
Of two definitions of a label the first one counts.
-/

namespace Klaxon.Markup

/-- The address that a link leads to, and its title. -/
structure Target where
  url : List Char
  title : List Char

/-! ## Addresses -/

/-- Whether a text is an address with a scheme. -/
def isAbsolute (cs : List Char) : Bool :=
  let scheme := cs.takeWhile (· != ':')
  match scheme with
  | [] => false
  | c :: rest =>
    c.isAlpha && 2 ≤ scheme.length && scheme.length ≤ 32 && scheme.length < cs.length &&
      rest.all fun c => c.isAlphanum || c == '+' || c == '.' || c == '-'

/-- Whether a text is a mail address. -/
def isMailAddress (cs : List Char) : Bool :=
  let user := cs.takeWhile (· != '@')
  let host := cs.drop (user.length + 1)
  !user.isEmpty && !host.isEmpty &&
    user.all (fun c => c.isAlphanum || ".!#$%&'*+/=?^_`\x7b|\x7d~-".toList.contains c) &&
    host.all (fun c => c.isAlphanum || c == '-' || c == '.') &&
    host.head? != some '.' && host.getLast? != some '.'

/-- The address of a link that is its own text, behind its first bracket, with that text and the
rest. -/
def autolink? (cs : List Char) : Option (List Char × List Char × List Char) :=
  (splitAtWord ['>'] cs).bind fun (inner, rest) =>
    if inner.any fun c => c.toNat ≤ 0x20 || c == '<' then none
    else if isAbsolute inner then some (inner, inner, rest)
    else if isMailAddress inner then some ("mailto:".toList ++ inner, inner, rest)
    else none

/-- The destination of a link in pointed brackets, whose first one is read, and the rest. -/
def pointedDestination? : List Char → Option (List Char × List Char)
  | [] => none
  | '>' :: rest => some ([], rest)
  | '\n' :: _ => none
  | '<' :: _ => none
  | '\\' :: c :: cs => (pointedDestination? cs).map fun (a, b) => ('\\' :: c :: a, b)
  | c :: cs => (pointedDestination? cs).map fun (a, b) => (c :: a, b)

/-- The destination of a link with balanced parentheses, and the rest. -/
def bareDestination : Nat → List Char → List Char × List Char
  | _, [] => ([], [])
  | depth, '\\' :: c :: cs =>
    if Text.isAsciiPunctuation c then
      let (a, b) := bareDestination depth cs
      ('\\' :: c :: a, b)
    else
      let (a, b) := bareDestination depth (c :: cs)
      ('\\' :: a, b)
  | depth, c :: cs =>
    if c.toNat ≤ 0x20 || c == '\x7f' then ([], c :: cs)
    else if c == '(' then
      let (a, b) := bareDestination (depth + 1) cs
      (c :: a, b)
    else if c == ')' then
      match depth with
      | 0 => ([], c :: cs)
      | depth + 1 =>
        let (a, b) := bareDestination depth cs
        (c :: a, b)
    else
      let (a, b) := bareDestination depth cs
      (c :: a, b)
termination_by _ cs => cs.length

/-- The destination of a link, pointed or bare, and the rest. -/
def destination? : List Char → Option (List Char × List Char)
  | '<' :: inner => pointedDestination? inner
  | bare => some (bareDestination 0 bare)

/-! ## Titles and targets -/

/-- The title of a link up to the character that ends it, and the rest. -/
def titleUntil? (stop : Char) : List Char → Option (List Char × List Char)
  | [] => none
  | '\\' :: c :: cs => (titleUntil? stop cs).map fun (a, b) => ('\\' :: c :: a, b)
  | c :: cs =>
    if c == stop then some ([], cs) else (titleUntil? stop cs).map fun (a, b) => (c :: a, b)

/-- A title in quotes or parentheses, and the rest. -/
def title? : List Char → Option (List Char × List Char)
  | '"' :: cs => titleUntil? '"' cs
  | '\x27' :: cs => titleUntil? '\x27' cs
  | '(' :: cs => titleUntil? ')' cs
  | _ => none

/-- A title behind blanks, and the rest. -/
def titleBehindGap? (cs : List Char) : Option (List Char × List Char) :=
  let rest := cs.dropWhile isGap
  if rest.length < cs.length then title? rest else none

/-- The closing parenthesis of a link behind blanks. -/
def linkEnd? (cs : List Char) : Option (List Char) :=
  match cs.dropWhile isGap with
  | ')' :: rest => some rest
  | _ => none

/-- The target in parentheses behind the text of a link, and the rest. -/
def target? : List Char → Option (Target × List Char)
  | '(' :: cs =>
    (destination? (cs.dropWhile isGap)).bind fun (url, rest) =>
      match linkEnd? rest with
      | some rest => some (⟨unescape url, []⟩, rest)
      | none =>
        (titleBehindGap? rest).bind fun (title, rest) =>
          (linkEnd? rest).map fun rest => (⟨unescape url, unescape title⟩, rest)
  | _ => none

/-! ## Labels and definitions -/

/-- The text of a label as labels are compared: one space for each run of blanks, in small
letters. -/
def labelKey (cs : List Char) : List Char :=
  let words := (cs.splitBy fun a b => isGap a == isGap b).filter fun w => !w.all isGap
  Text.foldCase (List.intercalate [' '] words)

/-- The characters of a label behind its opening bracket, and the rest behind the closing one. A
bracket in a label stands behind a backslash. -/
def labelUntil? : List Char → Option (List Char × List Char)
  | [] => none
  | '[' :: _ => none
  | ']' :: rest => some ([], rest)
  | '\\' :: c :: cs => (labelUntil? cs).map fun (a, b) => ('\\' :: c :: a, b)
  | c :: cs => (labelUntil? cs).map fun (a, b) => (c :: a, b)

/-- The most characters that a label has. -/
def maxLabel : Nat := 999

/-- A label behind its opening bracket, as labels are compared, and the rest. -/
def label? (cs : List Char) : Option (List Char × List Char) :=
  match labelUntil? cs with
  | some (label, rest) =>
    if label.all isGap || maxLabel < label.length then none else some (labelKey label, rest)
  | none => none

/-- What a label stands for. -/
structure Definition where
  label : List Char
  target : Target

/-- The target of a label. -/
def resolveLabel (definitions : List Definition) (label : List Char) : Option Target :=
  (definitions.find? fun d => d.label == label).map Definition.target

/-- Whether a character separates words on a line. -/
def isInlineGap (c : Char) : Bool := c == ' ' || c == '\t'

/-- Drops blanks with at most one line end among them. -/
def dropGap (cs : List Char) : List Char :=
  match cs.dropWhile isInlineGap with
  | '\n' :: rest => rest.dropWhile isInlineGap
  | rest => rest

/-- The next line, if nothing but blanks stands before it. -/
def nextLine? (cs : List Char) : Option (List Char) :=
  match cs.dropWhile isInlineGap with
  | [] => some []
  | '\n' :: rest => some rest
  | _ => none

/-- The title of a definition that ends its line, and the next line. -/
def definitionTitle? (cs : List Char) : Option (List Char × List Char) :=
  let rest := dropGap cs
  if rest.length < cs.length then
    (title? rest).bind fun (title, rest) => (nextLine? rest).map fun rest => (title, rest)
  else none

/-- A definition at the front of a text, and the rest from the next line on. -/
def definition? : List Char → Option (Definition × List Char)
  | '[' :: cs =>
    match label? cs with
    | some (label, ':' :: cs) =>
      match destination? (dropGap cs) with
      | some (url, rest) =>
        -- A bare address is not empty, a pointed one may be.
        if url.isEmpty && (dropGap cs).head? != some '<' then none
        else
          match definitionTitle? rest with
          | some (title, rest) => some (⟨label, ⟨unescape url, unescape title⟩⟩, rest)
          -- What looks like a title and is none belongs to the next line.
          | none => (nextLine? rest).map fun rest => (⟨label, ⟨unescape url, []⟩⟩, rest)
      | none => none
    | _ => none
  | _ => none

/-- Takes definitions off the front of a text; `fuel` bounds their number. -/
def takeDefinitions : Nat → List Char → List Definition × List Char
  | 0, cs => ([], cs)
  | fuel + 1, cs =>
    match definition? cs with
    | some (d, rest) =>
      let (definitions, rest) := takeDefinitions fuel rest
      (d :: definitions, rest)
    | none => ([], cs)

end Klaxon.Markup
