import Klaxon.Markup.Link

/-!
# Lines of a marked-up document

What a line can be by itself: a rule, a heading or the line below one, a fence, a line of a quote,
the first line of a list item, or the start of raw tags. Blanks in front of a line count by columns,
where a tab goes to the next multiple of four; a line that is indented by four columns starts no
block but code.
-/

namespace Klaxon.Markup

/-- A line of a document. -/
abbrev Line := List Char

namespace Line

/-- Whether a line has nothing but spaces. -/
def isEmpty (l : Line) : Bool := l.all isInlineGap

/-- The column behind a tab. Tabs go to the next multiple of four. -/
def nextStop (column : Nat) : Nat := column + (4 - column % 4)

/-- The column of the first character behind the blanks at the front, where the line starts at a
column. -/
def indentFrom (column : Nat) : Line → Nat
  | ' ' :: cs => indentFrom (column + 1) cs
  | '\t' :: cs => indentFrom (nextStop column) cs
  | _ => column

/-- The columns that the blanks at the front take. -/
def indent (l : Line) : Nat := indentFrom 0 l

/-- The line without the blanks at the front. -/
def body (l : Line) : Line := l.dropWhile isInlineGap

/-- The line without blanks at both ends. -/
def trimmed (l : Line) : Line := (l.body.reverse.dropWhile isInlineGap).reverse

/-- Whether a line is indented so little that it can start a block. -/
def isFlush (l : Line) : Bool := l.indent ≤ 3

/-- Puts spaces for the tabs in front of a line that starts at a column. -/
def expandTabs (column : Nat) : Line → Line
  | ' ' :: cs => ' ' :: expandTabs (column + 1) cs
  | '\t' :: cs => List.replicate (nextStop column - column) ' ' ++ expandTabs (nextStop column) cs
  | cs => cs

/-- Drops the blanks in front of a line up to a column. A tab beyond it leaves spaces. -/
def dropBlanks (stop column : Nat) : Line → Line
  | ' ' :: cs => if column < stop then dropBlanks stop (column + 1) cs else ' ' :: cs
  | '\t' :: cs =>
    if column < stop then
      List.replicate (nextStop column - stop) ' ' ++ dropBlanks stop (nextStop column) cs
    else '\t' :: cs
  | cs => cs

/-- The line from a column on, where blanks stand in front of that column. -/
def contentFrom (column : Nat) (l : Line) : Line := (expandTabs 0 l).drop column

/-- Whether a line is a rule. -/
def isRule (l : Line) : Bool :=
  let marks := l.filter fun c => !isInlineGap c
  l.isFlush && 3 ≤ marks.length &&
    (marks.all (· == '*') || marks.all (· == '-') || marks.all (· == '_'))

/-- The level of the heading that a line makes of the paragraph above it. -/
def underline? (l : Line) : Option Nat :=
  let marks := l.trimmed
  if !l.isFlush || marks.isEmpty then none
  else if marks.all (· == '=') then some 1
  else if marks.all (· == '-') then some 2
  else none

/-- A heading without the number signs that close it. -/
def withoutClosing (cs : List Char) : List Char :=
  let back := (Line.trimmed cs).reverse
  match back.dropWhile (· == '#') with
  | [] => []
  -- The signs count as text where they touch it.
  | c :: rest => if isInlineGap c then (rest.dropWhile isInlineGap).reverse else back.reverse

/-- The level and text of a heading. -/
def heading? (l : Line) : Option (Nat × List Char) :=
  let marks := l.body.takeWhile (· == '#')
  let rest := l.body.drop marks.length
  if l.isFlush && 1 ≤ marks.length && marks.length ≤ 6 then
    match rest with
    | [] => some (marks.length, [])
    | c :: _ =>
      if isInlineGap c then some (marks.length, withoutClosing rest) else none
  else none

/-- The start of code between fences. -/
structure Fence where
  mark : Char
  length : Nat
  indent : Nat
  info : List Char

/-- The fence that a line is. -/
def fence? (l : Line) : Option Fence :=
  match l.body with
  | [] => none
  | c :: _ =>
    let run := l.body.takeWhile (· == c)
    let info := Line.trimmed (l.body.drop run.length)
    if l.isFlush && (c == '\x60' || c == '~') && 3 ≤ run.length &&
        !(c == '\x60' && info.contains '\x60') then
      some ⟨c, run.length, l.indent, unescape info⟩
    else none

/-- Whether a line ends code between fences. -/
def closes (l : Line) (f : Fence) : Bool :=
  let run := l.body.takeWhile (· == f.mark)
  l.isFlush && f.length ≤ run.length && (Line.isEmpty (l.body.drop run.length))

/-- The line without the mark of a quote, if it has one. -/
def unquoted? (l : Line) : Option Line :=
  if l.isFlush then
    match l.body with
    | '>' :: rest =>
      match expandTabs (l.indent + 1) rest with
      | ' ' :: rest => some rest
      | rest => some rest
    | _ => none
  else none

/-- The mark of a list item. -/
structure Marker where
  /-- The bullet, or what stands behind the number. -/
  sign : Char
  number : Option Nat
  /-- The column of the item's text. -/
  width : Nat
  /-- What the line holds of the item. -/
  rest : Line

/-- The marker of a sign that stands at the front of some columns. -/
def markerWith (sign : Char) (number : Option Nat) (columns : Nat) (rest : Line) :
    Option Marker :=
  let rest := expandTabs columns rest
  if Line.isEmpty rest then some ⟨sign, number, columns + 1, []⟩
  else
    let spaces := Line.indent rest
    if spaces = 0 then none
    -- From five spaces on, all but the first belong to indented code.
    else if 5 ≤ spaces then some ⟨sign, number, columns + 1, rest.drop 1⟩
    else some ⟨sign, number, columns + spaces, rest.drop spaces⟩

/-- The mark of the list item that a line starts. -/
def marker? (l : Line) : Option Marker :=
  if !l.isFlush || l.isRule then none
  else
    match l.body with
    | [] => none
    | c :: rest =>
      if c == '-' || c == '+' || c == '*' then markerWith c none (l.indent + 1) rest
      else
        let digits := (c :: rest).takeWhile Char.isDigit
        match (c :: rest).drop digits.length with
        | sign :: rest =>
          if 1 ≤ digits.length && digits.length ≤ 9 && (sign == '.' || sign == ')') then
            let number := digits.foldl (fun n c => n * 10 + (c.toNat - '0'.toNat)) 0
            markerWith sign (some number) (l.indent + digits.length + 1) rest
          else none
        | [] => none

/-- Whether a line can start a list item in the middle of a paragraph. -/
def interruptsWithItem (l : Line) : Bool :=
  match l.marker? with
  | some m => !(Line.isEmpty m.rest) && (m.number == none || m.number == some 1)
  | none => false

/-- The names of tags that start a block. -/
def blockTags : List String :=
  ["address", "article", "aside", "base", "basefont", "blockquote", "body", "caption", "center",
    "col", "colgroup", "dd", "details", "dialog", "dir", "div", "dl", "dt", "fieldset",
    "figcaption", "figure", "footer", "form", "frame", "frameset", "h1", "h2", "h3", "h4", "h5",
    "h6", "head", "header", "hr", "html", "iframe", "legend", "li", "link", "main", "menu",
    "menuitem", "nav", "noframes", "ol", "optgroup", "option", "p", "param", "search", "section",
    "summary", "table", "tbody", "td", "tfoot", "th", "thead", "title", "tr", "track", "ul"]

/-- How a block of raw tags ends: behind a line with a word, or at a blank line. -/
inductive RawEnd where
  | word (word : String)
  | blank

/-- The name of the tag that a text starts with, in small letters, and the rest. -/
def namedTag (cs : List Char) : String × List Char :=
  let name := cs.takeWhile Char.isAlphanum
  (String.ofList (name.map Char.toLower), cs.drop name.length)

/-- Whether a name of a tag ends in front of a text. -/
def endsName : List Char → Bool
  | [] => true
  | c :: _ => c == '>' || isGap c

/-- The word that ends what a text behind an opening bracket starts: a comment, an instruction, a
declaration, or a tag whose content is no marked-up text. -/
def closingWord? (cs : List Char) : Option String :=
  let (name, rest) := namedTag cs
  if ["pre", "style", "script", "textarea"].contains name && endsName rest then
    some ("</" ++ name ++ ">")
  else if "!--".toList.isPrefixOf cs then some "-->"
  else if "?".toList.isPrefixOf cs then some "?>"
  else if "![CDATA[".toList.isPrefixOf cs then some "]]>"
  else
    match cs with
    | '!' :: c :: _ => if c.isUpper then some ">" else none
    | _ => none

/-- Whether a text behind an opening bracket starts a tag that makes a block. -/
def isBlockTag (cs : List Char) : Bool :=
  let (name, rest) := namedTag (if cs.head? == some '/' then cs.drop 1 else cs)
  blockTags.contains name && (endsName rest || "/>".toList.isPrefixOf rest)

/-- How the block of raw tags ends that a line starts. A line that holds one whole tag starts one,
too, but not in the middle of a paragraph. -/
def rawStart? (inParagraph : Bool) (l : Line) : Option RawEnd :=
  match l.isFlush, l.body with
  | true, '<' :: cs =>
    match closingWord? cs with
    | some word => some (.word word)
    | none =>
      if isBlockTag cs then some .blank
      else if inParagraph then none
      else
        match afterElement? cs with
        | some rest => if Line.isEmpty rest then some .blank else none
        | none => none
  | _, _ => none

/-- Whether a line ends the block of raw tags that it stands in. -/
def endsRaw (l : Line) : RawEnd → Bool
  | .word word => (splitAtWord word.toList l).isSome
  | .blank => false

/-- Whether a line starts a block even in the middle of a paragraph. -/
def interrupts (l : Line) : Bool :=
  l.isEmpty || l.isRule || l.heading?.isSome || l.fence?.isSome || l.unquoted?.isSome ||
    l.interruptsWithItem || (l.rawStart? true).isSome

end Line

end Klaxon.Markup
