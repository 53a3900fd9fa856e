import Klaxon.Markup.Table

/-!
# The blocks of a marked-up document

`Block.ofText` reads a document line by line: headings, paragraphs, rules, code, quotes, lists,
tables, raw tags and the definitions of labels. A quote or a list item is read by taking its marks
off its lines and reading what is left as a document of its own.

A paragraph goes on over the next line unless that line starts another block, also where the line
lacks the marks of the quote or the list item around it.

A document is a list of lines with line ends between them, so that a text with a line end at its end
has an empty last line. Code and raw tags keep their line ends and need no other.
-/

namespace Klaxon.Markup

/-- A block of a document. -/
inductive Block where
  | paragraph (text : List Char)
  | heading (level : Nat) (text : List Char)
  | rule
  | code (info text : List Char)
  /-- Tags, as they stand. -/
  | raw (text : List Char)
  | quote (content : List Block)
  /-- A list with the number of its first item, if it is numbered. -/
  | list (start : Option Nat) (loose : Bool) (items : List (List Block))
  | table (alignments : List Alignment) (header : List (List Char))
      (rows : List (List (List Char)))
  | definition (definition : Definition)

/-- The text of lines; `followed` tells whether the last one of them has a line end. -/
def textOf (lines : List Line) (followed : Bool) : List Char :=
  if followed then lines.flatMap (· ++ ['\n']) else List.intercalate ['\n'] lines

/-- The lines of a document that was taken out of another one, where `rest` follows. -/
def closeLines (lines rest : List Line) : List Line :=
  if rest.isEmpty then lines else lines ++ [[]]

/-! ## Paragraphs, code and raw tags -/

/-- The definitions at the front of an open paragraph, whose last line stands first, and its text
behind them. -/
def paragraphParts (lines : List Line) : List Definition × List Char :=
  let text := Line.trimmed (List.intercalate ['\n'] lines.reverse)
  takeDefinitions lines.length text

/-- The open paragraph as blocks; the last line stands first. -/
def closeParagraph (lines : List Line) : List Block :=
  let (definitions, text) := paragraphParts lines
  definitions.map .definition ++ if text.isEmpty then [] else [.paragraph text]

/-- The code between fences from its first line on, and the rest. -/
def takeFenced (f : Line.Fence) : List Line → List Line × Bool × List Line
  | [] => ([], false, [])
  | l :: rest =>
    if l.closes f then ([], true, rest)
    else
      let (code, closed, rest) := takeFenced f rest
      (l.dropBlanks f.indent 0 :: code, closed, rest)

/-- The lines of a block of raw tags, and the rest. -/
def takeRaw (stop : Line.RawEnd) : List Line → List Line × List Line
  | [] => ([], [])
  | l :: rest =>
    match stop, l.isEmpty with
    | .blank, true => ([], l :: rest)
    | _, _ =>
      if l.endsRaw stop then ([l], rest)
      else
        let (raw, rest) := takeRaw stop rest
        (l :: raw, rest)

/-- Gives the blank lines at the end of what was taken back. -/
def giveBack (taken rest : List Line) : List Line × List Line :=
  let blanks := (taken.reverse.takeWhile Line.isEmpty).length
  (taken.take (taken.length - blanks), List.replicate blanks [] ++ rest)

/-- The lines of indented code, and the rest. -/
def takeIndented (lines : List Line) : List Line × List Line :=
  let taken := lines.takeWhile fun l => l.isEmpty || 4 ≤ l.indent
  let (code, rest) := giveBack taken (lines.drop taken.length)
  (code.map (Line.dropBlanks 4 0), rest)

/-! ## Quotes and lists -/

/-- Whether a line can go on in a paragraph that ends with the line before, which stands in a quote
or an item that the line lacks the marks of. -/
def goesOn (before l : Line) : Bool :=
  !before.isEmpty && before.isFlush && !before.isRule && before.heading?.isNone &&
    before.fence?.isNone && l.marker?.isNone && !l.interrupts

/-- The lines of a quote without their marks, and the rest. -/
def takeQuoted (before : Line) : List Line → List Line × List Line
  | [] => ([], [])
  | l :: rest =>
    match l.unquoted? with
    | some inner =>
      let (quoted, rest) := takeQuoted inner rest
      (inner :: quoted, rest)
    | none =>
      if goesOn before l then
        let (quoted, rest) := takeQuoted l rest
        (l :: quoted, rest)
      else ([], l :: rest)

/-- The lines of a list item behind its first one, without their indent, and the rest. -/
def takeItem (width : Nat) (before : Line) : List Line → List Line × List Line
  | [] => ([], [])
  | l :: rest =>
    if l.isEmpty then
      let (item, rest) := takeItem width [] rest
      ([] :: item, rest)
    else if width ≤ l.indent then
      let inner := l.contentFrom width
      let (item, rest) := takeItem width inner rest
      (inner :: item, rest)
    else if goesOn before l then
      let (item, rest) := takeItem width l rest
      (l :: item, rest)
    else ([], l :: rest)

/-- The items of a list as lines, whether blank lines stand between them, and the rest. -/
def takeItems (sign : Char) (numbered : Bool) : Nat → List Line →
    List (List Line) × Bool × List Line
  | 0, lines => ([], false, lines)
  | _, [] => ([], false, [])
  | fuel + 1, l :: rest =>
    match l.marker? with
    | some m =>
      if m.sign == sign && m.number.isSome == numbered then
        -- An item that starts with a blank line has at most one.
        let (item, after) := match m.rest, rest with
          | [], next :: _ => if next.isEmpty then ([], rest) else takeItem m.width [] rest
          | _, _ => takeItem m.width m.rest rest
        let (item, after) := giveBack item after
        let lines := closeLines (m.rest :: item) after
        let following := after.dropWhile Line.isEmpty
        let (items, apart, remaining) := takeItems sign numbered fuel following
        -- Blank lines behind the last item do not set items apart.
        if items.isEmpty then ([lines], false, after)
        else (lines :: items, apart || following.length < after.length, remaining)
      else ([], false, l :: rest)
    | none => ([], false, l :: rest)

/-! ## Documents -/

/-- A block and whether a blank line stands before it. -/
abbrev Spaced := Block × Bool

/-- Reads the blocks of lines. `paragraph` is the open paragraph, its last line first, and `gap`
tells whether a blank line stands before what follows. -/
def readBlocks : Nat → List Line → Bool → List Line → List Spaced
  | 0, paragraph, gap, _ => (closeParagraph paragraph).map (·, gap)
  | _, paragraph, gap, [] => (closeParagraph paragraph).map (·, gap)
  | fuel + 1, paragraph, gap, l :: rest =>
    let done : List Spaced := (closeParagraph paragraph).map (·, gap)
    let gapHere := gap && paragraph.isEmpty
    let inParagraph := !paragraph.isEmpty
    if l.isEmpty then done ++ readBlocks fuel [] true rest
    else
      match if inParagraph then l.underline? else none with
      | some level =>
        let (definitions, text) := paragraphParts paragraph
        let above : List Spaced := definitions.map fun d => (.definition d, gap)
        -- Behind nothing but definitions the line is text.
        if text.isEmpty then above ++ readBlocks fuel [l.body] gap rest
        else above ++ (.heading level text, gap) :: readBlocks fuel [] false rest
      | none =>
        if l.isRule then done ++ (.rule, gapHere) :: readBlocks fuel [] false rest
        else
          match l.heading? with
          | some (level, text) =>
            done ++ (.heading level text, gapHere) :: readBlocks fuel [] false rest
          | none =>
            match l.fence? with
            | some f =>
              let (code, closed, rest) := takeFenced f rest
              done ++ (.code f.info (textOf code closed), gapHere) ::
                readBlocks fuel [] false rest
            | none =>
              match l.unquoted? with
              | some inner =>
                let (quoted, rest) := takeQuoted inner rest
                let content := readBlocks fuel [] false (closeLines (inner :: quoted) rest)
                done ++ (.quote (content.map (·.1)), gapHere) :: readBlocks fuel [] false rest
              | none =>
                match if inParagraph && !l.interruptsWithItem then none else l.marker? with
                | some m =>
                  let (items, apart, rest) :=
                    takeItems m.sign m.number.isSome (rest.length + 1) (l :: rest)
                  let contents := items.map fun item => readBlocks fuel [] false item
                  -- A blank line between two blocks of an item makes the list loose, too.
                  let loose := apart || contents.any fun c => (c.drop 1).any (·.2)
                  let items := contents.map fun c => c.map (·.1)
                  done ++ (.list m.number loose items, gapHere) :: readBlocks fuel [] false rest
                | none =>
                  match l.rawStart? inParagraph with
                  | some stop =>
                    let (raw, rest) := takeRaw stop (l :: rest)
                    done ++ (.raw (textOf raw !rest.isEmpty), gapHere) ::
                      readBlocks fuel [] false rest
                  | none =>
                    if inParagraph then readBlocks fuel (l.body :: paragraph) gap rest
                    else if 4 ≤ l.indent then
                      let (code, rest) := takeIndented (l :: rest)
                      (.code [] (textOf code !rest.isEmpty), gapHere) ::
                        readBlocks fuel [] false rest
                    else
                      match rest.head?.bind (alignments? l) with
                      | some as =>
                        let (rows, rest) := takeRows as.length (rest.drop 1)
                        (.table as (cellsOf l) rows, gapHere) :: readBlocks fuel [] false rest
                      | none => readBlocks fuel [l.body] gap rest

/-- Splits a text at its line ends. -/
def linesOf : List Char → List Line
  | [] => [[]]
  | '\r' :: '\n' :: cs => [] :: linesOf cs
  | c :: cs =>
    if c == '\n' || c == '\r' then [] :: linesOf cs
    else
      match linesOf cs with
      | [] => [[c]]
      | first :: rest => (c :: first) :: rest

/-- The blocks of a document. -/
def Block.ofText (text : List Char) : List Block :=
  let lines := linesOf text
  -- Taking marks off makes the lines shorter, but a tab in front of one can count as four spaces.
  let size := (lines.map fun l => 4 * l.length).foldl (· + ·) 0 + lines.length
  (readBlocks (size + 1) [] false lines).map (·.1)

mutual

/-- The definitions in a block. -/
def Block.definitions : Block → List Definition
  | .definition d => [d]
  | .quote content => Block.allDefinitions content
  | .list _ _ items => Block.itemDefinitions items
  | _ => []

/-- The definitions in blocks, the first one first. -/
def Block.allDefinitions : List Block → List Definition
  | [] => []
  | b :: rest => b.definitions ++ Block.allDefinitions rest

/-- The definitions in the items of a list, the first one first. -/
def Block.itemDefinitions : List (List Block) → List Definition
  | [] => []
  | item :: rest => Block.allDefinitions item ++ Block.itemDefinitions rest

end

end Klaxon.Markup
