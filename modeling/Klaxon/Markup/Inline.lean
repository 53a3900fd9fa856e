import Klaxon.Markup.Link
import Klaxon.Text.Punctuation

/-!
# Marked-up text within a paragraph

`Inline.ofText` reads the text of a paragraph: emphasis between stars or underscores, struck text
between tildes, code between backquotes, links, images, tags, entities and line breaks.

It goes over the characters once and keeps what it has read as pieces, the last one first. A run of
stars, underscores or tildes stays a piece until the runs around a text are paired, and an opening
bracket until the bracket that closes it is found.
-/

namespace Klaxon.Markup

/-- A part of the text of a paragraph. -/
inductive Inline where
  | text (cs : List Char)
  | code (cs : List Char)
  /-- A tag, as it stands. -/
  | tag (cs : List Char)
  | softBreak
  | hardBreak
  | emphasis (content : List Inline)
  | strong (content : List Inline)
  | struck (content : List Inline)
  | link (target : Target) (content : List Inline)
  | image (target : Target) (content : List Inline)

/-- Something read before it is known what it belongs to. -/
inductive Piece where
  | done (node : Inline)
  /-- A run of one mark: how many are left, whether it can open and close, and how many there
  were. -/
  | run (mark : Char) (count : Nat) (opens closes : Bool) (original : Nat)
  /-- An opening bracket and the text behind it; a link cannot start at one that is not active. -/
  | bracket (image active : Bool) (behind : List Char)

/-- Whether a text may begin with a run of marks: a word begins behind it. -/
def beginsWord (before after : Option Char) : Bool :=
  match after with
  | none => false
  | some a =>
    !Text.isBlank a && (!Text.isPunctuation a ||
      match before with
      | none => true
      | some b => Text.isBlank b || Text.isPunctuation b)

/-- The run of a mark between two characters. -/
def runPiece (mark : Char) (count : Nat) (before after : Option Char) : Piece :=
  let left := beginsWord before after
  let right := beginsWord after before
  let punctuated (c : Option Char) : Bool := match c with
    | none => false
    | some c => Text.isPunctuation c
  -- Underscores and single tildes do not count inside a word; two tildes open before any text.
  if mark == '_' || (mark == '~' && count == 1) then
    .run mark count (left && (!right || punctuated before)) (right && (!left || punctuated after))
      count
  else if mark == '~' then .run mark count (after.any fun a => !Text.isBlank a) right count
  else .run mark count left right count

/-! ## Pairing the runs of marks -/

/-- What stands between two marks. -/
def wrap (mark : Char) (count : Nat) (content : List Inline) : Inline :=
  if mark == '~' then .struck content
  else if count = 2 then .strong content
  else .emphasis content

/-- A piece that turned out to be nothing but text. -/
def Piece.plain : Piece → Inline
  | .done node => node
  | .run mark count .. => .text (List.replicate count mark)
  | .bracket image _ _ => .text (if image then ['!', '['] else ['['])

/-- Whether a run that opens and one that closes belong together. -/
def fits (mark : Char) (count original : Nat) (closerOpens : Bool) : Piece → Bool
  | .run m n opens closes o =>
    -- Where one of them could serve both sides, lengths that add up to a multiple of three must be
    -- multiples of three themselves.
    m == mark && opens &&
      (if mark == '~' then n == count && n ≤ 2
        else !((closes || closerOpens) && (o + original) % 3 == 0 &&
          !(o % 3 == 0 && original % 3 == 0)))
  | _ => false

/-- Splits the pieces read so far at the last one with a property. -/
def splitAtLast (p : Piece → Bool) : List Piece → Option (List Piece × Piece × List Piece)
  | [] => none
  | x :: rest =>
    if p x then some ([], x, rest)
    else (splitAtLast p rest).map fun (inner, y, outer) => (x :: inner, y, outer)

/-- A run with some of its marks used up, as a list that is empty when none are left. -/
def lessen (used : Nat) : Piece → List Piece
  | .run mark count opens closes original =>
    if used < count then [.run mark (count - used) opens closes original] else []
  | p => [p]

/-- The number of marks in a piece, one for a piece without. -/
def weight : Piece → Nat
  | .run _ count .. => count + 1
  | _ => 1

/-- Pairs runs: `left` holds the pieces done, the last one first, and `right` the others. -/
def pair : Nat → List Piece → List Piece → List Inline
  | 0, left, right => (left.reverse ++ right).map Piece.plain
  | _, left, [] => left.reverse.map Piece.plain
  | fuel + 1, left, .run mark count opens closes original :: rest =>
    let run : Piece := .run mark count opens closes original
    match if closes then splitAtLast (fits mark count original opens) left else none with
    | some (inner, opener, outer) =>
      -- Two marks are strong, one is emphasis; what lies between is done and loses its other runs.
      let used := if mark == '~' then count else if 2 ≤ count && 3 ≤ weight opener then 2 else 1
      let node := wrap mark used (inner.reverse.map Piece.plain)
      pair fuel (.done node :: lessen used opener ++ outer) (lessen used run ++ rest)
    -- A run that closes nothing may still open something, or it is text.
    | none => pair fuel ((if opens then run else .done run.plain) :: left) rest
  | fuel + 1, left, p :: rest => pair fuel (p :: left) rest

/-- Pairs the runs among pieces that are given last one first. -/
def resolve (pieces : List Piece) : List Inline :=
  pair (2 * (pieces.map weight).foldl (· + ·) 0 + 1) [] pieces.reverse

/-! ## Code -/

/-- Splits a text at the first run of exactly `count` backquotes. -/
def splitAtQuotes (count : Nat) : Nat → List Char → Option (List Char × List Char)
  | 0, _ => none
  | _, [] => none
  | fuel + 1, '\x60' :: cs =>
    let run := ('\x60' :: cs).takeWhile (· == '\x60')
    let rest := ('\x60' :: cs).drop run.length
    if run.length = count then some ([], rest)
    else (splitAtQuotes count fuel rest).map fun (a, b) => (run ++ a, b)
  | fuel + 1, c :: cs => (splitAtQuotes count fuel cs).map fun (a, b) => (c :: a, b)

/-- The text of code: line ends are spaces, and one space at both ends is dropped. -/
def codeText (cs : List Char) : List Char :=
  let flat := cs.map fun c => if c == '\n' then ' ' else c
  match flat, flat.getLast? with
  | ' ' :: rest, some ' ' => if flat.all (· == ' ') then flat else rest.dropLast
  | _, _ => flat

/-! ## Brackets -/

/-- No link can start at the brackets read so far. -/
def deactivate (pieces : List Piece) : List Piece :=
  pieces.map fun
    | .bracket false _ behind => .bracket false false behind
    | p => p

/-- Whether a piece is an opening bracket. -/
def isBracket : Piece → Bool
  | .bracket .. => true
  | _ => false

/-- The target of a link whose text is `content` and stands in front of `cs`, and the rest behind
the link. -/
def targetOf? (definitions : List Definition) (content cs : List Char) :
    Option (Target × List Char) :=
  match target? cs with
  | some found => some found
  | none =>
    let (label, rest) := match cs with
      | '[' :: ']' :: rest => ((label? (content ++ [']'])), rest)
      | '[' :: more =>
        -- A label behind the text is the one that counts, whether it is defined or not.
        match label? more with
        | some (label, rest) => (some (label, []), rest)
        | none => (label? (content ++ [']']), cs)
      | _ => (label? (content ++ [']']), cs)
    match label with
    | some (label, []) => (resolveLabel definitions label).map fun target => (target, rest)
    | _ => none

/-- Closes the last open bracket in front of a text: the pieces that follow, and the rest. -/
def closeBracket (definitions : List Definition) (pieces : List Piece) (cs : List Char) :
    List Piece × List Char :=
  let literal : Piece := .done (.text [']'])
  match splitAtLast isBracket pieces with
  | some (inner, .bracket image active behind, outer) =>
    let content := behind.take (behind.length - (cs.length + 1))
    match if active then targetOf? definitions content cs else none with
    | some (target, rest) =>
      let node := resolve inner
      -- There are no links in a link, but there may be some in an image.
      if image then (.done (.image target node) :: outer, rest)
      else (.done (.link target node) :: deactivate outer, rest)
    | none =>
      (literal :: inner ++ .done (Piece.bracket image active behind).plain :: outer, cs)
  | _ => (literal :: pieces, cs)

/-! ## The scan -/

/-- Whether a piece is a space or a tab. -/
def isSpacePiece : Piece → Bool
  | .done (.text [' ']) | .done (.text ['\t']) => true
  | _ => false

/-- Reads the pieces of a text; `pieces` holds those read, the last one first, and `before` is the
character in front of the text. -/
def scan (definitions : List Definition) :
    Nat → Option Char → List Char → List Piece → List Piece
  | 0, _, cs, pieces => .done (.text cs) :: pieces
  | _, _, [], pieces => pieces
  | fuel + 1, before, c :: cs, pieces =>
    let goOn := scan definitions fuel
    let literal : List Piece := .done (.text [c]) :: pieces
    if c == '\\' then
      match cs with
      | '\n' :: rest =>
        goOn (some '\n') (rest.dropWhile (· == ' ')) (.done .hardBreak :: pieces)
      | d :: rest =>
        if Text.isAsciiPunctuation d then goOn (some d) rest (.done (.text [d]) :: pieces)
        else goOn (some c) cs literal
      | [] => literal
    else if c == '\x60' then
      let run := (c :: cs).takeWhile (· == '\x60')
      let rest := (c :: cs).drop run.length
      -- A run without another one of its length is text as a whole.
      match splitAtQuotes run.length rest.length rest with
      | some (code, rest) => goOn (some '\x60') rest (.done (.code (codeText code)) :: pieces)
      | none => goOn (some '\x60') rest (.done (.text run) :: pieces)
    else if c == '<' then
      match autolink? cs with
      | some (url, text, rest) =>
        goOn (some '>') rest (.done (.link ⟨url, []⟩ [.text text]) :: pieces)
      | none =>
        match afterTag? cs with
        | some rest =>
          let tag := (c :: cs).take (cs.length + 1 - rest.length)
          goOn (some '>') rest (.done (.tag tag) :: pieces)
        | none => goOn (some c) cs literal
    else if c == '&' then
      match entity? cs with
      | some (meaning, rest) => goOn (some ';') rest (.done (.text [meaning]) :: pieces)
      | none => goOn (some c) cs literal
    else if c == '[' then goOn (some c) cs (.bracket false true cs :: pieces)
    else if c == '!' then
      match cs with
      | '[' :: rest => goOn (some '[') rest (.bracket true true rest :: pieces)
      | _ => goOn (some c) cs literal
    else if c == ']' then
      let (pieces, rest) := closeBracket definitions pieces cs
      goOn (some c) rest pieces
    else if c == '*' || c == '_' || c == '~' then
      let run := (c :: cs).takeWhile (· == c)
      let rest := (c :: cs).drop run.length
      goOn (some c) rest (runPiece c run.length before rest.head? :: pieces)
    else if c == '\n' then
      -- Two blanks at the end of a line break it; fewer are dropped.
      let spaces := (pieces.takeWhile isSpacePiece).length
      let node : Inline := if 2 ≤ spaces then .hardBreak else .softBreak
      goOn (some c) (cs.dropWhile (· == ' ')) (.done node :: pieces.drop spaces)
    else goOn (some c) cs literal

/-- The parts of the text of a paragraph. -/
def Inline.ofText (definitions : List Definition) (cs : List Char) : List Inline :=
  resolve (scan definitions (cs.length + 1) none cs [])

end Klaxon.Markup
