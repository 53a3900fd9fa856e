import Klaxon.Markup.Block
import Klaxon.Markup.Inline

/-!
# Marked-up documents as HTML

`toHtml` writes a document as a fragment of HTML. A block starts on a line of its own; `Page` keeps
what is written so far and knows whether a line has been ended.
-/

namespace Klaxon.Markup

/-- How a character stands in text. -/
def escapeText (c : Char) : List Char :=
  if c == '&' then "&amp;".toList
  else if c == '<' then "&lt;".toList
  else if c == '>' then "&gt;".toList
  else [c]

/-- How a character stands in an attribute. -/
def escapeAttribute (c : Char) : List Char :=
  if c == '"' then "&quot;".toList else escapeText c

/-- Whether a character stands for itself in an address. -/
def isAddressChar (c : Char) : Bool :=
  c.isAlphanum || "!#$%()*+,-./:;=?@_~".toList.contains c

/-- How a character stands in an address. -/
def escapeAddress (c : Char) : List Char :=
  if isAddressChar c then [c]
  else if c == '&' then "&amp;".toList
  else if c == '\x27' then "&#x27;".toList
  else
    (String.singleton c).toUTF8.toList.flatMap fun b =>
      ['%', (Nat.digitChar (b.toNat / 16)).toUpper, (Nat.digitChar (b.toNat % 16)).toUpper]

mutual

/-- The text of an inline without its marks. -/
def plainInline : Inline → List Char
  | .text cs | .code cs => cs
  | .tag _ => []
  | .softBreak | .hardBreak => ['\n']
  | .emphasis content | .strong content | .struck content => plainInlines content
  | .link _ content | .image _ content => plainInlines content

/-- The text of inlines without their marks. -/
def plainInlines : List Inline → List Char
  | [] => []
  | i :: rest => plainInline i ++ plainInlines rest

end

/-- The title of a link as an attribute. -/
def titleAttribute (title : List Char) : List Char :=
  if title.isEmpty then [] else " title=\"".toList ++ title.flatMap escapeAttribute ++ ['"']

mutual

/-- An inline as HTML. -/
def htmlInline : Inline → List Char
  | .text cs => cs.flatMap escapeText
  | .code cs => "<code>".toList ++ cs.flatMap escapeText ++ "</code>".toList
  | .tag cs => cs
  | .softBreak => ['\n']
  | .hardBreak => "<br />\n".toList
  | .emphasis content => "<em>".toList ++ htmlInlines content ++ "</em>".toList
  | .strong content => "<strong>".toList ++ htmlInlines content ++ "</strong>".toList
  | .struck content => "<del>".toList ++ htmlInlines content ++ "</del>".toList
  | .link target content =>
    "<a href=\"".toList ++ target.url.flatMap escapeAddress ++ ['"'] ++
      titleAttribute target.title ++ ['>'] ++ htmlInlines content ++ "</a>".toList
  | .image target content =>
    "<img src=\"".toList ++ target.url.flatMap escapeAddress ++ "\" alt=\"".toList ++
      (plainInlines content).flatMap escapeAttribute ++ ['"'] ++ titleAttribute target.title ++
      " />".toList

/-- Inlines as HTML. -/
def htmlInlines : List Inline → List Char
  | [] => []
  | i :: rest => htmlInline i ++ htmlInlines rest

end

/-- The text of a paragraph as HTML. -/
def htmlText (definitions : List Definition) (cs : List Char) : List Char :=
  htmlInlines (Inline.ofText definitions cs)

/-- What is written so far. -/
abbrev Page := String

namespace Page

/-- Writes characters. -/
def add (p : Page) (cs : List Char) : Page := p ++ String.ofList cs

/-- Ends the line, unless nothing has been written on it. -/
def freshLine (p : Page) : Page := if p.isEmpty || p.endsWith "\n" then p else p ++ "\n"

end Page

/-- The attribute of a cell. -/
def Alignment.attribute : Alignment → String
  | .none => ""
  | .left => " style=\"text-align: left\""
  | .center => " style=\"text-align: center\""
  | .right => " style=\"text-align: right\""

/-- The cells of a row. -/
def htmlCells (definitions : List Definition) (tag : String) (alignments : List Alignment)
    (cells : List (List Char)) : List Char :=
  (alignments.zip cells).flatMap fun (a, cell) =>
    ("<" ++ tag ++ a.attribute ++ ">").toList ++ htmlText definitions cell ++
      ("</" ++ tag ++ ">").toList

/-- A table as HTML. -/
def htmlTable (definitions : List Definition) (alignments : List Alignment)
    (header : List (List Char)) (rows : List (List (List Char))) : List Char :=
  "<table><thead><tr>".toList ++ htmlCells definitions "th" alignments header ++
    "</tr></thead><tbody>\n".toList ++
    (rows.flatMap fun cells =>
      "<tr>".toList ++ htmlCells definitions "td" alignments cells ++ "</tr>\n".toList) ++
    "</tbody></table>\n".toList

/-- The language that the first word behind a fence names. -/
def languageOf (info : List Char) : List Char := info.takeWhile fun c => !isGap c

/-- Code as HTML. -/
def htmlCode (info text : List Char) : List Char :=
  let language := languageOf info
  let start :=
    if language.isEmpty then "<pre><code>".toList
    else "<pre><code class=\"language-".toList ++ language.flatMap escapeAttribute ++ "\">".toList
  start ++ text.flatMap escapeText ++ "</code></pre>\n".toList

/-- The tag that starts a list. -/
def listStart : Option Nat → List Char
  | none => "<ul>\n".toList
  | some 1 => "<ol>\n".toList
  | some n => "<ol start=\"".toList ++ Nat.toDigits 10 n ++ "\">\n".toList

/-- The tag that ends a list. -/
def listEnd : Option Nat → List Char
  | none => "</ul>\n".toList
  | some _ => "</ol>\n".toList

mutual

/-- Writes a block. In a list that is not loose, paragraphs are nothing but their text. -/
def writeBlock (definitions : List Definition) (loose : Bool) (p : Page) : Block → Page
  | .paragraph text =>
    if loose then
      p.freshLine.add ("<p>".toList ++ htmlText definitions text ++ "</p>\n".toList)
    else p.add (htmlText definitions text)
  | .heading level text =>
    let tag := 'h' :: Nat.toDigits 10 level
    p.freshLine.add
      ('<' :: tag ++ '>' :: htmlText definitions text ++ '<' :: '/' :: tag ++ ['>', '\n'])
  | .rule => p.freshLine.add "<hr />\n".toList
  | .code info text => p.freshLine.add (htmlCode info text)
  | .raw text => p.add text
  | .quote content =>
    (writeBlocks definitions true (p.freshLine.add "<blockquote>\n".toList) content).add
      "</blockquote>\n".toList
  | .list start loose items =>
    (writeItems definitions loose (p.freshLine.add (listStart start)) items).add (listEnd start)
  | .table alignments header rows => p.add (htmlTable definitions alignments header rows)
  | .definition _ => p

/-- Writes blocks one after the other. -/
def writeBlocks (definitions : List Definition) (loose : Bool) (p : Page) : List Block → Page
  | [] => p
  | b :: rest => writeBlocks definitions loose (writeBlock definitions loose p b) rest

/-- Writes the items of a list. -/
def writeItems (definitions : List Definition) (loose : Bool) (p : Page) :
    List (List Block) → Page
  | [] => p
  | item :: rest =>
    let start := p.freshLine.add "<li>".toList
    writeItems definitions loose
      ((writeBlocks definitions loose start item).add "</li>\n".toList) rest

end

/-- A document as a fragment of HTML. -/
def toHtml (text : String) : String :=
  let blocks := Block.ofText text.toList
  -- A label may be used before its definition.
  writeBlocks (Block.allDefinitions blocks) true "" blocks

end Klaxon.Markup
