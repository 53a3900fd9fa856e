/-!
# Tags in marked-up text

Tags, comments and declarations go into the document as they stand. The functions of this module
find where one ends: each gives what is behind it, or nothing where the text is not well formed and
its first bracket is text.
-/

namespace Klaxon.Markup

/-- Splits a text at the first place where a word stands. -/
def splitAtWord (word : List Char) : List Char → Option (List Char × List Char)
  | [] => if word.isEmpty then some ([], []) else none
  | c :: cs =>
    if word.isPrefixOf (c :: cs) then some ([], (c :: cs).drop word.length)
    else (splitAtWord word cs).map fun (a, b) => (c :: a, b)

/-- Whether a character separates the parts of a tag. -/
def isGap (c : Char) : Bool := c == ' ' || c == '\t' || c == '\n' || c == '\r' || c == '\x0c'

/-- A name of a tag at the front of a text, and the rest. -/
def tagName? : List Char → Option (List Char × List Char)
  | c :: cs =>
    if c.isAlpha then
      let more := cs.takeWhile fun c => c.isAlphanum || c == '-'
      some (c :: more, cs.drop more.length)
    else none
  | [] => none

/-- What is behind the value of an attribute. -/
def afterValue? : List Char → Option (List Char)
  | '"' :: cs => (splitAtWord ['"'] cs).map (·.2)
  | '\x27' :: cs => (splitAtWord ['\x27'] cs).map (·.2)
  | cs =>
    let value := cs.takeWhile fun c =>
      !isGap c && c != '"' && c != '\x27' && c != '=' && c != '<' && c != '>' && c != '\x60'
    if value.isEmpty then none else some (cs.drop value.length)

/-- What is behind an attribute. -/
def afterAttribute? : List Char → Option (List Char)
  | c :: cs =>
    if c.isAlpha || c == '_' || c == ':' then
      let rest := cs.dropWhile fun c => c.isAlphanum || c == '_' || c == '.' || c == ':' || c == '-'
      match rest.dropWhile isGap with
      | '=' :: value => afterValue? (value.dropWhile isGap)
      | _ => some rest
    else none
  | [] => none

/-- What is behind the attributes and the end of an opening tag. -/
def afterAttributes? : Nat → List Char → Option (List Char)
  | 0, _ => none
  | fuel + 1, cs =>
    let rest := cs.dropWhile isGap
    match rest with
    | '>' :: rest => some rest
    | '/' :: '>' :: rest => some rest
    | _ =>
      if rest.length < cs.length then (afterAttribute? rest).bind (afterAttributes? fuel) else none

/-- What is behind an opening or closing tag whose first bracket is read. -/
def afterElement? : List Char → Option (List Char)
  | '/' :: cs =>
    (tagName? cs).bind fun (_, rest) => match rest.dropWhile isGap with
      | '>' :: rest => some rest
      | _ => none
  | cs => (tagName? cs).bind fun (_, rest) => afterAttributes? (cs.length + 1) rest

/-- What is behind a tag, a comment or a declaration whose first bracket is read. -/
def afterTag? : List Char → Option (List Char)
  | '!' :: '-' :: '-' :: '>' :: rest => some rest
  | '!' :: '-' :: '-' :: '-' :: '>' :: rest => some rest
  | '!' :: '-' :: '-' :: cs => (splitAtWord "-->".toList cs).map (·.2)
  | '?' :: cs => (splitAtWord "?>".toList cs).map (·.2)
  | '!' :: '[' :: 'C' :: 'D' :: 'A' :: 'T' :: 'A' :: '[' :: cs =>
    (splitAtWord "]]>".toList cs).map (·.2)
  | '!' :: c :: cs => if c.isAlpha then (splitAtWord ['>'] cs).map (·.2) else none
  | cs => afterElement? cs

end Klaxon.Markup
