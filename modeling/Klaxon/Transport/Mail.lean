import Klaxon.Dispatch.Delivery
import Klaxon.Markup.Html
import Klaxon.Text.Blank

/-!
# Mail

A mailbox is an address with an optional name before it, as in `Night Shift <night@example.com>`.
`Mailbox.ofText?` reads one and refuses addresses that mail cannot be sent to. `Mail.compose` makes
the mail of a delivery: markdown goes out as HTML.
-/

namespace Klaxon

/-- Where mail comes from or goes to. -/
structure Mailbox where
  name : Option String
  user : String
  domain : String
  deriving DecidableEq

namespace Mailbox

/-- Whether a character can stand in a word of an address. -/
def isAtomChar (c : Char) : Bool :=
  c.isAlphanum || "!#$%&'*+-/=?^_`\x7b|\x7d~".toList.contains c || 0x80 ≤ c.toNat

/-- Whether a character is a space or a tab. -/
def isSpace (c : Char) : Bool := c == ' ' || c == '\t'

/-- Splits a text in quotes, whose first quote is read, into its content and the rest. -/
def quotedContent? : List Char → Option (List Char × List Char)
  | [] => none
  | '\\' :: c :: cs => (quotedContent? cs).map fun (a, b) => (c :: a, b)
  | c :: cs =>
    if c == '"' then some ([], cs)
    else if c.toNat < 0x20 && c != '\t' then none
    else (quotedContent? cs).map fun (a, b) => (c :: a, b)

/-- Whether words are separated by single dots. -/
def isDotAtom (cs : List Char) : Bool :=
  !cs.isEmpty && cs.head? != some '.' && cs.getLast? != some '.' &&
    cs.all (fun c => c == '.' || isAtomChar c) &&
    (cs.zip (cs.drop 1)).all fun (a, b) => !(a == '.' && b == '.')

/-- The labels of a domain. -/
def labels : List Char → List (List Char)
  | [] => [[]]
  | c :: cs =>
    if c == '.' then [] :: labels cs
    else
      match labels cs with
      | [] => [[c]]
      | first :: rest => (c :: first) :: rest

/-- Whether a character can stand at an end of a label. -/
def isLabelEnd (c : Char) : Bool := c.isAlphanum || 0x80 ≤ c.toNat

/-- Whether a text is a domain. -/
def isDomain (cs : List Char) : Bool :=
  cs.length ≤ 254 && (labels cs).all fun label =>
    label.length ≤ 63 && label.all isAtomChar && (label.head?.any isLabelEnd) &&
      (label.getLast?.any isLabelEnd)

/-- Whether a text is the part of an address before the at sign. -/
def isUser (cs : List Char) : Bool := isDotAtom cs && cs.length ≤ 64

/-- The address at the front of a text, and the rest. -/
def readAddress (cs : List Char) : Option (List Char × List Char × List Char) := do
  -- A user in quotes may hold any character while it is read, and is checked like the others below.
  let (user, rest) ← match cs with
    | '"' :: inner => quotedContent? inner
    | cs =>
      let user := cs.takeWhile fun c => c == '.' || isAtomChar c
      some (user, cs.drop user.length)
  let rest ← match rest with
    | '@' :: rest => some rest
    | _ => none
  let domain := rest.takeWhile fun c => c == '.' || isAtomChar c
  if isUser user && isDomain domain then some (user, domain, rest.drop domain.length) else none

/-- The name in front of an address in pointed brackets, and the rest. `begun` tells whether a word
was read. -/
def readName : Nat → Bool → List Char → Option (List Char × List Char)
  | 0, _, _ => none
  | _, _, [] => none
  | fuel + 1, _, '"' :: cs =>
    (quotedContent? cs).bind fun (word, rest) =>
      (readName fuel true rest).map fun (name, rest) => (word ++ name, rest)
  | fuel + 1, begun, c :: cs =>
    if c == '<' then some ([], cs)
    else if isAtomChar c then (readName fuel true cs).map fun (name, rest) => (c :: name, rest)
    else if isSpace c || (c == '.' && begun) then
      (readName fuel begun cs).map fun (name, rest) => (c :: name, rest)
    else none

/-- A mailbox with a name or pointed brackets. -/
def readNamed (cs : List Char) : Option Mailbox := do
  let (name, rest) ← readName (cs.length + 1) false cs
  let (user, domain, rest) ← readAddress rest
  let name := Text.trimChars name
  match rest with
  | ['>'] =>
    some ⟨if name.isEmpty then none else some (String.ofList name), String.ofList user,
      String.ofList domain⟩
  | _ => none

/-- A mailbox that is nothing but an address. -/
def readBare (cs : List Char) : Option Mailbox := do
  let (user, domain, rest) ← readAddress cs
  if rest.isEmpty then some ⟨none, String.ofList user, String.ofList domain⟩ else none

/-- The mailbox that a text writes. -/
def ofText? (text : String) : Option Mailbox :=
  let cs := Text.trimChars text.toList
  readNamed cs <|> readBare cs

/-- The address of a mailbox. -/
def address (m : Mailbox) : String := m.user ++ "@" ++ m.domain

/-- A name as it stands in front of an address: in quotes if it is more than words. -/
def nameText (name : String) : String :=
  if name.toList.all fun c => isSpace c || isAtomChar c then name
  else
    let inner := name.toList.flatMap fun c => if c == '"' || c == '\\' then ['\\', c] else [c]
    String.ofList ('"' :: inner ++ ['"'])

/-- A mailbox as text. -/
def text (m : Mailbox) : String :=
  match m.name with
  | some name => nameText name ++ " <" ++ m.address ++ ">"
  | none => m.address

end Mailbox

/-- One mail. -/
structure Mail where
  sender : Mailbox
  recipient : Mailbox
  subject : String
  contentType : String
  body : String

namespace Mail

/-- The content type and body of a delivery. -/
def content (d : Delivery) : String × String :=
  match d.format with
  | .text => ("text/plain; charset=utf-8", d.body)
  | .html => ("text/html; charset=utf-8", d.body)
  | .markdown => ("text/html; charset=utf-8", Markup.toHtml d.body)

/-- The mail of a delivery. -/
def compose (sender : Mailbox) (d : Delivery) : Except DispatchError Mail :=
  match Mailbox.ofText? d.address with
  | none => .error (.rejected ("invalid recipient address '" ++ d.address ++ "'"))
  | some recipient =>
    let (contentType, body) := content d
    .ok ⟨sender, recipient, d.subject, contentType, body⟩

/-- How a relay answered. -/
inductive Answer where
  /-- The relay took the mail, with a code and the first line of its text. -/
  | accepted (code : UInt16) (line : Option String)
  /-- The relay will never take the mail. -/
  | refused (reason : String)
  /-- The relay did not take the mail, or was not there. -/
  | failed (reason : String)

/-- The outcome that an answer of a relay stands for. -/
def Answer.outcome : Answer → Except DispatchError Receipt
  | .accepted code line => .ok ⟨some code, line⟩
  | .refused reason => .error (.rejected ("smtp: " ++ reason))
  | .failed reason => .error (.smtp reason)

end Mail

end Klaxon
