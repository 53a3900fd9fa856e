import Klaxon.Text.Punctuation

/-!
# Entities and backslashes

Two ways to write a character for itself in marked-up text: an entity such as `&amp;` or `&#65;`,
and a backslash before ASCII punctuation. `unescape` replaces both, as addresses and titles of links
have them; the text of a paragraph treats them as it is scanned.
-/

namespace Klaxon.Markup

/-- The names of the characters from U+00A0 to U+00FF in their order. -/
def latinNames : List String :=
  ["nbsp", "iexcl", "cent", "pound", "curren", "yen", "brvbar", "sect", "uml", "copy", "ordf",
    "laquo", "not", "shy", "reg", "macr", "deg", "plusmn", "sup2", "sup3", "acute", "micro",
    "para", "middot", "cedil", "sup1", "ordm", "raquo", "frac14", "frac12", "frac34", "iquest",
    "Agrave", "Aacute", "Acirc", "Atilde", "Auml", "Aring", "AElig", "Ccedil", "Egrave", "Eacute",
    "Ecirc", "Euml", "Igrave", "Iacute", "Icirc", "Iuml", "ETH", "Ntilde", "Ograve", "Oacute",
    "Ocirc", "Otilde", "Ouml", "times", "Oslash", "Ugrave", "Uacute", "Ucirc", "Uuml", "Yacute",
    "THORN", "szlig", "agrave", "aacute", "acirc", "atilde", "auml", "aring", "aelig", "ccedil",
    "egrave", "eacute", "ecirc", "euml", "igrave", "iacute", "icirc", "iuml", "eth", "ntilde",
    "ograve", "oacute", "ocirc", "otilde", "ouml", "divide", "oslash", "ugrave", "uacute",
    "ucirc", "uuml", "yacute", "thorn", "yuml"]

/-- The names of further characters. -/
def otherNames : List (String × Nat) :=
  [("quot", 0x22), ("amp", 0x26), ("apos", 0x27), ("lt", 0x3C), ("gt", 0x3E), ("OElig", 0x152),
    ("oelig", 0x153), ("Scaron", 0x160), ("scaron", 0x161), ("Yuml", 0x178), ("fnof", 0x192),
    ("circ", 0x2C6), ("tilde", 0x2DC), ("Alpha", 0x391), ("Beta", 0x392), ("Gamma", 0x393),
    ("Delta", 0x394), ("Epsilon", 0x395), ("Zeta", 0x396), ("Eta", 0x397), ("Theta", 0x398),
    ("Iota", 0x399), ("Kappa", 0x39A), ("Lambda", 0x39B), ("Mu", 0x39C), ("Nu", 0x39D),
    ("Xi", 0x39E), ("Omicron", 0x39F), ("Pi", 0x3A0), ("Rho", 0x3A1), ("Sigma", 0x3A3),
    ("Tau", 0x3A4), ("Upsilon", 0x3A5), ("Phi", 0x3A6), ("Chi", 0x3A7), ("Psi", 0x3A8),
    ("Omega", 0x3A9), ("alpha", 0x3B1), ("beta", 0x3B2), ("gamma", 0x3B3), ("delta", 0x3B4),
    ("epsilon", 0x3B5), ("zeta", 0x3B6), ("eta", 0x3B7), ("theta", 0x3B8), ("iota", 0x3B9),
    ("kappa", 0x3BA), ("lambda", 0x3BB), ("mu", 0x3BC), ("nu", 0x3BD), ("xi", 0x3BE),
    ("omicron", 0x3BF), ("pi", 0x3C0), ("rho", 0x3C1), ("sigmaf", 0x3C2), ("sigma", 0x3C3),
    ("tau", 0x3C4), ("upsilon", 0x3C5), ("phi", 0x3C6), ("chi", 0x3C7), ("psi", 0x3C8),
    ("omega", 0x3C9), ("thetasym", 0x3D1), ("upsih", 0x3D2), ("piv", 0x3D6), ("ensp", 0x2002),
    ("emsp", 0x2003), ("thinsp", 0x2009), ("zwnj", 0x200C), ("zwj", 0x200D), ("lrm", 0x200E),
    ("rlm", 0x200F), ("ndash", 0x2013), ("mdash", 0x2014), ("lsquo", 0x2018), ("rsquo", 0x2019),
    ("sbquo", 0x201A), ("ldquo", 0x201C), ("rdquo", 0x201D), ("bdquo", 0x201E),
    ("dagger", 0x2020), ("Dagger", 0x2021), ("bull", 0x2022), ("hellip", 0x2026),
    ("permil", 0x2030), ("prime", 0x2032), ("Prime", 0x2033), ("lsaquo", 0x2039),
    ("rsaquo", 0x203A), ("oline", 0x203E), ("frasl", 0x2044), ("euro", 0x20AC), ("image", 0x2111),
    ("weierp", 0x2118), ("real", 0x211C), ("trade", 0x2122), ("alefsym", 0x2135),
    ("larr", 0x2190), ("uarr", 0x2191), ("rarr", 0x2192), ("darr", 0x2193), ("harr", 0x2194),
    ("crarr", 0x21B5), ("lArr", 0x21D0), ("uArr", 0x21D1), ("rArr", 0x21D2), ("dArr", 0x21D3),
    ("hArr", 0x21D4), ("forall", 0x2200), ("part", 0x2202), ("exist", 0x2203), ("empty", 0x2205),
    ("nabla", 0x2207), ("isin", 0x2208), ("notin", 0x2209), ("ni", 0x220B), ("prod", 0x220F),
    ("sum", 0x2211), ("minus", 0x2212), ("lowast", 0x2217), ("radic", 0x221A), ("prop", 0x221D),
    ("infin", 0x221E), ("ang", 0x2220), ("and", 0x2227), ("or", 0x2228), ("cap", 0x2229),
    ("cup", 0x222A), ("int", 0x222B), ("there4", 0x2234), ("sim", 0x223C), ("cong", 0x2245),
    ("asymp", 0x2248), ("ne", 0x2260), ("equiv", 0x2261), ("le", 0x2264), ("ge", 0x2265),
    ("sub", 0x2282), ("sup", 0x2283), ("nsub", 0x2284), ("sube", 0x2286), ("supe", 0x2287),
    ("oplus", 0x2295), ("otimes", 0x2297), ("perp", 0x22A5), ("sdot", 0x22C5), ("lceil", 0x2308),
    ("rceil", 0x2309), ("lfloor", 0x230A), ("rfloor", 0x230B), ("loz", 0x25CA),
    ("spades", 0x2660), ("clubs", 0x2663), ("hearts", 0x2665), ("diams", 0x2666),
    ("lang", 0x27E8), ("rang", 0x27E9)]

/-- The character of a name. -/
def named? (name : String) : Option Char :=
  match latinNames.idxOf? name with
  | some i => some (Char.ofNat (0xA0 + i))
  | none => (otherNames.lookup name).map Char.ofNat

/-- The value of a digit in some base. -/
def digitValue (c : Char) : Nat :=
  if c.isDigit then c.toNat - '0'.toNat else c.toLower.toNat - 'a'.toNat + 10

/-- The character of a number; zero and what is no character become U+FFFD. -/
def characterOf (n : Nat) : Char :=
  if n = 0 || 0x10FFFF < n || (0xD800 ≤ n && n ≤ 0xDFFF) then '\ufffd' else Char.ofNat n

/-- The character with a number in a base, behind up to `limit` digits and a semicolon. -/
def numbered (base limit : Nat) (isDigit : Char → Bool) (cs : List Char) :
    Option (Char × List Char) :=
  let digits := cs.takeWhile isDigit
  match cs.drop digits.length with
  | ';' :: rest =>
    if 1 ≤ digits.length && digits.length ≤ limit then
      some (characterOf (digits.foldl (fun n c => n * base + digitValue c) 0), rest)
    else none
  | _ => none

/-- Whether a character is a hexadecimal digit. -/
def isHexDigit (c : Char) : Bool :=
  c.isDigit || ('a' ≤ c && c ≤ 'f') || ('A' ≤ c && c ≤ 'F')

/-- What an entity behind its ampersand stands for, and the rest. -/
def entity? : List Char → Option (Char × List Char)
  | '#' :: 'x' :: cs => numbered 16 6 isHexDigit cs
  | '#' :: 'X' :: cs => numbered 16 6 isHexDigit cs
  | '#' :: cs => numbered 10 7 Char.isDigit cs
  | cs =>
    let name := cs.takeWhile Char.isAlphanum
    match cs.drop name.length with
    | ';' :: rest => (named? (String.ofList name)).map fun c => (c, rest)
    | _ => none

/-- Replaces entities and takes off the backslashes before punctuation; `fuel` bounds the steps. -/
def unescapeWith : Nat → List Char → List Char
  | 0, cs => cs
  | _, [] => []
  | fuel + 1, '\\' :: c :: cs =>
    if Text.isAsciiPunctuation c then c :: unescapeWith fuel cs
    else '\\' :: unescapeWith fuel (c :: cs)
  | fuel + 1, '&' :: cs =>
    match entity? cs with
    | some (meaning, rest) => meaning :: unescapeWith fuel rest
    | none => '&' :: unescapeWith fuel cs
  | fuel + 1, c :: cs => c :: unescapeWith fuel cs

/-- Replaces entities and takes off the backslashes before punctuation. -/
def unescape (cs : List Char) : List Char := unescapeWith cs.length cs

end Klaxon.Markup
