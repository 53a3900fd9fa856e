/-!
# Glob patterns

`Glob.fits pattern text` tells whether the whole of a text fits a pattern. Both are read as UTF-8
bytes.

* `*` stands for any run without `/`, and `?` for one byte other than `/`.
* `**` crosses `/` where it is a whole component of the pattern, and acts as `*` elsewhere.
* `[abc]`, `[a-z]`, `[!abc]` and `[^abc]` stand for one byte of a class; a `]` in the first place is
  a member, and a class that is not closed matches nothing.
* `{a,b}` stands for one of its alternatives, at most ten levels deep.
* A backslash takes the meaning from the byte after it, save for a few control characters.
* Each `!` at the front turns the answer round.

The matcher walks both texts once and remembers where to resume: behind the last star (`star`),
behind the last whole-component `**` (`globstar`), and at each open brace. A failed comparison
resumes at the last star with one byte more given to it, and otherwise tries the next alternative of
the open brace. The longest alternative that matched wins.
-/

namespace Klaxon.Text.Glob

/-- Where to go on behind a star: the pattern position of the star, and the first text position not
yet given to it. Text position 0 means that there is no star to go back to. -/
structure Resume where
  pattern : Nat
  text : Nat

/-- A pair of positions together with the stars to go back to. -/
structure Cursor where
  pattern : Nat
  text : Nat
  star : Resume
  globstar : Resume

/-- The open braces, innermost first, each with the cursor at its opening, and the farthest text
position that a finished alternative has reached. -/
structure Braces where
  opened : List Cursor
  longest : Nat

/-- What follows the alternatives that were skipped. -/
inductive Skipped where
  /-- Another alternative starts at this pattern position. -/
  | alternative (pattern : Nat)
  /-- The braces end before this pattern position. -/
  | closed (pattern : Nat)
  /-- The braces are never closed. -/
  | unclosed

/-- No star to go back to. -/
def noResume : Resume := ⟨0, 0⟩

/-- The deepest nesting of braces. -/
def maxBraces : Nat := 10

/-- The byte of a character of ASCII. -/
def byte (c : Char) : UInt8 := c.toNat.toUInt8

/-- The byte that stands for itself at a pattern position and the position of its last byte; none if
a backslash ends the pattern. -/
def literal? (pattern : Array UInt8) (i : Nat) (c : UInt8) : Option (UInt8 × Nat) :=
  if c == byte '\\' then
    match pattern[i + 1]? with
    | none => none
    | some e =>
      let meant :=
        if e == byte 'b' then 8
        else if e == byte 'n' then 10
        else if e == byte 'r' then 13
        else if e == byte 't' then 9
        else e
      some (meant, i + 1)
  else some (c, i)

/-- Skips repeated `/**` components from a pattern position on. -/
def skipGlobstars (pattern : Array UInt8) : Nat → Nat → Nat
  | 0, i => i
  | fuel + 1, i =>
    if pattern[i]? == some (byte '/') && pattern[i + 1]? == some (byte '*') &&
        pattern[i + 2]? == some (byte '*') then
      skipGlobstars pattern fuel (i + 3)
    else i

/-- Skips from a pattern position inside braces to their end, or, with `stopAtComma`, to the next
alternative of the innermost ones. `depth` counts the braces that are open and `inClass` tells that
the position is inside a class. -/
def skipBraces (pattern : Array UInt8) (stopAtComma : Bool) :
    Nat → Nat → Nat → Bool → Skipped
  | 0, _, _, _ => .unclosed
  | fuel + 1, i, depth, inClass =>
    if depth == 0 then .closed i
    else
      match pattern[i]? with
      | none => .unclosed
      | some c =>
        let skip := skipBraces pattern stopAtComma fuel
        if c == byte '{' && !inClass then skip (i + 1) (depth + 1) inClass
        else if c == byte '}' && !inClass then skip (i + 1) (depth - 1) inClass
        else if c == byte ',' && stopAtComma && depth == 1 && !inClass then .alternative (i + 1)
        else if c == byte '[' && !inClass then skip (i + 1) depth true
        else if c == byte ']' then skip (i + 1) depth false
        else if c == byte '\\' then skip (i + 2) depth inClass
        else skip (i + 1) depth inClass

/-- What reading a class at its opening bracket gives: whether the byte belongs to it and the
position behind the closing bracket. -/
def readClass (pattern : Array UInt8) (c : UInt8) (negated : Bool) :
    Nat → Nat → Bool → Bool → Option (Bool × Nat)
  | 0, _, _, _ => none
  | fuel + 1, i, first, found =>
    match pattern[i]? with
    | none => none
    | some m =>
      if m == byte ']' && !first then some (found != negated, i + 1)
      else
        match literal? pattern i m with
        | none => none
        | some (low, j) =>
          let i := j + 1
          if pattern[i]? == some (byte '-') && i + 1 < pattern.size &&
              pattern[i + 1]? != some (byte ']') then
            match pattern[i + 1]? with
            | none => none
            | some h =>
              match literal? pattern (i + 1) h with
              | none => none
              | some (high, j) =>
                readClass pattern c negated fuel (j + 1) false
                  (found || (low ≤ c && c ≤ high))
          else readClass pattern c negated fuel i false (found || low == c)

/-- Leaves the innermost braces: the text position is the farthest one reached in them and the stars
are those from before. -/
def leaveBraces (braces : Braces) (cursor : Cursor) : Braces × Cursor :=
  match braces.opened with
  | [] => (braces, cursor)
  | outer :: rest =>
    (⟨rest, if rest.isEmpty then 0 else braces.longest⟩,
      ⟨cursor.pattern, braces.longest, outer.star, outer.globstar⟩)

/-- The outcome of one comparison of the matcher. -/
inductive Progress where
  /-- Go on from here. -/
  | advance (braces : Braces) (cursor : Cursor)
  /-- The pattern does not fit here, read as far as the given pattern position. -/
  | mismatch (pattern : Nat)
  /-- The pattern is malformed and matches nothing. -/
  | malformed

/-- Whether the pattern closes braces right before a position, while some are open. -/
def behindBrace (pattern : Array UInt8) (braces : Braces) (i : Nat) : Bool :=
  !braces.opened.isEmpty && 0 < i && pattern[i - 1]? == some (byte '}')

/-- Enters a star at the cursor. -/
def enterStar (pattern text : Array UInt8) (braces : Braces) (cursor : Cursor) : Progress :=
  -- Of a chain of `/**` components only the last one counts.
  let double := pattern[cursor.pattern + 1]? == some (byte '*')
  let here :=
    if double then skipGlobstars pattern pattern.size (cursor.pattern + 2) - 2 else cursor.pattern
  let star : Resume := ⟨here, cursor.text + 1⟩
  let behind := if double then here + 2 else here + 1
  let atEnd := behind == pattern.size
  -- Two stars cross separators only where they are a whole component.
  let whole := double && (behind < 3 || pattern[behind - 3]? == some (byte '/')) &&
    (atEnd || pattern[behind]? == some (byte '/'))
  let onSeparator := text[cursor.text]? == some (byte '/')
  let entered : Cursor :=
    if whole then
      -- Its separator may be missing where the text stands at the start of a component.
      let optional := !atEnd && (cursor.text == 0 ||
        (cursor.text < text.size && text[cursor.text - 1]? == some (byte '/')))
      ⟨if optional then behind + 1 else behind, cursor.text, star, star⟩
    else if onSeparator then
      -- A single star cannot pass a separator. If whole components were taken before it, they go
      -- on; otherwise the star is over.
      if 0 < cursor.globstar.text && cursor.text + 1 < text.size then
        ⟨cursor.globstar.pattern, cursor.text, ⟨cursor.globstar.pattern, star.text⟩,
          cursor.globstar⟩
      else ⟨behind, cursor.text, ⟨here, 0⟩, cursor.globstar⟩
    else ⟨behind, cursor.text, star, cursor.globstar⟩
  -- A star at the end of an alternative goes on behind the braces.
  let endsAlternative := !braces.opened.isEmpty &&
    (pattern[entered.pattern]? == some (byte ',') || pattern[entered.pattern]? == some (byte '}'))
  if endsAlternative then
    match skipBraces pattern false (pattern.size + 2) entered.pattern 1 false with
    | .closed i => .advance braces ⟨i, entered.text, entered.star, entered.globstar⟩
    | _ => .malformed
  else .advance braces entered

/-- Compares a byte of the text with a byte of the pattern that stands for itself. -/
def compareLiteral (pattern : Array UInt8) (braces : Braces) (cursor : Cursor) (c t : UInt8) :
    Progress :=
  match literal? pattern cursor.pattern c with
  | none => .malformed
  | some (meant, i) =>
    if t == meant then
      let (braces, cursor) :=
        if behindBrace pattern braces i then
          leaveBraces ⟨braces.opened, cursor.text⟩ ⟨i, cursor.text, cursor.star, cursor.globstar⟩
        else (braces, ⟨i, cursor.text, cursor.star, cursor.globstar⟩)
      -- Within a component the last whole-component star cannot be taken up again.
      let globstar : Resume :=
        if meant == byte '/' then cursor.globstar else ⟨cursor.globstar.pattern, 0⟩
      .advance braces ⟨cursor.pattern + 1, cursor.text + 1, cursor.star, globstar⟩
    else .mismatch i

/-- Compares at the cursor. -/
def compare (pattern text : Array UInt8) (braces : Braces) (cursor : Cursor) : Progress :=
  match pattern[cursor.pattern]? with
  | none => .mismatch cursor.pattern
  | some c =>
    let current := text[cursor.text]?
    if c == byte '*' then enterStar pattern text braces cursor
    else if c == byte '?' && current.isSome then
      if current == some (byte '/') then .mismatch cursor.pattern
      else .advance braces ⟨cursor.pattern + 1, cursor.text + 1, cursor.star, cursor.globstar⟩
    else if c == byte '[' && current.isSome then
      let start := cursor.pattern + 1
      let negated :=
        pattern[start]? == some (byte '!') || pattern[start]? == some (byte '^')
      match readClass pattern (current.getD 0) negated (pattern.size + 1)
          (if negated then start + 1 else start) true false with
      | none => .malformed
      | some (true, i) => .advance braces ⟨i, cursor.text + 1, cursor.star, cursor.globstar⟩
      | some (false, i) => .mismatch i
    else if c == byte '{' && current.isSome then
      if maxBraces ≤ braces.opened.length then .malformed
      else
        .advance ⟨cursor :: braces.opened, braces.longest⟩
          ⟨cursor.pattern + 1, cursor.text, noResume, noResume⟩
    else if c == byte '}' && !braces.opened.isEmpty then
      let (braces, left) := leaveBraces ⟨braces.opened, max braces.longest cursor.text⟩ cursor
      .advance braces ⟨cursor.pattern + 1, left.text, left.star, left.globstar⟩
    else if c == byte ',' && !braces.opened.isEmpty then
      let start := (braces.opened.head?.map Cursor.text).getD 0
      .advance ⟨braces.opened, max braces.longest cursor.text⟩
        ⟨cursor.pattern + 1, start, noResume, noResume⟩
    else
      match current with
      | none => .mismatch cursor.pattern
      | some t => compareLiteral pattern braces cursor c t

/-- Whether a star can take one byte more. -/
def canResume (text : Array UInt8) (cursor : Cursor) : Bool :=
  0 < cursor.star.text && cursor.star.text ≤ text.size

/-- The cursor at the last star, with one byte more given to it. -/
def resume (cursor : Cursor) : Cursor :=
  ⟨cursor.star.pattern, cursor.star.text, cursor.star, cursor.globstar⟩

/-- What a mismatch leads to. -/
inductive Recovery where
  /-- Go on from here. -/
  | retry (braces : Braces) (cursor : Cursor)
  /-- The text does not fit. -/
  | exhausted
  /-- The pattern is malformed and matches nothing. -/
  | malformed

/-- Where to go on after a mismatch at the cursor. -/
def recover (pattern text : Array UInt8) (braces : Braces) (cursor : Cursor) : Recovery :=
  if canResume text cursor then .retry braces (resume cursor)
  else
    match braces.opened with
    | [] => .exhausted
    | outer :: rest =>
      -- No star can give way, so the next alternative is tried.
      match skipBraces pattern true (pattern.size + 2) cursor.pattern 1 false with
      | .unclosed => .malformed
      | .alternative i => .retry braces ⟨i, outer.text, cursor.star, cursor.globstar⟩
      | .closed i =>
        -- All alternatives are read; an earlier one may have fitted.
        if 0 < braces.longest then
          let (braces, left) :=
            leaveBraces braces ⟨i, cursor.text, cursor.star, cursor.globstar⟩
          .retry braces left
        else if canResume text outer then .retry ⟨rest, braces.longest⟩ (resume outer)
        else .exhausted

/-- Whether the rest of the text fits the rest of the pattern; none if the pattern is malformed. -/
def run (pattern text : Array UInt8) : Nat → Braces → Cursor → Option Bool
  | 0, _, _ => some false
  | fuel + 1, braces, cursor =>
    if cursor.pattern < pattern.size || cursor.text < text.size then
      match compare pattern text braces cursor with
      | .malformed => none
      | .advance braces cursor => run pattern text fuel braces cursor
      | .mismatch i =>
        match recover pattern text braces ⟨i, cursor.text, cursor.star, cursor.globstar⟩ with
        | .retry braces cursor => run pattern text fuel braces cursor
        | .exhausted => some false
        | .malformed => none
    else some true

/-- The number of `!` at the front of a pattern. -/
def countNegations (pattern : Array UInt8) : Nat :=
  (pattern.toList.takeWhile (· == byte '!')).length

/-- Whether the whole of `text` fits `pattern`. A malformed pattern fits nothing, also when it is
negated. -/
def fits (pattern text : String) : Bool :=
  let p := pattern.toUTF8.data
  let t := text.toUTF8.data
  let negations := countNegations p
  -- More steps than there are ways to come back to a star within as many braces as can be open.
  let fuel := (p.size + 2) * Nat.pow (t.size + 2) (maxBraces + 2)
  match run p t fuel ⟨[], 0⟩ ⟨negations, 0, noResume, noResume⟩ with
  | none => false
  | some whole => whole != (negations % 2 == 1)

end Klaxon.Text.Glob
