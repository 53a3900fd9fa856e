import Klaxon.Json.Printer
import Klaxon.Text.Blank

/-!
# Paths into JSON values

A path is a text of segments between dots, such as `site.pumps.0.id`. A segment names a member of an
object or counts an item of an array. `lookup` trims a path and walks its segments; a blank path
leads to the value itself.

`interpolate` replaces every token of a template by what its path leads to. It is one pass from left
to right: text that was put in is not looked at again.
-/

namespace Klaxon.Json

/-- Splits a text at every dot; `n` dots give `n + 1` segments. -/
def segments : List Char → List (List Char)
  | [] => [[]]
  | c :: cs =>
    if c = '.' then [] :: segments cs
    else
      match segments cs with
      | [] => [[c]]
      | first :: rest => (c :: first) :: rest

/-- The item that a segment counts: decimal digits, maybe behind a plus sign, below `2^64`. -/
def index? (segment : List Char) : Option Nat :=
  let digits := match segment with
    | '+' :: rest => rest
    | rest => rest
  if digits.isEmpty || !digits.all Char.isDigit then none
  else
    let n := digits.foldl (fun n c => n * 10 + (c.toNat - '0'.toNat)) 0
    if n < UInt64.size then some n else none

/-- One step into a value. -/
def step (segment : List Char) : Json → Option Json
  | .object members => Members.find? (String.ofList segment) members
  | .array items => (index? segment).bind (items[·]?)
  | _ => none

/-- Walks segments one after the other. -/
def walk : List (List Char) → Json → Option Json
  | [], j => some j
  | s :: rest, j => (step s j).bind (walk rest)

/-- What a path of characters leads to. -/
def lookupChars (root : Json) (path : List Char) : Option Json :=
  let trimmed := Text.trimChars path
  if trimmed.isEmpty then some root else walk (segments trimmed) root

/-- What a path leads to. -/
def lookup (root : Json) (path : String) : Option Json := root.lookupChars path.toList

/-- A value as it is put into a text: a string as it is, `null` as nothing, and everything else as
JSON. -/
def display : Json → String
  | .string s => s
  | .null => ""
  | j => j.render

/-- Splits at the first character of a kind: what is before it and what is behind it. -/
def splitAtFirst (stop : Char) : List Char → Option (List Char × List Char)
  | [] => none
  | c :: cs =>
    if c = stop then some ([], cs) else (splitAtFirst stop cs).map fun (a, b) => (c :: a, b)

/-- What stands behind the first stop character is shorter than the text. -/
theorem length_lt_of_splitAtFirst {stop : Char} {cs before behind : List Char}
    (h : splitAtFirst stop cs = some (before, behind)) : behind.length < cs.length := by
  induction cs generalizing before with
  | nil => simp [splitAtFirst] at h
  | cons c cs ih =>
    rw [splitAtFirst] at h
    split at h
    · simp only [Option.some.injEq, Prod.mk.injEq] at h
      simp [← h.2]
    · rw [Option.map_eq_some_iff] at h
      obtain ⟨⟨a, b⟩, hab, h⟩ := h
      simp only [Prod.mk.injEq] at h
      have := ih (h.2 ▸ hab)
      simp only [List.length_cons]
      omega

/-- What a token with the given path becomes. -/
def expand (context : Json) (path : List Char) : List Char :=
  match lookupChars context path with
  | some value =>
    -- A blank path would lead to the whole context, which is not put into a text.
    if (Text.trimChars path).isEmpty then '$' :: '\x7b' :: path ++ ['\x7d']
    else value.display.toList
  | none => '$' :: '\x7b' :: path ++ ['\x7d']

/-- Replaces the tokens of a template of characters. -/
def interpolateChars (context : Json) : List Char → List Char
  | '$' :: '\x7b' :: rest =>
    match _h : splitAtFirst '\x7d' rest with
    | none => '$' :: '\x7b' :: rest
    | some (path, behind) => expand context path ++ interpolateChars context behind
  | c :: rest => c :: interpolateChars context rest
  | [] => []
termination_by cs => cs.length
decreasing_by
  · have := length_lt_of_splitAtFirst _h
    simp only [List.length_cons]
    omega
  · simp

/-- Replaces every token of a template by what its path leads to. A token whose path is blank or
leads nowhere stays, and so does one that is not closed. -/
def interpolate (template : String) (context : Json) : String :=
  String.ofList (interpolateChars context template.toList)

end Klaxon.Json
