import Klaxon.Json.Path
import Klaxon.Proofs.Text.Trimming

/-!
# Paths compose

A path that is cut at one of its dots leads where its second part leads from the end of the first
(`lookup_composes`). Both parts must be paths by themselves (`IsPath`): an empty part leads to the
value that it starts from, and blanks at the cut are dropped from the parts but not from the whole
path.

A look-up trims, splits, and walks. A dot is not blank, so the trimming stops in front of it and
behind it (`trimChars_append_dot`); the segments of a joined path are those of its parts
(`segments_append_dot`); and segments are walked one after the other (`walk_append`).
-/

namespace Klaxon.Json

/-! ## Segments -/

/-- The segments of a text are what stands between its dots. -/
theorem segments_eq_splitOn (text : List Char) : segments text = text.splitOn '.' := by
  induction text with
  | nil => rw [segments, List.splitOn_nil]
  | cons c rest ih =>
    rw [List.splitOn_eq_splitOnP] at ih ⊢
    rw [segments, List.splitOnP_cons_eq_if_modifyHead, ih]
    -- A dot opens a new segment; any other character goes to the front of the first one.
    by_cases hdot : c = '.'
    · simp [hdot]
    · obtain ⟨first, others, hrest⟩ :=
        List.exists_cons_of_ne_nil (List.splitOnP_ne_nil (fun x => x == '.') rest)
      simp [hdot, hrest]

/-- A text without a dot is one segment. -/
theorem segments_of_not_mem {cs : List Char} (h : '.' ∉ cs) : segments cs = [cs] := by
  rw [segments_eq_splitOn, List.splitOn_eq_singleton h]

/-- A dot puts the segments of two texts one after the other. -/
theorem segments_append_dot (as bs : List Char) :
    segments (as ++ '.' :: bs) = segments as ++ segments bs := by
  simp only [segments_eq_splitOn, List.splitOn_append_cons_self]

/-- Segments are walked one after the other. -/
theorem walk_append (front back : List (List Char)) (root : Json) :
    walk (front ++ back) root = (walk front root).bind (walk back) := by
  induction front generalizing root with
  | nil => rfl
  | cons s front ih =>
    rw [List.cons_append, walk, walk]
    cases step s root with
    | none => rfl
    | some next => exact ih next

/-! ## Look-ups -/

/-- The segments that a look-up walks. -/
def walked (path : String) : List (List Char) := segments (Text.trimChars path.toList)

/-- A text that is not blank is walked. -/
theorem lookup_eq_walk {path : String} (h : Text.isBlankText path = false) (root : Json) :
    root.lookup path = walk (walked path) root := by
  have hne : (Text.trimChars path.toList).isEmpty = false := h
  rw [lookup, lookupChars]
  simp only [hne, Bool.false_eq_true, if_false]
  rfl

/-- Every look-up of a path with a dot walks the segments on both sides of it. -/
theorem lookupChars_append_dot (root : Json) (as bs : List Char) :
    root.lookupChars (as ++ '.' :: bs) =
      (walk (segments (Text.trimStart as)) root).bind (walk (segments (Text.trimEnd bs))) := by
  have hne : (Text.trimStart as ++ '.' :: Text.trimEnd bs).isEmpty = false := by simp
  simp only [lookupChars, Text.trimChars_append_dot, hne, Bool.false_eq_true, if_false]
  rw [segments_append_dot, walk_append]

/-- A path that is walked as it stands: it is not empty, and no blank is at either end. -/
structure IsPath (path : String) : Prop where
  ne : path ≠ ""
  trimmed : Text.IsTrimmed path

/-- A path is walked segment by segment. -/
theorem IsPath.lookup_eq {path : String} (h : IsPath path) (root : Json) :
    root.lookup path = walk (segments path.toList) root := by
  have hwalked : walked path = segments path.toList := by rw [walked, h.trimmed.trimChars_eq]
  have hblank : Text.isBlankText path = false := by
    rw [Text.isBlankText, h.trimmed.trimChars_eq, ← Bool.not_eq_true, List.isEmpty_iff,
      String.toList_eq_nil_iff]
    exact h.ne
  rw [lookup_eq_walk hblank, hwalked]

/-- A joined path is the first part and then the second one. -/
theorem lookup_append_dot {p q : String} (hp : IsPath p) (hq : IsPath q) (root : Json) :
    root.lookup (p ++ "." ++ q) = (root.lookup p).bind (lookup · q) := by
  have hchars : (p ++ "." ++ q).toList = p.toList ++ '.' :: q.toList := by simp
  calc root.lookup (p ++ "." ++ q)
      = root.lookupChars (p.toList ++ '.' :: q.toList) := by rw [lookup, hchars]
    _ = (walk (segments p.toList) root).bind (walk (segments q.toList)) := by
        -- The parts are trimmed, so that nothing is lost at the outer ends.
        rw [lookupChars_append_dot, Text.trimStart_eq_self_iff.mpr hp.trimmed.head,
          Text.trimEnd_eq_self_iff.mpr hq.trimmed.last]
    _ = (root.lookup p).bind (lookup · q) := by
        rw [hp.lookup_eq]
        exact congrArg _ (funext fun next => (hq.lookup_eq next).symm)

/-- What is looked up along a path that is cut at a dot. -/
structure Composes (p q : String) (root : Json) : Prop where
  /-- Where the first part leads to a value, the second part goes on from there. -/
  found : ∀ value, root.lookup p = some value → root.lookup (p ++ "." ++ q) = value.lookup q
  /-- Where the first part leads nowhere, so does the path. -/
  missing : root.lookup p = none → root.lookup (p ++ "." ++ q) = none
  /-- A part without a dot is one step, to a member or to an item. -/
  single : '.' ∉ p.toList → root.lookup p = step p.toList root

/-- Look-ups compose along all paths, from all values. -/
theorem lookup_composes {p q : String} (hp : IsPath p) (hq : IsPath q) (root : Json) :
    Composes p q root := by
  have hjoin := lookup_append_dot hp hq root
  constructor
  · intro value hvalue
    rw [hjoin, hvalue, Option.bind_some]
  · intro hnone
    rw [hjoin, hnone, Option.bind_none]
  · intro hdot
    rw [hp.lookup_eq, segments_of_not_mem hdot, walk]
    exact Option.bind_fun_some _

/-- A site with two pumps. -/
def twoPumps : Json :=
  .object [("site", .object [("pumps",
    .array [.object [("id", .string "P-1")], .object [("id", .string "P-2")]])])]

/-- The second pump, through objects and a list. -/
theorem twoPumps_composes :
    IsPath "site.pumps" ∧ IsPath "+01.id" ∧ Composes "site.pumps" "+01.id" twoPumps ∧
      twoPumps.lookup "site.pumps.+01.id" = some (.string "P-2") := by
  have hpumps : IsPath "site.pumps" := ⟨by decide, Text.isTrimmed_iff.mpr (by decide)⟩
  have hid : IsPath "+01.id" := ⟨by decide, Text.isTrimmed_iff.mpr (by decide)⟩
  exact ⟨hpumps, hid, lookup_composes hpumps hid twoPumps, rfl⟩

end Klaxon.Json
