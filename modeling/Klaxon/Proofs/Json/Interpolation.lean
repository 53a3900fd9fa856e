import Klaxon.Json.Path

/-!
# Interpolation is one pass

A template is scanned from left to right. `Splits` says where: at its first opening, and at the
first closing brace behind that. `interpolate_scansOnce` says what comes of it: the token that is
split off is replaced by what its path leads to, or stays; what is before it is kept; and the scan
goes on behind it, in the template and not in what was put in. So a template falls into pieces that
are the same for all contexts, and text from a context is never scanned.

All of it follows from one equation for a template that splits (`Splits.interpolate_eq`), one for a
template that does not (`interpolate_eq_self`), and the induction along the scan (`scan_induction`).
-/

namespace Klaxon.Json

/-- What opens a token. -/
def opening : String := "$\x7b"

/-- A token as it stands in a template. -/
def token (path : String) : String := opening ++ path ++ "\x7d"

/-- The first opening of a template is behind `before`; `path` is up to the first closing brace
behind it, and `behind` is the rest. -/
structure Splits (template before path behind : String) : Prop where
  eq : template = before ++ token path ++ behind
  first : ∀ front rest, template = front ++ opening ++ rest → before.length ≤ front.length
  closed : '\x7d' ∉ path.toList

/-- The paths of the tokens of a template. -/
inductive HasToken : String → String → Prop where
  | first {template before path behind : String} :
    Splits template before path behind → HasToken template path
  | later {template before path behind path' : String} :
    Splits template before path behind → HasToken behind path' → HasToken template path'

/-- The scan of a template ends at an opening that is not closed. -/
inductive LeavesOpen : String → Prop where
  | here {front rest : String} :
    (∀ before path behind, ¬ Splits (front ++ opening ++ rest) before path behind) →
      LeavesOpen (front ++ opening ++ rest)
  | later {template before path behind : String} :
    Splits template before path behind → LeavesOpen behind → LeavesOpen template

/-- An opening comes about where two templates meet. -/
def Straddles (a b : String) : Prop := ∃ front rest, a = front ++ "$" ∧ b = "\x7b" ++ rest

/-- A path that is not blank leads to a value. -/
def Resolves (context : Json) (path : String) (value : Json) : Prop :=
  Text.isBlankText path = false ∧ context.lookup path = some value

/-- A piece of a template. -/
inductive Piece where
  | text (s : String)
  | token (path : String)

/-- A piece as it stands in the template. -/
def Piece.source : Piece → String
  | .text s => s
  | .token path => Json.token path

/-- What becomes of a piece. -/
def Piece.fill (context : Json) : Piece → String
  | .text s => s
  | .token path => String.ofList (expand context path.toList)

/-- How a template is interpolated. -/
structure ScansOnce (template : String) (context : Json) : Prop where
  /-- The first token is replaced by what its path leads to, and the scan goes on behind it. -/
  resolved : ∀ before path behind value, Splits template before path behind →
    Resolves context path value →
      interpolate template context = before ++ value.display ++ interpolate behind context
  /-- A token with a path that is blank or leads nowhere stays. -/
  unresolved : ∀ before path behind, Splits template before path behind →
    (∀ value, ¬ Resolves context path value) →
      interpolate template context = before ++ token path ++ interpolate behind context
  /-- Without a token the template stays as it is. -/
  untouched : (∀ before path behind, ¬ Splits template before path behind) →
    interpolate template context = template
  /-- The template falls into pieces before anything is put in, and only its tokens change. -/
  pieces : ∃ ps : List Piece, template = String.join (ps.map Piece.source) ∧
    (∀ path, .token path ∈ ps ↔ HasToken template path) ∧
    ∀ c, interpolate template c = String.join (ps.map (Piece.fill c))
  /-- If no token leads anywhere, the template stays as it is. -/
  unchanged : (∀ path value, HasToken template path → ¬ Resolves context path value) →
    interpolate template context = template
  /-- Behind a template that leaves nothing open another one is interpolated by itself. -/
  append : ∀ other, ¬ LeavesOpen template → ¬ Straddles template other →
    interpolate (template ++ other) context =
      interpolate template context ++ interpolate other context

/-! ## Splitting at a character -/

/-- A text is not split where the character does not occur in it. -/
theorem splitAtFirst_eq_none_iff {stop : Char} {cs : List Char} :
    splitAtFirst stop cs = none ↔ stop ∉ cs := by
  induction cs with
  | nil => simp [splitAtFirst]
  | cons c cs ih =>
    rw [splitAtFirst, List.mem_cons]
    by_cases hc : c = stop
    · simp [hc]
    · rw [if_neg hc, Option.map_eq_none_iff, ih]
      simp [Ne.symm hc]

/-- A text is split where the character occurs for the first time. -/
theorem splitAtFirst_eq_some {stop : Char} {before behind : List Char} (h : stop ∉ before) :
    splitAtFirst stop (before ++ stop :: behind) = some (before, behind) := by
  induction before with
  | nil => simp [splitAtFirst]
  | cons c cs ih =>
    rw [List.mem_cons, not_or] at h
    obtain ⟨hc, hcs⟩ := h
    rw [List.cons_append, splitAtFirst, if_neg (Ne.symm hc), ih hcs, Option.map_some]

/-! ## The scan of characters -/

/-- A text has no opening. -/
def IsPlain (cs : List Char) : Prop := ∀ front rest, cs ≠ front ++ '$' :: '\x7b' :: rest

/-- An opening is at the front of a text or further back. -/
theorem isPlain_cons_iff {c : Char} {cs : List Char} :
    IsPlain (c :: cs) ↔ (∀ rest, c :: cs ≠ '$' :: '\x7b' :: rest) ∧ IsPlain cs := by
  constructor
  · intro h
    exact ⟨h [], fun front rest hcs => h (c :: front) rest (by rw [hcs]; rfl)⟩
  · rintro ⟨hhead, hcs⟩ front rest heq
    cases front with
    | nil => exact hhead rest heq
    | cons d front =>
      rw [List.cons_append, List.cons.injEq] at heq
      exact hcs front rest heq.2

/-- Where there is an opening there is a first one. -/
theorem exists_opening {cs : List Char} (h : ¬ IsPlain cs) :
    ∃ before rest, cs = before ++ '$' :: '\x7b' :: rest ∧ IsPlain before := by
  induction cs with
  | nil => exact absurd (fun front rest => by simp) h
  | cons c cs ih =>
    -- If no opening is at the front, the first one is that of the rest.
    by_cases hhead : ∃ rest, c :: cs = '$' :: '\x7b' :: rest
    · obtain ⟨rest, hrest⟩ := hhead
      exact ⟨[], rest, hrest, fun front rest => by simp⟩
    · have hnone : ∀ rest, c :: cs ≠ '$' :: '\x7b' :: rest := not_exists.mp hhead
      obtain ⟨before, rest, rfl, hbefore⟩ := ih fun hcs => h (isPlain_cons_iff.mpr ⟨hnone, hcs⟩)
      refine ⟨c :: before, rest, rfl, isPlain_cons_iff.mpr ⟨fun r hr => ?_, hbefore⟩⟩
      exact hnone (r ++ '$' :: '\x7b' :: rest) (congrArg (· ++ '$' :: '\x7b' :: rest) hr)

variable (context : Json)

/-- There is nothing to scan in an empty text. -/
theorem interpolateChars_nil : interpolateChars context [] = [] := by rw [interpolateChars]

/-- A character that does not start an opening stays. -/
theorem interpolateChars_cons {c : Char} {cs : List Char}
    (h : ∀ rest, c :: cs ≠ '$' :: '\x7b' :: rest) :
    interpolateChars context (c :: cs) = c :: interpolateChars context cs := by
  rw [interpolateChars]
  rintro rest rfl rfl
  exact h rest rfl

/-- The scan passes over text without an opening, unless one comes about at its end. -/
theorem interpolateChars_append {cs rest : List Char} (hcs : IsPlain cs)
    (hrest : ∀ front behind, cs = front ++ ['$'] → rest ≠ '\x7b' :: behind) :
    interpolateChars context (cs ++ rest) = cs ++ interpolateChars context rest := by
  induction cs with
  | nil => rfl
  | cons c cs ih =>
    have hnext : ∀ behind, c :: (cs ++ rest) ≠ '$' :: '\x7b' :: behind := by
      intro behind heq
      rw [List.cons.injEq] at heq
      obtain ⟨rfl, heq⟩ := heq
      -- The brace of an opening would be the next plain character, or the first one of the rest.
      cases cs with
      | nil => exact hrest [] behind rfl heq
      | cons d cs =>
        rw [List.cons_append, List.cons.injEq] at heq
        exact hcs [] cs (by rw [heq.1]; rfl)
    rw [List.cons_append, interpolateChars_cons context hnext, List.cons_append]
    refine congrArg (c :: ·) (ih (isPlain_cons_iff.mp hcs).2 fun front behind hfront => ?_)
    exact hrest (c :: front) behind (by rw [hfront]; rfl)

/-- A text without an opening stays as it is. -/
theorem interpolateChars_of_isPlain {cs : List Char} (h : IsPlain cs) :
    interpolateChars context cs = cs := by
  have happend : interpolateChars context (cs ++ []) = cs ++ interpolateChars context [] :=
    interpolateChars_append context h fun _ _ _ => by simp
  rwa [List.append_nil, interpolateChars_nil, List.append_nil] at happend

/-- In front of an opening the scan passes over text without one. -/
theorem interpolateChars_before {cs : List Char} (h : IsPlain cs) (rest : List Char) :
    interpolateChars context (cs ++ '$' :: rest) =
      cs ++ interpolateChars context ('$' :: rest) :=
  interpolateChars_append context h fun _ _ _ => by simp

/-- A token is expanded, and the scan goes on behind its closing brace. -/
theorem interpolateChars_token {path : List Char} (h : '\x7d' ∉ path) (behind : List Char) :
    interpolateChars context ('$' :: '\x7b' :: (path ++ '\x7d' :: behind)) =
      expand context path ++ interpolateChars context behind := by
  rw [interpolateChars]
  split
  · next hnone =>
    rw [splitAtFirst_eq_some h] at hnone
    simp at hnone
  · next hsome =>
    rw [splitAtFirst_eq_some h, Option.some.injEq, Prod.mk.injEq] at hsome
    rw [hsome.1, hsome.2]

/-- An opening that is not closed stays, with all that follows. -/
theorem interpolateChars_unclosed {rest : List Char} (h : '\x7d' ∉ rest) :
    interpolateChars context ('$' :: '\x7b' :: rest) = '$' :: '\x7b' :: rest := by
  rw [interpolateChars]
  split
  · rfl
  · next hsome =>
    rw [splitAtFirst_eq_none_iff.mpr h] at hsome
    simp at hsome

/-! ## Templates -/

variable {t before path behind : String}

/-- The characters of an opening. -/
theorem toList_opening : opening.toList = ['$', '\x7b'] := rfl

/-- The characters of a token. -/
theorem toList_token (path : String) :
    (token path).toList = '$' :: '\x7b' :: (path.toList ++ ['\x7d']) := by
  rw [token, String.toList_append, String.toList_append, toList_opening]
  rfl

/-- A template has an opening somewhere if its characters have one. -/
theorem isPlain_toList_iff : IsPlain t.toList ↔ ∀ front rest, t ≠ front ++ opening ++ rest := by
  constructor
  · rintro h front rest rfl
    refine h front.toList rest.toList ?_
    rw [String.toList_append, String.toList_append, toList_opening, List.append_assoc]
    rfl
  · intro h front rest hcs
    refine h (String.ofList front) (String.ofList rest) (String.toList_inj.mp ?_)
    rw [String.toList_append, String.toList_append, toList_opening, String.toList_ofList,
      String.toList_ofList, hcs, List.append_assoc]
    rfl

/-- Where a template splits, by its characters. -/
theorem splits_iff :
    Splits t before path behind ↔
      t.toList = before.toList ++ '$' :: '\x7b' :: (path.toList ++ '\x7d' :: behind.toList) ∧
        IsPlain before.toList ∧ '\x7d' ∉ path.toList := by
  have hcs : t = before ++ token path ++ behind ↔
      t.toList =
        before.toList ++ '$' :: '\x7b' :: (path.toList ++ '\x7d' :: behind.toList) := by
    rw [← String.toList_inj, String.toList_append, String.toList_append, toList_token]
    simp only [List.append_assoc, List.cons_append, List.nil_append]
  constructor
  · rintro ⟨heq, hfirst, hclosed⟩
    refine ⟨hcs.mp heq, isPlain_toList_iff.mpr fun front rest hbefore => ?_, hclosed⟩
    -- An opening before the first one would be shorter to reach.
    have hle := hfirst front (rest ++ token path ++ behind) (by
      rw [heq, hbefore]
      simp only [String.append_assoc])
    have hlength := congrArg String.length hbefore
    rw [String.length_append, String.length_append] at hlength
    have htwo : opening.length = 2 := rfl
    omega
  · rintro ⟨hchars, hplain, hclosed⟩
    refine ⟨hcs.mpr hchars, fun front rest heq => ?_, hclosed⟩
    have hother : before.toList ++ '$' :: '\x7b' :: (path.toList ++ '\x7d' :: behind.toList) =
        front.toList ++ '$' :: '\x7b' :: rest.toList := by
      rw [← hchars, heq, String.toList_append, String.toList_append, toList_opening,
        List.append_assoc]
      rfl
    rw [← String.length_toList, ← String.length_toList]
    rcases List.append_eq_append_iff.mp hother with ⟨as, hfront, -⟩ | ⟨bs, hbefore, hrest⟩
    · rw [hfront, List.length_append]
      omega
    · -- The other opening would lie in the plain text, or start in its last character.
      match bs with
      | [] =>
        have hsame : before.toList = front.toList := hbefore.trans (List.append_nil _)
        exact Nat.le_of_eq (congrArg List.length hsame)
      | [c] =>
        rw [List.singleton_append, List.cons.injEq, List.cons.injEq] at hrest
        exact absurd hrest.2.1 (by decide)
      | c :: d :: bs =>
        rw [List.cons_append, List.cons_append, List.cons.injEq, List.cons.injEq] at hrest
        refine absurd ?_ (hplain front.toList bs)
        rw [hbefore, ← hrest.1, ← hrest.2.1]

variable {context}

/-- A template that splits is interpolated in three parts: the text before the token stays, the
token is filled, and the rest is scanned. -/
theorem Splits.interpolate_eq (h : Splits t before path behind) :
    interpolate t context =
      before ++ (Piece.token path).fill context ++ interpolate behind context := by
  obtain ⟨hchars, hplain, hclosed⟩ := splits_iff.mp h
  apply String.toList_inj.mp
  rw [interpolate, hchars, interpolateChars_before context hplain,
    interpolateChars_token context hclosed]
  simp only [interpolate, Piece.fill, String.toList_append, String.toList_ofList,
    List.append_assoc]

/-- Behind an opening of a template that does not split there is no closing brace. -/
theorem not_mem_of_not_splits {before rest : List Char}
    (h : ∀ before path behind, ¬ Splits t before path behind)
    (ht : t.toList = before ++ '$' :: '\x7b' :: rest) (hbefore : IsPlain before) :
    '\x7d' ∉ rest := by
  intro hmem
  obtain ⟨path, behind, rfl, hpath⟩ := List.eq_append_cons_of_mem hmem
  refine h (String.ofList before) (String.ofList path) (String.ofList behind) (splits_iff.mpr ?_)
  simp only [String.toList_ofList]
  exact ⟨ht, hbefore, hpath⟩

/-- A template that does not split stays as it is. -/
theorem interpolate_eq_self (h : ∀ before path behind, ¬ Splits t before path behind) :
    interpolate t context = t := by
  have hchars : interpolateChars context t.toList = t.toList := by
    -- There is no opening, or the first one is not closed.
    by_cases hplain : IsPlain t.toList
    · exact interpolateChars_of_isPlain context hplain
    · obtain ⟨before, rest, ht, hbefore⟩ := exists_opening hplain
      have hrest := not_mem_of_not_splits h ht hbefore
      rw [ht, interpolateChars_before context hbefore, interpolateChars_unclosed context hrest]
  rw [interpolate, hchars, String.ofList_toList]

/-- What is behind a token is shorter than the template. -/
theorem Splits.length_lt (h : Splits t before path behind) : behind.length < t.length := by
  have hlength := congrArg String.length h.eq
  rw [String.length_append, String.length_append, token, String.length_append,
    String.length_append] at hlength
  have htwo : opening.length = 2 := rfl
  omega

/-- Induction along the scan: a template does not split, or it does and the rest is shorter. -/
theorem scan_induction {motive : String → Prop}
    (plain : ∀ t, (∀ before path behind, ¬ Splits t before path behind) → motive t)
    (token : ∀ t before path behind, Splits t before path behind → motive behind → motive t)
    (t : String) : motive t := by
  by_cases h : ∃ before path behind, Splits t before path behind
  · obtain ⟨before, path, behind, hsplit⟩ := h
    exact token t before path behind hsplit (scan_induction plain token behind)
  · exact plain t fun before path behind hsplit => h ⟨before, path, behind, hsplit⟩
termination_by t.length
decreasing_by exact hsplit.length_lt

/-! ## Tokens -/

/-- Of two ways to split a template neither comes before the other. -/
theorem Splits.length_before_le {before' path' behind' : String}
    (h : Splits t before path behind) (h' : Splits t before' path' behind') :
    before.length ≤ before'.length := by
  refine h.first before' (path' ++ "\x7d" ++ behind') ?_
  rw [h'.eq, token]
  simp only [String.append_assoc]

/-- A template splits in one way at most. -/
theorem Splits.unique {before' path' behind' : String} (h : Splits t before path behind)
    (h' : Splits t before' path' behind') :
    before = before' ∧ path = path' ∧ behind = behind' := by
  have hlength : before.toList.length = before'.toList.length :=
    Nat.le_antisymm (h.length_before_le h') (h'.length_before_le h)
  obtain ⟨hchars, -, hclosed⟩ := splits_iff.mp h
  obtain ⟨hchars', -, hclosed'⟩ := splits_iff.mp h'
  obtain ⟨hbefore, hrest⟩ := List.append_inj (hchars.symm.trans hchars') hlength
  rw [List.cons.injEq, List.cons.injEq] at hrest
  -- Both paths end at the first closing brace of the same text.
  have hsplit : splitAtFirst '\x7d' (path.toList ++ '\x7d' :: behind.toList) =
      some (path.toList, behind.toList) := splitAtFirst_eq_some hclosed
  rw [hrest.2.2, splitAtFirst_eq_some hclosed', Option.some.injEq, Prod.mk.injEq] at hsplit
  exact ⟨String.toList_inj.mp hbefore, (String.toList_inj.mp hsplit.1).symm,
    (String.toList_inj.mp hsplit.2).symm⟩

/-- The tokens of a template that splits are the first one and those behind it. -/
theorem Splits.hasToken_iff {path' : String} (h : Splits t before path behind) :
    HasToken t path' ↔ path' = path ∨ HasToken behind path' := by
  constructor
  · intro htoken
    cases htoken with
    | first h' => exact .inl (h'.unique h).2.1
    | later h' hlater => exact .inr ((h'.unique h).2.2 ▸ hlater)
  · rintro (rfl | hlater)
    · exact .first h
    · exact .later h hlater

/-- A template that does not split has no token. -/
theorem not_hasToken (h : ∀ before path behind, ¬ Splits t before path behind) (path : String) :
    ¬ HasToken t path := by
  intro htoken
  cases htoken with
  | first h' => exact h _ _ _ h'
  | later h' hlater => exact h _ _ _ h'

/-- A token whose path leads to a value is filled with the text of that value. -/
theorem Resolves.fill_eq {value : Json} (h : Resolves context path value) :
    (Piece.token path).fill context = value.display := by
  obtain ⟨hblank, hlookup⟩ := h
  rw [Text.isBlankText] at hblank
  rw [lookup] at hlookup
  rw [Piece.fill, expand, hlookup, hblank]
  exact String.ofList_toList

/-- A token whose path is blank or leads nowhere is put back. -/
theorem fill_eq_token (h : ∀ value, ¬ Resolves context path value) :
    (Piece.token path).fill context = token path := by
  have hsource : String.ofList ('$' :: '\x7b' :: path.toList ++ ['\x7d']) = token path :=
    String.toList_inj.mp (by rw [String.toList_ofList, toList_token]; rfl)
  rw [Piece.fill, expand]
  split
  · next value hlookup =>
    cases hblank : (Text.trimChars path.toList).isEmpty with
    | true => exact hsource
    | false => exact absurd ⟨hblank, hlookup⟩ (h value)
  · exact hsource

/-! ## Pieces -/

/-- A template falls into pieces, and each of them is filled by itself. -/
theorem exists_pieces (t : String) :
    ∃ ps : List Piece, t = String.join (ps.map Piece.source) ∧
      (∀ path, .token path ∈ ps ↔ HasToken t path) ∧
      ∀ c, interpolate t c = String.join (ps.map (Piece.fill c)) := by
  induction t using scan_induction with
  | plain t h =>
    refine ⟨[.text t], ?_, fun path => ?_, fun c => ?_⟩
    · simp [Piece.source]
    · simp [not_hasToken h path]
    · simp [Piece.fill, interpolate_eq_self h]
  | token t before path behind h ih =>
    obtain ⟨ps, hsource, htokens, hfill⟩ := ih
    refine ⟨.text before :: .token path :: ps, ?_, fun path' => ?_, fun c => ?_⟩
    · rw [h.eq]
      simp [Piece.source, ← hsource, String.append_assoc]
    · rw [h.hasToken_iff]
      simp [htokens]
    · rw [h.interpolate_eq]
      simp [Piece.fill, hfill, String.append_assoc]

/-- A template stays as it is where none of its tokens leads anywhere. -/
theorem interpolate_eq_of_not_resolves
    (h : ∀ path value, HasToken t path → ¬ Resolves context path value) :
    interpolate t context = t := by
  -- A token that leads nowhere is its own replacement, so that the scan puts back what it read.
  induction t using scan_induction with
  | plain t hnone => exact interpolate_eq_self hnone
  | token t before path behind hsplit ih =>
    have hpath := fill_eq_token fun value => h path value (.first hsplit)
    have hbehind := ih fun path' value hlater => h path' value (.later hsplit hlater)
    rw [hsplit.interpolate_eq, hpath, hbehind, ← hsplit.eq]

/-! ## Two templates -/

/-- A template splits in the same place with another one behind it. -/
theorem Splits.append (h : Splits t before path behind) (other : String) :
    Splits (t ++ other) before path (behind ++ other) := by
  obtain ⟨hchars, hplain, hclosed⟩ := splits_iff.mp h
  refine splits_iff.mpr ⟨?_, hplain, hclosed⟩
  rw [String.toList_append, String.toList_append, hchars]
  simp only [List.append_assoc, List.cons_append]

/-- A template without an opening stays as it is in front of another one. -/
theorem interpolate_append_of_isPlain {other : String} (h : IsPlain t.toList)
    (hstraddles : ¬ Straddles t other) :
    interpolate (t ++ other) context = t ++ interpolate other context := by
  apply String.toList_inj.mp
  rw [interpolate, String.toList_append, interpolateChars_append context h]
  · rw [interpolate, String.toList_append, String.toList_ofList, String.toList_ofList]
  · -- An opening that comes about at the seam is what `Straddles` rules out.
    intro front behind ht hother
    refine hstraddles ⟨String.ofList front, String.ofList behind, ?_, ?_⟩
    · apply String.toList_inj.mp
      rw [String.toList_append, String.toList_ofList, ht]
      rfl
    · apply String.toList_inj.mp
      rw [String.toList_append, hother, String.toList_ofList, String.toList_ofList]
      rfl

/-- Two templates are interpolated one after the other where nothing is open at the seam. -/
theorem interpolate_append {other : String} (hopen : ¬ LeavesOpen t)
    (hstraddles : ¬ Straddles t other) :
    interpolate (t ++ other) context = interpolate t context ++ interpolate other context := by
  induction t using scan_induction with
  | plain t h =>
    have hplain : IsPlain t.toList := isPlain_toList_iff.mpr fun front rest ht => by
      subst ht
      exact hopen (.here h)
    rw [interpolate_append_of_isPlain hplain hstraddles, interpolate_eq_self h]
  | token t before path behind h ih =>
    -- What is left open at the end of the rest is left open at the end of the template.
    have hbehind : ¬ Straddles behind other := by
      rintro ⟨front, rest, rfl, hother⟩
      refine hstraddles ⟨before ++ token path ++ front, rest, ?_, hother⟩
      rw [h.eq]
      simp only [String.append_assoc]
    rw [(h.append other).interpolate_eq, ih (fun hlater => hopen (.later h hlater)) hbehind,
      h.interpolate_eq]
    exact String.append_assoc.symm

/-- A template is scanned once, from left to right, for all templates and contexts. -/
theorem interpolate_scansOnce (template : String) (context : Json) :
    ScansOnce template context where
  resolved before path behind value hsplit hresolves := by
    rw [hsplit.interpolate_eq, hresolves.fill_eq]
  unresolved before path behind hsplit hresolves := by
    rw [hsplit.interpolate_eq, fill_eq_token hresolves]
  untouched := interpolate_eq_self
  pieces := exists_pieces template
  unchanged := interpolate_eq_of_not_resolves
  append other := interpolate_append

end Klaxon.Json
