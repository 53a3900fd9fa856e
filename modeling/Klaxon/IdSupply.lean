/-!
# Supplies of ids

Messages and alerts get their ids from a generator that never gives an id twice. Which ids it gives
is its own affair, so an engine holds an `IdSupply`: the id of each message and of each alert, in
the order in which they are made, with the promise that all of them differ. `IdSupply.numbered` is
the supply of those who want to read the ids: `m1`, `m2` and so on for messages, `a1`, `a2` for
alerts.
-/

namespace Klaxon

/-- What gets an id. -/
inductive IdKind where
  | message
  | alert
  deriving DecidableEq

/-- A generator of ids. -/
structure IdSupply where
  /-- The id of what is made of a kind as number `n`. -/
  id : IdKind → Nat → String
  /-- No id is given twice. -/
  unique : ∀ {k l : IdKind} {m n : Nat}, id k m = id l n → k = l ∧ m = n

/-- A number can be read off its digits. -/
theorem toString_injective {j k : Nat} (h : toString j = toString k) : j = k := by
  have hrepr : j.repr = k.repr := h
  have hj := Nat.ofDigitChars_ten_toDigits (n := j)
  have hk := Nat.ofDigitChars_ten_toDigits (n := k)
  rw [← Nat.toList_repr] at hj hk
  rw [← hj, ← hk, hrepr]

namespace IdSupply

/-- The letter in front of the numbers of a kind. -/
def letter : IdKind → Char
  | .message => 'm'
  | .alert => 'a'

/-- The letters of the kinds differ. -/
theorem letter_injective {k l : IdKind} (h : letter k = letter l) : k = l := by
  cases k <;> cases l <;> first | rfl | exact absurd h (by decide)

/-- The ids that are a letter for the kind and a number. -/
def numbered : IdSupply where
  id k n := String.singleton (letter k) ++ toString n
  unique {k l m n} h := by
    have hchars := congrArg String.toList h
    simp only [String.toList_append, String.toList_singleton, List.singleton_append,
      List.cons.injEq] at hchars
    exact ⟨letter_injective hchars.1, toString_injective (String.toList_inj.mp hchars.2)⟩

end IdSupply

instance : Inhabited IdSupply := ⟨.numbered⟩

end Klaxon
