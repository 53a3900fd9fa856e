import Klaxon.Dispatch.Policy
import Klaxon.Message.Recipient

/-!
# Recipient budgets

A recipient may bound the alert messages it gets within an hour and within a day. Each message takes
a slot, a time that it may go out at; the slots of a recipient are kept in order for a day. Beyond
the bounds a message is dropped, or it is deferred to the first slot at which the oldest one in its
way leaves the window.
-/

namespace Klaxon

/-- A bound on the slots within a window of time. -/
structure Budget where
  limit : Nat
  window : Int

namespace Budget

/-- The budget of a bound; a bound of zero is none. -/
def ofLimit? (limit : Option UInt32) (window : Int) : Option Budget :=
  match limit with
  | some n => if n = 0 then none else some ⟨n.toNat, window⟩
  | none => none

/-- The budgets of a recipient. -/
def ofRecipient (r : Recipient) : List Budget :=
  (ofLimit? r.maxPerHour Time.hour).toList ++ (ofLimit? r.maxPerDay Time.day).toList

/-- When a budget has room again, if it has none now. -/
def reopensAt? (b : Budget) (slots : List Instant) (now : Instant) : Option Instant :=
  -- Slots to come count, too: messages that were deferred hold their places.
  let inWindow := slots.filter fun t => decide (now.sub b.window < t)
  if b.limit ≤ inWindow.length then
    -- Room comes back when so few slots are left in the window that one more fits.
    (inWindow[inWindow.length - b.limit]?).map fun t => t.add b.window
  else none

/-- The latest time at which one of the budgets has room again, if one has none now. -/
def latestReopening? (budgets : List Budget) (slots : List Instant) (now : Instant) :
    Option Instant :=
  budgets.foldl
    (fun latest b =>
      match latest, b.reopensAt? slots now with
      | none, t => t
      | some t, none => some t
      | some t, some u => some (t.later u))
    none

/-- Drops the slots up to a day ago. -/
def forget (slots : List Instant) (now : Instant) : List Instant :=
  slots.dropWhile fun t => decide (t ≤ now.sub Time.day)

/-- Puts a slot behind those that are not later. -/
def insertSlot (slot : Instant) : List Instant → List Instant
  | [] => [slot]
  | t :: rest => if t ≤ slot then t :: insertSlot slot rest else slot :: t :: rest

/-- Takes a slot: the slots that follow, and the slot unless the message is dropped. -/
def takeSlot (budgets : List Budget) (overflow : Overflow) (slots : List Instant)
    (now : Instant) : List Instant × Option Instant :=
  let slots := forget slots now
  match latestReopening? budgets slots now with
  | none => (insertSlot now slots, some now)
  | some t =>
    -- What is dropped takes no slot, and what is deferred takes the one that it waits for.
    match overflow with
    | .drop => (slots, none)
    | .defer => (insertSlot t slots, some t)

end Budget

/-- The slots that recipients have taken, by the id of the recipient. -/
abbrev SlotBook := List (String × List Instant)

namespace SlotBook

/-- The slots of a recipient. -/
def get (b : SlotBook) (id : String) : List Instant := (b.lookup id).getD []

/-- Sets the slots of a recipient. -/
def set (b : SlotBook) (id : String) (slots : List Instant) : SlotBook :=
  match b with
  | [] => [(id, slots)]
  | (k, old) :: rest => if k = id then (id, slots) :: rest else (k, old) :: set rest id slots

/-- Takes a slot for a recipient. A recipient without budgets needs none. -/
def reserve (b : SlotBook) (r : Recipient) (overflow : Overflow) (now : Instant) :
    SlotBook × Option Instant :=
  match Budget.ofRecipient r with
  | [] => (b, some now)
  | budgets =>
    let (slots, slot) := Budget.takeSlot budgets overflow (b.get r.id) now
    (b.set r.id slots, slot)

/-- The slots set last are found. -/
@[simp] theorem get_set_self (b : SlotBook) (id : String) (slots : List Instant) :
    (b.set id slots).get id = slots := by
  unfold get
  induction b with
  | nil => simp [set]
  | cons e rest ih =>
    obtain ⟨k, old⟩ := e
    rw [set]
    split
    · simp
    · next h =>
      have hne : (id == k) = false := by simpa using fun hk => h hk.symm
      simpa [List.lookup_cons, hne] using ih

end SlotBook

end Klaxon
