import Klaxon.Vocabulary

/-!
# Lanes

One queue of message ids per priority. `Lanes.push` puts an id at the end of its lane and
`Lanes.pull` takes ids from the front; `get_push` and `get_pull` say what this does to each lane.
-/

namespace Klaxon

/-- One value per priority. -/
structure PerPriority (α : Type) where
  immediate : α
  high : α
  normal : α
  low : α
  batch : α

namespace PerPriority

variable {α : Type}

/-- The same value for each priority. -/
def replicate (a : α) : PerPriority α := ⟨a, a, a, a, a⟩

/-- The value of a priority. -/
def get (v : PerPriority α) : Priority → α
  | .immediate => v.immediate
  | .high => v.high
  | .normal => v.normal
  | .low => v.low
  | .batch => v.batch

/-- Sets the value of a priority. -/
def set (v : PerPriority α) (p : Priority) (a : α) : PerPriority α :=
  match p with
  | .immediate => { v with immediate := a }
  | .high => { v with high := a }
  | .normal => { v with normal := a }
  | .low => { v with low := a }
  | .batch => { v with batch := a }

/-- Changes the value of a priority. -/
def modify (v : PerPriority α) (p : Priority) (f : α → α) : PerPriority α := v.set p (f (v.get p))

/-- One value for all priorities is the value of each. -/
@[simp] theorem get_replicate (a : α) (p : Priority) : (replicate a).get p = a := by
  cases p <;> rfl

/-- A value that was set is there. -/
@[simp] theorem get_set_self (v : PerPriority α) (p : Priority) (a : α) :
    (v.set p a).get p = a := by
  cases p <;> rfl

/-- The values of the other priorities stay when one is set. -/
theorem get_set_of_ne (v : PerPriority α) {p q : Priority} (h : q ≠ p) (a : α) :
    (v.set p a).get q = v.get q := by
  cases p <;> cases q <;> first | rfl | exact absurd rfl h

/-- The values as members of a document. -/
def toJsonBy (v : PerPriority α) (value : α → Json) : Json :=
  Json.ofMembers (Priority.all.map fun p => (p.name, value (v.get p)))

end PerPriority

/-- The ids that wait, by priority, the oldest first. -/
abbrev Lanes := PerPriority (List String)

namespace Lanes

/-- No ids. -/
def empty : Lanes := .replicate []

/-- Puts an id at the end of a lane. -/
def push (l : Lanes) (p : Priority) (id : String) : Lanes := l.modify p (· ++ [id])

/-- Takes up to `count` ids from the front of a lane. -/
def pull (l : Lanes) (p : Priority) (count : Nat) : Lanes × List String :=
  (l.modify p (·.drop count), (l.get p).take count)

/-- The number of ids in a lane. -/
def depth (l : Lanes) (p : Priority) : Nat := (l.get p).length

/-- The number of ids in all lanes. -/
def total (l : Lanes) : Nat := (Priority.all.map l.depth).foldl (· + ·) 0

/-- The number of ids in each lane, as a document. -/
def depths (l : Lanes) : Json := l.toJsonBy fun ids => toJson ids.length

/-- A pushed id is the last of its lane, and the other lanes stay. -/
theorem get_push (l : Lanes) (p q : Priority) (id : String) :
    (l.push p id).get q = if q = p then l.get q ++ [id] else l.get q := by
  unfold push PerPriority.modify
  split
  · next h => subst h; simp
  · next h => exact PerPriority.get_set_of_ne _ h _

/-- A pull shortens its lane, and the other lanes stay. -/
theorem get_pull (l : Lanes) (p q : Priority) (count : Nat) :
    (l.pull p count).1.get q = if q = p then (l.get q).drop count else l.get q := by
  unfold pull PerPriority.modify
  split
  · next h => subst h; simp
  · next h => exact PerPriority.get_set_of_ne _ h _

/-- What a pull takes and what it leaves make up the lane. -/
theorem pull_append (l : Lanes) (p : Priority) (count : Nat) :
    (l.pull p count).2 ++ (l.pull p count).1.get p = l.get p := by
  rw [get_pull, if_pos rfl]
  exact List.take_append_drop count (l.get p)

end Lanes

end Klaxon
