import Klaxon.Time.Text
import Klaxon.Vocabulary

/-!
# In-app inboxes

An inbox keeps the newest notifications of each recipient, up to its capacity, the oldest first. A
notification is unread until it is marked.
-/

namespace Klaxon

/-- A notification in an inbox. -/
structure Notification where
  messageId : String
  title : String
  body : String
  priority : Priority
  createdAt : Instant
  read : Bool

namespace Notification

/-- A notification as a document, without the time at which it was made. -/
def brief (n : Notification) : Json := Json.ofMembers
  [("message_id", toJson n.messageId), ("title", toJson n.title), ("body", toJson n.body),
    ("priority", toJson n.priority), ("read", toJson n.read)]

end Notification

/-- The notifications of recipients. -/
structure Inbox where
  /-- The most notifications that are kept for a recipient. -/
  capacity : Nat
  entries : List (String × List Notification)

namespace Inbox

/-- The capacity where none is given. -/
def standardCapacity : Nat := 200

/-- An empty inbox; it holds at least one notification for each recipient. -/
def withCapacity (capacity : Nat) : Inbox := ⟨max 1 capacity, []⟩

/-- The notifications of a recipient. -/
def list (b : Inbox) (recipient : String) : List Notification :=
  (b.entries.lookup recipient).getD []

/-- Sets the notifications of a recipient. -/
def setEntry (recipient : String) (ns : List Notification) :
    List (String × List Notification) → List (String × List Notification)
  | [] => [(recipient, ns)]
  | (k, old) :: rest =>
    if k = recipient then (recipient, ns) :: rest else (k, old) :: setEntry recipient ns rest

/-- Keeps the newest notifications. -/
def newest (capacity : Nat) (ns : List Notification) : List Notification :=
  ns.drop (ns.length - capacity)

/-- Adds a notification for a recipient. -/
def push (b : Inbox) (recipient : String) (n : Notification) : Inbox :=
  -- The oldest notification makes room, whether or not it was read.
  { b with entries := setEntry recipient (newest b.capacity (b.list recipient ++ [n])) b.entries }

/-- The number of unread notifications of a recipient. -/
def unreadCount (b : Inbox) (recipient : String) : Nat :=
  (b.list recipient).countP fun n => !n.read

/-- Marks the oldest notification of an id as read, if there is one. -/
def markFirst (messageId : String) : List Notification → Option (List Notification)
  | [] => none
  | n :: rest =>
    if n.messageId = messageId then some ({ n with read := true } :: rest)
    else (markFirst messageId rest).map (n :: ·)

/-- Marks a notification of a recipient as read; tells whether it was there. -/
def markRead (b : Inbox) (recipient messageId : String) : Inbox × Bool :=
  match markFirst messageId (b.list recipient) with
  | some ns => ({ b with entries := setEntry recipient ns b.entries }, true)
  | none => (b, false)

/-- The notifications set last are found. -/
theorem lookup_setEntry_self (recipient : String) (ns : List Notification)
    (entries : List (String × List Notification)) :
    (setEntry recipient ns entries).lookup recipient = some ns := by
  induction entries with
  | nil => simp [setEntry]
  | cons e rest ih =>
    obtain ⟨k, old⟩ := e
    rw [setEntry]
    split
    · simp
    · next h =>
      have hne : (recipient == k) = false := by simpa using fun hk => h hk.symm
      simpa [List.lookup_cons, hne] using ih

/-- Setting the notifications of a recipient leaves those of the others alone. -/
theorem lookup_setEntry_of_ne {recipient other : String} (h : recipient ≠ other)
    (ns : List Notification) (entries : List (String × List Notification)) :
    (setEntry recipient ns entries).lookup other = entries.lookup other := by
  have hne : (other == recipient) = false := by simpa using fun ho => h ho.symm
  induction entries with
  | nil => simp [setEntry, List.lookup_cons, hne]
  | cons e rest ih =>
    obtain ⟨k, old⟩ := e
    rw [setEntry]
    split
    · next hk => simp [List.lookup_cons, hk, hne]
    · simp [List.lookup_cons, ih]

end Inbox

end Klaxon
