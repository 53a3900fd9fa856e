import Mathlib.Data.List.DropRight
import Mathlib.Data.List.Forall2
import Klaxon.Transport.Basic

/-!
# Inboxes keep the newest notifications

An inbox is changed by calls: a notification is pushed, a message is delivered, or a notification is
marked as read. `after_keepsNewest` says what every recipient finds after any calls: the newest of
what was added for them, as much as the inbox holds, in the order in which it was added, and changed
only by marks.

A call changes one list, and how it does so depends on that list alone (`list_perform`). So the
calls for other recipients can be left out (`list_after_filter`), and the list follows its history
call by call (`comesFrom_after`): to keep the newest of a list that was cut before is to keep the
newest of all (`newest_concat_newest`).
-/

namespace Klaxon

/-- A notification that was read. -/
def Notification.marked (n : Notification) : Notification := { n with read := true }

/-- A notification is listed as it was added, or marked. -/
def Notification.ComesFrom (listed added : Notification) : Prop :=
  listed = added ∨ listed = added.marked

namespace Inbox

/-- What is asked of an inbox. -/
inductive Call where
  | push (recipient : String) (n : Notification)
  | deliver (d : Delivery) (now : Instant)
  | markRead (recipient messageId : String)

/-- Whose list a call is about. -/
def Call.recipient : Call → String
  | .push recipient _ => recipient
  | .deliver d _ => recipientOf d
  | .markRead recipient _ => recipient

/-- What a call adds to the list. A message is unread; one without a recipient is not added. -/
def Call.added? : Call → Option Notification
  | .push _ n => some n
  | .deliver d now =>
    if (recipientOf d).isEmpty then none
    else some ⟨d.messageId, d.subject, d.body, d.priority, now, false⟩
  | .markRead .. => none

/-- Makes a call. -/
def perform (b : Inbox) : Call → Inbox
  | .push recipient n => b.push recipient n
  | .deliver d now => (b.deliver d now).1
  | .markRead recipient messageId => (b.markRead recipient messageId).1

/-- An inbox after calls, one after the other. -/
def after (capacity : Nat) (calls : List Call) : Inbox :=
  calls.foldl perform (withCapacity capacity)

/-- What calls add for a recipient, in their order. -/
def addedFor (recipient : String) (calls : List Call) : List Notification :=
  (calls.filter fun call => call.recipient = recipient).filterMap Call.added?

/-- What recipients find in an inbox after calls, and what the next call changes. -/
structure KeepsNewest (capacity : Nat) (calls : List Call) : Prop where
  /-- A list is the newest of what was added to it, in its order, and only marks have changed it. -/
  newest : ∀ recipient, List.Forall₂ Notification.ComesFrom
    ((after capacity calls).list recipient)
    ((addedFor recipient calls).rtake (max capacity 1))
  /-- It is the same without the calls for other recipients. -/
  alone : ∀ recipient, (after capacity calls).list recipient =
    (after capacity (calls.filter fun call => call.recipient = recipient)).list recipient
  /-- A call leaves the lists of other recipients alone. -/
  others : ∀ (call : Call) recipient, call.recipient ≠ recipient →
    ((after capacity calls).perform call).list recipient = (after capacity calls).list recipient
  /-- What is added goes to the end, and the oldest makes room for it. -/
  added : ∀ (call : Call) n, call.added? = some n →
    ((after capacity calls).perform call).list call.recipient =
      ((after capacity calls).list call.recipient ++ [n]).rtake (max capacity 1)
  /-- A mark finds the ids that are listed, and no others. -/
  found_iff : ∀ recipient messageId,
    ((after capacity calls).markRead recipient messageId).2 = true ↔
      ∃ n ∈ (after capacity calls).list recipient, n.messageId = messageId
  /-- Of several notifications of an id it marks the oldest. -/
  marked : ∀ recipient front n back,
    (after capacity calls).list recipient = front ++ n :: back →
      (∀ m ∈ front, m.messageId ≠ n.messageId) →
        ((after capacity calls).markRead recipient n.messageId).1.list recipient =
          front ++ n.marked :: back
  /-- A mark that finds nothing changes nothing. -/
  missed : ∀ recipient messageId,
    ((after capacity calls).markRead recipient messageId).2 = false →
      ((after capacity calls).markRead recipient messageId).1 = after capacity calls
  /-- The unread notifications of the list are counted. -/
  unread : ∀ recipient, (after capacity calls).unreadCount recipient =
    (((after capacity calls).list recipient).filter fun n => n.read = false).length

/-! ## The newest of a list -/

/-- The newest notifications are the last ones. -/
theorem newest_eq_rtake (capacity : Nat) (ns : List Notification) :
    newest capacity ns = ns.rtake capacity := rfl

/-- What was cut off before does not come back behind one more. -/
theorem newest_concat_newest (ns : List Notification) (n : Notification) {k : Nat} (h : 1 ≤ k) :
    newest k (newest k ns ++ [n]) = newest k (ns ++ [n]) := by
  have hcut : newest k ns ++ [n] = (ns ++ [n]).drop (ns.length - k) :=
    (List.drop_append_of_le_length (Nat.sub_le ns.length k)).symm
  have hlength : (newest k ns ++ [n]).length = min ns.length k + 1 := by
    rw [newest, List.length_append, List.length_drop, List.length_singleton]
    omega
  have hall : (ns ++ [n]).length = ns.length + 1 := List.length_append
  rw [newest, hlength, hcut, List.drop_drop, newest, hall]
  congr 1
  omega

/-- Two lists that correspond have the same newest part, as they are of one length. -/
theorem forall₂_rtake {as bs : List Notification} (h : List.Forall₂ Notification.ComesFrom as bs)
    (k : Nat) : List.Forall₂ Notification.ComesFrom (as.rtake k) (bs.rtake k) := by
  rw [List.rtake, List.rtake, h.length_eq]
  exact List.forall₂_drop _ h

/-! ## Marks -/

/-- A mark finds nothing exactly if no notification has its id. -/
theorem markFirst_eq_none_iff {messageId : String} {ns : List Notification} :
    markFirst messageId ns = none ↔ ∀ n ∈ ns, n.messageId ≠ messageId := by
  induction ns with
  | nil => simp [markFirst]
  | cons n ns ih =>
    rw [markFirst, List.forall_mem_cons]
    by_cases hid : n.messageId = messageId
    · simp [hid]
    · rw [if_neg hid, Option.map_eq_none_iff, ih]
      simp [hid]

/-- A mark goes to the first notification of its id and leaves the others as they are. -/
theorem markFirst_append {front : List Notification} {n : Notification}
    (h : ∀ m ∈ front, m.messageId ≠ n.messageId) (back : List Notification) :
    markFirst n.messageId (front ++ n :: back) = some (front ++ n.marked :: back) := by
  induction front with
  | nil => simp [markFirst, Notification.marked]
  | cons m front ih =>
    obtain ⟨hm, hfront⟩ := List.forall_mem_cons.mp h
    rw [List.cons_append, markFirst, if_neg hm, ih hfront]
    rfl

/-- A mark keeps what a list comes from. -/
theorem forall₂_markFirst {messageId : String} {ns ms added : List Notification}
    (h : List.Forall₂ Notification.ComesFrom ns added) (hmark : markFirst messageId ns = some ms) :
    List.Forall₂ Notification.ComesFrom ms added := by
  induction h generalizing ms with
  | nil => cases hmark
  | @cons n a ns added hn hns ih =>
    rw [markFirst] at hmark
    split at hmark
    · -- The mark goes to the first notification of the list.
      cases hmark
      refine .cons (.inr ?_) hns
      rcases hn with rfl | rfl <;> rfl
    · -- It goes to one behind, and the first one keeps where it comes from.
      obtain ⟨ms, hms, rfl⟩ := Option.map_eq_some_iff.mp hmark
      exact .cons hn (ih hms)

/-! ## One call -/

/-- What a call that adds nothing makes of the list that it is about. -/
def Call.mark (ns : List Notification) : Call → List Notification
  | .markRead _ messageId => (markFirst messageId ns).getD ns
  | .push .. | .deliver .. => ns

/-- What a call makes of the list that it is about. -/
def Call.change (capacity : Nat) (ns : List Notification) (call : Call) : List Notification :=
  match call.added? with
  | some n => newest capacity (ns ++ [n])
  | none => call.mark ns

/-- An entry that is set is the list of its recipient, and the others are as they were. -/
theorem list_setEntry (b : Inbox) (recipient other : String) (ns : List Notification) :
    list { b with entries := setEntry recipient ns b.entries } other =
      if recipient = other then ns else b.list other := by
  split
  · next h => rw [← h, list, lookup_setEntry_self, Option.getD_some]
  · next h => rw [list, lookup_setEntry_of_ne h, list]

/-- A push adds to the list of its recipient and cuts it, and leaves the others alone. -/
theorem list_push (b : Inbox) (recipient other : String) (n : Notification) :
    (b.push recipient n).list other =
      if recipient = other then newest b.capacity (b.list other ++ [n]) else b.list other := by
  rw [push, list_setEntry]
  split
  · next h => rw [h]
  · rfl

/-- A mark is made in the list of its recipient, and leaves the others alone. -/
theorem list_markRead (b : Inbox) (recipient other messageId : String) :
    (b.markRead recipient messageId).1.list other =
      if recipient = other then (markFirst messageId (b.list other)).getD (b.list other)
      else b.list other := by
  rw [markRead]
  by_cases h : recipient = other
  · subst h
    rw [if_pos rfl]
    cases hmark : markFirst messageId (b.list recipient) with
    | none => rfl
    | some ns => exact (list_setEntry b recipient recipient ns).trans (if_pos rfl)
  · rw [if_neg h]
    cases hmark : markFirst messageId (b.list recipient) with
    | none => rfl
    | some ns => exact (list_setEntry b recipient other ns).trans (if_neg h)

/-- A call changes the list of its recipient and no other. -/
theorem list_perform (b : Inbox) (call : Call) (other : String) :
    (b.perform call).list other =
      if call.recipient = other then call.change b.capacity (b.list other) else b.list other := by
  cases call with
  | push recipient n => exact list_push b recipient other n
  | deliver d now =>
    rw [perform, deliver, Call.recipient, Call.change, Call.added?]
    -- A message without a recipient changes nothing, and every other one is a push.
    by_cases hempty : (recipientOf d).isEmpty
    · simp [hempty, Call.mark]
    · simp [hempty, list_push]
  | markRead recipient messageId => exact list_markRead b recipient other messageId

/-- No call changes how much an inbox holds. -/
theorem capacity_perform (b : Inbox) (call : Call) : (b.perform call).capacity = b.capacity := by
  cases call with
  | push recipient n => rfl
  | deliver d now =>
    rw [perform, deliver]
    split <;> rfl
  | markRead recipient messageId =>
    rw [perform, markRead]
    split <;> rfl

/-! ## Any calls -/

/-- The last call is made on what the others left. -/
theorem after_concat (capacity : Nat) (calls : List Call) (call : Call) :
    after capacity (calls ++ [call]) = (after capacity calls).perform call := by
  rw [after, List.foldl_append]
  rfl

/-- An inbox always holds at least one notification. -/
theorem capacity_after (capacity : Nat) (calls : List Call) :
    (after capacity calls).capacity = max capacity 1 := by
  induction calls using List.reverseRecOn with
  | nil => exact Nat.max_comm 1 capacity
  | append_singleton calls call ih => rw [after_concat, capacity_perform, ih]

/-- Calls for other recipients can be left out. -/
theorem list_after_filter (capacity : Nat) (calls : List Call) (recipient : String) :
    (after capacity calls).list recipient =
      (after capacity (calls.filter fun call => call.recipient = recipient)).list recipient := by
  induction calls using List.reverseRecOn with
  | nil => rfl
  | append_singleton calls call ih =>
    rw [after_concat, list_perform, List.filter_append]
    -- The last call is made on both sides, or it has no effect on this list.
    by_cases hcall : call.recipient = recipient
    · have hone : [call].filter (fun call => call.recipient = recipient) = [call] := by simp [hcall]
      rw [if_pos hcall, hone, after_concat, list_perform, if_pos hcall, capacity_after,
        capacity_after, ih]
    · have hnone : [call].filter (fun call => call.recipient = recipient) = [] := by simp [hcall]
      rw [if_neg hcall, hnone, List.append_nil, ih]

/-- The last call adds what it adds, if it is for the recipient. -/
theorem addedFor_concat (recipient : String) (calls : List Call) (call : Call) :
    addedFor recipient (calls ++ [call]) = addedFor recipient calls ++
      if call.recipient = recipient then call.added?.toList else [] := by
  rw [addedFor, List.filter_append, List.filterMap_append, addedFor]
  by_cases hcall : call.recipient = recipient
  · cases hadded : call.added? <;> simp [hcall, hadded]
  · simp [hcall]

/-- A list follows its history: each call makes the same of both. -/
theorem Call.comesFrom_change {call : Call} {ns added : List Notification} {k : Nat} (hk : 1 ≤ k)
    (h : List.Forall₂ Notification.ComesFrom ns (added.rtake k)) :
    List.Forall₂ Notification.ComesFrom (call.change k ns)
      ((added ++ call.added?.toList).rtake k) := by
  have hadd : ∀ n, List.Forall₂ Notification.ComesFrom (newest k (ns ++ [n]))
      ((added ++ [n]).rtake k) := by
    intro n
    -- What is added corresponds to itself, and both lists are cut to the same length.
    have hconcat : List.Forall₂ Notification.ComesFrom (ns ++ [n]) (added.rtake k ++ [n]) :=
      List.rel_append h (.cons (.inl rfl) .nil)
    rw [← newest_eq_rtake k (added ++ [n]), ← newest_concat_newest added n hk]
    exact forall₂_rtake hconcat k
  rw [change]
  cases hadded : call.added? with
  | some n => exact hadd n
  | none =>
    -- What adds nothing is a mark, or a message without a recipient.
    rw [Option.toList_none, List.append_nil]
    cases call with
    | push | deliver => exact h
    | markRead recipient messageId =>
      rw [mark]
      cases hmark : markFirst messageId ns with
      | none => exact h
      | some ms => exact forall₂_markFirst h hmark

/-- After any calls a list is the newest of what was added to it, but for the marks. -/
theorem comesFrom_after (capacity : Nat) (calls : List Call) (recipient : String) :
    List.Forall₂ Notification.ComesFrom ((after capacity calls).list recipient)
      ((addedFor recipient calls).rtake (max capacity 1)) := by
  induction calls using List.reverseRecOn with
  | nil =>
    have hnone : (addedFor recipient []).rtake (max capacity 1) = [] := List.rtake_nil _
    rw [hnone]
    exact .nil
  | append_singleton calls call ih =>
    rw [after_concat, list_perform, addedFor_concat, capacity_after]
    split
    · -- The call is for the recipient, and changes the list as its history says.
      exact Call.comesFrom_change (Nat.le_max_right capacity 1) ih
    · -- It is for another one, and adds nothing to either.
      rwa [List.append_nil]

/-- A mark reports that it found something exactly if the id is listed. -/
theorem markRead_found_iff (b : Inbox) (recipient messageId : String) :
    (b.markRead recipient messageId).2 = true ↔
      ∃ n ∈ b.list recipient, n.messageId = messageId := by
  rw [markRead]
  cases hmark : markFirst messageId (b.list recipient) with
  | none =>
    have hnone := markFirst_eq_none_iff.mp hmark
    constructor
    · intro h
      cases h
    · rintro ⟨n, hn, hid⟩
      exact absurd hid (hnone n hn)
  | some ns =>
    have hsome : ¬ ∀ n ∈ b.list recipient, n.messageId ≠ messageId := by
      rw [← markFirst_eq_none_iff, hmark]
      exact Option.some_ne_none ns
    simp only [not_forall, not_not, exists_prop] at hsome
    exact iff_of_true rfl hsome

/-- A mark that found nothing leaves the inbox as it is. -/
theorem markRead_eq_of_missed {b : Inbox} {recipient messageId : String}
    (h : (b.markRead recipient messageId).2 = false) :
    (b.markRead recipient messageId).1 = b := by
  rw [markRead] at h ⊢
  cases hmark : markFirst messageId (b.list recipient) with
  | none => rfl
  | some ns =>
    rw [hmark] at h
    cases h

/-- After any calls every recipient finds the newest of what was added for them. -/
theorem after_keepsNewest (capacity : Nat) (calls : List Call) : KeepsNewest capacity calls where
  newest := comesFrom_after capacity calls
  alone := list_after_filter capacity calls
  others call recipient h := by rw [list_perform, if_neg h]
  added call n h := by
    rw [list_perform, if_pos rfl, capacity_after, Call.change]
    simp only [h, newest_eq_rtake]
  found_iff := markRead_found_iff (after capacity calls)
  marked recipient front n back hlist hfront := by
    rw [list_markRead, if_pos rfl, hlist, markFirst_append hfront, Option.getD_some]
  missed recipient messageId h := markRead_eq_of_missed h
  unread recipient := by
    rw [unreadCount, List.countP_eq_length_filter]
    simp

end Inbox

end Klaxon
