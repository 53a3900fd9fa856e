import Klaxon.Message.Basic
import Klaxon.Proofs.Json.Records

/-!
# Messages as documents

A message reads back from its document in all that it holds: its status, every attempt, the fields
that are left out or written as `null` where they have no value, and its context. Only instants are
taken on trust: `Message.readsBack_of_instants` asks that those of the message read back from their
texts.
-/

namespace Klaxon

instance : LawfulJson TextFormat := ⟨fun f => Json.nameIn?_string f.lookup_name, fun _ => rfl⟩

instance : LawfulJson Status := ⟨fun s => Json.nameIn?_string s.lookup_name, fun _ => rfl⟩

instance : LawfulJson Outcome := ⟨fun o => Json.nameIn?_string o.lookup_name, fun _ => rfl⟩

namespace Addressee

instance : LawfulJson Addressee where
  fromJson?_toJson a := by
    unfold instToJson instFromJson
    simp [-Option.bind_eq_bind, Record.some_bind, Json.ofMembers]
  isNull_toJson _ := rfl

end Addressee

/-- An instant that its text is read as. -/
def Instant.ReadsBack (t : Instant) : Prop := fromJson? (toJson t) = some t

instance (t : Instant) : Decidable t.ReadsBack :=
  inferInstanceAs (Decidable (fromJson? (toJson t) = some t))

namespace Attempt

/-- An attempt reads back if its time does. -/
theorem fromJson?_toJson {a : Attempt} (h : a.attemptedAt.ReadsBack) :
    fromJson? (toJson a) = some a := by
  have hat : fromJson? (toJson a.attemptedAt) = some a.attemptedAt := h
  unfold instToJson instFromJson
  -- With proofs of its own for each step nobody has to compute with the bounds of the numbers.
  simp -implicitDefEqProofs [-Option.bind_eq_bind, Record.some_bind, fields, Json.ofMembers, hat]

end Attempt

namespace Message

/-- The instants that a message tells. -/
def instants (m : Message) : List Instant :=
  m.scheduledAt :: m.createdAt :: (m.deliveredAt.toList ++ m.attempts.map Attempt.attemptedAt)

/-- A message reads back if its instants do. -/
theorem fromJson?_toJson {m : Message} (h : ∀ t ∈ m.instants, t.ReadsBack) :
    fromJson? (toJson m) = some m := by
  have hscheduled : fromJson? (toJson m.scheduledAt) = some m.scheduledAt :=
    h _ List.mem_cons_self
  have hcreated : fromJson? (toJson m.createdAt) = some m.createdAt :=
    h _ (List.mem_cons_of_mem _ List.mem_cons_self)
  have hdelivered : m.deliveredAt.elim (some none) (fromJson? ∘ toJson) = some m.deliveredAt := by
    cases hd : m.deliveredAt with
    | none => rfl
    | some t =>
      have ht : t.ReadsBack := h t (by simp [instants, hd])
      exact fromJson?_toJson_some rfl ht
  have hattempts : fromJson? (toJson m.attempts) = some m.attempts := by
    refine fromJson?_toJson_list fun a ha => Attempt.fromJson?_toJson (h a.attemptedAt ?_)
    have hmem : a.attemptedAt ∈ m.attempts.map Attempt.attemptedAt := List.mem_map_of_mem ha
    simp [instants, hmem]
  unfold instToJson instFromJson
  simp -implicitDefEqProofs [-Option.bind_eq_bind, Record.some_bind, fields, briefMembers,
    Json.ofMembers, hscheduled, hcreated, hdelivered, hattempts]

/-- A message whose instants read back from their texts reads back from its document, equal in all
fields and so in what is derived from them. -/
theorem readsBack_of_instants {m : Message} (h : ∀ t ∈ m.instants, t.ReadsBack) :
    ∃ again : Message, fromJson? (toJson m) = some again ∧ again = m ∧
      again.updatedAt = m.updatedAt ∧ again.isRendered = m.isRendered ∧
      again.nextAttemptNumber = m.nextAttemptNumber :=
  ⟨m, fromJson?_toJson h, rfl, rfl, rfl, rfl⟩

/-- A message that was retried and then delivered, with some optional fields set and some not. -/
def parcel : Message :=
  { id := "m1", alertId := none, channelId := "mail", channelType := .email
    recipient := ⟨"guard", "Guard", "guard@example.com"⟩, templateId := "brief"
    subject := some "Heat", body := none, format := .html, priority := .high
    scheduledAt := ⟨1772353800500000000, false⟩, status := .delivered
    attempts :=
      [⟨1, ⟨1772353800000000000, false⟩, .retry, none, none, some "busy", 3, some 500⟩,
        ⟨2, ⟨1772353800500000000, false⟩, .success, some 250, some "", none, 7, none⟩]
    context := .object [("a", .null), ("b", .array [.float 0.5, .int (-1)])]
    createdAt := ⟨1772353800000000000, false⟩, deliveredAt := some ⟨1772353800507000001, false⟩ }

/-- Its instants read back, down to the nanosecond, and so does the message. -/
theorem parcel_readsBack : (∀ t ∈ parcel.instants, t.ReadsBack) ∧
    ∃ again : Message, fromJson? (toJson parcel) = some again ∧ again = parcel ∧
      again.updatedAt = parcel.updatedAt ∧ again.isRendered = parcel.isRendered ∧
      again.nextAttemptNumber = parcel.nextAttemptNumber := by
  have h : ∀ t ∈ parcel.instants, t.ReadsBack := by decide +kernel
  exact ⟨h, readsBack_of_instants h⟩

end Message

end Klaxon
