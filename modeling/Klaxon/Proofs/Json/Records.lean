import Klaxon.Vocabulary

/-!
# Documents that read back

A type is lawful if each of its values reads back from its document (`LawfulJson`). For a record
this is a matter of its members, one at a time: the object that is made of them keeps each name once
(`Members.isSorted_ofList`), so that reading it fills the slot of each field with the member of its
name, or leaves it absent (`Record.read_ofList`). The lemmas `Record.required_filled`,
`Record.nullableOr_filled` and so on take a field out of such a slot. What a codec has to add is the
list of its members; `Members.find?_ofList_cons` and its companions find each of them there.
-/

namespace Klaxon

/-- A type whose values read back from their documents, none of which is `null`. -/
class LawfulJson (α : Type) [ToJson α] [FromJson α] : Prop where
  fromJson?_toJson : ∀ a : α, fromJson? (toJson a) = some a
  isNull_toJson : ∀ a : α, (toJson a).isNull = false

export LawfulJson (fromJson?_toJson)

attribute [simp] fromJson?_toJson

namespace Json.Members

/-! ## Objects by their members -/

/-- A member that is set is found, and hides no other one. -/
theorem find?_put (name other : String) (value : Json) (ms : List (String × Json)) :
    find? other (put name value ms) = if name = other then some value else find? other ms := by
  split
  · next h =>
    subst h
    exact find?_put_self name value ms
  · next h => exact find?_put_of_ne h value ms

/-- What is set later on hides what was there. -/
theorem find?_foldl_put (name : String) (ms acc : List (String × Json)) :
    find? name (ms.foldl (fun acc m => put m.1 m.2 acc) acc) =
      (find? name (ofList ms)).or (find? name acc) := by
  unfold ofList
  induction ms generalizing acc with
  | nil => simp [find?]
  | cons m rest ih =>
    rw [List.foldl_cons, List.foldl_cons, ih, ih (put m.1 m.2 []), find?_put, find?_put,
      Option.or_assoc]
    split <;> simp [find?]

/-- Without members none is found. -/
@[simp] theorem find?_ofList_nil (name : String) : find? name (ofList []) = none := rfl

/-- The first member of a list is found unless a later one has its name. -/
@[simp] theorem find?_ofList_cons (name other : String) (value : Json)
    (ms : List (String × Json)) :
    find? other (ofList ((name, value) :: ms)) =
      (find? other (ofList ms)).or (if name = other then some value else none) := by
  have h := find?_foldl_put other ms (put name value [])
  rw [find?_put] at h
  exact h

/-- Later members are found before earlier ones. -/
@[simp] theorem find?_ofList_append (name : String) (ms ms' : List (String × Json)) :
    find? name (ofList (ms ++ ms')) = (find? name (ofList ms')).or (find? name (ofList ms)) := by
  have h := find?_foldl_put name ms' (ofList ms)
  rw [← h]
  unfold ofList
  rw [List.foldl_append]

/-- An optional member is found where there is a value. -/
@[simp] theorem find?_ofList_memberIfSome {α : Type} [ToJson α] (name other : String)
    (value : Option α) :
    find? other (ofList (memberIfSome name value)) =
      if name = other then value.map toJson else none := by
  cases value <;> simp [memberIfSome]

/-- Members stand in the order of their names, each name once. -/
def IsSorted (ms : List (String × Json)) : Prop := (ms.map Prod.fst).Pairwise (· < ·)

/-- Setting a member adds no name but its own. -/
theorem mem_map_fst_put {name other : String} {value : Json} {ms : List (String × Json)}
    (h : other ∈ (put name value ms).map Prod.fst) : other = name ∨ other ∈ ms.map Prod.fst := by
  induction ms with
  | nil => exact .inl (List.mem_singleton.mp h)
  | cons m rest ih =>
    obtain ⟨k, v⟩ := m
    unfold put at h
    -- The member replaces one of its name, stands before the first larger name, or goes further
    -- back.
    split at h
    · next hk => exact .inr (by simpa [hk] using h)
    · split at h
      · simpa using h
      · rcases List.mem_cons.mp h with rfl | h
        · exact .inr List.mem_cons_self
        · exact (ih h).imp id (List.mem_cons_of_mem _)

/-- Setting a member keeps the names sorted. -/
theorem IsSorted.put {ms : List (String × Json)} (h : IsSorted ms) (name : String)
    (value : Json) : IsSorted (Members.put name value ms) := by
  induction ms with
  | nil => exact List.pairwise_singleton _ _
  | cons m rest ih =>
    obtain ⟨k, v⟩ := m
    obtain ⟨hk, hrest⟩ := List.pairwise_cons.mp h
    unfold Members.put
    split
    · next heq => exact .cons (fun x hx => heq ▸ hk x hx) hrest
    · next hne =>
      split
      · next hlt =>
        refine .cons (fun x hx => ?_) h
        rcases List.mem_cons.mp hx with rfl | hx
        · exact hlt
        · exact String.lt_trans hlt (hk x hx)
      · next hge =>
        refine .cons (fun x hx => ?_) (ih hrest)
        rcases mem_map_fst_put hx with rfl | hx
        · -- The order is total: what is neither the name nor behind it comes before it.
          refine Decidable.byContradiction fun hnot => hne ?_
          exact String.le_antisymm (String.not_lt.mp hge) (String.not_lt.mp hnot)
        · exact hk x hx

/-- The members of an object are sorted by their names. -/
theorem isSorted_ofList (ms : List (String × Json)) : IsSorted (ofList ms) :=
  List.foldlRecOn ms _ .nil fun _ h m _ => h.put m.1 m.2

/-- The members of one name are the one that is found. -/
theorem IsSorted.filter_eq {ms : List (String × Json)} (h : IsSorted ms) (name : String) :
    (ms.filter fun m => m.1 == name) = ((find? name ms).map fun v => (name, v)).toList := by
  induction ms with
  | nil => rfl
  | cons m rest ih =>
    obtain ⟨k, v⟩ := m
    obtain ⟨hk, hrest⟩ := List.pairwise_cons.mp h
    rw [List.filter_cons, find?]
    by_cases heq : k = name
    · subst heq
      -- The other names are larger, so none of them is the same.
      have hnone : (rest.filter fun m => m.1 == k) = [] := by
        refine List.filter_eq_nil_iff.mpr fun m hm hsame => ?_
        have hlt := hk m.1 (List.mem_map_of_mem hm)
        rw [beq_iff_eq.mp hsame] at hlt
        exact String.lt_irrefl k hlt
      simp [hnone]
    · simp [heq, ih hrest]

end Json.Members

/-! ## Records by their members -/

/-- A field has the name that it is declared with. -/
@[simp] theorem name_field (name : String) : (field name).name = name := rfl

/-- A field has no other names unless they are declared. -/
@[simp] theorem aliases_field (name : String) : (field name).aliases = [] := rfl

namespace Record

open Json

/-- The slot that members fill. -/
def slotIn (ms : List (String × Json)) (name : String) : Slot :=
  match Members.find? name (Members.ofList ms) with
  | some j => .given j
  | none => .absent

/-- A record whose slots are filled by members. -/
def filled (fields : List Field) (ms : List (String × Json)) : Record :=
  fields.map fun f => (f.name, slotIn ms f.name)

/-- The slot of a field without other names is filled by the member of its name. -/
theorem slotOf_ofList {f : Field} (hf : f.aliases = []) (ms : List (String × Json)) :
    slotOf (Members.ofList ms) f = some (slotIn ms f.name) := by
  have hfilter : ((Members.ofList ms).filter fun m => m.1 == f.name || f.aliases.contains m.1) =
      ((Members.find? f.name (Members.ofList ms)).map fun v => (f.name, v)).toList := by
    rw [← (Members.isSorted_ofList ms).filter_eq, hf]
    simp
  unfold slotOf slotIn
  rw [hfilter]
  cases Members.find? f.name (Members.ofList ms) <;> rfl

/-- An object is read as the record that its members fill. -/
@[simp] theorem read_ofList {fields : List Field} (h : ∀ f ∈ fields, f.aliases = [])
    (ms : List (String × Json)) :
    read fields (.object (Members.ofList ms)) = some (filled fields ms) := by
  show (fields.mapM fun f => do some (f.name, ← slotOf (Members.ofList ms) f)) = _
  induction fields with
  | nil => rfl
  | cons f rest ih =>
    rw [List.mapM_cons, slotOf_ofList (h f List.mem_cons_self),
      ih fun g hg => h g (List.mem_cons_of_mem _ hg)]
    rfl

variable {fields : List Field} {ms : List (String × Json)} {name : String}

/-- A slot of a filled record. -/
theorem slot_filled (hname : name ∈ fields.map Field.name) :
    (filled fields ms).slot name = slotIn ms name := by
  have hlookup : (filled fields ms).lookup name = some (slotIn ms name) := by
    unfold filled
    induction fields with
    | nil => simp at hname
    | cons f rest ih =>
      rw [List.map_cons, List.lookup_cons]
      -- The first field of the name counts, and all fields of one name have the same slot.
      by_cases hf : name = f.name
      · simp [hf]
      · have hne : (name == f.name) = false := beq_eq_false_iff_ne.mpr hf
        rw [hne]
        exact ih ((List.mem_cons.mp hname).resolve_left hf)
  unfold slot
  rw [hlookup]
  rfl

/-- A field that is required is decoded from its member, and missing without one. -/
@[simp] theorem requiredBy_filled {α : Type} (hname : name ∈ fields.map Field.name)
    (decode : Json → Option α) :
    (filled fields ms).requiredBy name decode =
      (Members.find? name (Members.ofList ms)).bind decode := by
  unfold requiredBy
  rw [slot_filled hname, slotIn]
  cases Members.find? name (Members.ofList ms) <;> rfl

/-- A field that is required is read from its member, and missing without one. -/
@[simp] theorem required_filled {α : Type} [FromJson α] (hname : name ∈ fields.map Field.name) :
    ((filled fields ms).required name : Option α) =
      (Members.find? name (Members.ofList ms)).bind fromJson? :=
  requiredBy_filled hname fromJson?

/-- A field with a default is decoded from its member, if there is one. -/
@[simp] theorem withDefaultBy_filled {α : Type} (hname : name ∈ fields.map Field.name) (default : α)
    (decode : Json → Option α) :
    (filled fields ms).withDefaultBy name default decode =
      (Members.find? name (Members.ofList ms)).elim (some default) decode := by
  unfold withDefaultBy
  rw [slot_filled hname, slotIn]
  cases Members.find? name (Members.ofList ms) <;> rfl

/-- A field with a default is read from its member, if there is one. -/
@[simp] theorem withDefault_filled {α : Type} [FromJson α] (hname : name ∈ fields.map Field.name)
    (default : α) :
    (filled fields ms).withDefault name default =
      (Members.find? name (Members.ofList ms)).elim (some default) fromJson? :=
  withDefaultBy_filled hname default fromJson?

/-- A field that may be missing or cut off is read from its member, if there is one. -/
@[simp] theorem nullableOr_filled {α : Type} [FromJson α] (hname : name ∈ fields.map Field.name) :
    ((filled fields ms).nullableOr name : Option (Option α)) =
      (Members.find? name (Members.ofList ms)).elim (some none) fromJson? := by
  unfold nullableOr
  rw [slot_filled hname, slotIn]
  cases Members.find? name (Members.ofList ms) <;> rfl

/-- A field that may be missing is read from its member, if there is one. -/
@[simp] theorem nullable_filled {α : Type} [FromJson α] (hname : name ∈ fields.map Field.name) :
    ((filled fields ms).nullable name : Option (Option α)) =
      (Members.find? name (Members.ofList ms)).elim (some none) fromJson? := by
  unfold nullable
  rw [slot_filled hname, slotIn]
  cases Members.find? name (Members.ofList ms) <;> rfl

/-- A read that succeeds hands its value on. Records are read with this lemma in place of
`Option.bind_eq_bind`: under `Option.bind` the simplifier would go through all the later reads once
more for each read. -/
theorem some_bind {α β : Type} (a : α) (next : α → Option β) : (some a >>= next) = next a := rfl

end Record

/-! ## Values that read back -/

/-- A document is read as itself. -/
@[simp] theorem fromJson?_json (j : Json) : fromJson? j = some j := rfl

/-- A text is read from a string. -/
@[simp] theorem fromJson?_string (s : String) : fromJson? (Json.string s) = some s := rfl

instance : LawfulJson String := ⟨fun _ => rfl, fun _ => rfl⟩

instance : LawfulJson Bool := ⟨fun _ => rfl, fun _ => rfl⟩

/-- A number below a bound is read under that bound. -/
theorem Json.natBelow?_int {bound n : Nat} (h : n < bound) :
    (Json.int n).natBelow? bound = some n := by
  have hin : (0 : Int) ≤ n ∧ (n : Int) < bound := by omega
  simp [natBelow?, intIn?, hin]

instance : LawfulJson UInt16 where
  fromJson?_toJson n := by
    show ((Json.int n.toNat).natBelow? UInt16.size).map UInt16.ofNat = some n
    rw [Json.natBelow?_int n.toNat_lt_size, Option.map_some, UInt16.ofNat_toNat]
  isNull_toJson _ := rfl

instance : LawfulJson UInt32 where
  fromJson?_toJson n := by
    show ((Json.int n.toNat).natBelow? UInt32.size).map UInt32.ofNat = some n
    rw [Json.natBelow?_int n.toNat_lt_size, Option.map_some, UInt32.ofNat_toNat]
  isNull_toJson _ := rfl

instance : LawfulJson UInt64 where
  fromJson?_toJson n := by
    show ((Json.int n.toNat).natBelow? UInt64.size).map UInt64.ofNat = some n
    rw [Json.natBelow?_int n.toNat_lt_size, Option.map_some, UInt64.ofNat_toNat]
  isNull_toJson _ := rfl

/-- An optional value reads back where its document is not taken for `null`. -/
theorem fromJson?_of_not_isNull {α : Type} [FromJson α] {j : Json} (h : j.isNull = false) :
    (fromJson? j : Option (Option α)) = (fromJson? j : Option α).map some := by
  cases j <;> first | rfl | exact absurd h (by decide)

/-- An optional value reads back if the value does, where there is one. -/
theorem fromJson?_toJson_some {α : Type} [ToJson α] [FromJson α] {a : α}
    (hnull : (toJson a).isNull = false) (h : fromJson? (toJson a) = some a) :
    (fromJson? (toJson a) : Option (Option α)) = some (some a) := by
  rw [fromJson?_of_not_isNull hnull, h, Option.map_some]

/-- An optional value reads back if the values of its type do. -/
@[simp] theorem fromJson?_toJson_option {α : Type} [ToJson α] [FromJson α] [LawfulJson α]
    (o : Option α) : fromJson? (toJson o) = some o := by
  cases o with
  | none => rfl
  | some a => exact fromJson?_toJson_some (LawfulJson.isNull_toJson a) (fromJson?_toJson a)

/-- A member that is left out stands for no value. -/
@[simp] theorem elim_fromJson?_toJson {α : Type} [ToJson α] [FromJson α] [LawfulJson α]
    (o : Option α) : o.elim (some none) (fromJson? ∘ toJson) = some o := by
  cases o with
  | none => rfl
  | some a => exact fromJson?_toJson_some (LawfulJson.isNull_toJson a) (fromJson?_toJson a)

/-- A list reads back if its items do. -/
theorem fromJson?_toJson_list {α : Type} [ToJson α] [FromJson α] {as : List α}
    (h : ∀ a ∈ as, fromJson? (toJson a) = some a) : fromJson? (toJson as) = some as := by
  show (as.map toJson).mapM fromJson? = some as
  induction as with
  | nil => rfl
  | cons a rest ih =>
    rw [List.map_cons, List.mapM_cons, h a List.mem_cons_self,
      ih fun b hb => h b (List.mem_cons_of_mem _ hb)]
    rfl

instance {α : Type} [ToJson α] [FromJson α] [LawfulJson α] : LawfulJson (List α) :=
  ⟨fun _ => fromJson?_toJson_list fun a _ => fromJson?_toJson a, fun _ => rfl⟩

/-- An enumeration reads back if each of its names is listed for its value. -/
theorem Json.nameIn?_string {α : Type} {names : List (String × α)} {s : String} {a : α}
    (h : names.lookup s = some a) : Json.nameIn? names (.string s) = some a := h

/-- An enumeration inside a tagged record reads back if each of its names is listed for its value.
-/
theorem Json.nameInTagged?_string {α : Type} {names : List (String × α)} {s : String} {a : α}
    (h : names.lookup s = some a) : Json.nameInTagged? names (.string s) = some a := h

instance : LawfulJson Severity := ⟨fun s => Json.nameIn?_string s.lookup_name, fun _ => rfl⟩

instance : LawfulJson Priority := ⟨fun p => Json.nameIn?_string p.lookup_name, fun _ => rfl⟩

instance : LawfulJson ChannelType := ⟨fun t => Json.nameIn?_string t.lookup_name, fun _ => rfl⟩

end Klaxon
