import Klaxon.Dispatch.Budget

/-!
# Slots in a window of time

A budget is kept by a list of slots if no window of its length holds more of them than its limit.
`takeSlot_spec` says that a slot is only taken where fewer than that many slots lie behind the start
of the window that ends with it; a slot like this can be added to a list that keeps the budget
(`IsKept.concat`), wherever the other slots lie. What was forgotten is a day old, and so does not
count for a window that ends now or later (`countAfter_forget`).
-/

namespace Klaxon

namespace Instant

/-- The later of two instants is no earlier than the first. -/
theorem le_later_left (a b : Instant) : a ≤ a.later b := by
  unfold later
  split
  · exact Int.le_refl _
  · next h => exact Int.not_lt.mp h

/-- The later of two instants is no earlier than the second. -/
theorem le_later_right (a b : Instant) : b ≤ a.later b := by
  unfold later
  split
  · next h => exact Int.le_of_lt h
  · exact Int.le_refl _

/-- What is no earlier than two instants is no earlier than the later one. -/
theorem later_le {a b s : Instant} (ha : a ≤ s) (hb : b ≤ s) : a.later b ≤ s := by
  unfold later
  split
  · exact ha
  · exact hb

end Instant

/-- How many slots lie behind an instant. -/
def countAfter (start : Instant) (slots : List Instant) : Nat :=
  slots.countP fun s => decide (start < s)

/-- The number of slots from one instant, which is left out, to another. -/
def countWithin (start stop : Instant) (slots : List Instant) : Nat :=
  slots.countP fun s => decide (start < s) && decide (s ≤ stop)

/-- A slot at the front counts if it lies behind the instant. -/
theorem countAfter_cons (start s : Instant) (slots : List Instant) :
    countAfter start (s :: slots) = countAfter start slots + if start < s then 1 else 0 := by
  simp [countAfter, List.countP_cons]

/-- A slot at the end counts if it lies behind the instant. -/
theorem countAfter_concat (start s : Instant) (slots : List Instant) :
    countAfter start (slots ++ [s]) = countAfter start slots + if start < s then 1 else 0 := by
  simp [countAfter, List.countP_singleton]

/-- An earlier start leaves no slot out. -/
theorem countAfter_mono {start start' : Instant} (h : start ≤ start') (slots : List Instant) :
    countAfter start' slots ≤ countAfter start slots := by
  refine List.countP_mono_left fun s _ hs => ?_
  simp only [decide_eq_true_eq, Instant.lt_def, Instant.le_def] at *
  omega

/-- A window holds no more than what lies behind its start. -/
theorem countWithin_le {start start' : Instant} (h : start ≤ start') (stop : Instant)
    (slots : List Instant) : countWithin start' stop slots ≤ countAfter start slots := by
  refine List.countP_mono_left fun s _ hs => ?_
  simp only [Bool.and_eq_true, decide_eq_true_eq, Instant.lt_def, Instant.le_def] at *
  omega

/-- A window that ends behind all slots holds all that lies behind its start. -/
theorem countWithin_eq_countAfter {slots : List Instant} {stop : Instant}
    (h : ∀ s ∈ slots, s ≤ stop) (start : Instant) :
    countWithin start stop slots = countAfter start slots := by
  refine List.countP_congr fun s hs => ?_
  simp [h s hs]

/-- Behind the slot at a place of a sorted list lie at most those at later places. -/
theorem countAfter_getElem {slots : List Instant} (hsorted : slots.Pairwise (· ≤ ·)) {i : Nat}
    {s : Instant} (hs : slots[i]? = some s) : countAfter s slots + (i + 1) ≤ slots.length := by
  induction slots generalizing i with
  | nil => simp at hs
  | cons a rest ih =>
    obtain ⟨ha, hrest⟩ := List.pairwise_cons.mp hsorted
    rw [countAfter_cons]
    cases i with
    | zero =>
      -- The slot is the head: it does not lie behind itself.
      obtain rfl : a = s := by simpa using hs
      have hself : ¬ a < a := Int.lt_irrefl _
      have hle : countAfter a rest ≤ rest.length := List.countP_le_length
      simp only [hself, if_false, List.length_cons]
      omega
    | succ i =>
      -- The slot is further back: the head is no later, and so does not count.
      have hs' : rest[i]? = some s := by simpa using hs
      have has : ¬ s < a := Int.not_lt.mpr (ha s (List.mem_of_getElem? hs'))
      have := ih hrest hs'
      simp only [has, if_false, List.length_cons]
      omega

/-- What is dropped up to an instant lies before every window that starts then or later. -/
theorem countAfter_dropWhile {start upTo : Instant} (h : upTo ≤ start) (slots : List Instant) :
    countAfter start (slots.dropWhile fun t => decide (t ≤ upTo)) = countAfter start slots := by
  induction slots with
  | nil => rfl
  | cons s rest ih =>
    rw [List.dropWhile_cons]
    split
    · next hold =>
      have hs : ¬ start < s := Int.not_lt.mpr (Int.le_trans (of_decide_eq_true hold) h)
      rw [ih, countAfter_cons, if_neg hs, Nat.add_zero]
    · rfl

namespace Budget

/-! ## The list of slots -/

/-- What is forgotten lies before every window that ends now or later. -/
theorem countAfter_forget {start now : Instant} (h : now.sub Time.day ≤ start)
    (slots : List Instant) : countAfter start (forget slots now) = countAfter start slots :=
  countAfter_dropWhile h slots

/-- A sorted book stays sorted when old slots are forgotten. -/
theorem sorted_forget {slots : List Instant} (h : slots.Pairwise (· ≤ ·)) (now : Instant) :
    (forget slots now).Pairwise (· ≤ ·) :=
  h.sublist (List.dropWhile_sublist _)

/-- The book with a new slot holds that slot and the old ones. -/
theorem insertSlot_perm (s : Instant) (slots : List Instant) :
    (insertSlot s slots).Perm (s :: slots) := by
  induction slots with
  | nil => exact .refl _
  | cons t rest ih =>
    unfold insertSlot
    split
    · exact (ih.cons t).trans (.swap s t rest)
    · exact .refl _

/-- A new slot counts the same wherever it stands in the book. -/
theorem countAfter_insertSlot (start s : Instant) (slots : List Instant) :
    countAfter start (insertSlot s slots) = countAfter start (s :: slots) :=
  (insertSlot_perm s slots).countP_eq _

/-- A sorted book stays sorted when a slot is entered. -/
theorem sorted_insertSlot (s : Instant) {slots : List Instant} (h : slots.Pairwise (· ≤ ·)) :
    (insertSlot s slots).Pairwise (· ≤ ·) := by
  induction slots with
  | nil => exact .cons (fun _ hx => by simp at hx) .nil
  | cons t rest ih =>
    obtain ⟨ht, hrest⟩ := List.pairwise_cons.mp h
    unfold insertSlot
    split
    · next hts =>
      refine .cons (fun x hx => ?_) (ih hrest)
      rcases List.mem_cons.mp ((insertSlot_perm s rest).mem_iff.mp hx) with rfl | hx
      · exact hts
      · exact ht x hx
    · next hts =>
      have hst : s ≤ t := Int.le_of_lt (Int.not_le.mp hts)
      refine .cons (fun x hx => ?_) h
      rcases List.mem_cons.mp hx with rfl | hx
      · exact hst
      · exact Int.le_trans hst (ht x hx)

/-! ## Taking a slot -/

/-- A budget has room for a slot: fewer slots than its limit lie behind the start of the window that
ends with the slot. -/
def HasRoom (b : Budget) (slots : List Instant) (slot : Instant) : Prop :=
  countAfter (slot.sub b.window) slots < b.limit

/-- Room stays, as a later slot has fewer behind the start of its window. -/
theorem HasRoom.mono {b : Budget} {slots : List Instant} {s s' : Instant}
    (h : b.HasRoom slots s) (hs : s ≤ s') : b.HasRoom slots s' := by
  have hstart : s.sub b.window ≤ s'.sub b.window := by
    simp only [Instant.le_def, Instant.nanos_sub] at *
    omega
  exact Nat.lt_of_le_of_lt (countAfter_mono hstart slots) h

/-- A budget that is not to reopen has room now. -/
theorem hasRoom_of_reopensAt?_eq_none {b : Budget} (hpos : 0 < b.limit) {slots : List Instant}
    {now : Instant} (h : b.reopensAt? slots now = none) : b.HasRoom slots now := by
  unfold HasRoom countAfter
  rw [List.countP_eq_length_filter]
  unfold reopensAt? at h
  simp only at h
  split at h
  · next hfull =>
    -- A window that is full holds at least one slot, and so the place that is looked up exists.
    rw [Option.map_eq_none_iff, List.getElem?_eq_none_iff] at h
    omega
  · next hroom => exact Nat.lt_of_not_le hroom

/-- A budget reopens later on, and has room then. -/
theorem hasRoom_of_reopensAt?_eq_some {b : Budget} {slots : List Instant}
    (hsorted : slots.Pairwise (· ≤ ·)) {now t : Instant}
    (h : b.reopensAt? slots now = some t) : now ≤ t ∧ b.HasRoom slots t := by
  unfold reopensAt? at h
  simp only at h
  split at h
  · next hfull =>
    obtain ⟨a, ha, rfl⟩ := Option.map_eq_some_iff.mp h
    have hopen : now.sub b.window < a := by
      simpa using (List.mem_filter.mp (List.mem_of_getElem? ha)).2
    have hbehind := countAfter_getElem (hsorted.filter _) ha
    -- Behind the slot that leaves the window, all slots are in the window.
    have hsame : countAfter ((a.add b.window).sub b.window) slots =
        countAfter a (slots.filter fun t => decide (now.sub b.window < t)) := by
      unfold countAfter
      rw [List.countP_filter]
      refine List.countP_congr fun s _ => ?_
      simp only [Bool.and_eq_true, decide_eq_true_eq, Instant.lt_def, Instant.nanos_sub,
        Instant.nanos_add] at *
      omega
    refine ⟨?_, ?_⟩
    · simp only [Instant.le_def, Instant.lt_def, Instant.nanos_sub, Instant.nanos_add] at *
      omega
    · unfold HasRoom
      rw [hsame]
      omega
  · simp at h

/-- The later one of two reopenings, where `none` is now. -/
def laterReopening : Option Instant → Option Instant → Option Instant
  | none, t => t
  | some t, none => some t
  | some t, some u => some (t.later u)

/-- The latest reopening collects those of the budgets one after the other. -/
theorem latestReopening?_eq_foldl (budgets : List Budget) (slots : List Instant)
    (now : Instant) : latestReopening? budgets slots now =
      budgets.foldl (fun latest b => laterReopening latest (b.reopensAt? slots now)) none := rfl

/-- Where a budget reopens it has room, and so it does at any later time. -/
theorem hasRoom_laterReopening {b : Budget} (hpos : 0 < b.limit) {slots : List Instant}
    (hsorted : slots.Pairwise (· ≤ ·)) {now : Instant} {latest : Option Instant}
    (hlatest : now ≤ latest.getD now) :
    latest.getD now ≤ (laterReopening latest (b.reopensAt? slots now)).getD now ∧
      b.HasRoom slots ((laterReopening latest (b.reopensAt? slots now)).getD now) := by
  cases hreopens : b.reopensAt? slots now with
  | none =>
    have hroom := hasRoom_of_reopensAt?_eq_none hpos hreopens
    cases latest with
    | none => exact ⟨Int.le_refl _, hroom⟩
    | some t => exact ⟨Int.le_refl _, hroom.mono hlatest⟩
  | some u =>
    obtain ⟨hu, hroom⟩ := hasRoom_of_reopensAt?_eq_some hsorted hreopens
    cases latest with
    | none => exact ⟨hu, hroom⟩
    | some t => exact ⟨t.le_later_left u, hroom.mono (t.le_later_right u)⟩

/-- At the latest reopening, which may be now, all budgets have room. -/
theorem hasRoom_latestReopening? {budgets : List Budget} (hpos : ∀ b ∈ budgets, 0 < b.limit)
    {slots : List Instant} (hsorted : slots.Pairwise (· ≤ ·)) (now : Instant) :
    now ≤ (latestReopening? budgets slots now).getD now ∧
      ∀ b ∈ budgets, b.HasRoom slots ((latestReopening? budgets slots now).getD now) := by
  rw [latestReopening?_eq_foldl]
  -- The induction is on the budgets that are left, behind the latest reopening of the others.
  suffices h : ∀ latest : Option Instant, now ≤ latest.getD now →
      latest.getD now ≤ (budgets.foldl _ latest).getD now ∧
        ∀ b ∈ budgets, b.HasRoom slots ((budgets.foldl _ latest).getD now) from
    h none (Int.le_refl _)
  induction budgets with
  | nil => exact fun latest _ => ⟨Int.le_refl _, fun b hb => by simp at hb⟩
  | cons b rest ih =>
    intro latest hlatest
    obtain ⟨hnext, hroom⟩ :=
      hasRoom_laterReopening (hpos b List.mem_cons_self) hsorted hlatest
    obtain ⟨hle, hrest⟩ := ih (fun b hb => hpos b (List.mem_cons_of_mem _ hb)) _
      (Int.le_trans hlatest hnext)
    refine ⟨Int.le_trans hnext hle, fun c hc => ?_⟩
    rcases List.mem_cons.mp hc with rfl | hc
    · exact hroom.mono hle
    · exact hrest c hc

/-- A slot is taken now or later, and where all budgets have room for it. -/
theorem takeSlot_spec {budgets : List Budget} (hpos : ∀ b ∈ budgets, 0 < b.limit)
    (overflow : Overflow) {slots : List Instant} (hsorted : slots.Pairwise (· ≤ ·))
    (now : Instant) :
    takeSlot budgets overflow slots now = (forget slots now, none) ∨
    ∃ slot, takeSlot budgets overflow slots now =
        (insertSlot slot (forget slots now), some slot) ∧
      now ≤ slot ∧ ∀ b ∈ budgets, b.HasRoom (forget slots now) slot := by
  obtain ⟨hle, hroom⟩ := hasRoom_latestReopening? hpos (sorted_forget hsorted now) now
  unfold takeSlot
  simp only
  cases hlatest : latestReopening? budgets (forget slots now) now with
  | none =>
    rw [hlatest] at hle hroom
    exact .inr ⟨now, rfl, hle, hroom⟩
  | some t =>
    rw [hlatest] at hle hroom
    cases overflow with
    | drop => exact .inl rfl
    | defer => exact .inr ⟨t, rfl, hle, hroom⟩

/-! ## Keeping a budget -/

/-- Whatever window of its length is looked at, it holds no more slots than the limit. -/
def IsKept (b : Budget) (slots : List Instant) : Prop :=
  ∀ t : Instant, countWithin (t.sub b.window) t slots ≤ b.limit

/-- A slot that there is room for can be taken. -/
theorem IsKept.concat {b : Budget} {slots : List Instant} (h : b.IsKept slots) {slot : Instant}
    (hroom : b.HasRoom slots slot) : b.IsKept (slots ++ [slot]) := by
  intro t
  unfold countWithin
  rw [List.countP_append, List.countP_singleton]
  split
  · next hin =>
    -- The window that ends with the slot starts no later than this one.
    have hstart : slot.sub b.window ≤ t.sub b.window := by
      simp only [Bool.and_eq_true, decide_eq_true_eq, Instant.lt_def, Instant.le_def,
        Instant.nanos_sub] at *
      omega
    exact Nat.lt_of_le_of_lt (countWithin_le hstart t slots) hroom
  · exact h t

/-- What is known of the slots that were given to a recipient in a run up to now, and of those that
are kept in the book: it holds all that count for a window that ends now or later. -/
structure Booked (budgets : List Budget) (now : Instant) (given book : List Instant) : Prop where
  sorted : book.Pairwise (· ≤ ·)
  same : ∀ start, now.sub Time.day ≤ start → countAfter start given = countAfter start book
  kept : ∀ b ∈ budgets, b.IsKept given

/-- Nothing was given yet. -/
theorem booked_nil (budgets : List Budget) (now : Instant) : Booked budgets now [] [] :=
  ⟨.nil, fun _ _ => rfl, fun b _ _ => Nat.zero_le b.limit⟩

/-- Time goes on. -/
theorem Booked.mono {budgets : List Budget} {now now' : Instant} {given book : List Instant}
    (h : Booked budgets now given book) (hnow : now ≤ now') : Booked budgets now' given book := by
  refine ⟨h.sorted, fun start hstart => h.same start ?_, h.kept⟩
  simp only [Instant.le_def, Instant.nanos_sub] at *
  omega

/-- Old slots are forgotten. -/
theorem Booked.forget {budgets : List Budget} {now : Instant} {given book : List Instant}
    (h : Booked budgets now given book) :
    Booked budgets now given (Budget.forget book now) where
  sorted := sorted_forget h.sorted now
  same start hstart := (h.same start hstart).trans (countAfter_forget hstart book).symm
  kept := h.kept

/-- A slot is given that there is room for in the book. -/
theorem Booked.insert {budgets : List Budget} (hwindow : ∀ b ∈ budgets, b.window ≤ Time.day)
    {now slot : Instant} {given book : List Instant} (h : Booked budgets now given book)
    (hslot : now ≤ slot) (hroom : ∀ b ∈ budgets, b.HasRoom book slot) :
    Booked budgets now (given ++ [slot]) (insertSlot slot book) := by
  refine ⟨sorted_insertSlot slot h.sorted, fun start hstart => ?_, fun b hb => ?_⟩
  · rw [countAfter_insertSlot, countAfter_concat, countAfter_cons, h.same start hstart]
  · refine (h.kept b hb).concat ?_
    -- The window of the slot starts no more than a day ago, where the book still holds all slots.
    have hstart : now.sub Time.day ≤ slot.sub b.window := by
      have := hwindow b hb
      simp only [Instant.le_def, Instant.nanos_sub] at *
      omega
    unfold HasRoom
    rw [h.same _ hstart]
    exact hroom b hb

/-- A slot is taken from the book, or none. -/
theorem Booked.takeSlot {budgets : List Budget} (hpos : ∀ b ∈ budgets, 0 < b.limit)
    (hwindow : ∀ b ∈ budgets, b.window ≤ Time.day) (overflow : Overflow) {now : Instant}
    {given book : List Instant} (h : Booked budgets now given book) :
    Booked budgets now (given ++ (Budget.takeSlot budgets overflow book now).2.toList)
      (Budget.takeSlot budgets overflow book now).1 := by
  rcases takeSlot_spec hpos overflow h.sorted now with heq | ⟨slot, heq, hslot, hroom⟩
  · rw [heq]
    simpa using h.forget
  · rw [heq]
    exact h.forget.insert hwindow hslot hroom

end Budget

end Klaxon
