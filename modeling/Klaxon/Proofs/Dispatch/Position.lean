import Klaxon.Proofs.Dispatch.Runs

/-!
# Positions

A message is brought on by a handle: its id in a lane, a timer that will put it there, or the work
on it once it was taken from its lane. The position of an id in an engine is its message and its
handle; `Engine.At` says that an id has a position, and so has one handle at most. The lemmas of
this module say what each change to an engine does to the parts of a position: `message?_putMessage`
for messages, `count_push` and `count_pull` for lanes, and `timersOf_…` and `flightsOf_…` for timers
and flights.
-/

namespace Klaxon

/-- What brings a message on. -/
inductive Handle where
  | lane (priority : Priority)
  | timer (timer : Timer)
  | flight (stage : Stage)

namespace Handle

/-- How often a handle stands in a lane. -/
def laneCount : Option Handle → Priority → Nat
  | some (.lane p), q => if q = p then 1 else 0
  | _, _ => 0

/-- The timers that a handle is. -/
def timers : Option Handle → List Timer
  | some (.timer t) => [t]
  | _ => []

/-- The flights that a handle is. -/
def flights (id : String) : Option Handle → List Flight
  | some (.flight s) => [⟨id, s⟩]
  | _ => []

/-- A handle is known by where it is found. -/
theorem eq_of_found {id : String} {x y : Option Handle} (hl : ∀ p, laneCount x p = laneCount y p)
    (ht : timers x = timers y) (hf : flights id x = flights id y) : x = y := by
  rcases x with _ | p | t | s <;> rcases y with _ | q | u | r
  -- A lane that counts the handle is the lane of the handle.
  case some.lane.some.lane =>
    have := hl p
    simp only [laneCount, if_true] at this
    split at this
    · next hpq => rw [hpq]
    · simp at this
  case some.lane.none => simpa [laneCount] using hl p
  case none.some.lane => simpa [laneCount] using hl q
  all_goals simp_all [timers, flights]

/-- Whether the message that a handle brings on is not claimed. -/
def IsIdle : Handle → Prop
  | .flight (.claimed ..) | .flight (.calling _) => False
  | _ => True

/-- Whether a handle leads to a lane, if it names one. -/
def LeadsTo : Handle → Priority → Prop
  | .lane q, p => q = p
  | .timer t, p => t.priority = p
  | .flight _, _ => True

end Handle

/-- Where an id is: its message, if it is stored, and its handle, if it has one. -/
structure Position where
  message : Option Message
  handle : Option Handle

namespace Engine

/-- The timers of an id. -/
def timersOf (e : Engine) (id : String) : List Timer := e.timers.filter fun t => t.messageId == id

/-- The flights of an id. -/
def flightsOf (e : Engine) (id : String) : List Flight :=
  e.flights.filter fun f => f.messageId == id

/-- An id has a position in an engine. -/
structure At (e : Engine) (id : String) (v : Position) : Prop where
  message : e.message? id = v.message
  lanes : ∀ p, (e.lanes.get p).count id = Handle.laneCount v.handle p
  timers : e.timersOf id = Handle.timers v.handle
  flights : e.flightsOf id = Handle.flights id v.handle

/-- Two engines say the same of an id. -/
structure Agrees (e e' : Engine) (id : String) : Prop where
  message : e'.message? id = e.message? id
  lanes : ∀ p, (e'.lanes.get p).count id = (e.lanes.get p).count id
  timers : e'.timersOf id = e.timersOf id
  flights : e'.flightsOf id = e.flightsOf id

/-- An engine says the same as itself. -/
theorem Agrees.refl (e : Engine) (id : String) : e.Agrees e id := ⟨rfl, fun _ => rfl, rfl, rfl⟩

/-- Saying the same of an id can be chained. -/
theorem Agrees.trans {a b c : Engine} {id : String} (hab : a.Agrees b id) (hbc : b.Agrees c id) :
    a.Agrees c id :=
  ⟨hbc.message.trans hab.message, fun p => (hbc.lanes p).trans (hab.lanes p),
    hbc.timers.trans hab.timers, hbc.flights.trans hab.flights⟩

/-- An id keeps its position where engines agree on it. -/
theorem At.congr {e e' : Engine} {id : String} {v : Position} (h : e.At id v)
    (hae : e.Agrees e' id) : e'.At id v :=
  ⟨hae.message.trans h.message, fun p => (hae.lanes p).trans (h.lanes p),
    hae.timers.trans h.timers, hae.flights.trans h.flights⟩

/-- An id has one position. -/
theorem At.unique {e : Engine} {id : String} {v v' : Position} (h : e.At id v)
    (h' : e.At id v') : v = v' := by
  obtain ⟨m, x⟩ := v
  obtain ⟨m', x'⟩ := v'
  obtain rfl : m = m' := h.message.symm.trans h'.message
  have hx : x = x' := Handle.eq_of_found (fun p => (h.lanes p).symm.trans (h'.lanes p))
    (h.timers.symm.trans h'.timers) (h.flights.symm.trans h'.flights)
  rw [hx]

/-- The stage of an id is that of its first flight. -/
theorem stage?_eq_head? (e : Engine) (id : String) :
    e.stage? id = (e.flightsOf id).head?.map Flight.stage :=
  congrArg (Option.map Flight.stage) List.head?_filter.symm

/-- An id is at the same stage where engines agree on it. -/
theorem Agrees.stage? {e e' : Engine} {id : String} (h : e.Agrees e' id) :
    e'.stage? id = e.stage? id := by
  rw [stage?_eq_head?, stage?_eq_head?, h.flights]

/-- The stage of an id is that of its handle. -/
theorem At.stage? {e : Engine} {id : String} {v : Position} (h : e.At id v) :
    e.stage? id = match v.handle with
      | some (.flight s) => some s
      | _ => none := by
  rw [stage?_eq_head?, h.flights]
  rcases v.handle with _ | _ | _ | s <;> rfl

/-- An id at a stage has its flight for a handle. -/
theorem At.handle_of_stage? {e : Engine} {id : String} {v : Position} {s : Stage} (h : e.At id v)
    (hs : e.stage? id = some s) : v.handle = some (.flight s) := by
  rw [h.stage?] at hs
  rcases v with ⟨_, _ | _ | _ | _⟩ <;> simp_all

/-- An id with a call under way has its call for a handle. -/
theorem At.handle_of_callOf? {e : Engine} {id : String} {v : Position} {call : Call}
    (h : e.At id v) (hc : e.callOf? id = some call) :
    v.handle = some (.flight (.calling call)) := by
  unfold callOf? at hc
  split at hc
  · next s hs =>
    obtain rfl : s = call := by simpa using hc
    exact h.handle_of_stage? hs
  · simp at hc

/-- The lane that an id stands in is its handle. -/
theorem At.handle_of_mem_lane {e : Engine} {id : String} {v : Position} (h : e.At id v)
    {p : Priority} (hp : id ∈ e.lanes.get p) :
    v.handle = some (.lane p) := by
  have hpos := List.count_pos_iff.mpr hp
  rw [h.lanes p] at hpos
  rcases hx : v.handle with _ | q | t | s
  · simp [hx, Handle.laneCount] at hpos
  · rw [hx] at hpos
    simp only [Handle.laneCount] at hpos
    split at hpos
    · next hpq => rw [hpq]
    · simp at hpos
  · simp [hx, Handle.laneCount] at hpos
  · simp [hx, Handle.laneCount] at hpos

/-- The timer of an id is its handle. -/
theorem At.handle_of_mem_timers {e : Engine} {t : Timer} {v : Position}
    (h : e.At t.messageId v) (ht : t ∈ e.timers) :
    v.handle = some (.timer t) := by
  have hof : t ∈ e.timersOf t.messageId := List.mem_filter.mpr ⟨ht, beq_self_eq_true _⟩
  rw [h.timers] at hof
  rcases hx : v.handle with _ | _ | u | _
  · simp [hx, Handle.timers] at hof
  · simp [hx, Handle.timers] at hof
  · rw [hx] at hof
    rw [List.mem_singleton.mp hof]
  · simp [hx, Handle.timers] at hof

/-! ## Messages -/

/-- A message is found under its own id. -/
theorem id_of_message?_eq_some {e : Engine} {id : String} {m : Message}
    (h : e.message? id = some m) : m.id = id := by
  have := List.find?_some h
  simpa using this

/-- Where keys are distinct, each element is found by its key. -/
theorem find?_of_nodup {α : Type} {key : α → String} {xs : List α} (hn : (xs.map key).Nodup)
    {x : α} (hx : x ∈ xs) : xs.find? (fun y => key y == key x) = some x := by
  induction xs with
  | nil => simp at hx
  | cons a xs ih =>
    rw [List.map_cons, List.nodup_cons] at hn
    rcases List.mem_cons.mp hx with rfl | hx
    · simp
    · have hne : key a ≠ key x := fun h => hn.1 (h ▸ List.mem_map_of_mem hx)
      rw [List.find?_cons_of_neg (by simpa using hne)]
      exact ih hn.2 hx

/-- Where ids are distinct, a stored message is found by its id. -/
theorem message?_of_mem {e : Engine} (hn : (e.messages.map Message.id).Nodup) {m : Message}
    (hm : m ∈ e.messages) : e.message? m.id = some m :=
  find?_of_nodup hn hm

/-- A message is changed under its own id only. -/
theorem message?_putMessage (e : Engine) (m : Message) (id : String) :
    (e.putMessage m).message? id =
      if id = m.id then (e.message? id).map fun _ => m else e.message? id := by
  unfold putMessage message?
  -- Messages are looked up from the front and changed wherever they have the id.
  induction e.messages with
  | nil => simp
  | cons a ms ih =>
    simp only [List.map_cons, List.find?_cons]
    by_cases ha : a.id = m.id
    · by_cases hi : id = m.id
      · simp [ha, hi]
      · have hne : m.id ≠ id := fun h => hi h.symm
        simp only [ha, hi, beq_self_eq_true, if_true, if_false, beq_eq_false_iff_ne.mpr hne] at ih ⊢
        exact ih
    · by_cases hi : id = m.id
      · subst hi
        simp only [beq_eq_false_iff_ne.mpr ha, if_true] at ih ⊢
        simpa [beq_eq_false_iff_ne.mpr ha] using ih
      · simp only [beq_eq_false_iff_ne.mpr ha, hi, if_false] at ih ⊢
        simp only [Bool.false_eq_true, if_false, ih]

/-- The ids stay when a message is changed. -/
theorem map_id_putMessage (e : Engine) (m : Message) :
    (e.putMessage m).messages.map Message.id = e.messages.map Message.id := by
  unfold putMessage
  rw [List.map_map]
  refine List.map_congr_left fun a _ => ?_
  by_cases h : a.id = m.id <;> simp [h]

/-- A later change of a message counts. -/
theorem putMessage_putMessage (e : Engine) {m m' : Message} (h : m.id = m'.id) :
    (e.putMessage m).putMessage m' = e.putMessage m' := by
  unfold putMessage
  simp only [List.map_map]
  congr 1
  refine List.map_congr_left fun a _ => ?_
  by_cases ha : a.id = m'.id <;> simp [h, ha]

/-- Where ids are distinct, a message that is kept is found as before. -/
theorem find?_filter_of_nodup {ms : List Message} (hn : (ms.map Message.id).Nodup)
    (keep : Message → Bool) (id : String) :
    (ms.filter keep).find? (fun m => m.id == id) =
      (ms.find? fun m => m.id == id).filter keep := by
  induction ms with
  | nil => rfl
  | cons a ms ih =>
    rw [List.map_cons, List.nodup_cons] at hn
    have ih := ih hn.2
    by_cases ha : a.id = id
    · -- No other message has this id.
      have hrest : (ms.find? fun m => m.id == id) = none := by
        rw [List.find?_eq_none]
        intro b hb hbid
        have hba : b.id = a.id := by rw [ha]; simpa using hbid
        exact hn.1 (hba ▸ List.mem_map_of_mem hb)
      rw [hrest] at ih
      by_cases hk : keep a = true
      · rw [List.filter_cons_of_pos hk]
        simp [ha, Option.filter_some, hk]
      · rw [List.filter_cons_of_neg hk, ih]
        simp [ha, Option.filter_some, hk]
    · have hb : (a.id == id) = false := by simpa using ha
      rw [List.filter_cons]
      split
      · simp only [List.find?_cons, hb, ih]
      · simp only [List.find?_cons, hb, ih]

/-! ## Lanes -/

/-- A push adds one to the count of its own id in its own lane. -/
theorem count_push (l : Lanes) (p q : Priority) (j id : String) :
    ((l.push p j).get q).count id =
      (l.get q).count id + if q = p ∧ j = id then 1 else 0 := by
  rw [Lanes.get_push]
  by_cases hq : q = p
  · by_cases hj : j = id
    · simp [hq, hj]
    · simp [hq, hj]
  · simp [hq]

/-- What a pull takes of an id is missing in the lane. -/
theorem count_pull (l : Lanes) (p q : Priority) (n : Nat) (id : String) :
    ((l.pull p n).1.get q).count id + (if q = p then (l.pull p n).2.count id else 0) =
      (l.get q).count id := by
  by_cases hq : q = p
  · subst hq
    have h := congrArg (List.count id) (Lanes.pull_append l q n)
    rw [List.count_append] at h
    rw [if_pos rfl]
    omega
  · rw [Lanes.get_pull, if_neg hq, if_neg hq]
    rfl

/-! ## Timers and flights -/

/-- A new timer is one more of its own id. -/
theorem timersOf_append (e : Engine) (t : Timer) (id : String) :
    { e with timers := e.timers ++ [t] }.timersOf id =
      if t.messageId = id then e.timersOf id ++ [t] else e.timersOf id := by
  unfold timersOf
  rw [List.filter_append]
  by_cases h : t.messageId = id <;> simp [h]

/-- A timer that is erased is missing among those of its own id. -/
theorem timersOf_erase (e : Engine) (t : Timer) (id : String) :
    { e with timers := e.timers.erase t }.timersOf id =
      if t.messageId = id then (e.timersOf id).erase t else e.timersOf id := by
  unfold timersOf
  simp only [← List.erase_filter]
  split
  · rfl
  · next h =>
    refine List.erase_of_not_mem fun hm => h ?_
    simpa using (List.mem_filter.mp hm).2

/-- Behind a landing an id has no flight, and the others have theirs. -/
theorem flightsOf_land (e : Engine) (j id : String) :
    (e.land j).flightsOf id = if id = j then [] else e.flightsOf id := by
  unfold flightsOf land
  rw [List.filter_filter]
  split
  · next h =>
    subst h
    rw [List.filter_eq_nil_iff]
    simp
  · next h =>
    refine List.filter_congr fun f _ => ?_
    by_cases hf : f.messageId = id
    · simp [hf, h]
    · simp [hf]

/-- The flights of an id are moved on to a stage, those of the others stay. -/
theorem flightsOf_moveFlight (e : Engine) (j id : String) (s : Stage) :
    (e.moveFlight j s).flightsOf id =
      if id = j then (e.flightsOf id).map fun _ => ⟨id, s⟩ else e.flightsOf id := by
  unfold flightsOf moveFlight
  simp only [List.filter_map]
  split
  · next h =>
    subst h
    -- Moving a flight changes its stage but not the id that it is found by.
    have hsame : (e.flights.filter ((fun f => f.messageId == id) ∘
        fun f => if f.messageId == id then ⟨id, s⟩ else f)) =
        e.flights.filter fun f => f.messageId == id := by
      refine List.filter_congr fun f _ => ?_
      by_cases hf : f.messageId = id <;> simp [hf]
    rw [hsame]
    refine List.map_congr_left fun f hf => ?_
    have := (List.mem_filter.mp hf).2
    simp [this]
  · next h =>
    have hsame : (e.flights.filter ((fun f => f.messageId == id) ∘
        fun f => if f.messageId == j then ⟨j, s⟩ else f)) =
        e.flights.filter fun f => f.messageId == id := by
      refine List.filter_congr fun f _ => ?_
      by_cases hf : f.messageId = j
      · simp [hf]
      · simp [hf]
    rw [hsame]
    -- None of the flights of this id is moved.
    refine (List.map_congr_left (g := fun f => f) fun f hf => ?_).trans (List.map_id' _)
    have hid : f.messageId = id := by simpa using (List.mem_filter.mp hf).2
    have : ¬ f.messageId = j := fun hj => h (hid ▸ hj)
    simp [this]

/-- A pull gives an id a flight for each time that it stood in the batch. -/
theorem flightsOf_pull (e : Engine) (p : Priority) (id : String) :
    (e.pull p).1.flightsOf id =
      e.flightsOf id ++ List.replicate ((e.pull p).2.count id) ⟨id, .pulled⟩ := by
  unfold flightsOf pull
  simp only [List.filter_append, List.filter_map]
  congr 1
  generalize (e.lanes.pull p (e.policy.batchSize p)).2 = ids
  induction ids with
  | nil => rfl
  | cons a ids ih =>
    by_cases ha : a = id
    · subst ha
      simpa [List.replicate_succ] using ih
    · simpa [ha] using ih

end Engine

end Klaxon
