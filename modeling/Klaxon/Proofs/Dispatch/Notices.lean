import Klaxon.Proofs.Dispatch.Frame

/-!
# Notices

A notice is a message that was made for an alert, with the alert and its recipient. A fan-out is a
run: it holds an alert back or offers it over each channel type that is wanted, recipient by
recipient and all at one instant, and it gives the messages of the notices of this run
(`fanOut_eq_run`). What holds for the notices of all runs thus holds for those of fan-outs, however
they follow each other and whatever comes in between.
-/

namespace Klaxon

/-- A message that was made for an alert, with the recipient as the alert found it. -/
structure Notice where
  alert : Alert
  recipient : Recipient
  message : Message

/-- A turn as a fan-out takes it: it finds a recipient in the directory, and holds the alert back or
offers it over a channel type that the recipient wants. -/
inductive Turn.FansOut (directory : Directory) (alert : Alert) (priority : Priority)
    (now : Instant) : Turn → Prop where
  | holdBack {id : String} {recipient : Recipient} (hget : directory.get? id = some recipient)
      (hheld : Engine.isHeldBack alert recipient now = true) :
      FansOut directory alert priority now .holdBack
  | offer {id : String} {recipient : Recipient} {channelType : ChannelType}
      (hget : directory.get? id = some recipient)
      (hfree : Engine.isHeldBack alert recipient now = false)
      (hwants : channelType ∈ recipient.channelsFor alert.severity) :
      FansOut directory alert priority now (.offer alert recipient priority channelType)

namespace Engine

/-- The notices that a turn makes. -/
def noticesOf (e : Engine) (now : Instant) : Turn → List Notice
  | .offer alert recipient priority channelType =>
    (e.notifyOver alert recipient priority now channelType).2.map fun m => ⟨alert, recipient, m⟩
  | _ => []

/-- The notices that a run makes. -/
def notices (e : Engine) (turns : List (Instant × Turn)) : List Notice :=
  e.observe noticesOf turns

/-! ## Fan-outs -/

/-- Turns of a fan-out lead to an engine and make messages. -/
structure FansOut (alert : Alert) (priority : Priority) (now : Instant) (e : Engine)
    (turns : List (Instant × Turn)) (result : Engine × List Message) : Prop where
  run : e.run turns = result.1
  messages : (e.notices turns).map Notice.message = result.2
  directory : result.1.directory = e.directory
  turns : ∀ t ∈ turns, t.1 = now ∧ t.2.FansOut e.directory alert priority now

variable {alert : Alert} {priority : Priority} {now : Instant} {e : Engine}

/-- A fan-out may be over. -/
theorem FansOut.nil (e : Engine) : FansOut alert priority now e [] (e, []) :=
  ⟨rfl, rfl, rfl, fun t ht => by simp at ht⟩

/-- A fan-out goes on. -/
theorem FansOut.append {turns more : List (Instant × Turn)} {r r' : Engine × List Message}
    (h : FansOut alert priority now e turns r) (h' : FansOut alert priority now r.1 more r') :
    FansOut alert priority now e (turns ++ more) (r'.1, r.2 ++ r'.2) where
  run := by rw [run_append, h.run, h'.run]
  messages := by
    have hmore : e.observe noticesOf (turns ++ more) = e.notices turns ++ r.1.notices more := by
      rw [observe_append, h.run]
      rfl
    show (e.observe noticesOf (turns ++ more)).map Notice.message = _
    rw [hmore, List.map_append, h.messages, h'.messages]
  directory := h'.directory.trans h.directory
  turns t ht := by
    rcases List.mem_append.mp ht with ht | ht
    · exact h.turns t ht
    · rw [← h.directory]
      exact h'.turns t ht

/-- A fan-out over a list is one over each of its items. -/
theorem FansOut.collect {α : Type} {make : Engine → α → Engine × List Message}
    {directory : Directory} (items : List α)
    (h : ∀ (e : Engine), ∀ a ∈ items, e.directory = directory →
      ∃ turns, FansOut alert priority now e turns (make e a))
    (hd : e.directory = directory) :
    ∃ turns, FansOut alert priority now e turns (Engine.collect make e items) := by
  induction items generalizing e with
  | nil => exact ⟨[], .nil e⟩
  | cons a rest ih =>
    -- Only the directory has to stay for the rest of the list, and offers leave it alone.
    obtain ⟨turns, hfirst⟩ := h e a List.mem_cons_self hd
    obtain ⟨more, hrest⟩ := ih (fun e a ha => h e a (List.mem_cons_of_mem _ ha))
      (hfirst.directory.trans hd)
    exact ⟨turns ++ more, hfirst.append hrest⟩

/-- A fan-out is a run. -/
theorem fanOut_eq_run (e : Engine) (alert : Alert) (recipientIds : List String)
    (priority : Priority) (now : Instant) :
    ∃ turns, FansOut alert priority now e turns
      (e.fanOut alert recipientIds priority now) := by
  -- A fan-out is a list of recipients, and for each of them a list of channel types.
  refine FansOut.collect recipientIds (fun e id _ hd => ?_) rfl
  unfold notifyRecipient
  cases hget : e.directory.get? id with
  | none => exact ⟨[], .nil e⟩
  | some recipient =>
    simp only
    split
    · next hheld =>
      refine ⟨[(now, .holdBack)], rfl, rfl, rfl, fun t ht => ?_⟩
      obtain rfl := List.mem_singleton.mp ht
      exact ⟨rfl, .holdBack hget hheld⟩
    · next hfree =>
      refine FansOut.collect _ (fun e' channelType hwants hd' => ?_) rfl
      refine ⟨[(now, .offer alert recipient priority channelType)], rfl, ?_, ?_, fun t ht => ?_⟩
      · simp only [notices, observe, noticesOf, List.append_nil, List.map_map]
        exact List.map_id _
      · exact (e'.turn_leaves now (.offer alert recipient priority channelType)).directory
          (by simp)
      · obtain rfl := List.mem_singleton.mp ht
        rw [hd']
        exact ⟨rfl, .offer hget (Bool.eq_false_iff.mpr hfree) hwants⟩

/-- A fan-out reaches an engine. -/
theorem reaches_fanOut (e : Engine) (alert : Alert) (recipientIds : List String)
    (priority : Priority) (now : Instant) :
    e.Reaches (e.fanOut alert recipientIds priority now).1 := by
  obtain ⟨turns, h⟩ := e.fanOut_eq_run alert recipientIds priority now
  exact ⟨turns, h.run⟩

end Engine

end Klaxon
