import Klaxon.Proofs.Dispatch.Accounts

/-!
# The counters balance

In every run the messages that were sent are those delivered, those failed, those still under way
and those cancelled behind an attempt. `run_balanced` says so in total, by priority and by channel,
and that the counts by priority and by channel add up to the totals.

Counters are words of 64 bits. Each of them is the word of what it counts (`Sound.count_eq`), so
that the equations hold of the words; and in a run in which less happens than there are words no
counter wraps (`Sound.toNat_count_eq`), so that they hold of the numbers, too.

What the engine counts starts at zero: a registry that is built from new channels is fresh
(`isFresh_nil`, `IsFresh.register`).
-/

namespace Klaxon

/-! ## Fresh registries -/

/-- A new channel has counted nothing. -/
theorem Channel.counters_create {spec : ChannelSpec} {handles : ChannelType} {c : Channel}
    (h : Channel.create spec handles = .ok c) : c.counters = .zero := by
  unfold create at h
  split at h
  · simp at h
  split at h
  · simp at h
  split at h
  · simp at h
  · exact Except.ok.inj h ▸ rfl

namespace Registry

/-- A registry of channels with distinct ids that have counted nothing. -/
structure IsFresh (r : Registry) : Prop where
  nodup : (r.map Channel.id).Nodup
  zero : ∀ c ∈ r, c.counters = .zero

/-- A registry without channels is fresh. -/
theorem isFresh_nil : IsFresh [] := ⟨.nil, fun c hc => by simp at hc⟩

/-- A channel is put beside the others. -/
theorem place_perm (r : Registry) (channel : Channel) : (r.place channel).Perm (channel :: r) := by
  induction r with
  | nil => exact .refl _
  | cons c r ih =>
    unfold place
    split
    · exact .refl _
    · exact (ih.cons c).trans (.swap channel c r)

/-- A new channel keeps a registry fresh. -/
theorem IsFresh.register {r : Registry} (h : r.IsFresh) {channel : Channel}
    (hc : channel.counters = .zero) : (r.register channel).1.IsFresh := by
  unfold Registry.register
  split
  · exact h
  · next hfree =>
    have hperm := r.place_perm channel
    -- The registry refuses an id that it has, so that the new one is not among the old ones.
    have hnew : channel.id ∉ r.map Channel.id := by
      intro hmem
      obtain ⟨c, hc, hid⟩ := List.mem_map.mp hmem
      refine hfree (List.find?_isSome.mpr ⟨c, hc, ?_⟩)
      exact beq_iff_eq.mpr hid
    refine ⟨?_, fun c hmem => ?_⟩
    · rw [(hperm.map Channel.id).nodup_iff, List.map_cons, List.nodup_cons]
      exact ⟨hnew, h.nodup⟩
    · rcases List.mem_cons.mp (hperm.mem_iff.mp hmem) with rfl | hmem
      · exact hc
      · exact h.zero c hmem

/-- Nothing is counted yet. -/
theorem IsFresh.tally_eq_zero {registry : Registry} (h : registry.IsFresh)
    (templates : TemplateStore) (directory : Directory) (policy : Policy) (idSupply : IdSupply)
    (w : View) :
    (Engine.create registry templates directory policy idSupply).tally w = .zero := by
  cases w with
  | all => rfl
  | priority p => exact PerPriority.get_replicate _ p
  | channel id =>
    have hget : (Engine.create registry templates directory policy idSupply).tally (.channel id) =
        ((registry.get? id).map Channel.counters).getD .zero := rfl
    rw [hget]
    cases hc : registry.get? id with
    | none => rfl
    | some c => exact h.zero c (List.mem_of_find?_eq_some hc)

end Registry

/-! ## Words -/

/-- The sum of words, which wraps as a counter does. -/
def sumOfWords (words : List UInt64) : UInt64 := words.foldr (· + ·) 0

/-- The word of a sum is the sum of the words. -/
theorem sumOfWords_map_ofNat (ns : List Nat) :
    sumOfWords (ns.map UInt64.ofNat) = UInt64.ofNat ns.sum := by
  induction ns with
  | nil => rfl
  | cons n ns ih =>
    rw [List.sum_cons, UInt64.ofNat_add, ← ih]
    rfl

/-- A run in which less happens than there are words of 64 bits. -/
def IsCountable (past : List Happening) : Prop := past.length < UInt64.size

/-- What happens in such a run can be counted in a word. -/
theorem IsCountable.toNat_ofNat_countP {past : List Happening} (h : IsCountable past)
    (p : Happening → Bool) : (UInt64.ofNat (past.countP p)).toNat = past.countP p :=
  UInt64.toNat_ofNat_of_lt' (Nat.lt_of_le_of_lt List.countP_le_length h)

/-- A tally accounts for the messages that `sees` selects: each one that was sent is delivered, has
failed, is still under way or was cancelled behind an attempt. -/
structure Tally.Balances (t : Tally) (sees : Message → Bool) (e : Engine)
    (past : List Happening) : Prop where
  words : t.sent = t.delivered + t.failed +
    .ofNat (e.messages.countP fun m => sees m && m.isUnderWay) +
    .ofNat ((droppedOf past).countP sees)
  /-- No counter wraps in a countable run. -/
  numbers : IsCountable past → t.sent.toNat = t.delivered.toNat + t.failed.toNat +
    (e.messages.countP fun m => sees m && m.isUnderWay) + (droppedOf past).countP sees

/-- The counters of parts add up to the counter of the whole. -/
structure AddUp (parts : List UInt64) (whole : UInt64) (past : List Happening) : Prop where
  words : sumOfWords parts = whole
  /-- No counter wraps in a countable run. -/
  numbers : IsCountable past → (parts.map UInt64.toNat).sum = whole.toNat

/-! ## The channels of milestones -/

/-- A happening with a milestone is the begin or the end of an attempt. -/
theorem Happening.eq_of_milestone? {x : Happening} {k : Milestone} {m : Message}
    (h : x.milestone? = some (k, m)) : x = .begun m ∨ ∃ now, x = .recorded m now := by
  cases x with
  | begun m' =>
    have h : (if m'.attempts.isEmpty then some (Milestone.sent, m') else none) = some (k, m) := h
    split at h
    · obtain ⟨-, rfl⟩ := Prod.mk.inj (Option.some.inj h)
      exact .inl rfl
    · simp at h
  | recorded m' now =>
    have h : (Milestone.ofStatus? m'.status).map (fun k => (k, m')) = some (k, m) := h
    obtain ⟨k', -, hk⟩ := Option.map_eq_some_iff.mp h
    obtain ⟨-, rfl⟩ := Prod.mk.inj hk
    exact .inr ⟨now, rfl⟩
  | _ => simp [milestone?] at h

/-- A message that is dropped was cancelled. -/
theorem Happening.eq_of_dropped? {x : Happening} {m : Message} (h : x.dropped? = some m) :
    ∃ now, x = .cancelled m now := by
  cases x with
  | cancelled m' now =>
    have h : (if m'.attempts.isEmpty then none else some m') = some m := h
    split at h
    · simp at h
    · exact ⟨now, Option.some.inj h ▸ rfl⟩
  | _ => simp [dropped?] at h

/-- A message that reaches a milestone in a step has a route. -/
theorem Step.routes_of_milestone {e₀ : Engine} {id : String} {now : Instant}
    {hs : List Happening} {v v' : Position} (h : Step e₀ id now v hs v') (hv : v.Fits e₀ id)
    {x : Happening} (hx : x ∈ hs) {k : Milestone} {m : Message}
    (hm : x.milestone? = some (k, m)) : e₀.Routes m := by
  rcases Happening.eq_of_milestone? hm with rfl | ⟨now', rfl⟩
  · -- The begin shows the message that is stored before the step, the record the one behind it.
    obtain ⟨m', hstored, he⟩ | ⟨_, -, he⟩ | ⟨_, -, -, he⟩ | ⟨_, he⟩ | ⟨_, he⟩ := h.seen hx
    · obtain rfl : m = m' := by simpa using he
      exact (hv.stored m hstored).2
    all_goals simp at he
  · obtain ⟨_, -, he⟩ | ⟨m', hstored, he⟩ | ⟨_, -, -, he⟩ | ⟨_, he⟩ | ⟨_, he⟩ := h.seen hx
    · simp at he
    · obtain ⟨rfl, -⟩ : m = m' ∧ now' = now := by simpa using he
      exact ((h.fits hv).stored m hstored).2
    all_goals simp at he

/-- A message that reaches a milestone has a route. -/
theorem Life.routes_of_milestone {e₀ : Engine} {id : String} {past : List Happening}
    {v : Position} (h : Life e₀ id past v) {x : Happening} (hx : x ∈ past) {k : Milestone}
    {m : Message} (hm : x.milestone? = some (k, m)) : e₀.Routes m := by
  induction h with
  | nowhere => simp at hx
  | made =>
    obtain rfl := List.mem_singleton.mp hx
    simp [Happening.milestone?] at hm
  | step hl h ih =>
    rcases List.mem_append.mp hx with hx | hx
    · exact ih hx
    · exact h.routes_of_milestone hl.fits hx hm

namespace Engine

/-! ## The sums of the counts -/

/-- A count is the sum of the counts in views that each see what the others do not. -/
theorem sum_reaches {κ : Type} [DecidableEq κ] {keys : List κ} (hn : keys.Nodup)
    (key : Message → κ) {view : κ → View} (hview : ∀ i m, (view i).sees m = decide (key m = i))
    {past : List Happening} (hkeys : ∀ x ∈ past, ∀ r, x.milestone? = some r → key r.2 ∈ keys)
    (k : Milestone) :
    (keys.map fun i => past.countP (Happening.reaches k (view i))).sum =
      past.countP (Happening.reaches k .all) := by
  -- Happenings without a milestone have no key, and none of them is counted.
  have hinj : Function.Injective (some : κ → Option κ) := fun _ _ => Option.some.inj
  have hreached : ∀ x ∈ past, Happening.reaches k .all x = true →
      x.milestone?.map (fun r => key r.2) ∈ keys.map some := by
    intro x hx hreaches
    cases hr : x.milestone? with
    | none => simp [Happening.reaches, hr] at hreaches
    | some r => exact List.mem_map_of_mem (hkeys x hx r hr)
  rw [countP_eq_sum (fun x => x.milestone?.map fun r => key r.2) _ (hn.map hinj) hreached,
    List.map_map]
  congr 1
  refine List.map_congr_left fun i _ => List.countP_congr fun x _ => ?_
  unfold Happening.reaches
  cases x.milestone? with
  | none => simp
  | some r =>
    have hall : View.all.sees r.2 = true := rfl
    simp [hview, hall, and_comm]

/-! ## Every run -/

/-- What was counted in a run that began with nothing counted. -/
theorem Sound.count_eq {e₀ e : Engine} {past : List Happening} (h : Sound e₀ e past)
    (hzero : ∀ w, e₀.tally w = .zero) (w : View) (k : Milestone) :
    (e.tally w).count k = UInt64.ofNat (past.countP (Happening.reaches k w)) := by
  rw [h.tally w, w.count_foldl_bump, hzero w]
  cases k <;> exact UInt64.zero_add _

/-- In a countable run a counter is the number of what it counts. -/
theorem Sound.toNat_count_eq {e₀ e : Engine} {past : List Happening} (h : Sound e₀ e past)
    (hzero : ∀ w, e₀.tally w = .zero) (hcountable : IsCountable past) (w : View)
    (k : Milestone) : ((e.tally w).count k).toNat = past.countP (Happening.reaches k w) := by
  rw [h.count_eq hzero, hcountable.toNat_ofNat_countP]

/-- At rest, what is counted for a view accounts for the messages that it sees. -/
theorem Sound.balances {e₀ e : Engine} {past : List Happening} (h : Sound e₀ e past)
    (hzero : ∀ w, e₀.tally w = .zero) (hrest : ∀ id, e.callOf? id = none) (w : View) :
    (e.tally w).Balances w.sees e past := by
  -- The accounts are equations between numbers; the words follow, and the numbers where none wraps.
  have haccount := h.account hrest w
  refine ⟨?words, fun hcountable => ?numbers⟩
  case words =>
    have hsent : (e.tally w).sent = _ := h.count_eq hzero w .sent
    have hdelivered : (e.tally w).delivered = _ := h.count_eq hzero w .delivered
    have hfailed : (e.tally w).failed = _ := h.count_eq hzero w .failed
    rw [countP_droppedOf, hsent, hdelivered, hfailed, ← UInt64.ofNat_add, ← UInt64.ofNat_add,
      ← UInt64.ofNat_add, haccount]
    congr 1
    omega
  case numbers =>
    have hsent : (e.tally w).sent.toNat = _ := h.toNat_count_eq hzero hcountable w .sent
    have hdelivered : (e.tally w).delivered.toNat = _ :=
      h.toNat_count_eq hzero hcountable w .delivered
    have hfailed : (e.tally w).failed.toNat = _ := h.toNat_count_eq hzero hcountable w .failed
    rw [countP_droppedOf, hsent, hdelivered, hfailed]
    omega

/-- The counts for views that see each message once add up to the total. -/
theorem Sound.sum_counts {e₀ e : Engine} {past : List Happening} (h : Sound e₀ e past)
    (hzero : ∀ w, e₀.tally w = .zero) {κ : Type} [DecidableEq κ] {keys : List κ}
    (hn : keys.Nodup) (key : Message → κ) (view : κ → View)
    (hview : ∀ i m, (view i).sees m = decide (key m = i))
    (hkeys : ∀ x ∈ past, ∀ r, x.milestone? = some r → key r.2 ∈ keys) (k : Milestone) :
    AddUp (keys.map fun i => (e.tally (view i)).count k) (e.statistics.totals.count k) past := by
  have hsum := sum_reaches hn key hview hkeys k
  refine ⟨?words, fun hcountable => ?numbers⟩
  case words =>
    have htotal : e.statistics.totals.count k = _ := h.count_eq hzero .all k
    rw [htotal, ← hsum, ← sumOfWords_map_ofNat, List.map_map]
    congr 1
    exact List.map_congr_left fun i _ => h.count_eq hzero (view i) k
  case numbers =>
    have htotal : (e.statistics.totals.count k).toNat = _ :=
      h.toNat_count_eq hzero hcountable .all k
    rw [htotal, ← hsum, List.map_map]
    congr 1
    exact List.map_congr_left fun i _ => h.toNat_count_eq hzero hcountable (view i) k

/-- The channel that is counted for a view of a channel. -/
theorem tally_channel {e : Engine} (hn : (e.registry.map Channel.id).Nodup) {c : Channel}
    (hc : c ∈ e.registry) : e.tally (.channel c.id) = c.counters := by
  have hget : e.registry.get? c.id = some c := find?_of_nodup hn hc
  simp only [tally, hget, Option.map_some, Option.getD_some]

/-- The channels of a run keep their ids. -/
theorem Sound.ids {e₀ e : Engine} {past : List Happening} (h : Sound e₀ e past) :
    e.registry.map Channel.id = e₀.registry.map Channel.id := by
  have hids : ∀ r : Registry, r.map Channel.id = (r.map Channel.spec).map ChannelSpec.id :=
    fun r => by rw [List.map_map]; rfl
  rw [hids, hids, h.specs]

/-- A milestone is that of a message over a channel of the engine. -/
theorem Sound.channelId_mem {e₀ e : Engine} {past : List Happening} (h : Sound e₀ e past)
    {x : Happening} (hx : x ∈ past) {r : Milestone × Message} (hr : x.milestone? = some r) :
    r.2.channelId ∈ e.registry.map Channel.id := by
  obtain ⟨v, -, hlife⟩ := h.life x.messageId
  have habout : x ∈ Happening.about x.messageId past :=
    List.mem_filter.mpr ⟨hx, beq_iff_eq.mpr rfl⟩
  -- A route names a channel of the first engine, and the registry keeps its channels.
  obtain ⟨spec, hspec⟩ := (hlife.routes_of_milestone habout hr).channel
  rw [← h.spec?] at hspec
  obtain ⟨channel, hget, -, hid⟩ := get?_of_spec? hspec
  exact List.mem_map.mpr ⟨channel, List.mem_of_find?_eq_some hget, hid⟩

/-- Nothing is seen of a message behind its end. -/
theorem Sound.pairwise_isEnd {e₀ e : Engine} {past : List Happening} (h : Sound e₀ e past) :
    past.Pairwise fun x y => x.messageId = y.messageId → x.isEnd = false := by
  refine List.pairwise_iff_forall_sublist.mpr fun {x y} hxy he => ?_
  obtain ⟨v, -, hlife⟩ := h.life x.messageId
  have hboth : [x, y].Sublist (Happening.about x.messageId past) := by
    have hfilter := hxy.filter fun z => z.messageId == x.messageId
    simpa [Happening.about, he] using hfilter
  exact List.pairwise_iff_forall_sublist.mp hlife.pairwise hboth

/-- A message is cancelled behind an attempt once at most. -/
theorem Sound.nodup_droppedOf {e₀ e : Engine} {past : List Happening} (h : Sound e₀ e past) :
    ((droppedOf past).map Message.id).Nodup := by
  unfold List.Nodup droppedOf
  rw [List.pairwise_map, List.pairwise_filterMap]
  refine h.pairwise_isEnd.imp fun {x y} hxy m hm m' hm' he => ?_
  obtain ⟨now, rfl⟩ := Happening.eq_of_dropped? hm
  obtain ⟨now', rfl⟩ := Happening.eq_of_dropped? hm'
  have hend : (Happening.cancelled m now).isEnd = false := hxy he
  simp [Happening.isEnd] at hend

/-- The counters of an engine account for what happened to its messages. -/
structure Balanced (e : Engine) (past : List Happening) : Prop where
  total : e.statistics.totals.Balances (fun _ => true) e past
  byPriority : ∀ p, (e.statistics.byPriority.get p).Balances (fun m => m.priority == p) e past
  byChannel : ∀ c ∈ e.registry, c.counters.Balances (fun m => m.channelId == c.id) e past
  sumByPriority : ∀ k, AddUp (Priority.all.map fun p => (e.statistics.byPriority.get p).count k)
    (e.statistics.totals.count k) past
  sumByChannel : ∀ k, AddUp (e.registry.map fun c => c.counters.count k)
    (e.statistics.totals.count k) past
  /-- No message is cancelled behind an attempt twice. -/
  droppedOnce : ((droppedOf past).map Message.id).Nodup
  prune : ∀ before, (e.prune before).1.statistics = e.statistics ∧
    (e.prune before).1.registry = e.registry

/-- Whatever a run does, its counters balance whenever the deliverer is not called. -/
theorem run_balanced {registry : Registry} (hr : registry.IsFresh) (templates : TemplateStore)
    (directory : Directory) (policy : Policy) (idSupply : IdSupply) (turns : List (Instant × Turn))
    (hrest : ∀ id,
      ((create registry templates directory policy idSupply).run turns).callOf? id = none) :
    Balanced ((create registry templates directory policy idSupply).run turns)
      ((create registry templates directory policy idSupply).history turns) := by
  have hsound := run_sound registry templates directory policy idSupply turns
  have hzero := hr.tally_eq_zero templates directory policy idSupply
  generalize (create registry templates directory policy idSupply).run turns = e at hsound hrest
  generalize (create registry templates directory policy idSupply).history turns = past at hsound
  have hbalances := hsound.balances hzero hrest
  have hn : (e.registry.map Channel.id).Nodup := hsound.ids ▸ hr.nodup
  refine
    { total := hbalances .all
      byPriority := fun p => hbalances (.priority p)
      byChannel := fun c hc => ?_
      sumByPriority := fun k => ?_
      sumByChannel := fun k => ?_
      droppedOnce := hsound.nodup_droppedOf
      prune := fun _ => ⟨rfl, rfl⟩ }
  · rw [← tally_channel hn hc]
    exact hbalances (.channel c.id)
  · have hnodup : Priority.all.Nodup := by decide
    exact hsound.sum_counts hzero hnodup Message.priority .priority (fun _ _ => rfl)
      (fun _ _ r _ => r.2.priority.mem_all) k
  · -- The counts of the channels in the registry are those of the views of their ids.
    have hmap : (e.registry.map fun c => c.counters.count k) =
        (e.registry.map Channel.id).map fun id => (e.tally (.channel id)).count k := by
      rw [List.map_map]
      exact List.map_congr_left fun c hc => by rw [← tally_channel hn hc]; rfl
    rw [hmap]
    exact hsound.sum_counts hzero hn Message.channelId .channel (fun _ _ => rfl)
      (fun _ hx _ hr => hsound.channelId_mem hx hr) k

/-- Of two messages one is cancelled between its attempts and one fails. -/
def cancelledAndFailed : List (Instant × Turn) :=
  tryOnce "m1" (.error (.http "no answer")) ++ (⟨0, false⟩, .cancel "m1") ::
    tryOnce "m2" (.error (.rejected "no such page"))

/-- Both count as sent. -/
theorem cancelledAndFailed_balanced :
    ((create [hook] .withDefaults [] .standard).run cancelledAndFailed).statistics.totals.sent =
      2 ∧
    (droppedOf
      ((create [hook] .withDefaults [] .standard).history cancelledAndFailed)).length = 1 ∧
    Balanced ((create [hook] .withDefaults [] .standard).run cancelledAndFailed)
      ((create [hook] .withDefaults [] .standard).history cancelledAndFailed) := by
  have hfresh : Registry.IsFresh [hook] := by
    refine ⟨by simp, fun c hc => ?_⟩
    rw [List.mem_singleton.mp hc]
    rfl
  have hflights : ((create [hook] .withDefaults [] .standard).run
      cancelledAndFailed).flights.isEmpty = true := by decide +kernel
  have hrest : ∀ id, ((create [hook] .withDefaults [] .standard).run
      cancelledAndFailed).callOf? id = none := by
    intro id
    unfold callOf? stage?
    rw [List.isEmpty_iff.mp hflights]
    rfl
  refine ⟨by decide +kernel, by decide +kernel, ?_⟩
  exact run_balanced hfresh .withDefaults [] .standard .numbered cancelledAndFailed hrest

end Engine

end Klaxon
