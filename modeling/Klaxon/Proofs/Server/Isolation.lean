import Klaxon.Proofs.Rule.RuleSets
import Klaxon.Proofs.Server.Sessions

/-!
# Bad definitions stay by themselves

A definition that is refused when a server is assembled leaves one line in the report and no other
trace. `Assembly.sift` takes definitions one by one as the assembly does, and keeps what became of
each: it was taken, or there is a problem with it. `Assembly.verdicts` holds this for all channels,
templates and rules of a configuration, whatever the plugins say of the settings of a channel.

`assemble_isolates` says two things. A configuration without some of its refused definitions, chosen
by their positions, assembles to the same parts, and the report names the same problems but those of
the definitions that were left out. And every definition is loaded or has a line of its own; of
templates with one id the last one that was taken is loaded.

A refusal may depend on other definitions, since the second channel or rule of an id is refused. But
it depends on those only that were taken before, and these are never left out (`sift_leaveOut`).
-/

namespace Klaxon

/-- A channel that is created keeps its definition. -/
theorem Channel.spec_create {spec : ChannelSpec} {handles : ChannelType} {c : Channel}
    (h : Channel.create spec handles = .ok c) : c.spec = spec := by
  unfold create at h
  split at h
  · simp at h
  · split at h
    · simp at h
    · split at h
      · simp at h
      · rw [← Except.ok.inj h]

/-- A channel in its place is found by its id, and the others are found as before. -/
theorem Registry.get?_place {r : Registry} {channel : Channel}
    (hfree : r.get? channel.id = none) (id : String) :
    (r.place channel).get? id = if channel.id = id then some channel else r.get? id := by
  induction r with
  | nil =>
    unfold Registry.get? place
    rw [List.find?_cons]
    -- The search is for the new channel, which stands alone in an empty registry.
    split
    · next heq => rw [if_pos (beq_iff_eq.mp heq)]
    · next hne => rw [if_neg (beq_eq_false_iff_ne.mp hne)]
  | cons c rest ih =>
    unfold Registry.get? at hfree ih ⊢
    rw [List.find?_cons] at hfree
    split at hfree
    · simp at hfree
    · next hother =>
      have hrest := ih hfree
      unfold place
      split
      · rw [List.find?_cons]
        split
        · next heq => rw [if_pos (beq_iff_eq.mp heq)]
        · next hne => rw [if_neg (beq_eq_false_iff_ne.mp hne)]
      · rw [List.find?_cons, List.find?_cons, hrest]
        split
        · next heq =>
          -- The channel that stands first has another id.
          have hne : channel.id ≠ id := by
            intro hid
            rw [← hid, hother] at heq
            simp at heq
          rw [if_neg hne]
        · rfl

/-- A template that is put into a store is found by its id, and the others are found as before. -/
theorem TemplateStore.get?_put (s : TemplateStore) (t : Template) (id : String) :
    (s.put t).get? id = if t.id = id then some t else s.get? id := by
  unfold TemplateStore.get?
  induction s with
  | nil =>
    by_cases heq : t.id = id
    · simp [put, heq]
    · have hbeq : (id == t.id) = false := beq_eq_false_iff_ne.mpr fun h => heq h.symm
      simp [put, List.lookup_cons, hbeq, heq]
  | cons entry rest ih =>
    obtain ⟨j, old⟩ := entry
    unfold put
    split
    · -- The template takes the place of the first entry.
      next hj =>
      subst hj
      rw [List.lookup_cons, List.lookup_cons]
      by_cases heq : t.id = id
      · simp [heq]
      · have hbeq : (id == t.id) = false := beq_eq_false_iff_ne.mpr fun h => heq h.symm
        simp [hbeq, heq]
    · next hj =>
      rw [List.lookup_cons, List.lookup_cons, ih]
      by_cases hid : id = j
      · have hne : t.id ≠ id := fun heq => hj (hid ▸ heq.symm)
        simp [hid, hid ▸ hne]
      · have hbeq : (id == j) = false := beq_eq_false_iff_ne.mpr hid
        simp [hbeq]

namespace Assembly

variable {α β ε γ : Type}

/-! ## Definitions that are taken one by one -/

/-- What is wrong with something that was tried, if anything is. -/
def verdict (problem : ε → String) : Except ε γ → Option String
  | .ok _ => none
  | .error e => some (problem e)

/-- Takes definitions one by one, and keeps what became of each. One that is refused stays out. -/
def sift (load : α → β → Except ε α) (problem : β → ε → String) :
    α → List β → α × List (Option String)
  | a, [] => (a, [])
  | a, b :: rest =>
    match load a b with
    | .ok a' =>
      let (value, verdicts) := sift load problem a' rest
      (value, none :: verdicts)
    | .error e =>
      let (value, verdicts) := sift load problem a rest
      (value, some (problem b e) :: verdicts)

/-- Leaves out what stands at some positions. -/
def leaveOut : (Nat → Bool) → List β → List β
  | _, [] => []
  | dropped, b :: rest =>
    let left := leaveOut (fun i => dropped (i + 1)) rest
    if dropped 0 then left else b :: left

example : leaveOut (fun i => i == 0 || i == 2) ["a", "b", "c", "d"] = ["b", "d"] := rfl

/-- The definitions that were taken. -/
def taken (bs : List β) (verdicts : List (Option String)) : List β :=
  ((bs.zip verdicts).filter fun v => v.2.isNone).map Prod.fst

variable {load : α → β → Except ε α} {problem : β → ε → String} {a a' : α} {b : β} {bs : List β}

/-- A definition that is taken is followed by what comes of the others behind it. -/
theorem sift_cons_ok (h : load a b = .ok a') (rest : List β) : sift load problem a (b :: rest) =
    ((sift load problem a' rest).1, none :: (sift load problem a' rest).2) := by
  simp only [sift, h]

/-- A definition that is refused leaves the others to come as if it were not there. -/
theorem sift_cons_error {e : ε} (h : load a b = .error e) (rest : List β) :
    sift load problem a (b :: rest) =
      ((sift load problem a rest).1, some (problem b e) :: (sift load problem a rest).2) := by
  simp only [sift, h]

/-- The verdict on a definition is what comes of it behind those that stand before it. -/
theorem getElem?_sift (a : α) (bs : List β) (i : Nat) : (sift load problem a bs).2[i]? =
    bs[i]?.map fun b => verdict (problem b) (load (sift load problem a (bs.take i)).1 b) := by
  -- What stands behind the first definition is judged from where that one leads.
  induction bs generalizing a i with
  | nil => rfl
  | cons b rest ih =>
    cases h : load a b with
    | ok a' =>
      rw [sift_cons_ok h]
      cases i with
      | zero => simp [sift, h, verdict]
      | succ i =>
        rw [List.getElem?_cons_succ, List.getElem?_cons_succ, List.take_succ_cons, sift_cons_ok h]
        exact ih a' i
    | error e =>
      rw [sift_cons_error h]
      cases i with
      | zero => simp [sift, h, verdict]
      | succ i =>
        rw [List.getElem?_cons_succ, List.getElem?_cons_succ, List.take_succ_cons,
          sift_cons_error h]
        exact ih a i

/-- Without some of the refused definitions, the same is loaded, and the others are judged as
before. -/
theorem sift_leaveOut (a : α) (bs : List β) {dropped : Nat → Bool}
    (h : ∀ i, dropped i = true → (sift load problem a bs).2[i]? ≠ some none) :
    sift load problem a (leaveOut dropped bs) =
      ((sift load problem a bs).1, leaveOut dropped (sift load problem a bs).2) := by
  induction bs generalizing a dropped with
  | nil => rfl
  | cons b rest ih =>
    cases hload : load a b with
    | ok a' =>
      rw [sift_cons_ok hload] at h ⊢
      -- What was taken is not left out, so that what comes behind it is judged as before.
      have hkept : dropped 0 = false := by
        cases hzero : dropped 0 with
        | false => rfl
        | true => exact absurd rfl (h 0 hzero)
      have hrest := ih a' fun i hi => h (i + 1) hi
      simp only [leaveOut, hkept, Bool.false_eq_true, if_false]
      rw [sift_cons_ok hload, hrest]
    | error e =>
      -- What was refused changed nothing, so that it does not matter whether it is there.
      rw [sift_cons_error hload] at h ⊢
      have hrest := ih a fun i hi => h (i + 1) hi
      simp only [leaveOut]
      split
      · exact hrest
      · rw [sift_cons_error hload, hrest]

/-- What holds at the start, and is kept with each definition that is taken, holds of all that were
taken in the end. -/
theorem sift_taken {P : α → List β → Prop}
    (hstep : ∀ a b a' bs, P a bs → load a b = .ok a' → P a' (bs ++ [b])) (bs : List β)
    {before : List β} (h : P a before) :
    P (sift load problem a bs).1 (before ++ taken bs (sift load problem a bs).2) := by
  induction bs generalizing a before with
  | nil =>
    rw [taken, List.zip_nil_left, List.filter_nil, List.map_nil, List.append_nil]
    exact h
  | cons b rest ih =>
    cases hload : load a b with
    | ok a' =>
      rw [sift_cons_ok hload]
      -- The definition stands behind those that were taken before, and in front of the rest.
      have hrest := ih (hstep a b a' before h hload)
      rw [List.append_assoc] at hrest
      exact hrest
    | error e =>
      rw [sift_cons_error hload]
      exact ih h

/-- A definition without a problem was taken. -/
theorem mem_taken {verdicts : List (Option String)} {i : Nat} (hb : bs[i]? = some b)
    (hv : verdicts[i]? = some none) : b ∈ taken bs verdicts := by
  have hzip : (bs.zip verdicts)[i]? = some (b, none) := by
    rw [List.getElem?_zip_eq_some]
    exact ⟨hb, hv⟩
  have hmem : (b, none) ∈ (bs.zip verdicts).filter fun v => v.2.isNone :=
    List.mem_filter.mpr ⟨List.mem_of_getElem? hzip, rfl⟩
  exact List.mem_map_of_mem hmem

/-- The problems with definitions, in their order. -/
def problems (verdicts : List (Option String)) : List String := verdicts.filterMap id

/-- A definition that is taken adds no problem. -/
@[simp] theorem problems_none (verdicts : List (Option String)) :
    problems (none :: verdicts) = problems verdicts := rfl

/-- The problem of a refused definition comes before those of the ones behind it. -/
@[simp] theorem problems_some (p : String) (verdicts : List (Option String)) :
    problems (some p :: verdicts) = p :: problems verdicts := rfl

/-- Definitions that are loaded are sifted, and the problems are those of the refused ones. -/
theorem loadAll_eq_sift {load : α → β → Except DispatchError α} (describe : β → String)
    (bs : List β) (l : Loaded α) :
    loadAll load describe bs l =
      let sifted := sift load (fun b e => describe b ++ ": " ++ e.message) l.value bs
      ⟨sifted.1, l.problems ++ problems sifted.2⟩ := by
  induction bs generalizing l with
  | nil => simp [loadAll, sift, problems]
  | cons b rest ih =>
    cases h : load l.value b with
    | ok value => simp only [loadAll, h, ih, sift_cons_ok h, problems_none]
    | error e =>
      simp only [loadAll, h, ih, sift_cons_error h, problems_some, List.append_assoc,
        List.singleton_append]

/-! ## The definitions of a configuration -/

variable {τ : Type}

/-- Adds a rule, if there is no error. -/
def addRule (s : RuleSet) (rule : Rule) : Except RuleError RuleSet :=
  match s.add rule with
  | (s, .ok ()) => .ok s
  | (_, .error e) => .error e

/-- The verdict on a rule is the one that the rule set gives. -/
theorem verdict_addRule (s : RuleSet) (rule : Rule) (problem : RuleError → String) :
    verdict problem (addRule s rule) = verdict problem (s.add rule).2 := by
  unfold addRule
  generalize s.add rule = added
  obtain ⟨s', result⟩ := added
  cases result <;> rfl

/-- Takes a rule behind others, or notes its error. -/
def loadRule (loaded : RuleSet × List RuleError) (rule : Rule) : RuleSet × List RuleError :=
  match loaded.1.add rule with
  | (s, .ok ()) => (s, loaded.2)
  | (s, .error e) => (s, loaded.2 ++ [e])

/-- Rules that are loaded are sifted, and the errors are the problems. -/
theorem foldl_loadRule (rules : List Rule) (s : RuleSet) (errors : List RuleError) :
    (rules.foldl loadRule (s, errors)).1 =
        (sift addRule (fun _ => RuleError.message) s rules).1 ∧
      (rules.foldl loadRule (s, errors)).2.map RuleError.message =
        errors.map RuleError.message ++
          problems (sift addRule (fun _ => RuleError.message) s rules).2 := by
  induction rules generalizing s errors with
  | nil => exact ⟨rfl, (List.append_nil _).symm⟩
  | cons rule rest ih =>
    rcases hadd : s.add rule with ⟨s', result⟩
    rw [List.foldl_cons]
    cases result with
    | ok u =>
      have hrule : addRule s rule = .ok s' := by
        unfold addRule
        rw [hadd]
      have hload : loadRule (s, errors) rule = (s', errors) := by
        simp only [loadRule, hadd]
      rw [hload, sift_cons_ok hrule, problems_none]
      exact ih s' errors
    | error e =>
      have hrule : addRule s rule = .error e := by
        unfold addRule
        rw [hadd]
      -- A rule that is refused leaves the rule set as it was.
      have hsame : s' = s := by
        have hkept := RuleSet.add_eq_of_error (congrArg Prod.snd hadd)
        rw [hadd] at hkept
        exact hkept
      have hload : loadRule (s, errors) rule = (s, errors ++ [e]) := by
        simp only [loadRule, hadd, hsame]
      obtain ⟨hvalue, hproblems⟩ := ih s (errors ++ [e])
      rw [List.map_append, List.append_assoc] at hproblems
      rw [hload, sift_cons_error hrule, problems_some]
      exact ⟨hvalue, hproblems⟩

/-- What became of the definitions of a configuration: none for one that was taken, or else the
problem with it. -/
structure Verdicts where
  channels : List (Option String)
  templates : List (Option String)
  rules : List (Option String)

/-- What becomes of the channels of a configuration. -/
def siftChannels (plugins : Plugins τ) (specs : List ChannelSpec) :
    (Registry × List (String × τ)) × List (Option String) :=
  sift (loadChannel plugins) (fun s e => "channel '" ++ s.id ++ "'" ++ ": " ++ e.message) ([], [])
    specs

/-- What becomes of the templates of a configuration. -/
def siftTemplates (templates : List Template) : TemplateStore × List (Option String) :=
  sift loadTemplate (fun t e => "template '" ++ t.id ++ "'" ++ ": " ++ e.message)
    TemplateStore.withDefaults templates

/-- What becomes of the rules of a configuration. -/
def siftRules (rules : List Rule) : RuleSet × List (Option String) :=
  sift addRule (fun _ => RuleError.message) .empty rules

/-- The channels of a configuration are loaded as they are sifted. -/
theorem loadChannels_eq (plugins : Plugins τ) (specs : List ChannelSpec) :
    loadChannels plugins specs =
      ⟨(siftChannels plugins specs).1, problems (siftChannels plugins specs).2⟩ :=
  loadAll_eq_sift _ specs ⟨([], []), []⟩

/-- The templates of a configuration are loaded as they are sifted. -/
theorem loadTemplates_eq (templates : List Template) :
    loadTemplates templates =
      ⟨(siftTemplates templates).1, problems (siftTemplates templates).2⟩ :=
  loadAll_eq_sift _ templates ⟨TemplateStore.withDefaults, []⟩

/-- The rules of a configuration are loaded as they are sifted. -/
theorem load_eq (rules : List Rule) :
    (RuleSet.load rules).1 = (siftRules rules).1 ∧
      (RuleSet.load rules).2.map RuleError.message = problems (siftRules rules).2 :=
  foldl_loadRule rules .empty []

/-- What becomes of the definitions of a configuration. -/
def verdicts (plugins : Plugins τ) (config : ServerConfig) : Verdicts :=
  ⟨(siftChannels plugins config.channels).2, (siftTemplates config.templates).2,
    (siftRules config.rules).2⟩

/-! ## What is loaded is what was taken -/

/-- The definitions that were taken are channels of the registry, with their transports. -/
structure HoldsChannels (plugins : Plugins τ) (loaded : Registry × List (String × τ))
    (specs : List ChannelSpec) : Prop where
  there : ∀ spec ∈ specs, ∃ channel transport,
    plugins.buildChannel spec = .ok (channel, transport) ∧
    loaded.1.get? spec.id = some channel ∧ loaded.2.lookup spec.id = some transport
  count : loaded.1.length = specs.length
  /-- No transport is there without its channel. -/
  paired : ∀ id, loaded.1.get? id = none → loaded.2.lookup id = none

/-- A channel that is loaded was built, and its id was free. -/
theorem loadChannel_eq_ok {plugins : Plugins τ} {loaded loaded' : Registry × List (String × τ)}
    {spec : ChannelSpec} (h : loadChannel plugins loaded spec = .ok loaded') :
    ∃ channel transport, plugins.buildChannel spec = .ok (channel, transport) ∧
      channel.id = spec.id ∧ loaded.1.get? spec.id = none ∧
        loaded' = (loaded.1.place channel, loaded.2 ++ [(spec.id, transport)]) := by
  obtain ⟨⟨channel, transport⟩, hbuilt, h⟩ := Engine.bind_eq_ok h
  have hid : channel.id = spec.id := by
    obtain ⟨⟨_, _⟩, -, hmade⟩ := Engine.bind_eq_ok hbuilt
    obtain ⟨built, hcreate, hmade⟩ := Engine.bind_eq_ok hmade
    obtain ⟨rfl, -⟩ := Prod.mk.inj (Except.ok.inj hmade)
    exact congrArg ChannelSpec.id (Channel.spec_create hcreate)
  refine ⟨channel, transport, hbuilt, hid, ?_⟩
  -- Only an id that is taken keeps a channel that was built out of the registry.
  unfold Registry.register at h
  simp only at h
  split at h
  · simp at h
  · next registry heq =>
    split at heq
    · simp at heq
    · next hfree =>
      rw [hid, Bool.not_eq_true, Option.isSome_eq_false_iff, Option.isNone_iff_eq_none] at hfree
      obtain ⟨rfl, -⟩ := Prod.mk.inj heq
      obtain rfl := Except.ok.inj h
      exact ⟨hfree, by rw [hid]⟩

/-- A channel that is loaded is held beside the others. -/
theorem HoldsChannels.add {plugins : Plugins τ} {loaded loaded' : Registry × List (String × τ)}
    {specs : List ChannelSpec} {spec : ChannelSpec} (h : HoldsChannels plugins loaded specs)
    (hload : loadChannel plugins loaded spec = .ok loaded') :
    HoldsChannels plugins loaded' (specs ++ [spec]) := by
  obtain ⟨channel, transport, hbuilt, hid, hfree, rfl⟩ := loadChannel_eq_ok hload
  have hget := Registry.get?_place (hid ▸ hfree)
  rw [hid] at hget
  constructor
  · intro other hother
    rcases List.mem_append.mp hother with hother | hother
    · -- The id of the new channel is none of those that are there.
      obtain ⟨c, t, hbuilt', hthere, hlookup⟩ := h.there other hother
      have hne : spec.id ≠ other.id := by
        intro heq
        rw [← heq, hfree] at hthere
        simp at hthere
      refine ⟨c, t, hbuilt', ?_, ?_⟩
      · rw [hget, if_neg hne]
        exact hthere
      · rw [List.lookup_append, hlookup]
        rfl
    · obtain rfl := List.mem_singleton.mp hother
      refine ⟨channel, transport, hbuilt, ?_, ?_⟩
      · rw [hget, if_pos rfl]
      · rw [List.lookup_append, h.paired _ hfree]
        simp
  · rw [(Registry.place_perm loaded.1 channel).length_eq, List.length_cons, h.count,
      List.length_append, List.length_singleton]
  · -- An id that is free behind the new channel was free before, and is not that of the channel.
    intro id hnone
    rw [hget] at hnone
    split at hnone
    · simp at hnone
    · next hne =>
      rw [List.lookup_append, h.paired id hnone]
      have hother : ¬ id = spec.id := fun heq => hne heq.symm
      simp [hother]

/-- The registry holds the channels that were taken. -/
theorem holdsChannels_sift (plugins : Plugins τ) (specs : List ChannelSpec) :
    HoldsChannels plugins (siftChannels plugins specs).1
      (taken specs (siftChannels plugins specs).2) := by
  have hnone : HoldsChannels plugins ([], []) [] :=
    ⟨fun _ h => absurd h List.not_mem_nil, rfl, fun _ _ => rfl⟩
  exact sift_taken (fun _ _ _ _ h hload => h.add hload) specs hnone

/-- Of the definitions with one id that were taken, the last one is the template in the store. -/
def HoldsTemplates (store : TemplateStore) (templates : List Template) : Prop :=
  ∀ id, store.get? id = (templates.reverse.find? fun t => t.id == id).or
    (TemplateStore.withDefaults.get? id)

/-- A template that is put into the store takes the place of the one of its id. -/
theorem HoldsTemplates.add {store store' : TemplateStore} {templates : List Template}
    {t : Template} (h : HoldsTemplates store templates)
    (hload : loadTemplate store t = .ok store') :
    HoldsTemplates store' (templates ++ [t]) := by
  have hput : store' = store.put t := by
    unfold loadTemplate TemplateStore.insert at hload
    cases hvalid : t.validate with
    | error e => simp [hvalid] at hload
    | ok u =>
      rw [hvalid] at hload
      exact (Except.ok.inj hload).symm
  intro id
  rw [hput, TemplateStore.get?_put, List.reverse_append, List.reverse_singleton,
    List.singleton_append, List.find?_cons, h id]
  by_cases heq : t.id = id
  · simp [heq]
  · have hbeq : (t.id == id) = false := beq_eq_false_iff_ne.mpr heq
    simp [heq, hbeq]

/-- The store holds the templates that were taken. -/
theorem holdsTemplates_sift (templates : List Template) :
    HoldsTemplates (siftTemplates templates).1 (taken templates (siftTemplates templates).2) := by
  have hnone : HoldsTemplates .withDefaults [] := fun _ => rfl
  exact sift_taken (fun _ _ _ _ h hload => h.add hload) templates hnone

/-- The definitions that were taken are rules of the rule set. -/
structure HoldsRules (s : RuleSet) (rules : List Rule) : Prop where
  there : ∀ rule ∈ rules, ⟨rule, .empty⟩ ∈ s.rules
  count : s.rules.length = rules.length

/-- A rule that is added is held beside the others. -/
theorem HoldsRules.add {s s' : RuleSet} {rules : List Rule} {rule : Rule} (h : HoldsRules s rules)
    (hadd : addRule s rule = .ok s') : HoldsRules s' (rules ++ [rule]) := by
  have hrules : s'.rules = RuleSet.sort (s.rules ++ [⟨rule, .empty⟩]) := by
    unfold addRule RuleSet.add at hadd
    cases hvalid : rule.validate with
    | error e => simp [hvalid] at hadd
    | ok u =>
      cases hget : (s.get? rule.id).isSome with
      | true => simp [hvalid, hget] at hadd
      | false =>
        simp only [hvalid, hget, Bool.false_eq_true, if_false] at hadd
        rw [← Except.ok.inj hadd]
  have hperm := List.mergeSort_perm (s.rules ++ [⟨rule, .empty⟩]) RuleSet.inOrder
  constructor
  · intro other hother
    rw [hrules]
    refine hperm.mem_iff.mpr ?_
    rcases List.mem_append.mp hother with hother | hother
    · exact List.mem_append_left _ (h.there other hother)
    · rw [List.mem_singleton.mp hother]
      exact List.mem_append_right _ (List.mem_singleton_self _)
  · rw [hrules, RuleSet.sort, hperm.length_eq, List.length_append, List.length_append, h.count]
    rfl

/-- The rule set holds the rules that were taken. -/
theorem holdsRules_sift (rules : List Rule) :
    HoldsRules (siftRules rules).1 (taken rules (siftRules rules).2) := by
  have hnone : HoldsRules .empty [] := ⟨fun _ h => absurd h List.not_mem_nil, rfl⟩
  exact sift_taken (fun _ _ _ _ h hadd => h.add hadd) rules hnone

/-! ## Isolation -/

/-- Definitions of a configuration that are chosen by their positions. -/
structure Selection where
  channels : Nat → Bool
  templates : Nat → Bool
  rules : Nat → Bool

/-- All that is chosen was refused. -/
structure Selection.IsRefused (d : Selection) (v : Verdicts) : Prop where
  channels : ∀ i, d.channels i = true → ∃ p, v.channels[i]? = some (some p)
  templates : ∀ i, d.templates i = true → ∃ p, v.templates[i]? = some (some p)
  rules : ∀ i, d.rules i = true → ∃ p, v.rules[i]? = some (some p)

/-- The verdicts on the definitions that are not chosen. -/
def Verdicts.leaveOut (v : Verdicts) (d : Selection) : Verdicts :=
  ⟨Assembly.leaveOut d.channels v.channels, Assembly.leaveOut d.templates v.templates,
    Assembly.leaveOut d.rules v.rules⟩

/-- A configuration without the definitions that are chosen. -/
def withoutChosen (config : ServerConfig) (d : Selection) : ServerConfig :=
  { config with
    channels := leaveOut d.channels config.channels
    templates := leaveOut d.templates config.templates
    rules := leaveOut d.rules config.rules }

/-- The lines of a report: one for each definition that was refused, and those of what the loaded
parts refer to without its being there. -/
def Verdicts.lines (v : Verdicts) (parts : Assembly τ) : List String :=
  problems v.channels ++ problems v.templates ++
    templateProblems parts.engine.templates parts.engine.policy ++ problems v.rules ++
      ruleProblems parts.engine.registry parts.engine.directory parts.rules

/-- The parts of a server, by way of the verdicts. -/
theorem assemble_eq_sift (plugins : Plugins τ) (config : ServerConfig) (idSupply : IdSupply) :
    assemble plugins config idSupply =
      let ((registry, transports), ofChannels) := siftChannels plugins config.channels
      let (store, ofTemplates) := siftTemplates config.templates
      let (rules, ofRules) := siftRules config.rules
      let directory := Directory.ofList config.recipients
      { engine := .create registry store directory config.dispatch idSupply
        transports
        rules
        report :=
          { channels := registry.length
            templates := store.length
            recipients := directory.length
            rules := rules.rules.length
            problems := problems ofChannels ++ problems ofTemplates ++
              templateProblems store config.dispatch ++ problems ofRules ++
                ruleProblems registry directory rules } } := by
  obtain ⟨hrules, herrors⟩ := load_eq config.rules
  unfold assemble
  rw [loadChannels_eq, loadTemplates_eq]
  simp only [hrules, herrors]

/-- A refused definition leaves no trace but its line: whatever refused definitions are left out of
a configuration, the same parts come of it, and the report is without their lines. -/
theorem assemble_withoutChosen (plugins : Plugins τ) (config : ServerConfig)
    (idSupply : IdSupply) {d : Selection} (h : d.IsRefused (verdicts plugins config)) :
    assemble plugins (withoutChosen config d) idSupply =
      { assemble plugins config idSupply with
        report := { (assemble plugins config idSupply).report with
          problems := ((verdicts plugins config).leaveOut d).lines
            (assemble plugins config idSupply) } } := by
  have hrefused {verdicts : List (Option String)} {dropped : Nat → Bool}
      (h : ∀ i, dropped i = true → ∃ p, verdicts[i]? = some (some p)) :
      ∀ i, dropped i = true → verdicts[i]? ≠ some none := by
    intro i hi hnone
    obtain ⟨p, hp⟩ := h i hi
    rw [hp] at hnone
    simp at hnone
  have hchannels : siftChannels plugins (leaveOut d.channels config.channels) = _ :=
    sift_leaveOut _ _ (hrefused h.channels)
  have htemplates : siftTemplates (leaveOut d.templates config.templates) = _ :=
    sift_leaveOut _ _ (hrefused h.templates)
  have hrules : siftRules (leaveOut d.rules config.rules) = _ :=
    sift_leaveOut _ _ (hrefused h.rules)
  -- All other parts of the server are made of what the three siftings load.
  rw [assemble_eq_sift, assemble_eq_sift]
  simp only [withoutChosen, hchannels, htemplates, hrules]
  rfl

/-- A webhook that is defined twice. -/
def definedTwice : ServerConfig :=
  let hook : ChannelSpec :=
    { id := "hook", name := "Hook", channelType := .webhook, enabled := true, config := .object []
      retryPolicy := .standard, rateLimit := .standard, supportedPriorities := []
      retryClassification := .all }
  { ServerConfig.standard with channels := [hook, hook] }

example : (verdicts Plugins.builtin definedTwice).channels = [none, some
    "channel 'hook': Notify: invalid channel configuration: duplicate channel id 'hook'"] := by
  decide +kernel

/-! ## What the report says of each definition -/

/-- The verdicts on the definitions of a configuration are those of the assembly: each is what comes
of a definition behind the ones that stand before it. -/
structure Judged (plugins : Plugins τ) (config : ServerConfig) : Prop where
  channels : ∀ i, (verdicts plugins config).channels[i]? = config.channels[i]?.map fun spec =>
    verdict (fun e => "channel '" ++ spec.id ++ "'" ++ ": " ++ e.message)
      (loadChannel plugins (loadChannels plugins (config.channels.take i)).value spec)
  templates : ∀ i, (verdicts plugins config).templates[i]? = config.templates[i]?.map fun t =>
    verdict (fun e => "template '" ++ t.id ++ "'" ++ ": " ++ e.message)
      (loadTemplate (loadTemplates (config.templates.take i)).value t)
  rules : ∀ i, (verdicts plugins config).rules[i]? = config.rules[i]?.map fun rule =>
    verdict RuleError.message ((RuleSet.load (config.rules.take i)).1.add rule).2

/-- The verdicts are those of the assembly. -/
theorem judged (plugins : Plugins τ) (config : ServerConfig) : Judged plugins config := by
  constructor
  · intro i
    rw [loadChannels_eq]
    exact getElem?_sift _ _ i
  · intro i
    rw [loadTemplates_eq]
    exact getElem?_sift _ _ i
  · intro i
    have hverdict : (siftRules config.rules).2[i]? = _ := getElem?_sift _ _ i
    simp only [verdict_addRule] at hverdict
    rw [(load_eq (config.rules.take i)).1]
    exact hverdict

/-- Each definition is there, or there is a problem with it. -/
def EachSettled (bs : List β) (verdicts : List (Option String)) (there : β → Prop) : Prop :=
  ∀ (i : Nat) (b : β), bs[i]? = some b →
    (verdicts[i]? = some none ∧ there b) ∨ ∃ p, verdicts[i]? = some (some p)

/-- A definition without a problem is there if all that were taken are. -/
theorem eachSettled_sift {there : β → Prop}
    (h : ∀ b ∈ taken bs (sift load problem a bs).2, there b) :
    EachSettled bs (sift load problem a bs).2 there := by
  intro i b hb
  have hverdict : (sift load problem a bs).2[i]? = _ := getElem?_sift a bs i
  rw [hb, Option.map_some] at hverdict
  cases hv : verdict (problem b) (load (sift load problem a (bs.take i)).1 b) with
  | none =>
    rw [hv] at hverdict
    exact .inl ⟨hverdict, h b (mem_taken hb hverdict)⟩
  | some p =>
    rw [hv] at hverdict
    exact .inr ⟨p, hverdict⟩

/-- Each definition of a configuration is loaded, or there is a problem with it. -/
structure AllSettled (plugins : Plugins τ) (config : ServerConfig) (idSupply : IdSupply) :
    Prop where
  channels : EachSettled config.channels (verdicts plugins config).channels fun spec =>
    ∃ channel transport, plugins.buildChannel spec = .ok (channel, transport) ∧
      (assemble plugins config idSupply).engine.registry.get? spec.id = some channel ∧
      (assemble plugins config idSupply).transports.lookup spec.id = some transport
  /-- Of templates with one id the last one that was taken is loaded. -/
  templates : EachSettled config.templates (verdicts plugins config).templates fun t =>
    ∃ last, (assemble plugins config idSupply).engine.templates.get? t.id = some last ∧
      (taken config.templates (verdicts plugins config).templates).reverse.find?
        (fun u => u.id == t.id) = some last
  rules : EachSettled config.rules (verdicts plugins config).rules fun rule =>
    (assemble plugins config idSupply).rules.get? rule.id = some ⟨rule, .empty⟩
  channelCount : (assemble plugins config idSupply).report.channels =
    (taken config.channels (verdicts plugins config).channels).length
  ruleCount : (assemble plugins config idSupply).report.rules =
    (taken config.rules (verdicts plugins config).rules).length

/-- Each definition of a configuration is loaded or has a problem. -/
theorem allSettled (plugins : Plugins τ) (config : ServerConfig) (idSupply : IdSupply) :
    AllSettled plugins config idSupply := by
  have hchannels := holdsChannels_sift plugins config.channels
  have htemplates := holdsTemplates_sift config.templates
  have hrules := holdsRules_sift config.rules
  have hkept : (siftRules config.rules).1.WellKept := by
    rw [← (load_eq config.rules).1]
    exact RuleSet.wellKept_load config.rules
  constructor
  · rw [assemble_eq_sift]
    exact eachSettled_sift hchannels.there
  · rw [assemble_eq_sift]
    refine eachSettled_sift fun t ht => ?_
    -- A template that was taken is one of its id that was.
    have hsome : ((taken config.templates (siftTemplates config.templates).2).reverse.find?
        fun u => u.id == t.id).isSome = true :=
      List.find?_isSome.mpr ⟨t, List.mem_reverse.mpr ht, beq_self_eq_true _⟩
    obtain ⟨last, hlast⟩ := Option.isSome_iff_exists.mp hsome
    refine ⟨last, ?_, hlast⟩
    have hget := htemplates t.id
    rw [hlast] at hget
    exact hget
  · rw [assemble_eq_sift]
    refine eachSettled_sift fun rule hrule => ?_
    have hthere := hrules.there rule hrule
    -- The rule that is found by the id is this one, since no other has the same.
    have hsome : ((siftRules config.rules).1.get? rule.id).isSome = true :=
      List.find?_isSome.mpr ⟨_, hthere, beq_self_eq_true _⟩
    obtain ⟨l, hget⟩ := Option.isSome_iff_exists.mp hsome
    obtain rfl := hkept.eq_of_get? hget hthere rfl
    exact hget
  · rw [assemble_eq_sift]
    exact hchannels.count
  · rw [assemble_eq_sift]
    exact hrules.count

end Assembly

open Assembly

/-- Bad definitions stay by themselves: each has a line in the report, in the order of the
definitions, and leaves no other trace. -/
structure Isolates {τ : Type} (plugins : Plugins τ) (config : ServerConfig)
    (idSupply : IdSupply) : Prop where
  judged : Judged plugins config
  report : (assemble plugins config idSupply).report.problems =
    (verdicts plugins config).lines (assemble plugins config idSupply)
  settled : AllSettled plugins config idSupply
  leftOut : ∀ d : Selection, d.IsRefused (verdicts plugins config) →
    assemble plugins (withoutChosen config d) idSupply =
      { assemble plugins config idSupply with
        report := { (assemble plugins config idSupply).report with
          problems := ((verdicts plugins config).leaveOut d).lines
            (assemble plugins config idSupply) } }
  /-- What refuses a definition is left as it was. -/
  channelRefused : ∀ (r : Registry) channel e, (r.register channel).2 = .error e →
    (r.register channel).1 = r
  templateRefused : ∀ (store : TemplateStore) t e, (store.insert t).2 = .error e →
    (store.insert t).1 = store
  ruleRefused : ∀ (s : RuleSet) rule e, (s.add rule).2 = .error e → (s.add rule).1 = s

/-- Whatever the plugins say of its channels, a configuration that is assembled loses its bad
definitions, and nothing else with them. -/
theorem assemble_isolates {τ : Type} (plugins : Plugins τ) (config : ServerConfig)
    (idSupply : IdSupply) : Isolates plugins config idSupply := by
  constructor
  · exact Assembly.judged plugins config
  · have hreport := congrArg (fun parts => parts.report.problems)
      (assemble_eq_sift plugins config idSupply)
    rw [hreport, Verdicts.lines, assemble_eq_sift]
    rfl
  · exact Assembly.allSettled plugins config idSupply
  · exact fun d hd => assemble_withoutChosen plugins config idSupply hd
  · -- Only a registration that succeeds changes the registry.
    intro r channel e he
    unfold Registry.register at he ⊢
    split
    · rfl
    · next hfree => simp [hfree] at he
  · -- Only a template that is valid is put into the store.
    intro store t e he
    unfold TemplateStore.insert at he ⊢
    cases hvalid : t.validate with
    | error e => rfl
    | ok u => simp [hvalid] at he
  · exact fun s rule e he => RuleSet.add_eq_of_error he

end Klaxon
