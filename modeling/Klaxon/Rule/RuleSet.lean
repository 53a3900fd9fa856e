import Klaxon.Rule.Codec

/-!
# Rule sets

A rule set holds the loaded rules in their order, the highest priority first and then by id, with
the statistics of each and the time of its last trigger. `RuleSet.process` evaluates every rule that
looks at an event and gives those that trigger; a rule in its cooldown is counted as evaluated but
does not trigger.

Every change reports its error beside the rule set that follows, which is the old one in that case.
-/

namespace Klaxon

/-- What a rule has done since it was added. -/
structure RuleStats where
  evaluationCount : Nat
  triggerCount : Nat
  lastTriggeredAt : Option Instant
  deriving Inhabited

/-- The statistics of a new rule. -/
def RuleStats.empty : RuleStats := ⟨0, 0, none⟩

/-- A loaded rule with its statistics. -/
structure LoadedRule where
  rule : Rule
  stats : RuleStats

/-- A loaded rule is written without its statistics. -/
instance : ToJson LoadedRule := ⟨fun l => toJson l.rule⟩

/-- A rule that is read has done nothing yet. -/
instance : FromJson LoadedRule := ⟨fun j => (fromJson? j).map fun r => ⟨r, .empty⟩⟩

/-- A rule that triggered, as it was right after. -/
structure TriggeredRule where
  loaded : LoadedRule
  triggeredAt : Instant

/-- The loaded rules and the times of their last triggers. -/
structure RuleSet where
  rules : List LoadedRule
  lastFired : List (String × Instant)

namespace RuleSet

/-- No rules. -/
def empty : RuleSet := ⟨[], []⟩

/-- A rule by its id. -/
def get? (s : RuleSet) (id : String) : Option LoadedRule := s.rules.find? fun l => l.rule.id == id

/-- Whether a rule comes before another one, or could. -/
def inOrder (a b : LoadedRule) : Bool :=
  b.rule.priority.rank < a.rule.priority.rank ||
    (a.rule.priority == b.rule.priority && a.rule.id ≤ b.rule.id)

/-- Sorts rules, those that tie in the order in which they stand. -/
def sort (rules : List LoadedRule) : List LoadedRule := rules.mergeSort inOrder

/-- Adds a rule. -/
def add (s : RuleSet) (rule : Rule) : RuleSet × Except RuleError Unit :=
  match rule.validate with
  | .error e => (s, .error e)
  | .ok () =>
    if (s.get? rule.id).isSome then (s, .error (.duplicateId rule.id))
    else (⟨sort (s.rules ++ [⟨rule, .empty⟩]), s.lastFired⟩, .ok ())

/-- Loads rules one after the other, leaving out those with errors. -/
def load (rules : List Rule) : RuleSet × List RuleError :=
  rules.foldl
    (fun (s, errors) rule =>
      match s.add rule with
      | (s, .ok ()) => (s, errors)
      | (s, .error e) => (s, errors ++ [e]))
    (empty, [])

/-- Replaces all rules. -/
def replace (_ : RuleSet) (rules : List Rule) : RuleSet × List RuleError := load rules

/-- Replaces the definition of a rule; its statistics stay. -/
def update (s : RuleSet) (rule : Rule) : RuleSet × Except RuleError Unit :=
  match rule.validate with
  | .error e => (s, .error e)
  | .ok () =>
    if (s.get? rule.id).isSome then
      (⟨sort (s.rules.map fun l => if l.rule.id == rule.id then ⟨rule, l.stats⟩ else l),
        s.lastFired⟩, .ok ())
    else (s, .error (.notFound rule.id))

/-- Enables or disables a rule. A rule to be enabled is checked again. -/
def setEnabled (s : RuleSet) (id : String) (enabled : Bool) : RuleSet × Except RuleError Unit :=
  match s.get? id with
  | none => (s, .error (.notFound id))
  | some l =>
    -- A rule may be switched off whatever is wrong with it.
    let check := if enabled then { l.rule with enabled := true }.validate else .ok ()
    match check with
    | .error e => (s, .error e)
    | .ok () =>
      (⟨s.rules.map fun l =>
          if l.rule.id == id then ⟨{ l.rule with enabled := enabled }, l.stats⟩ else l,
        s.lastFired⟩, .ok ())

/-- Removes a rule and forgets its last trigger; tells whether it was there. -/
def remove (s : RuleSet) (id : String) : RuleSet × Bool :=
  (⟨s.rules.filter fun l => l.rule.id != id, s.lastFired.filter fun f => f.1 != id⟩,
    (s.get? id).isSome)

/-- Whether a rule that fired last at `last` is still cooling down. A cooldown too long to be
counted in milliseconds never ends. -/
def inCooldown (cooldownSecs : UInt64) (last now : Instant) : Bool :=
  if cooldownSecs = 0 then false
  else if 9223372036854775 < cooldownSecs.toNat then true
  else decide (now.elapsed last < cooldownSecs.toNat * Time.second)

/-- Whether a rule looks at an event. -/
def isApplicable (rule : Rule) (event : Event) : Bool :=
  rule.enabled && rule.fitsEventType event.eventType

/-- Whether the cooldown of a rule holds back a trigger. -/
def isSuppressed (rule : Rule) (lastFired : List (String × Instant)) (now : Instant) : Bool :=
  match lastFired.lookup rule.id with
  | some last => inCooldown rule.cooldownSecs last now
  | none => false

/-- Notes that a rule fired. -/
def noteFired (lastFired : List (String × Instant)) (id : String) (now : Instant) :
    List (String × Instant) :=
  (id, now) :: lastFired.filter fun f => f.1 != id

/-- What an event does to one rule: the rule after it, the last triggers after it, and whether the
rule triggered. -/
def processOne (event : Event) (now : Instant) (lastFired : List (String × Instant))
    (l : LoadedRule) : LoadedRule × List (String × Instant) × Bool :=
  if isApplicable l.rule event then
    -- The evaluation counts whether or not the rule triggers.
    let evaluated : RuleStats := { l.stats with evaluationCount := l.stats.evaluationCount + 1 }
    if l.rule.evaluate event.data && !isSuppressed l.rule lastFired now then
      let stats : RuleStats :=
        ⟨evaluated.evaluationCount, evaluated.triggerCount + 1, some now⟩
      (⟨l.rule, stats⟩, noteFired lastFired l.rule.id now, true)
    else (⟨l.rule, evaluated⟩, lastFired, false)
  else (l, lastFired, false)

/-- What an event does to rules, one after the other. -/
def processAll (event : Event) (now : Instant) :
    List (String × Instant) → List LoadedRule →
      List LoadedRule × List (String × Instant) × List TriggeredRule
  | lastFired, [] => ([], lastFired, [])
  | lastFired, l :: rest =>
    let (l, lastFired, fired) := processOne event now lastFired l
    let (rest, lastFired, triggered) := processAll event now lastFired rest
    (l :: rest, lastFired, if fired then ⟨l, now⟩ :: triggered else triggered)

/-- Evaluates the rules on an event; gives those that trigger, in their order. -/
def process (s : RuleSet) (event : Event) (now : Instant) : RuleSet × List TriggeredRule :=
  let (rules, lastFired, triggered) := processAll event now s.lastFired s.rules
  (⟨rules, lastFired⟩, triggered)

end RuleSet

end Klaxon
