import Klaxon.Dispatch.Engine
import Klaxon.Rule.RuleSet
import Klaxon.Server.Config
import Klaxon.Transport.Plugin

/-!
# Assembling a server

`assemble` builds the parts of a server from its configuration. A definition that is not sound is
left out and named in the report, and so is an action that refers to something that is not there;
the rest is used all the same.
-/

namespace Klaxon

/-- What was loaded, and what is wrong with the rest. -/
structure AssemblyReport where
  channels : Nat
  templates : Nat
  recipients : Nat
  rules : Nat
  problems : List String
  deriving DecidableEq

/-- Whether nothing is wrong. -/
def AssemblyReport.isClean (r : AssemblyReport) : Bool := r.problems.isEmpty

/-- The parts of a server; `τ` is the type of the transports. -/
structure Assembly (τ : Type) where
  engine : Engine
  /-- The transports of the channels by their ids. -/
  transports : List (String × τ)
  rules : RuleSet
  report : AssemblyReport

namespace Assembly

/-- What is loaded and what is wrong, while definitions are taken one by one. -/
structure Loaded (α : Type) where
  value : α
  problems : List String

/-- Takes definitions one by one. A definition that is refused stays out, and its problem is
noted. -/
def loadAll {α β : Type} (load : α → β → Except DispatchError α) (describe : β → String) :
    List β → Loaded α → Loaded α
  | [], l => l
  | b :: rest, l =>
    match load l.value b with
    | .ok value => loadAll load describe rest ⟨value, l.problems⟩
    | .error e =>
      loadAll load describe rest ⟨l.value, l.problems ++ [describe b ++ ": " ++ e.message]⟩

variable {τ : Type}

/-- Builds a channel and registers it. -/
def loadChannel (plugins : Plugins τ) (loaded : Registry × List (String × τ)) (spec : ChannelSpec) :
    Except DispatchError (Registry × List (String × τ)) := do
  -- Settings are checked before ids, so that of two faults the one in the settings is reported.
  let (channel, transport) ← plugins.buildChannel spec
  match loaded.1.register channel with
  | (_, .error e) => .error e
  | (registry, .ok ()) => .ok (registry, loaded.2 ++ [(channel.id, transport)])

/-- Registers the channels of a configuration. -/
def loadChannels (plugins : Plugins τ) (specs : List ChannelSpec) :
    Loaded (Registry × List (String × τ)) :=
  loadAll (loadChannel plugins) (fun s => "channel '" ++ s.id ++ "'") specs ⟨([], []), []⟩

/-- Puts a template into a store. -/
def loadTemplate (store : TemplateStore) (template : Template) :
    Except DispatchError TemplateStore :=
  match store.insert template with
  | (_, .error e) => .error e
  | (store, .ok ()) => .ok store

/-- Puts the templates of a configuration beside the standard ones. -/
def loadTemplates (templates : List Template) : Loaded TemplateStore :=
  loadAll loadTemplate (fun t => "template '" ++ t.id ++ "'") templates
    ⟨TemplateStore.withDefaults, []⟩

/-- The problem of a policy whose template for alerts does not exist. -/
def templateProblems (store : TemplateStore) (policy : Policy) : List String :=
  if (store.get? policy.alertTemplateId).isSome then []
  else ["dispatch.alert_template_id '" ++ policy.alertTemplateId ++ "' does not name a template"]

/-- The problems of an action that names recipients. -/
def recipientProblems (directory : Directory) (rule : Rule) (ids : List String) : List String :=
  (ids.filter fun id => (directory.get? id).isNone).map fun id =>
    "rule '" ++ rule.id ++ "': unknown recipient '" ++ id ++ "'"

/-- Whether there is a webhook channel of an id. -/
def isWebhook (registry : Registry) (id : String) : Bool :=
  (registry.get? id).any fun c => c.channelType == .webhook

/-- What an action of a rule refers to without its being there. -/
def actionProblems (registry : Registry) (directory : Directory) (rule : Rule) :
    Action → List String
  | .notify recipients => recipientProblems directory rule recipients
  | .escalate recipients _ => recipientProblems directory rule recipients
  | .webhookCall channelId _ =>
    if isWebhook registry channelId then []
    else ["rule '" ++ rule.id ++ "': '" ++ channelId ++ "' is not a configured webhook channel"]
  | .createAlert .. => []

/-- What the actions of the loaded rules refer to without its being there. -/
def ruleProblems (registry : Registry) (directory : Directory) (rules : RuleSet) : List String :=
  rules.rules.flatMap fun l => l.rule.actions.flatMap (actionProblems registry directory l.rule)

end Assembly

/-- Builds the parts of a server, which gets its ids from a supply. -/
def assemble {τ : Type} (plugins : Plugins τ) (config : ServerConfig)
    (idSupply : IdSupply := .numbered) : Assembly τ :=
  let channels := Assembly.loadChannels plugins config.channels
  let (registry, transports) := channels.value
  let templates := Assembly.loadTemplates config.templates
  let store := templates.value
  let directory := Directory.ofList config.recipients
  let (rules, errors) := RuleSet.load config.rules
  { engine := .create registry store directory config.dispatch idSupply
    transports
    rules
    report :=
      { channels := registry.length
        templates := store.length
        recipients := directory.length
        rules := rules.rules.length
        -- Problems stand in the order in which the parts are taken.
        problems := channels.problems ++ templates.problems ++
          Assembly.templateProblems store config.dispatch ++ errors.map RuleError.message ++
          Assembly.ruleProblems registry directory rules } }

end Klaxon
