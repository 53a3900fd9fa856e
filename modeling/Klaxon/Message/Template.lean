import Klaxon.Dispatch.Error
import Klaxon.Json.Path

/-!
# Message templates

A template holds a subject and body for each channel type it serves. `Template.render` fills the
variant of a channel type from a context; the first conditional whose field has its value replaces
subject and body, and a greeting and a signature may be put around the body.

A template store holds templates by id. `TemplateStore.insert` refuses a template without an id or
without variants.
-/

namespace Klaxon

/-- How a body is marked up. -/
inductive TextFormat where
  | text
  | markdown
  | html
  deriving DecidableEq, Inhabited

namespace TextFormat

/-- The name of a format. -/
def name : TextFormat → String
  | .text => "text"
  | .markdown => "markdown"
  | .html => "html"

/-- The formats by name. -/
def names : List (String × TextFormat) :=
  [("text", .text), ("markdown", .markdown), ("html", .html)]

/-- A format is found under its name. -/
theorem lookup_name (f : TextFormat) : names.lookup f.name = some f := by cases f <;> decide

instance : ToJson TextFormat := ⟨fun f => .string f.name⟩
instance : FromJson TextFormat := ⟨Json.nameIn? names⟩

end TextFormat

/-- Subject and body for one channel type. -/
structure TemplateVariant where
  subject : Option String
  body : String
  format : TextFormat

/-- A subject and body that take over when a field of the context has a value. -/
structure Conditional where
  field : String
  equals : Json
  /-- The one channel type it is for, if it is not for all. -/
  channelType : Option ChannelType
  subject : Option String
  body : String

/-- What is put around a body. -/
structure Personalization where
  greeting : Bool
  signature : Option String

/-- A template. -/
structure Template where
  id : String
  name : String
  channels : List (ChannelType × TemplateVariant)
  conditionals : List Conditional
  personalization : Personalization

/-- A subject and body that are ready to be sent. -/
structure RenderedContent where
  subject : String
  body : String
  format : TextFormat
  deriving DecidableEq

instance : ToJson TemplateVariant where
  toJson v := Json.ofMembers
    [("subject", toJson v.subject), ("body", toJson v.body), ("format", toJson v.format)]

instance : FromJson TemplateVariant where
  fromJson? j := do
    let r ← Record.read [field "subject", field "body", field "format"] j
    some {
      subject := ← r.nullableOr "subject"
      body := ← r.required "body"
      format := ← r.withDefault "format" TextFormat.text }

instance : ToJson Conditional where
  toJson c := Json.ofMembers
    [("field", toJson c.field), ("equals", c.equals), ("channel_type", toJson c.channelType),
      ("subject", toJson c.subject), ("body", toJson c.body)]

instance : FromJson Conditional where
  fromJson? j := do
    let r ← Record.read
      [field "field", field "equals", field "channel_type", field "subject", field "body"] j
    some {
      field := ← r.required "field"
      equals := ← r.required "equals"
      channelType := ← r.nullableOr "channel_type"
      subject := ← r.nullableOr "subject"
      body := ← r.required "body" }

instance : ToJson Personalization where
  toJson p := Json.ofMembers
    [("greeting", toJson p.greeting), ("signature", toJson p.signature)]

instance : FromJson Personalization where
  fromJson? j := do
    let r ← Record.read [field "greeting", field "signature"] j
    some {
      greeting := ← r.withDefault "greeting" false
      signature := ← r.nullableOr "signature" }

namespace Template

/-- Neither greeting nor signature. -/
def plain : Personalization := ⟨false, none⟩

instance : ToJson Template where
  toJson t := Json.ofMembers
    [("id", toJson t.id), ("name", toJson t.name),
      ("channels", Json.ofMap ChannelType.name toJson t.channels),
      ("conditionals", toJson t.conditionals), ("personalization", toJson t.personalization)]

instance : FromJson Template where
  fromJson? j := do
    let r ← Record.read
      [field "id", field "name", field "channels", field "conditionals", field "personalization"] j
    some {
      id := ← r.required "id"
      name := ← r.withDefault "name" ""
      channels := ← r.requiredBy "channels" (Json.mapOf? ChannelType.ofName? fromJson?)
      conditionals := ← r.withDefault "conditionals" []
      personalization := ← r.withDefault "personalization" plain }

/-- Whether there is a variant for a channel type. -/
def supports (t : Template) (channelType : ChannelType) : Bool :=
  (t.channels.lookup channelType).isSome

/-- Checks a template. -/
def validate (t : Template) : Except DispatchError Unit :=
  if Text.isBlankText t.id then .error (.invalidConfig "template id is empty")
  else if t.channels.isEmpty then
    .error (.invalidConfig ("template '" ++ t.id ++ "' defines no channel variants"))
  else .ok ()

/-- Whether a conditional takes over in a context. -/
def Conditional.holds (c : Conditional) (channelType : ChannelType) (context : Json) : Bool :=
  (match c.channelType with
    | none => true
    | some t => t == channelType) &&
  (match context.lookup c.field with
    | none => false
    -- The comparison is strict, so that `1` is not `1.0`.
    | some value => value == c.equals)

/-- The templates of subject and body that apply in a context. -/
def contentFor (t : Template) (variant : TemplateVariant) (channelType : ChannelType)
    (context : Json) : Option String × String :=
  match t.conditionals.find? fun c => Conditional.holds c channelType context with
  -- A conditional without a subject keeps that of the variant.
  | some c => (c.subject <|> variant.subject, c.body)
  | none => (variant.subject, variant.body)

/-- The greeting of the recipient that a context names. -/
def greetingFor (context : Json) : String :=
  "Hello " ++ ((context.lookup "recipient.name").bind Json.text?).getD "there" ++ ",\n\n"

/-- Fills the variant for a channel type from a context. -/
def render (t : Template) (channelType : ChannelType) (context : Json) :
    Except DispatchError RenderedContent :=
  match t.channels.lookup channelType with
  | none => .error (.templateUnsupported t.id channelType)
  | some variant =>
    let (subject, body) := t.contentFor variant channelType context
    let filled := Json.interpolate body context
    let greeted :=
      if t.personalization.greeting then greetingFor context ++ filled else filled
    -- The signature may hold tokens, too; the name in the greeting is put in as it is.
    let signed := match t.personalization.signature with
      | some signature => greeted ++ "\n\n-- \n" ++ Json.interpolate signature context
      | none => greeted
    let subject := match subject with
      | some s => Json.interpolate s context
      | none => ""
    .ok ⟨subject, signed, variant.format⟩

/-- A template renders for a channel type exactly when it has a variant for it. -/
theorem render_isOk_iff (t : Template) (channelType : ChannelType) (context : Json) :
    (∃ content, t.render channelType context = .ok content) ↔ t.supports channelType = true := by
  unfold render supports
  cases t.channels.lookup channelType <;> simp

end Template

/-- Templates by id. -/
abbrev TemplateStore := List (String × Template)

namespace TemplateStore

/-- The id of the template for alerts that is always there. -/
def defaultAlertId : String := "alert-default"

/-- The template for alerts that is always there; it serves every channel type. -/
def defaultAlert : Template :=
  let subject := "[$\x7balert.severity\x7d] $\x7balert.title\x7d"
  let plain : TemplateVariant := ⟨some subject, "$\x7balert.message\x7d", .text⟩
  let markdown : TemplateVariant :=
    ⟨some subject,
      "**$\x7balert.title\x7d**\n\n$\x7balert.message\x7d\n\n" ++
        "- Severity: $\x7balert.severity\x7d\n" ++
        "- Type: $\x7balert.type\x7d\n- Detected: $\x7balert.detected_at\x7d",
      .markdown⟩
  let sms : TemplateVariant :=
    ⟨none, "[$\x7balert.severity\x7d] $\x7balert.title\x7d: $\x7balert.message\x7d", .text⟩
  { id := defaultAlertId
    name := "Default alert"
    channels := [(.email, markdown), (.sms, sms), (.webhook, plain), (.push, plain),
      (.inApp, plain), (.chat, markdown)]
    conditionals := []
    personalization := Template.plain }

/-- The store with the template for alerts. -/
def withDefaults : TemplateStore := [(defaultAlertId, defaultAlert)]

/-- A template by id. -/
def get? (s : TemplateStore) (id : String) : Option Template := s.lookup id

/-- Sets the template of an id. -/
def put (s : TemplateStore) (t : Template) : TemplateStore :=
  match s with
  | [] => [(t.id, t)]
  | (id, old) :: rest => if id = t.id then (id, t) :: rest else (id, old) :: put rest t

/-- Adds a template, or replaces the one of its id. -/
def insert (s : TemplateStore) (t : Template) : TemplateStore × Except DispatchError Unit :=
  match t.validate with
  | .error e => (s, .error e)
  | .ok () => (s.put t, .ok ())

end TemplateStore

end Klaxon
