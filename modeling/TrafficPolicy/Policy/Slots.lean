import TrafficPolicy.Policy.Delay
import TrafficPolicy.Policy.Framing
import TrafficPolicy.Policy.Mapping
import TrafficPolicy.Policy.Marker
import TrafficPolicy.Policy.TextValue
import TrafficPolicy.Quantity.Rate

/-!
# The slots of a url policy

A url policy has one slot for each thing it can say about an answer: how it is delayed, how its body is
delayed, where its content comes from, and nine settings. A slot holds one occupant or none. Laying one
set of slots over another keeps the occupants of the lower one where the upper one has none.
-/

namespace TrafficPolicy

inductive Content where
  | proxy
  | cache
  | status (code : Nat)
  | map (mapping : Mapping)
  | redirect (text : TextValue .redirect)
  | rewrite (text : TextValue .rewrite)
  | restore (text : TextValue .restore)
  | tcpWrite (text : TextValue .tcpWrite)
deriving DecidableEq

namespace Content

def keyword : Content → String
  | .proxy => Marker.proxy.keyword
  | .cache => Marker.cache.keyword
  | .status _ => "status"
  | .map _ => "map"
  | .redirect _ => TextKind.redirect.keyword
  | .rewrite _ => TextKind.rewrite.keyword
  | .restore _ => TextKind.restore.keyword
  | .tcpWrite _ => TextKind.tcpWrite.keyword

def statusCommand (code : Nat) : String := s!"status {code}"

def statusComment (code : Nat) : String := s!"respond with status {code}"

def command : Content → String
  | .proxy => Marker.proxy.keyword
  | .cache => Marker.cache.keyword
  | .status code => statusCommand code
  | .map mapping => mapping.command
  | .redirect text => text.command
  | .rewrite text => text.command
  | .restore text => text.command
  | .tcpWrite text => text.command

def comment : Content → String
  | .proxy => Marker.proxy.comment
  | .cache => Marker.cache.comment
  | .status code => statusComment code
  | .map mapping => mapping.comment
  | .redirect text => text.comment
  | .rewrite text => text.comment
  | .restore text => text.comment
  | .tcpWrite text => text.comment

end Content

/-- The settings, in the order in which they are written. -/
inductive Setting where
  | chunked
  | speed
  | dont302
  | disable304
  | contentType
  | requestHeaders
  | responseHeaders
  | host
  | plugin
deriving DecidableEq, Repr

namespace Setting

def all : List Setting :=
  [.chunked, .speed, .dont302, .disable304, .contentType, .requestHeaders, .responseHeaders, .host,
    .plugin]

/-- The keywords that fill a setting; the first one is its name. -/
def keywords : Setting → List String
  | .chunked => ["chunked"]
  | .speed => ["speed"]
  | .dont302 => ["dont302", "do302"]
  | .disable304 => ["disable304", "allow304"]
  | .contentType => [TextKind.contentType.keyword]
  | .requestHeaders => [TextKind.requestHeaders.keyword]
  | .responseHeaders => [TextKind.responseHeaders.keyword]
  | .host => [TextKind.host.keyword]
  | .plugin => [TextKind.plugin.keyword]

def ofKeyword? (keyword : String) : Option Setting :=
  all.find? fun s => s.keywords.contains keyword

theorem mem_all (s : Setting) : s ∈ all := by
  cases s <;> simp [all]

end Setting

inductive Slot where
  | delay
  | body
  | content
  | setting (setting : Setting)
deriving DecidableEq, Repr

namespace Slot

/-- The slots in the order in which they are written. -/
def all : List Slot :=
  [.delay, .body, .content] ++ Setting.all.map .setting

theorem mem_all (s : Slot) : s ∈ all := by
  cases s with
  | setting s => simp [all, Setting.mem_all]
  | _ => simp [all]

def contentKeywords : List String :=
  ["proxy", "cache", "status", "map", "redirect", "rewrite", "restore", "tcpwrite"]

/-- The slot that a keyword names where a slot is to be emptied. -/
def ofKeyword? (keyword : String) : Option Slot :=
  if (DelayKind.ofKeyword? keyword).isSome then some .delay
  else if keyword = "body" then some .body
  else if contentKeywords.contains keyword then some .content
  else (Setting.ofKeyword? keyword).map .setting

abbrev Occupant : Slot → Type
  | .delay => DelayPolicy
  | .body => DelayPolicy
  | .content => Content
  | .setting .chunked => Framing
  | .setting .speed => Float
  | .setting .dont302 => Flag
  | .setting .disable304 => Flag
  | .setting .contentType => TextValue .contentType
  | .setting .requestHeaders => TextValue .requestHeaders
  | .setting .responseHeaders => TextValue .responseHeaders
  | .setting .host => TextValue .host
  | .setting .plugin => TextValue .plugin

def speedCommand (rate : Float) : String := "speed " ++ Rate.text rate

def speedComment (rate : Float) : String := "limit speed to " ++ Rate.text rate

def keyword : (s : Slot) → s.Occupant → String
  | .delay, p => p.kind.keyword
  | .body, p => p.kind.keyword
  | .content, c => c.keyword
  | .setting .chunked, _ => "chunked"
  | .setting .speed, _ => "speed"
  | .setting .dont302, f => f.keyword
  | .setting .disable304, f => f.keyword
  | .setting .contentType, _ => TextKind.contentType.keyword
  | .setting .requestHeaders, _ => TextKind.requestHeaders.keyword
  | .setting .responseHeaders, _ => TextKind.responseHeaders.keyword
  | .setting .host, _ => TextKind.host.keyword
  | .setting .plugin, _ => TextKind.plugin.keyword

def command : (s : Slot) → s.Occupant → String
  | .delay, p => p.command
  | .body, p => p.command
  | .content, c => c.command
  | .setting .chunked, f => f.command
  | .setting .speed, rate => speedCommand rate
  | .setting .dont302, f => f.keyword
  | .setting .disable304, f => f.keyword
  | .setting .contentType, t => t.command
  | .setting .requestHeaders, t => t.command
  | .setting .responseHeaders, t => t.command
  | .setting .host, t => t.command
  | .setting .plugin, t => t.command

def comment : (s : Slot) → s.Occupant → String
  | .delay, p => p.comment
  | .body, p => p.comment
  | .content, c => c.comment
  | .setting .chunked, f => f.comment
  | .setting .speed, rate => speedComment rate
  | .setting .dont302, f => f.description
  | .setting .disable304, f => f.description
  | .setting .contentType, t => t.comment
  | .setting .requestHeaders, t => t.comment
  | .setting .responseHeaders, t => t.comment
  | .setting .host, t => t.comment
  | .setting .plugin, t => t.comment

/-- The text of a setting that is a text. -/
def text? : (s : Slot) → s.Occupant → Option String
  | .setting .contentType, t => some t.value
  | .setting .requestHeaders, t => some t.value
  | .setting .responseHeaders, t => some t.value
  | .setting .host, t => some t.value
  | .setting .plugin, t => some t.value
  | _, _ => none

end Slot

structure Slots where
  delay : Option DelayPolicy := none
  body : Option DelayPolicy := none
  content : Option Content := none
  chunked : Option Framing := none
  speed : Option Float := none
  dont302 : Option Flag := none
  disable304 : Option Flag := none
  contentType : Option (TextValue .contentType) := none
  requestHeaders : Option (TextValue .requestHeaders) := none
  responseHeaders : Option (TextValue .responseHeaders) := none
  host : Option (TextValue .host) := none
  plugin : Option (TextValue .plugin) := none
deriving DecidableEq

namespace Slots

def get (slots : Slots) : (s : Slot) → Option s.Occupant
  | .delay => slots.delay
  | .body => slots.body
  | .content => slots.content
  | .setting .chunked => slots.chunked
  | .setting .speed => slots.speed
  | .setting .dont302 => slots.dont302
  | .setting .disable304 => slots.disable304
  | .setting .contentType => slots.contentType
  | .setting .requestHeaders => slots.requestHeaders
  | .setting .responseHeaders => slots.responseHeaders
  | .setting .host => slots.host
  | .setting .plugin => slots.plugin

def put (slots : Slots) : (s : Slot) → Option s.Occupant → Slots
  | .delay, o => { slots with delay := o }
  | .body, o => { slots with body := o }
  | .content, o => { slots with content := o }
  | .setting .chunked, o => { slots with chunked := o }
  | .setting .speed, o => { slots with speed := o }
  | .setting .dont302, o => { slots with dont302 := o }
  | .setting .disable304, o => { slots with disable304 := o }
  | .setting .contentType, o => { slots with contentType := o }
  | .setting .requestHeaders, o => { slots with requestHeaders := o }
  | .setting .responseHeaders, o => { slots with responseHeaders := o }
  | .setting .host, o => { slots with host := o }
  | .setting .plugin, o => { slots with plugin := o }

/-- The slots of `upper`, and those of `lower` where `upper` has none. -/
def onto (upper lower : Slots) : Slots where
  delay := upper.delay <|> lower.delay
  body := upper.body <|> lower.body
  content := upper.content <|> lower.content
  chunked := upper.chunked <|> lower.chunked
  speed := upper.speed <|> lower.speed
  dont302 := upper.dont302 <|> lower.dont302
  disable304 := upper.disable304 <|> lower.disable304
  contentType := upper.contentType <|> lower.contentType
  requestHeaders := upper.requestHeaders <|> lower.requestHeaders
  responseHeaders := upper.responseHeaders <|> lower.responseHeaders
  host := upper.host <|> lower.host
  plugin := upper.plugin <|> lower.plugin

@[simp] theorem get_empty (s : Slot) : ({} : Slots).get s = none := by
  cases s with
  | setting s => cases s <;> rfl
  | _ => rfl

@[simp] theorem get_put_self (slots : Slots) (s : Slot) (o : Option s.Occupant) :
    (slots.put s o).get s = o := by
  cases s with
  | setting s => cases s <;> rfl
  | _ => rfl

theorem get_put_of_ne (slots : Slots) {s t : Slot} (o : Option s.Occupant) (h : t ≠ s) :
    (slots.put s o).get t = slots.get t := by
  cases s with
  | setting s =>
    cases t with
    | setting t => cases s <;> cases t <;> first | rfl | exact absurd rfl h
    | _ => cases s <;> rfl
  | _ =>
    cases t with
    | setting t => cases t <;> rfl
    | _ => first | rfl | exact absurd rfl h

@[simp] theorem get_onto (upper lower : Slots) (s : Slot) :
    (upper.onto lower).get s = (upper.get s <|> lower.get s) := by
  cases s with
  | setting s => cases s <;> rfl
  | _ => rfl

/-- Slots are determined by their occupants. -/
theorem ext_get {a b : Slots} (h : ∀ s, a.get s = b.get s) : a = b := by
  cases a
  cases b
  simp only [Slots.mk.injEq]
  exact ⟨h .delay, h .body, h .content, h (.setting .chunked), h (.setting .speed),
    h (.setting .dont302), h (.setting .disable304), h (.setting .contentType),
    h (.setting .requestHeaders), h (.setting .responseHeaders), h (.setting .host),
    h (.setting .plugin)⟩

def filled (slots : Slots) : List Slot :=
  Slot.all.filter fun s => (slots.get s).isSome

def commands (slots : Slots) : List String :=
  Slot.all.filterMap fun s => (slots.get s).map s.command

end Slots

end TrafficPolicy
