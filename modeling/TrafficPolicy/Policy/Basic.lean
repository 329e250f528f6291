import TrafficPolicy.Policy.DomainRule
import TrafficPolicy.Policy.Removal
import TrafficPolicy.Policy.UrlPolicy

/-!
# Policies

Everything that a command can say. Each policy has a keyword, a command that reads back as the policy,
and a description.
-/

namespace TrafficPolicy

inductive Policy where
  | marker (marker : Marker)
  | flag (switch : Switch) (flag : Flag)
  | text (kind : TextKind) (value : TextValue kind)
  | map (mapping : Mapping)
  | chunked (framing : Framing)
  | speed (rate : Float)
  | status (code : Nat)
  | limit (count : Nat)
  | delay (delay : DelayPolicy)
  | url (rule : UrlRule)
  | domain (rule : DomainRule)
  | remove (removal : Removal)
  | delete (deletion : Deletion)
deriving DecidableEq

namespace Policy

def keyword : Policy → String
  | .marker m => m.keyword
  | .flag _ f => f.keyword
  | .text kind _ => kind.keyword
  | .map _ => "map"
  | .chunked _ => "chunked"
  | .speed _ => "speed"
  | .status _ => "status"
  | .limit _ => "n"
  | .delay d => d.kind.keyword
  | .url _ => "url"
  | .domain _ => "domain"
  | .remove _ => "url"
  | .delete d => d.scope.keyword

def command : Policy → String
  | .marker m => m.keyword
  | .flag _ f => f.keyword
  | .text _ value => value.command
  | .map mapping => mapping.command
  | .chunked framing => framing.command
  | .speed rate => Slot.speedCommand rate
  | .status code => Content.statusCommand code
  | .limit count => DomainRule.limitCommand count
  | .delay d => d.command
  | .url rule => rule.command
  | .domain rule => rule.command
  | .remove r => r.command
  | .delete d => d.command

def comment : Policy → String
  | .marker m => m.comment
  | .flag _ f => f.description
  | .text _ value => value.comment
  | .map mapping => mapping.comment
  | .chunked framing => framing.comment
  | .speed rate => Slot.speedComment rate
  | .status code => Content.statusComment code
  | .limit count => DomainRule.limitComment count
  | .delay d => d.comment
  | .url rule => UrlPolicy.comment ⟨rule, []⟩
  | .domain rule => rule.comment
  | .remove r => r.comment
  | .delete d => d.comment

def partOfText : (kind : TextKind) → TextValue kind → UrlPart
  | .redirect, value => .occupant .content (.redirect value)
  | .rewrite, value => .occupant .content (.rewrite value)
  | .restore, value => .occupant .content (.restore value)
  | .tcpWrite, value => .occupant .content (.tcpWrite value)
  | .contentType, value => .occupant (.setting .contentType) value
  | .requestHeaders, value => .occupant (.setting .requestHeaders) value
  | .responseHeaders, value => .occupant (.setting .responseHeaders) value
  | .host, value => .occupant (.setting .host) value
  | .plugin, value => .occupant (.setting .plugin) value

def urlPart? : Policy → Option UrlPart
  | .marker .set => some (.mode .set)
  | .marker .update => some (.mode .update)
  | .marker .proxy => some (.occupant .content .proxy)
  | .marker .cache => some (.occupant .content .cache)
  | .delay d => some (if d.body then .occupant .body d else .occupant .delay d)
  | .status code => some (.occupant .content (.status code))
  | .map mapping => some (.occupant .content (.map mapping))
  | .text kind value => some (partOfText kind value)
  | .flag .dont302 f => some (.occupant (.setting .dont302) f)
  | .flag .disable304 f => some (.occupant (.setting .disable304) f)
  | .chunked framing => some (.occupant (.setting .chunked) framing)
  | .speed rate => some (.occupant (.setting .speed) rate)
  | _ => none

end Policy

end TrafficPolicy
