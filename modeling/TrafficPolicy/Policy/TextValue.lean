import TrafficPolicy.Address.Reader
import TrafficPolicy.Error
import TrafficPolicy.Text.Percent
import TrafficPolicy.Text.Words

/-!
# Policies with a text

A keyword and one word. No text is empty or has a double quote in it, since it could not be written
back; a host is an address with a port, and fixed contents have well-formed percent escapes.
-/

namespace TrafficPolicy

inductive TextKind where
  | host
  | contentType
  | redirect
  | rewrite
  | tcpWrite
  | restore
  | plugin
  | requestHeaders
  | responseHeaders
deriving DecidableEq, Repr

namespace TextKind

def all : List TextKind :=
  [.host, .contentType, .redirect, .rewrite, .tcpWrite, .restore, .plugin, .requestHeaders,
    .responseHeaders]

def keyword : TextKind → String
  | .host => "host"
  | .contentType => "content-type"
  | .redirect => "redirect"
  | .rewrite => "rewrite"
  | .tcpWrite => "tcpwrite"
  | .restore => "restore"
  | .plugin => "plugin"
  | .requestHeaders => "request-headers"
  | .responseHeaders => "response-headers"

def ofKeyword? (keyword : String) : Option TextKind :=
  all.find? fun k => k.keyword == keyword

def expected : TextKind → String
  | .host => "an ip:port address"
  | .contentType => "a content type"
  | .redirect => "a url"
  | .rewrite => "url-encoded content"
  | .tcpWrite => "url-encoded content"
  | .restore => "a saved response id"
  | .plugin => "a plugin name"
  | .requestHeaders => "header settings"
  | .responseHeaders => "header settings"

/-- Why a percent escape of a text is refused, if one is. -/
def escapeRefusal? (value : String) : Option Reason :=
  (Text.Percent.malformedAt? (Text.utf8 value.toList)).map .malformedEscape

def refusal? (kind : TextKind) (value : String) : Option Reason :=
  if value.isEmpty then some .emptyValue
  else if value.toList.contains '"' then some .quotedValue
  else
    match kind with
    | .host => if Address.isEndpoint value then none else some .notEndpoint
    | .rewrite => escapeRefusal? value
    | .tcpWrite => escapeRefusal? value
    | _ => none

theorem mem_all (k : TextKind) : k ∈ all := by
  cases k <;> simp [all]

end TextKind

structure TextValue (kind : TextKind) where
  value : String
  accepted : kind.refusal? value = none
deriving DecidableEq

namespace TextValue

variable {kind : TextKind}

def read (kind : TextKind) (value : String) : Except CommandError (TextValue kind) :=
  match h : kind.refusal? value with
  | none => .ok ⟨value, h⟩
  | some reason => .error (.invalidValue kind.keyword value reason)

/-- The bytes of the text with percent escapes replaced. -/
def decoded (t : TextValue kind) : List UInt8 :=
  Text.Percent.decode (Text.utf8 t.value.toList)

def command (t : TextValue kind) : String :=
  kind.keyword ++ " " ++ Text.quote t.value

def comment (t : TextValue kind) : String :=
  match kind with
  | .host => s!"connect to {t.value}"
  | .contentType => s!"content type {t.value}"
  | .redirect => s!"redirect to {t.value}"
  | .rewrite => s!"respond with fixed content ({t.decoded.length} bytes)"
  | .tcpWrite => s!"write raw bytes ({t.decoded.length} bytes)"
  | .restore => s!"restore saved response {t.value}"
  | .plugin => s!"hand off to plugin {t.value}"
  | .requestHeaders => s!"request headers {t.value}"
  | .responseHeaders => s!"response headers {t.value}"

end TextValue

end TrafficPolicy
