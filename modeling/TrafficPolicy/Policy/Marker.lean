/-!
# Markers and flags

Policies without arguments. The word of a marker is its whole value. A flag sets one of two switches;
its word and its description are given where the word is defined, so several words may set a switch.
-/

namespace TrafficPolicy

inductive Marker where
  | proxy
  | cache
  | block
  | default
  | null
  | circular
  | shuffle
  | restart
  | set
  | update
deriving DecidableEq, Repr

namespace Marker

def all : List Marker :=
  [.proxy, .cache, .block, .default, .null, .circular, .shuffle, .restart, .set, .update]

def keyword : Marker → String
  | .proxy => "proxy"
  | .cache => "cache"
  | .block => "block"
  | .default => "default"
  | .null => "null"
  | .circular => "circular"
  | .shuffle => "shuffle"
  | .restart => "restart"
  | .set => "set"
  | .update => "update"

def ofKeyword? (keyword : String) : Option Marker :=
  all.find? fun m => m.keyword == keyword

def comment : Marker → String
  | .proxy => "proxy to the real server"
  | .cache => "serve from cache"
  | .block => "block"
  | .default => "default behavior"
  | .null => "answer with no address"
  | .circular => "rotate through addresses"
  | .shuffle => "shuffle addresses once"
  | .restart => "restart"
  | .set => "replace the whole policy"
  | .update => "change only the given parts"

theorem mem_all (m : Marker) : m ∈ all := by
  cases m <;> simp [all]

end Marker

inductive Switch where
  /-- Whether redirects are handed on instead of followed. -/
  | dont302
  /-- Whether conditional requests are never answered with 304. -/
  | disable304
deriving DecidableEq, Repr

/-- The value of a switch with the word that gave it. -/
structure Flag where
  value : Bool
  keyword : String
  description : String
deriving DecidableEq, Repr

def Switch.flags : Switch → List Flag
  | .dont302 =>
    [⟨true, "dont302", "do not follow 302 redirects"⟩, ⟨false, "do302", "follow 302 redirects"⟩]
  | .disable304 =>
    [⟨true, "disable304", "never answer 304"⟩, ⟨false, "allow304", "allow 304 answers"⟩]

end TrafficPolicy
