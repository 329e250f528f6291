import TrafficPolicy.Address.Reader
import TrafficPolicy.Toml.Value

/-!
# Configurations

A configuration names the addresses of the proxy, and profiles with their commands, the files of further
commands, and their clients. What is left out is empty, and other fields do not count.
-/

namespace TrafficPolicy

structure ProfileConfig where
  commands : List String := []
  files : List String := []
  clients : List Address := []
deriving DecidableEq

/-- Profiles by their names, in the order of these. No name is there twice. -/
structure ProfileTable where
  entries : List (String × ProfileConfig) := []
  ordered : entries.Pairwise (fun a b => a.1 < b.1) := by decide
deriving DecidableEq

namespace ProfileTable

/-- Puts an entry into its place. It replaces one of the same name. -/
def place (entry : String × ProfileConfig) : List (String × ProfileConfig) → List (String × ProfileConfig)
  | [] => [entry]
  | first :: rest =>
    if entry.1 < first.1 then entry :: first :: rest
    else if entry.1 = first.1 then entry :: rest
    else first :: place entry rest

theorem mem_place {entry other : String × ProfileConfig} {entries : List (String × ProfileConfig)}
    (h : other ∈ place entry entries) : other = entry ∨ other ∈ entries := by
  induction entries with
  | nil => exact .inl (List.mem_singleton.mp h)
  | cons first rest ih =>
    unfold place at h
    split at h
    · exact List.mem_cons.mp h
    · split at h
      · exact (List.mem_cons.mp h).imp_right (List.mem_cons_of_mem _)
      · rcases List.mem_cons.mp h with rfl | hmem
        · exact .inr List.mem_cons_self
        · exact (ih hmem).imp_right (List.mem_cons_of_mem _)

theorem ordered_place (entry : String × ProfileConfig) {entries : List (String × ProfileConfig)}
    (h : entries.Pairwise fun a b => a.1 < b.1) : (place entry entries).Pairwise fun a b => a.1 < b.1 := by
  induction entries with
  | nil => exact List.pairwise_singleton _ _
  | cons first rest ih =>
    have hrest := List.pairwise_cons.mp h
    unfold place
    split
    · rename_i hlt
      refine List.pairwise_cons.mpr ⟨fun other hother => ?_, h⟩
      rcases List.mem_cons.mp hother with rfl | hmem
      · exact hlt
      · exact String.lt_trans hlt (hrest.1 other hmem)
    · split
      · rename_i heq
        exact List.pairwise_cons.mpr ⟨heq ▸ hrest.1, hrest.2⟩
      · rename_i hle hne
        have hlt : first.1 < entry.1 := Decidable.byContradiction fun hnot =>
          hne (String.le_antisymm (String.not_lt.mp hnot) (String.not_lt.mp hle))
        refine List.pairwise_cons.mpr ⟨fun other hother => ?_, ih hrest.2⟩
        rcases mem_place hother with rfl | hmem
        · exact hlt
        · exact hrest.1 other hmem

def insert (table : ProfileTable) (entry : String × ProfileConfig) : ProfileTable :=
  ⟨place entry table.entries, ordered_place entry table.ordered⟩

end ProfileTable

structure Config where
  proxyAddresses : List Address := []
  profiles : ProfileTable := {}
deriving DecidableEq

namespace Config

open Toml (Value)

/-- The value of a field, or another value if it is left out. -/
def field {α : Type} (fields : List (String × Value)) (name : String) (missing : α)
    (read : Value → Option α) : Option α :=
  match fields.lookup name with
  | none => some missing
  | some value => read value

def readList {α : Type} (read : Value → Option α) (value : Value) : Option (List α) := do
  (← value.items?).mapM read

def readAddress (value : Value) : Option Address := do
  Address.read? (← value.string?)

def readProfile (exact : Bool) (value : Value) : Option ProfileConfig := do
  let fields ← value.fields? exact ["commands", "files", "clients"]
  let commands ← field fields "commands" [] (readList Value.string?)
  let files ← field fields "files" [] (readList Value.string?)
  let clients ← field fields "clients" [] (readList readAddress)
  return { commands, files, clients }

def readDns (exact : Bool) (value : Value) : Option (List Address) := do
  let fields ← value.fields? exact ["proxy_ips"]
  field fields "proxy_ips" [] (readList readAddress)

def readProfiles (exact : Bool) (value : Value) : Option ProfileTable := do
  let entries ← (← value.entries?).mapM fun (name, value) => return (name, ← readProfile exact value)
  return entries.foldl ProfileTable.insert {}

/-- Reads a configuration from a value. If `exact` holds, records that are written as arrays have no items
beyond their fields. -/
def ofValue? (exact : Bool) (value : Value) : Option Config := do
  let fields ← value.fields? exact ["dns", "profiles"]
  let proxyAddresses ← field fields "dns" [] (readDns exact)
  let profiles ← field fields "profiles" {} (readProfiles exact)
  return { proxyAddresses, profiles }

end Config

end TrafficPolicy
