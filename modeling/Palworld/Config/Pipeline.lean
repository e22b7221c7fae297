import Palworld.Config.Written

/-!
# The configuration pipeline

A public write may not touch the keys of `PROTECTED_ADMIN_KEYS`. The filter looks at
the keys of the incoming dict, the file at what the entries say.
-/

open Lib

namespace Palworld.Config

def protectedAdminKeys : List Text :=
  ["AdminPassword", "ServerPassword", "BanListURL", "PublicPort", "PublicIP", "RCONEnabled", "RCONPort",
    "RESTAPIEnabled", "RESTAPIPort", "bUseAuth"].map lit

def isProtected (k : Text) : Bool := protectedAdminKeys.contains k

section Merge

variable {F : Type} [Unicode] [PyFloat F]

/-- `ConfigPipeline.read_to_json`. There is no file behind `none`, and the error says so. -/
def readToJson (ini : Option Text) : Option (Settings F × Settings F) :=
  ini.map fun file =>
    let fullState := parseIniFile file
    (fullState.filter fun k => !isProtected k, fullState.filter isProtected)

def getPublicView (ini : Option Text) : Settings F := (readToJson ini).elim Dict.empty Prod.fst

def liveSettings (ini : Option Text) : Settings F := ini.elim Dict.empty parseIniFile

def publicEntries (incoming : Settings F) : List (Text × PyValue F) :=
  incoming.entries.filter fun kv => !isProtected kv.1

/-- The dict that `merge_and_serialize` serializes. -/
def merge (ini : Option Text) (incoming : Settings F) : Settings F :=
  let liveProtected : Settings F := (readToJson ini).elim Dict.empty Prod.snd
  ((liveSettings ini).update (publicEntries incoming)).update liveProtected.entries

def mergeAndSerialize (ini : Option Text) (incoming : Settings F) : Text :=
  serializeIniSettings (merge ini incoming)

/-! ## The merged dict -/

omit [Unicode] [PyFloat F] in
theorem lastOf_publicEntries (incoming : Settings F) (k : Text) :
    lastOf k (publicEntries incoming) = if isProtected k then none else incoming.get? k := by
  have hfilter := Dict.lastOf_entries (d := incoming.filter fun k => !isProtected k) (k := k)
  rw [Dict.get?_filter] at hfilter
  rw [publicEntries]
  cases hk : isProtected k <;> simpa [hk, Dict.filter] using hfilter

/-- Putting the protected values back changes nothing. The filter has kept them. -/
theorem merge_eq (ini : Option Text) (incoming : Settings F) :
    merge ini incoming = (liveSettings ini).update (publicEntries incoming) := by
  apply Dict.update_eq_self
  intro kv hkv
  cases ini with
  | none => cases hkv
  | some live =>
    have hkey : isProtected kv.1 = true := (List.mem_filter.mp hkv).2
    have hlive := Dict.mem_entries.mp (List.mem_filter.mp hkv).1
    rw [Dict.get?_update, lastOf_publicEntries, if_pos hkey, Option.none_or]
    exact hlive

theorem get?_merge (ini : Option Text) (incoming : Settings F) (k : Text) :
    (merge ini incoming).get? k
      = if isProtected k then (liveSettings ini).get? k else (incoming.get? k).or ((liveSettings ini).get? k) := by
  rw [merge_eq, Dict.get?_update, lastOf_publicEntries]
  split <;> simp

end Merge

end Palworld.Config
