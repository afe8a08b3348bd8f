import Konative.Reflect.MetaJson

/-!
# The JSON config file

`JsonConfigFile` parses the file into a copy of the instance and assigns the copy
only when the whole document was read.  It reports a document that was not as
`kParseFailed` or `kFailed`; an exception out of `meta_component_from_json` passes
through it unreported.
-/

namespace Konative.App.Config

open Reflect

/-- What `load_or_provision` did. -/
inductive LoadOutcome
  | provisionedNewFile
  | loadedExistingFile
  | provisionFailed
  /-- a file EXISTS but couldn't be parsed (bad JSON, wrong field types) -/
  | parseFailed
deriving DecidableEq, Repr

/-- What `poll_reload` did. -/
inductive PollOutcome
  | unchanged
  | reloaded
  /-- file changed but couldn't be read/parsed; instance left untouched -/
  | failed
deriving DecidableEq, Repr

/-- `parse_file_into(instance)` on a file with the given contents, `none` when it
cannot be read.  The result is `none` when an exception escapes. -/
def parseFileInto (readJson : String → Option Json) (type : MetaType) (contents : Option String)
    (inst : Instance) : Option (Bool × Instance) :=
  match contents with
  | none => some (false, inst)
  | some text =>
      match metaComponentFromJson readJson type inst text with
      | .returned true candidate => some (true, candidate)
      | .returned false _ => some (false, inst)
      | .threw _ => none

/-- `load_or_provision(instance)` on a file that exists. -/
def loadExisting (readJson : String → Option Json) (type : MetaType) (contents : Option String)
    (inst : Instance) : Option (LoadOutcome × Instance) :=
  (parseFileInto readJson type contents inst).map fun x ↦
    (if x.1 then .loadedExistingFile else .parseFailed, x.2)

/-- `poll_reload(instance)` on a file whose modification time has moved. -/
def pollChanged (readJson : String → Option Json) (type : MetaType) (contents : Option String)
    (inst : Instance) : Option (PollOutcome × Instance) :=
  (parseFileInto readJson type contents inst).map fun x ↦
    (if x.1 then .reloaded else .failed, x.2)

/-- The contract of reading a document into a component, on its own and from a
config file: an accepted document updates the instance and is reported as read, any
other is reported as failed and changes nothing. -/
structure ReadsDocuments (type : ReflectedType) (readJson : String → Option Json) (json : String)
    (inst : Instance) : Prop where
  component : MeetsContract type.fields (readJson json) inst
    (metaComponentFromJson readJson type.toMeta inst json)
  load : ∃ ok inst', loadExisting readJson type.toMeta (some json) inst =
      some (if ok then .loadedExistingFile else .parseFailed, inst') ∧
    (ok = true ↔ Accepted type.fields (readJson json)) ∧ (ok = false → inst' = inst)
  poll : ∃ ok inst', pollChanged readJson type.toMeta (some json) inst =
      some (if ok then .reloaded else .failed, inst') ∧
    (ok = true ↔ Accepted type.fields (readJson json)) ∧ (ok = false → inst' = inst)

variable {type : ReflectedType} {readJson : String → Option Json} {json : String} {inst : Instance}

/-- Where the component is read as its contract says, so is the file. -/
theorem parseFileInto_of_meetsContract
    (h : MeetsContract type.fields (readJson json) inst
      (metaComponentFromJson readJson type.toMeta inst json)) :
    ∃ ok inst', parseFileInto readJson type.toMeta (some json) inst = some (ok, inst') ∧
      (ok = true ↔ Accepted type.fields (readJson json)) ∧ (ok = false → inst' = inst) := by
  cases hf : metaComponentFromJson readJson type.toMeta inst json with
  | threw inst' =>
      rw [hf] at h
      exact h.elim
  | returned ok inst' =>
      rw [hf] at h
      cases ok with
      | true => exact ⟨true, inst', by simp only [parseFileInto, hf], h.1, nofun⟩
      | false => exact ⟨false, inst, by simp only [parseFileInto, hf], h.1, fun _ ↦ rfl⟩

/-- A document is read as its contract says, and reported so by the config file,
exactly when no value of the wrong kind comes first in it. -/
theorem readsDocuments_iff (type : ReflectedType) (readJson : String → Option Json)
    (json : String) (inst : Instance) :
    ReadsDocuments type readJson json inst ↔
      ∀ members, readJson json = some (.object members) →
        ¬ WrongKindFirst type.fields members := by
  rw [← meetsContract_iff type readJson json inst]
  refine ⟨ReadsDocuments.component, fun h ↦ ⟨h, ?_, ?_⟩⟩
  · obtain ⟨ok, inst', hp, hok, hinst⟩ := parseFileInto_of_meetsContract h
    exact ⟨ok, inst', by rw [loadExisting, hp]; rfl, hok, hinst⟩
  · obtain ⟨ok, inst', hp, hok, hinst⟩ := parseFileInto_of_meetsContract h
    exact ⟨ok, inst', by rw [pollChanged, hp]; rfl, hok, hinst⟩

/-! ## A config file edited by hand -/

/-- `AppConfig` as reflected. -/
def appConfigType : ReflectedType where
  fields := [("tick_log_interval", .int), ("snapshot_interval_ticks", .int)]
  nodup := by decide

/-- A parser that knows one document, an interval in quotes. -/
def readQuotedInterval (json : String) : Option Json :=
  if json = "\x7b\"tick_log_interval\":\"60\"\x7d" then
    some (.object [("tick_log_interval", .string "60")])
  else none

/-- The quoted interval is not reported: an exception escapes. -/
theorem quotedInterval_escapes :
    loadExisting readQuotedInterval appConfigType.toMeta
        (some "\x7b\"tick_log_interval\":\"60\"\x7d") (fun _ ↦ .int 120) = none ∧
      ¬ ReadsDocuments appConfigType readQuotedInterval "\x7b\"tick_log_interval\":\"60\"\x7d"
        (fun _ ↦ .int 120) := by
  refine ⟨by decide, fun h ↦ ?_⟩
  have h : MeetsContract _ _ _ (.threw _) := h.component
  exact h

end Konative.App.Config
