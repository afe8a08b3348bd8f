import Konative.App.KonativeAndroidApp
import Konative.App.Config.PollReload
import Konative.Android.OnLoad

/-!
# The cadence of `on_tick`

`on_tick` divides its tick count by the two intervals of `AppConfig`.  The config comes
from a file that users edit: `on_started` loads it, `on_tick` polls it, and both pass
what they read through `clamp_to_valid`.

The file system is left open: every call of every process answers anything, so no
assumption is made on the file or on who writes it when.  Whatever it answers, the
divisions are by intervals at or above their floors, and by those of the file where it
has them so (`validTests`).
-/

namespace Konative.App

open Config Reflect

variable {M : Type}

/-! ## `AppConfig` by field name -/

/-- The `int` a field holds. -/
def intValue : FieldValue → Int32
  | .int n => n
  | .float _ | .bool _ | .double _ | .other => 0

namespace AppConfig

/-- The fields of an `AppConfig`. -/
def toInstance (config : AppConfig) : Instance := fun name ↦
  if name = "tick_log_interval" then .int config.tickLogInterval
  else if name = "snapshot_interval_ticks" then .int config.snapshotIntervalTicks
  else .other

/-- The `AppConfig` with these fields. -/
def ofInstance (inst : Instance) : AppConfig where
  tickLogInterval := intValue (inst "tick_log_interval")
  snapshotIntervalTicks := intValue (inst "snapshot_interval_ticks")

@[simp] theorem ofInstance_toInstance (config : AppConfig) :
    ofInstance config.toInstance = config := rfl

end AppConfig

/-- `clamp_to_valid` reaches the floor. -/
theorem le_stdMax (a b : Int32) : b ≤ stdMax a b := by
  unfold stdMax
  split
  · exact Int32.le_refl b
  · exact Int32.not_lt.mp ‹_›

/-- And keeps what is above it. -/
theorem stdMax_of_le {a b : Int32} (h : b ≤ a) : stdMax a b = a := if_neg (Int32.not_lt.mpr h)

/-- `static_cast<std::uint64_t>(interval)`. -/
def divisor (interval : Int32) : UInt64 := interval.toInt64.toUInt64

/-- The cast of what is not negative is its value. -/
theorem toNat_divisor {interval : Int32} (h : 0 ≤ interval) :
    ((divisor interval).toNat : Int) = interval.toInt := by
  have hcast : 0 ≤ interval.toInt64 := by
    rw [Int64.le_iff_toInt_le, Int32.toInt_toInt64]
    exact Int32.le_iff_toInt_le.mp h
  have hnonneg : 0 ≤ interval.toInt := Int32.le_iff_toInt_le.mp h
  rw [divisor, Int64.toNat_toUInt64_of_le hcast, Int64.toNatClampNeg, Int32.toInt_toInt64]
  exact Int.toNat_of_nonneg hnonneg

/-! ## The program -/

/-- What of `KonativeAndroidApp` the config file concerns. -/
structure ConfiguredApp (M : Type) where
  /-- The `AppConfig` in `registry().ctx()`. -/
  config : AppConfig
  /-- The `last_seen_mtime_` of `config_file_`, when there is one. -/
  configFile : Option M
  tickCount : UInt64

/-- `config_directory_`, from the outcome of `get_files_dir_path`. -/
def configDirectory : Except Jni.FilesDirError String → String
  | .ok directory => directory
  | .error _ => ""

/-- What the two tests of `on_tick` read. -/
structure Tests where
  tickCount : UInt64
  config : AppConfig

/-- The test for the summary. -/
def Tests.logs (t : Tests) : Bool := t.tickCount % divisor t.config.tickLogInterval = 0

/-- The test for the snapshot. -/
def Tests.snapshots (t : Tests) : Bool := t.tickCount % divisor t.config.snapshotIntervalTicks = 0

namespace ConfiguredApp

variable [DecidableEq M] (g : Glaze)

omit [DecidableEq M] in
/-- The part of `on_started` about the config; without a result an exception has escaped.
`epoch` is the value-initialized `last_seen_mtime_`. -/
def onStarted (epoch : M) (filesDir : Except Jni.FilesDirError String) :
    FileProg M (Option (ConfiguredApp M × Option LoadOutcome)) :=
  let config : AppConfig := {}
  if configDirectory filesDir = "" then pure (some (⟨config.clampToValid, none, 0⟩, none))
  else do
    let x ← loadOrProvision g appConfigType.toMeta ⟨epoch, config.toInstance⟩
    pure (x.2.map fun outcome ↦
      (⟨(AppConfig.ofInstance x.1.inst).clampToValid, some x.1.lastSeenMtime, 0⟩, some outcome))

/-- The poll of `on_tick`. -/
def pollConfigFile (app : ConfiguredApp M) :
    FileProg M (Option (ConfiguredApp M × Option PollOutcome)) :=
  match app.configFile with
  | none => pure (some (app, none))
  | some lastSeenMtime =>
      if app.tickCount % configPollIntervalTicks = 0 then do
        let x ← pollReload g appConfigType.toMeta ⟨lastSeenMtime, app.config.toInstance⟩
        let liveConfig := AppConfig.ofInstance x.1.inst
        pure (x.2.map fun outcome ↦
          ({ app with
              config := if outcome = .reloaded then liveConfig.clampToValid else liveConfig
              configFile := some x.1.lastSeenMtime }, some outcome))
      else pure (some (app, none))

/-- `on_tick`, with what its two tests read; without a result an exception has escaped. -/
def onTick (app : ConfiguredApp M) :
    FileProg M (Option (ConfiguredApp M × Option PollOutcome × Tests)) := do
  let polled ← pollConfigFile g { app with tickCount := app.tickCount + 1 }
  pure (polled.map fun x ↦ (x.1, x.2, ⟨x.1.tickCount, x.1.config⟩))

end ConfiguredApp

/-! ## Any file system -/

/-- The text last read, after a call. -/
def lastRead (last : Option String) : (c : FileCall) → c.Answer M → Option String
  | .read, text => text
  | .fileExists, _ | .openWrite, _ | .write _, _ | .lastWriteTime, _ | .openRead, _ => last

/-- Every call is answered in any way. -/
def anyFile : Handler (FileCall.Answer M) ((c : FileCall) → c.Answer M) (Option String) :=
  fun last c answers ↦ (answers c, lastRead last c (answers c))

section Programs

variable {g : Glaze} {type : ReflectedType} {s : ConfigState M} {last : Option String}

/-- The text is a document, and the instance is overlaid with it. -/
def Overlaid (g : Glaze) (type : ReflectedType) (text : Option String) (inst inst' : Instance) :
    Prop :=
  ∃ members, text.bind (document g.readJson type.fields) = some members ∧
    inst' = overlay type.fields members inst

/-- A file that is read leaves its text as the text last read. -/
theorem readContents_anyFile : (readContents : FileProg M (Option String)).wp anyFile
    (fun contents last ↦ contents = none ∨ contents = last) last :=
  wp_readContents.mpr fun _ ↦ ⟨fun _ _ ↦ .inr rfl, fun _ ↦ .inl rfl⟩

/-- What becomes of a text that was read. -/
theorem overlaid_parseContents {contents : Option String} (h : contents = none ∨ contents = last) :
    let x := parseContents g type.toMeta s contents
    (x.2 = some true ∧ Overlaid g type last s.inst x.1.inst) ∨
      (x.2 ≠ some true ∧ x.1.inst = s.inst) := by
  rcases parseContents_eq g type s contents with
    ⟨members, hdoc, hparse⟩ | ⟨-, ok, hparse, hok⟩
  · rw [hparse]
    rcases h with rfl | rfl
    · cases hdoc
    · exact .inl ⟨rfl, members, hdoc, rfl⟩
  · rw [hparse]
    exact .inr ⟨hok, rfl⟩

/-- A load overlays the instance, and any other outcome leaves it. -/
theorem loadOrProvision_anyFile : (loadOrProvision g type.toMeta s).wp anyFile
    (fun x last ↦ (x.2 = some .loadedExistingFile ∧ Overlaid g type last s.inst x.1.inst) ∨
      (x.2 ≠ some .loadedExistingFile ∧ x.1.inst = s.inst)) last := by
  refine wp_loadOrProvision (fun _ _ ↦ .inr ⟨nofun, rfl⟩) (fun _ _ ↦ ⟨?_, ?_⟩) fun _ _ ↦ ?_
  · exact fun _ ↦ .inr ⟨nofun, rfl⟩
  · intro _
    refine wp_writeFile.mpr fun _ ↦ ⟨fun _ _ ↦ ⟨fun _ ↦ ?_, fun _ ↦ ?_⟩, fun _ ↦ ⟨nofun, ?_⟩⟩
    · exact wp_recordMtime.mpr fun _ ↦ .inr ⟨nofun, rfl⟩
    · exact .inr ⟨nofun, rfl⟩
    · exact fun _ ↦ .inr ⟨nofun, rfl⟩
  · refine wp_recordMtime.mpr fun _ ↦ readContents_anyFile.mono fun contents last h ↦ ?_
    have hok := @map_ok_eq_some _ LoadOutcome.loadedExistingFile .parseFailed nofun
    exact (overlaid_parseContents h).imp (.imp_left hok.mpr) (.imp_left (mt hok.mp))

variable [DecidableEq M]

/-- A reload overlays the instance, and any other outcome leaves it. -/
theorem pollReload_anyFile : (pollReload g type.toMeta s).wp anyFile
    (fun x last ↦ (x.2 = some .reloaded ∧ Overlaid g type last s.inst x.1.inst) ∨
      (x.2 ≠ some .reloaded ∧ x.1.inst = s.inst)) last := by
  refine wp_pollReload (fun _ _ ↦ .inr ⟨nofun, rfl⟩) fun _ _ _ _ ↦ ?_
  refine readContents_anyFile.mono fun contents last h ↦ ?_
  have hok := @map_ok_eq_some _ PollOutcome.reloaded .failed nofun
  exact (overlaid_parseContents h).imp (.imp_left hok.mpr) (.imp_left (mt hok.mp))

end Programs

/-! ## Runs -/

/-- A process. -/
inductive ConfigProcess (M : Type)
  | launched
  /-- It runs; `loaded` is the text of the last load or reload that succeeded. -/
  | running (app : ConfiguredApp M) (loaded : Option String)
  /-- An exception has escaped. -/
  | terminated

namespace ConfigProcess

/-- A process after `on_started`, and the text last read in it. -/
def started : Option (ConfiguredApp M × Option LoadOutcome) × Option String → ConfigProcess M
  | (none, _) => .terminated
  | (some (app, outcome), text) =>
      .running app (if outcome = some .loadedExistingFile then text else none)

/-- A process after `on_tick`, and the text last read in it. -/
def ticked (loaded : Option String) :
    Option (ConfiguredApp M × Option PollOutcome × Tests) × Option String → ConfigProcess M
  | (none, _) => .terminated
  | (some (app, outcome, _), text) =>
      .running app (if outcome = some .reloaded then text else loaded)

/-- A step of a process, and the tests it made. -/
inductive Step [DecidableEq M] (g : Glaze) (epoch : M) :
    ConfigProcess M → Option Tests → ConfigProcess M → Prop
  | onStarted (filesDir : Except Jni.FilesDirError String)
      (answers : Nat → (c : FileCall) → c.Answer M) :
      Step g epoch .launched none
        (started ((ConfiguredApp.onStarted g epoch filesDir).run anyFile answers none))
  | onTick (app : ConfiguredApp M) (loaded : Option String)
      (answers : Nat → (c : FileCall) → c.Answer M) :
      Step g epoch (.running app loaded)
        (((app.onTick g).run anyFile answers none).1.map fun x ↦ x.2.2)
        (ticked loaded ((app.onTick g).run anyFile answers none))

/-- A process from its launch on. -/
def system [DecidableEq M] (g : Glaze) (epoch : M) : Lts (ConfigProcess M) (Option Tests) where
  init p := p = .launched
  step := Step g epoch

end ConfigProcess

/-- Where the document has an `int` at or above the floor for the field, it is used. -/
def UsesField (members : List (String × Json)) (name : String) (floor used : Int32) : Prop :=
  ∀ v n, members.lookup name = some v → decode .int v = .int n → floor ≤ n → used = n

/-- The config is valid, and what the file holds is used where it is. -/
structure ValidConfig (g : Glaze) (loaded : Option String) (config : AppConfig) : Prop where
  tickLogFloor : minTickLogInterval ≤ config.tickLogInterval
  snapshotFloor : minSnapshotIntervalTicks ≤ config.snapshotIntervalTicks
  used : ∀ text, loaded = some text → ∃ members,
    document g.readJson appConfigType.fields text = some members ∧
      UsesField members "tick_log_interval" minTickLogInterval config.tickLogInterval ∧
      UsesField members "snapshot_interval_ticks" minSnapshotIntervalTicks
        config.snapshotIntervalTicks

section Valid

variable {g : Glaze} {loaded : Option String} {config : AppConfig} {inst inst' : Instance}

/-- A clamped config is above the floors. -/
theorem validConfig_clamp (config : AppConfig) : ValidConfig g none config.clampToValid where
  tickLogFloor := le_stdMax ..
  snapshotFloor := le_stdMax ..
  used := nofun

/-- A field that is overlaid and clamped is used. -/
theorem usesField_overlay {members : List (String × Json)} {name : String} {floor : Int32}
    (hname : appConfigType.fields.lookup name = some .int) :
    UsesField members name floor
      (stdMax (intValue (overlay appConfigType.fields members inst name)) floor) := by
  intro v n hv hn hfloor
  have hover : overlay appConfigType.fields members inst name = .int n := by
    unfold overlay
    rw [hname, hv]
    exact hn
  rw [hover]
  exact stdMax_of_le hfloor

/-- A config that was overlaid and clamped is valid. -/
theorem validConfig_overlaid (h : Overlaid g appConfigType loaded inst inst') :
    ValidConfig g loaded (AppConfig.ofInstance inst').clampToValid := by
  obtain ⟨members, hdoc, rfl⟩ := h
  refine ⟨le_stdMax .., le_stdMax .., ?_⟩
  rintro text rfl
  exact ⟨members, hdoc, usesField_overlay rfl, usesField_overlay rfl⟩

/-- A poll that reloads makes a valid config of the file, and any other keeps the one
there is. -/
theorem pollConfigFile_anyFile [DecidableEq M] (app : ConfiguredApp M)
    (h : ValidConfig g loaded app.config) : (app.pollConfigFile g).wp anyFile
      (fun x last ↦ ∀ y ∈ x,
        ValidConfig g (if y.2 = some .reloaded then last else loaded) y.1.config) none := by
  have hkeep : ∀ y ∈ some (app, (none : Option PollOutcome)),
      ValidConfig g (if y.2 = some .reloaded then none else loaded) y.1.config := by
    rintro _ ⟨⟩
    exact h
  unfold ConfiguredApp.pollConfigFile
  split
  · exact hkeep
  · split
    · rw [Prog.wp_bind]
      refine pollReload_anyFile.mono fun x last hx ↦ ?_
      rw [Prog.wp_pure]
      intro y hy
      obtain ⟨outcome, houtcome, rfl⟩ := Option.map_eq_some_iff.mp hy
      rcases hx with ⟨hreloaded, hover⟩ | ⟨hkept, hinst⟩
      · obtain rfl := Option.some.inj (houtcome.symm.trans hreloaded)
        exact validConfig_overlaid hover
      · have hne : outcome ≠ .reloaded := fun he ↦ hkept (he ▸ houtcome)
        have hne' : some outcome ≠ some .reloaded := fun he ↦ hne (Option.some.inj he)
        simp only [if_neg hne, if_neg hne', hinst, AppConfig.ofInstance_toInstance]
        exact h
    · exact hkeep

end Valid

/-! ## The process that spawns writers

`KonativeAndroidApp` has a poll that is told what it finds.  What this one reads is what
to tell it. -/

section Refinement

variable {F : Type} {s : KonativeAndroidApp F} {app : ConfiguredApp M}

/-- The two have the same config, tick count and knowledge of a config file. -/
structure Agrees (s : KonativeAndroidApp F) (app : ConfiguredApp M) : Prop where
  config : s.config = app.config
  configFile : s.hasConfigDirectory = app.configFile.isSome
  tickCount : s.tickCount = app.tickCount

/-- Then a snapshot is due for both or for neither. -/
theorem Agrees.due (h : Agrees s app) : s.due = Tests.snapshots ⟨app.tickCount, app.config⟩ := by
  rw [KonativeAndroidApp.due, h.config, h.tickCount]
  rfl

/-- A poll that is told of no reload leaves the config. -/
theorem config_pollConfig_none (s : KonativeAndroidApp F) :
    (s.pollConfig none).config = s.config := ite_self _

/-- The poll of the file is a poll that is told something. -/
theorem pollConfigFile_agrees [DecidableEq M] (g : Glaze) (app : ConfiguredApp M) :
    (app.pollConfigFile g).wp anyFile (fun x _ ↦ ∀ y ∈ x, ∃ reload,
      ∀ {F : Type} {s : KonativeAndroidApp F}, Agrees s app →
        Agrees (s.pollConfig reload) y.1) none := by
  have hidle : ∀ y ∈ some (app, (none : Option PollOutcome)), ∃ reload,
      ∀ {F : Type} {s : KonativeAndroidApp F}, Agrees s app →
        Agrees (s.pollConfig reload) y.1 := by
    rintro _ ⟨⟩
    refine ⟨none, fun {F s} h ↦ ⟨?_, h.configFile, h.tickCount⟩⟩
    exact (config_pollConfig_none s).trans h.config
  unfold ConfiguredApp.pollConfigFile
  split
  · exact hidle
  · rename_i lastSeenMtime hfile
    split
    · rename_i hpolls
      rw [Prog.wp_bind]
      refine pollReload_anyFile.mono fun x last hx ↦ ?_
      rw [Prog.wp_pure]
      intro y hy
      obtain ⟨outcome, houtcome, rfl⟩ := Option.map_eq_some_iff.mp hy
      have hsome : app.configFile.isSome = true := by rw [hfile, Option.isSome_some]
      by_cases hreloaded : outcome = .reloaded
      · refine ⟨some (AppConfig.ofInstance x.1.inst), fun {F s} h ↦ ⟨?_, ?_, h.tickCount⟩⟩
        · have hpolled : (s.hasConfigDirectory && s.tickCount % configPollIntervalTicks = 0) =
              true := by
            rw [h.configFile, hsome, h.tickCount, Bool.true_and]
            exact decide_eq_true hpolls
          rw [KonativeAndroidApp.pollConfig, if_pos hpolled, if_pos hreloaded]
          rfl
        · exact h.configFile.trans hsome
      · rcases hx with ⟨hx, -⟩ | ⟨-, hinst⟩
        · exact absurd (Option.some.inj (houtcome.symm.trans hx)) hreloaded
        · refine ⟨none, fun {F s} h ↦ ⟨?_, ?_, h.tickCount⟩⟩
          · rw [config_pollConfig_none, h.config, if_neg hreloaded, hinst]
            rfl
          · exact h.configFile.trans hsome
    · exact hidle

end Refinement

namespace ConfigProcess

variable [DecidableEq M] {g : Glaze} {epoch : M} {p p' : ConfigProcess M} {t : Option Tests}

omit [DecidableEq M] in
/-- The config of a running process is valid. -/
def Valid (g : Glaze) : ConfigProcess M → Prop
  | running app loaded => ValidConfig g loaded app.config
  | launched | terminated => True

/-- The tests read the config of the process, which has just polled. -/
def Made (p : ConfigProcess M) (t : Tests) : Prop :=
  ∃ app loaded, p = running app loaded ∧ t = ⟨app.tickCount, app.config⟩

omit [DecidableEq M] in
theorem onStarted_anyFile (filesDir : Except Jni.FilesDirError String) :
    (ConfiguredApp.onStarted g epoch filesDir).wp anyFile
      (fun x last ↦ (started (x, last)).Valid g) none := by
  unfold ConfiguredApp.onStarted
  split
  · exact validConfig_clamp _
  · rw [Prog.wp_bind]
    refine loadOrProvision_anyFile.mono fun x last hx ↦ ?_
    rw [Prog.wp_pure]
    obtain ⟨s, _ | outcome⟩ := x
    · trivial
    · rcases hx with ⟨⟨⟩, hover⟩ | ⟨hfailed, hinst⟩
      · exact validConfig_overlaid hover
      · have hne : some outcome ≠ some .loadedExistingFile := hfailed
        simp only [Option.map_some, started, Valid, if_neg hne]
        exact validConfig_clamp _

theorem onTick_anyFile {app : ConfiguredApp M} {loaded : Option String}
    (h : ValidConfig g loaded app.config) : (app.onTick g).wp anyFile
      (fun x last ↦ (ticked loaded (x, last)).Valid g ∧
        ∀ y ∈ x, (ticked loaded (x, last)).Made y.2.2) none := by
  unfold ConfiguredApp.onTick
  rw [Prog.wp_bind]
  have hpoll := pollConfigFile_anyFile { app with tickCount := app.tickCount + 1 } h
  refine hpoll.mono fun x last hx ↦ ?_
  rw [Prog.wp_pure]
  cases x with
  | none => exact ⟨trivial, nofun⟩
  | some x =>
      refine ⟨hx x rfl, ?_⟩
      rintro _ ⟨⟩
      exact ⟨_, _, rfl, rfl⟩

/-- What a step does to a valid process. -/
theorem step_valid (hstep : (system g epoch).step p t p') (h : p.Valid g) :
    p'.Valid g ∧ ∀ tests ∈ t, p'.Made tests := by
  cases hstep with
  | onStarted filesDir answers => exact ⟨(onStarted_anyFile filesDir).run answers, nofun⟩
  | onTick app loaded answers =>
      obtain ⟨hvalid, hmade⟩ := (onTick_anyFile h).run answers
      refine ⟨hvalid, fun tests ht ↦ ?_⟩
      obtain ⟨y, hy, rfl⟩ := Option.map_eq_some_iff.mp ht
      exact hmade y hy

/-- A reachable process is valid. -/
theorem valid_of_reachable (h : (system g epoch).Reachable p) : p.Valid g := by
  refine h.invariant ?_ fun hstep h ↦ (step_valid hstep h).1
  rintro _ rfl
  trivial

end ConfigProcess

/-- The tests of a tick divide by valid intervals, which are those of the file where it
has valid ones. -/
structure ValidTests (g : Glaze) (loaded : Option String) (t : Tests) : Prop where
  config : ValidConfig g loaded t.config
  tickLogDivisor : divisor t.config.tickLogInterval ≠ 0 ∧
    ((divisor t.config.tickLogInterval).toNat : Int) = t.config.tickLogInterval.toInt
  snapshotDivisor : divisor t.config.snapshotIntervalTicks ≠ 0 ∧
    ((divisor t.config.snapshotIntervalTicks).toNat : Int) = t.config.snapshotIntervalTicks.toInt

/-- The cast of an interval at or above a positive floor. -/
theorem divisor_of_floor {floor interval : Int32} (hfloor : 0 < floor) (h : floor ≤ interval) :
    divisor interval ≠ 0 ∧ ((divisor interval).toNat : Int) = interval.toInt := by
  have hpos : 0 < interval := Int32.lt_of_lt_of_le hfloor h
  have hcast := toNat_divisor (Int32.le_of_lt hpos)
  refine ⟨fun hzero ↦ ?_, hcast⟩
  rw [hzero] at hcast
  exact absurd hcast (Int.ne_of_lt (Int32.lt_iff_toInt_lt.mp hpos))

/-- In every run of the app, whatever the files directory and the file are and however the
file is edited, the tests of every tick are valid, and read the config in the registry. -/
theorem validTests (g : Glaze) (epoch : M) [DecidableEq M] {p p' : ConfigProcess M} {t : Tests}
    (h : (ConfigProcess.system g epoch).Reachable p)
    (hstep : (ConfigProcess.system g epoch).step p (some t) p') :
    ∃ app loaded, p' = .running app loaded ∧ t = ⟨app.tickCount, app.config⟩ ∧
      ValidTests g loaded t := by
  obtain ⟨hvalid, hmade⟩ := ConfigProcess.step_valid hstep (ConfigProcess.valid_of_reachable h)
  obtain ⟨app, loaded, rfl, rfl⟩ := hmade t rfl
  refine ⟨app, loaded, rfl, rfl, hvalid, ?_, ?_⟩
  · exact divisor_of_floor (by decide) hvalid.tickLogFloor
  · exact divisor_of_floor (by decide) hvalid.snapshotFloor

/-- A parser that knows one config file, with one interval below its floor. -/
def readIntervals (json : String) : Option Json :=
  if json = "\x7b\"tick_log_interval\":5,\"snapshot_interval_ticks\":90\x7d" then
    some (.object [("tick_log_interval", .number (.ofInt32 5)),
      ("snapshot_interval_ticks", .number (.ofInt32 90))])
  else none

/-- A file system with that file. -/
def intervalsFile : (c : FileCall) → c.Answer Nat
  | .fileExists => some true
  | .openWrite | .write _ => false
  | .lastWriteTime => some 1
  | .openRead => true
  | .read => some "\x7b\"tick_log_interval\":5,\"snapshot_interval_ticks\":90\x7d"

/-- An app that loads this file divides by the floor of the one interval and by the
other as it is. -/
theorem validTests_intervals : ∃ (t : Tests) (app : ConfiguredApp Nat),
    t.config = ⟨10, 90⟩ ∧ t.tickCount = 1 ∧ t = ⟨app.tickCount, app.config⟩ ∧
      ValidTests { plainGlaze with readJson := readIntervals }
        (some "\x7b\"tick_log_interval\":5,\"snapshot_interval_ticks\":90\x7d") t := by
  have hload : (ConfigProcess.system { plainGlaze with readJson := readIntervals } 0).Reachable
      (.running ⟨⟨10, 90⟩, some 1, 0⟩
        (some "\x7b\"tick_log_interval\":5,\"snapshot_interval_ticks\":90\x7d")) :=
    (Lts.Reachable.of_init rfl).step (.onStarted (.ok "/data") fun _ ↦ intervalsFile)
  obtain ⟨app, loaded, hp, ht, hvalid⟩ := validTests _ _ hload (.onTick _ _ fun _ ↦ intervalsFile)
  cases hp
  exact ⟨_, _, rfl, rfl, ht, hvalid⟩

end Konative.App
