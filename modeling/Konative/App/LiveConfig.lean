import Konative.App.Config.EditRaces
import Konative.App.TickCadence
import Konative.Lib.Cadence

/-!
# The config in use

A process polls its config file every so many ticks, and an editor saves the file whenever
it likes: between two ticks, or between two calls of one poll.  An editor that saves in
several writes is one that saves several times.  The calls of the process succeed.

What counts is the file the editor leaves.  Within `kConfigPollIntervalTicks` ticks the
process has read it, and its config is the one it had, overlaid with this file and clamped
(`edit_takes_effect`).  Nothing that was in the file for a moment shows in it, unless it
was a document, too.  A key that the editor takes out of the file keeps its value.
-/

namespace Konative.App

open Config Reflect

variable {M : Type} {g : Glaze}

/-- A process that runs, and its config file. -/
structure LiveConfig (M : Type) where
  app : ConfiguredApp M
  file : EditedFile M

/-- The config that a file makes of another. -/
noncomputable def applied (g : Glaze) (file : Option (String × M)) (config : AppConfig) :
    AppConfig :=
  ((file.map Prod.fst).bind (document g.readJson appConfigType.fields)).elim config fun members ↦
    (AppConfig.ofInstance
      (overlay appConfigType.fields members config.toInstance)).clampToValid

namespace LiveConfig

/-! ## The config of a file -/

/-- A document is overlaid, and anything else leaves the config. -/
theorem applied_cases (g : Glaze) (file : Option (String × M)) (config : AppConfig) :
    (∃ members, (file.map Prod.fst).bind (document g.readJson appConfigType.fields) =
        some members ∧
      applied g file config = (AppConfig.ofInstance
        (overlay appConfigType.fields members config.toInstance)).clampToValid) ∨
      ((file.map Prod.fst).bind (document g.readJson appConfigType.fields) = none ∧
        applied g file config = config) := by
  unfold applied
  cases (file.map Prod.fst).bind (document g.readJson appConfigType.fields) with
  | none => exact .inr ⟨rfl, rfl⟩
  | some members => exact .inl ⟨members, rfl, rfl⟩

/-- A field that the document mentions is read from it. -/
theorem intValue_overlay {members : List (String × Json)} {inst : Instance} {name : String}
    (hname : appConfigType.fields.lookup name = some .int) :
    intValue (overlay appConfigType.fields members inst name) =
      (members.lookup name).elim (intValue (inst name)) fun v ↦ intValue (decode .int v) := by
  unfold overlay
  rw [hname]
  cases members.lookup name with
  | none => rfl
  | some v => rfl

/-- What was read or kept, and clamped, is read or kept, and clamped. -/
theorem stdMax_elim (v : Option Json) (a floor : Int32) :
    stdMax (v.elim (stdMax (v.elim a fun v ↦ intValue (decode .int v)) floor)
        fun v ↦ intValue (decode .int v)) floor =
      stdMax (v.elim a fun v ↦ intValue (decode .int v)) floor := by
  cases v with
  | none => exact stdMax_of_le (le_stdMax ..)
  | some v => rfl

/-- To read a file once more changes nothing. -/
theorem applied_applied (g : Glaze) (file : Option (String × M)) (config : AppConfig) :
    applied g file (applied g file config) = applied g file config := by
  rcases applied_cases g file config with ⟨members, hdoc, happ⟩ | ⟨-, happ⟩
  · rcases applied_cases g file (applied g file config) with ⟨members', hdoc', happ'⟩ | ⟨hnone, -⟩
    · obtain rfl := Option.some.inj (hdoc.symm.trans hdoc')
      have hread : ∀ (config : AppConfig) (name : String),
          appConfigType.fields.lookup name = some .int →
          intValue (overlay appConfigType.fields members config.toInstance name) =
            (members.lookup name).elim (intValue (config.toInstance name))
              fun v ↦ intValue (decode .int v) := fun config name ↦ intValue_overlay
      rw [happ', happ]
      simp only [AppConfig.clampToValid, AppConfig.ofInstance]
      rw [hread _ _ rfl, hread _ _ rfl, hread _ _ rfl, hread _ _ rfl]
      exact congrArg₂ AppConfig.mk (stdMax_elim ..) (stdMax_elim ..)
    · rw [hdoc] at hnone
      cases hnone
  · rw [happ, happ]

/-- To parse a file is to apply it, when the config is clamped. -/
theorem parsed_cases (g : Glaze) (m : M) (file : Option (String × M)) (config : AppConfig) :
    let s : ConfigState M := ⟨m, config.toInstance⟩
    (∃ members, parseContents g appConfigType.toMeta s (file.map Prod.fst) =
        ({ s with inst := overlay appConfigType.fields members s.inst }, some true) ∧
      applied g file config =
        (AppConfig.ofInstance (overlay appConfigType.fields members s.inst)).clampToValid) ∨
      ∃ ok, parseContents g appConfigType.toMeta s (file.map Prod.fst) = (s, ok) ∧
        ok ≠ some true ∧ applied g file config = config := by
  intro s
  rcases applied_cases g file config with ⟨members, hdoc, happ⟩ | ⟨hdoc, happ⟩ <;>
    rcases parseContents_eq g appConfigType s (file.map Prod.fst) with
      ⟨members', hdoc', hparse⟩ | ⟨hnone, ok, hparse, hok⟩
  · obtain rfl := Option.some.inj (hdoc.symm.trans hdoc')
    exact .inl ⟨members, hparse, happ⟩
  · exact absurd (hdoc.symm.trans hnone) nofun
  · exact absurd (hdoc.symm.trans hdoc') nofun
  · exact .inr ⟨ok, hparse, hok, happ⟩

/-- What a poll makes of the file it has read. -/
theorem config_polled (g : Glaze) (m : M) (file : Option (String × M)) (config : AppConfig)
    {outcome : PollOutcome} :
    let x := parseContents g appConfigType.toMeta ⟨m, config.toInstance⟩ (file.map Prod.fst)
    (x.2.map fun ok ↦ if ok then PollOutcome.reloaded else .failed) = some outcome →
      (if outcome = .reloaded then (AppConfig.ofInstance x.1.inst).clampToValid
        else AppConfig.ofInstance x.1.inst) = applied g file config := by
  have hok := @map_ok_eq_some _ PollOutcome.reloaded .failed nofun
  intro x houtcome
  rcases parsed_cases g m file config with ⟨members, hparse, happ⟩ | ⟨ok, hparse, hne, happ⟩
  · have hx : x = _ := hparse
    rw [hx] at houtcome ⊢
    have hreloaded : outcome = .reloaded := (Option.some.inj houtcome).symm
    rw [if_pos hreloaded, happ]
  · have hx : x = _ := hparse
    rw [hx] at houtcome ⊢
    rw [if_neg, happ, AppConfig.ofInstance_toInstance]
    rintro rfl
    exact hne (hok.mp houtcome)

/-! ## The load -/

section Load

variable {texts : JsonTexts}

/-- An `AppConfig` can be written. -/
theorem serializable_appConfig (config : AppConfig) :
    Serializable g appConfigType texts config.toInstance where
  wellTyped := List.forall_mem_cons.mpr ⟨rfl, List.forall_mem_singleton.mpr rfl⟩
  finite := List.forall_mem_cons.mpr ⟨trivial, List.forall_mem_singleton.mpr trivial⟩
  numbers := List.forall_mem_cons.mpr ⟨trivial, List.forall_mem_singleton.mpr trivial⟩

/-- What is written of it is a document, which makes it of any other. -/
theorem exists_document (laws : g.Lawful texts) (config : AppConfig) : ∃ members,
    document g.readJson appConfigType.fields
        (metaComponentToJson g appConfigType.toMeta config.toInstance) = some members ∧
      ∀ inst, AppConfig.ofInstance (overlay appConfigType.fields members inst) = config := by
  have hx : Serializable g appConfigType texts config.toInstance := serializable_appConfig config
  have hround := reads_of_inRange laws appConfigType.nodup hx.wellTyped hx.finite hx.numbers
    (List.forall_mem_cons.mpr ⟨trivial, List.forall_mem_singleton.mpr trivial⟩)
  cases hdoc : document g.readJson appConfigType.fields
      (metaComponentToJson g appConfigType.toMeta config.toInstance) with
  | none =>
      obtain ⟨y, hy, -⟩ := hround fun _ ↦ .other
      exact absurd hy (metaComponentFromJson_of_none hdoc)
  | some members =>
      refine ⟨members, rfl, fun inst ↦ ?_⟩
      obtain ⟨y, hy, hfields⟩ := hround inst
      obtain rfl : y = overlay appConfigType.fields members inst :=
        (FromJson.returned.inj (hy.symm.trans (metaComponentFromJson_of_document hdoc))).2
      rw [AppConfig.ofInstance, hfields ("tick_log_interval", .int) (by decide),
        hfields ("snapshot_interval_ticks", .int) (by decide)]
      rfl

theorem applied_written (laws : g.Lawful texts) (config config' : AppConfig) (m : M) :
    applied g (some (metaComponentToJson g appConfigType.toMeta config.toInstance, m)) config' =
      config.clampToValid := by
  obtain ⟨members, hdoc, hconfig⟩ := exists_document laws config
  rw [applied, Option.map_some, Option.bind_some, hdoc, Option.elim_some, hconfig]

/-- What a load makes of the file it has read. -/
theorem config_loaded (g : Glaze) (m : M) (file : Option (String × M)) {config : AppConfig}
    (hclamped : config.clampToValid = config) :
    (AppConfig.ofInstance (parseContents g appConfigType.toMeta ⟨m, config.toInstance⟩
      (file.map Prod.fst)).1.inst).clampToValid = applied g file config := by
  rcases parsed_cases g m file config with ⟨members, hparse, happ⟩ | ⟨ok, hparse, -, happ⟩
  · rw [hparse, happ]
  · rw [hparse, happ, AppConfig.ofInstance_toInstance, hclamped]

/-- Where nothing is there and no save is masked, nothing is saved while the file is
provisioned. -/
theorem quiet_of_absent {file : Option (String × M)} {load : Nat → Moment M}
    (h : ¬ Masked file load [])
    (habsent : ((EditedFile.found file).edits (load 0).edits).file.isSome = false) :
    file = none ∧ (load 1).edits = [] ∧ (load 3).edits = [] := by
  have h₀ : (load 0).edits = [] := by
    by_contra hne
    obtain ⟨-, m, hm, -⟩ := EditedFile.edits_of_ne_nil (e := .found file) hne
    rw [EditedFile.isSome_file_iff.mpr ⟨m, hm⟩] at habsent
    cases habsent
  obtain rfl : file = none := by
    rw [h₀] at habsent
    exact Option.not_isSome_iff_eq_none.mp (Bool.eq_false_iff.mp habsent)
  refine ⟨rfl, ?_⟩
  by_contra hedited
  rw [not_and_or] at hedited
  exact h ⟨rfl, h₀, hedited, nofun⟩

/-- A load leaves the config of the file it leaves, unless a save was masked. -/
theorem config_loadOrProvision (laws : g.Lawful texts) (epoch : M) (file : Option (String × M))
    (load : Nat → Moment M) (h : ¬ Masked file load []) :
    let r := (loadOrProvision g appConfigType.toMeta ⟨epoch, ({} : AppConfig).toInstance⟩).run
      edited load (.found file)
    (AppConfig.ofInstance r.1.1.inst).clampToValid = applied g r.2.file {} := by
  have hclamped : AppConfig.clampToValid {} = {} := by decide
  have hjson := (serializable_appConfig {}).written laws
  have hwp : (loadOrProvision g appConfigType.toMeta ⟨epoch, ({} : AppConfig).toInstance⟩).wp
      (Prog.scripted edited) (fun r e ↦
        (AppConfig.ofInstance r.1.inst).clampToValid = applied g e.2.file {})
      (load, .found file) := by
    refine wp_loadOrProvision (fun _ ↦ nofun) (fun _ habsent ↦ ⟨fun h ↦ absurd h hjson, fun _ ↦ ?_⟩)
      fun _ hpresent ↦ ?_
    · refine wp_writeFile.mpr fun _ ↦ ⟨fun _ _ ↦ ⟨fun _ ↦ wp_recordMtime.mpr fun _ ↦ ?_, nofun⟩,
        nofun⟩
      have habsent : ((EditedFile.found file).edits (load 0).edits).file.isSome = false :=
        Option.some.inj habsent
      obtain ⟨hfile, h₀, h₃⟩ := quiet_of_absent h habsent
      show (AppConfig.ofInstance ({} : AppConfig).toInstance).clampToValid =
        applied g (EditedFile.edits _ (load 3).edits).file {}
      rw [h₃]
      exact (applied_written laws {} {} _).symm
    · refine wp_recordMtime.mpr fun _ ↦ wp_readContents.mpr fun _ ↦ ⟨fun _ _ ↦ ?_, fun hclosed ↦ ?_⟩
      · exact config_loaded g _ _ hclamped
      · have hpresent := EditedFile.isSome_file_iff.mp (Option.some.inj hpresent)
        obtain ⟨m, hm⟩ := EditedFile.exists_mtime_edits hpresent.choose_spec (load 1).edits
        have hopen := EditedFile.isSome_file_iff.mpr
          (EditedFile.exists_mtime_edits hm (load 2).edits)
        exact absurd (hclosed.symm.trans hopen) nofun
  exact Prog.wp.run_scripted (Q := fun (r : ConfigState M × Option LoadOutcome) e ↦
    (AppConfig.ofInstance r.1.inst).clampToValid = applied g (EditedFile.file e) {}) hwp

end Load

/-! ## Saves -/

/-- A save shows at the next poll. -/
theorem watched_edit {m : M} {inst : Instance} {e : EditedFile M} (h : Watched (⟨m, inst⟩, e))
    (x : Edit M) : Watched (⟨m, inst⟩, e.edit x) := by
  refine ⟨h.stamped.edits [x], ⟨_, rfl⟩, List.mem_cons_of_mem _ h.known, fun hm ↦ ?_⟩
  have hfresh : x.mtime e.used = m := Option.some.inj hm
  exact absurd (hfresh ▸ h.known) (x.fresh e.used)

/-- Where the modification time is that of the last poll, nothing was saved. -/
theorem edits_eq_nil_of_seen {m : M} {inst : Instance} {e : EditedFile M} {xs : List (Edit M)}
    (h : Watched (⟨m, inst⟩, e)) (hseen : (e.edits xs).mtime.getD m = m) : xs = [] := by
  by_contra hne
  obtain ⟨-, m', hm', hfresh, -⟩ := EditedFile.edits_of_ne_nil (e := e) hne
  rw [hm', Option.getD_some] at hseen
  exact hfresh (hseen ▸ h.known)

/-! ## Steps -/

/-- What happens to the two. -/
inductive Event (M : Type)
  /-- The file is saved between two ticks. -/
  | edit (x : Edit M)
  /-- `on_tick`, with what is saved between its calls. -/
  | tick (moments : Nat → Moment M)

/-- Nothing is saved. -/
def Event.IsQuiet : Event M → Prop
  | edit _ => False
  | tick moments => ∀ n, (moments n).edits = []

section Runs

variable [DecidableEq M]

/-- A step.  There is none where an exception escapes. -/
inductive Step (g : Glaze) : LiveConfig M → Event M → LiveConfig M → Prop
  | edit (s : LiveConfig M) (x : Edit M) : Step g s (.edit x) { s with file := s.file.edit x }
  | tick (s : LiveConfig M) (moments : Nat → Moment M) (app' : ConfiguredApp M)
      (outcome : Option PollOutcome) (tests : Tests)
      (h : ((s.app.onTick g).run edited moments s.file).1 = some (app', outcome, tests)) :
      Step g s (.tick moments) ⟨app', ((s.app.onTick g).run edited moments s.file).2⟩

/-- A process from the end of its `on_started`, which has found the files directory.  The
editor may save while it starts, but not a file that is just being provisioned. -/
def system (g : Glaze) (epoch : M) : Lts (LiveConfig M) (Event M) where
  init s := ∃ directory file load outcome, directory ≠ "" ∧ ¬ Masked file load [] ∧
    (ConfiguredApp.onStarted g epoch (.ok directory)).run edited load (.found file) =
      (some (s.app, outcome), s.file)
  step := Step g

variable {epoch : M} {s s' : LiveConfig M} {moments : Nat → Moment M}

/-! ## Ticks -/

section Poll

variable {s : ConfigState M} {e : EditedFile M}

/-- A poll that sees no new modification time does nothing. -/
theorem run_pollReload_of_seen
    (h : (e.edits (moments 0).edits).mtime.getD s.lastSeenMtime = s.lastSeenMtime) :
    (pollReload g appConfigType.toMeta s).run edited moments e =
      ((s, some .unchanged), e.edits (moments 0).edits) := by
  have hwp : (pollReload g appConfigType.toMeta s).wp (Prog.scripted edited)
      (fun r e' ↦ r = (s, some .unchanged) ∧ e'.2 = e.edits (moments 0).edits) (moments, e) := by
    refine wp_pollReload (fun _ _ ↦ ⟨rfl, rfl⟩) fun _ m hm hne ↦ ?_
    have hm : (e.edits (moments 0).edits).mtime = some m := hm
    rw [hm] at h
    exact absurd h hne
  have hrun := Prog.wp.run_scripted
    (Q := fun (r : ConfigState M × Option PollOutcome) e' ↦
      r = (s, some .unchanged) ∧ e' = e.edits (moments 0).edits) hwp
  exact Prod.ext hrun.1 hrun.2

/-- A poll that sees a new one reads the file, which may have been saved since. -/
theorem run_pollReload_of_new {m : M} (h : (e.edits (moments 0).edits).mtime = some m)
    (hm : m ≠ s.lastSeenMtime) :
    let e' := (e.edits (moments 0).edits).edits (moments 1).edits
    let x := parseContents g appConfigType.toMeta { s with lastSeenMtime := m }
      (e'.file.map Prod.fst)
    (pollReload g appConfigType.toMeta s).run edited moments e =
      ((x.1, x.2.map fun ok ↦ if ok then .reloaded else .failed),
        { e' with unread := false }) := by
  intro e' x
  have hwp : (pollReload g appConfigType.toMeta s).wp (Prog.scripted edited)
      (fun r e'' ↦ r = (x.1, x.2.map fun ok ↦ if ok then .reloaded else .failed) ∧
        e''.2 = { e' with unread := false }) (moments, e) := by
    refine wp_pollReload (fun _ hseen ↦ ?_) fun _ m' hm' _ ↦ ?_
    · have hseen : (e.edits (moments 0).edits).mtime.getD s.lastSeenMtime = s.lastSeenMtime :=
        hseen
      rw [h] at hseen
      exact absurd hseen hm
    · obtain rfl := Option.some.inj (h.symm.trans hm')
      refine wp_readContents.mpr fun _ ↦ ⟨fun _ _ ↦ ⟨rfl, rfl⟩, fun hclosed ↦ ?_⟩
      have hopen := EditedFile.isSome_file_iff.mpr
        (EditedFile.exists_mtime_edits h (moments 1).edits)
      exact absurd (hclosed.symm.trans hopen) nofun
  have hrun := Prog.wp.run_scripted
    (Q := fun (r : ConfigState M × Option PollOutcome) e'' ↦
      r = (x.1, x.2.map fun ok ↦ if ok then .reloaded else .failed) ∧
        e'' = { e' with unread := false }) hwp
  exact Prod.ext hrun.1 hrun.2

end Poll

/-- The next tick polls. -/
def Polls (s : LiveConfig M) : Prop := (s.app.tickCount + 1) % configPollIntervalTicks = 0

/-- A tick that does not poll calls nothing. -/
theorem run_onTick_of_not_polls (h : ¬ s.Polls) (moments : Nat → Moment M) :
    (s.app.onTick g).run edited moments s.file =
      (some ({ s.app with tickCount := s.app.tickCount + 1 }, none,
        ⟨s.app.tickCount + 1, s.app.config⟩), s.file) := by
  have hpoll : ConfiguredApp.pollConfigFile g { s.app with tickCount := s.app.tickCount + 1 } =
      pure (some ({ s.app with tickCount := s.app.tickCount + 1 }, none)) := by
    unfold ConfiguredApp.pollConfigFile
    split
    · rfl
    · exact if_neg h
  rw [ConfiguredApp.onTick, hpoll]
  rfl

/-- And one that polls does what the poll does. -/
theorem run_onTick_of_polls {m : M} (h : s.Polls) (hfile : s.app.configFile = some m)
    (moments : Nat → Moment M) :
    let r := (pollReload g appConfigType.toMeta ⟨m, s.app.config.toInstance⟩).run edited moments
      s.file
    let config := AppConfig.ofInstance r.1.1.inst
    ((s.app.onTick g).run edited moments s.file).2 = r.2 ∧
      ((s.app.onTick g).run edited moments s.file).1.map Prod.fst = r.1.2.map fun outcome ↦
        ⟨if outcome = .reloaded then config.clampToValid else config, some r.1.1.lastSeenMtime,
          s.app.tickCount + 1⟩ := by
  intro r config
  have hpoll : ConfiguredApp.pollConfigFile g { s.app with tickCount := s.app.tickCount + 1 } =
      (pollReload g appConfigType.toMeta ⟨m, s.app.config.toInstance⟩ >>= fun x ↦
        pure (x.2.map fun outcome ↦
          (⟨if outcome = .reloaded then (AppConfig.ofInstance x.1.inst).clampToValid
            else AppConfig.ofInstance x.1.inst, some x.1.lastSeenMtime, s.app.tickCount + 1⟩,
            some outcome))) := by
    unfold ConfiguredApp.pollConfigFile
    simp only [hfile]
    exact if_pos h
  rw [ConfiguredApp.onTick, Prog.run_bind_pure, hpoll, Prog.run_bind_pure, Option.map_map,
    Option.map_map]
  exact ⟨rfl, rfl⟩

/-- What a tick does, where the poll before saw this modification time. -/
theorem Step.tick_cases {m : M} (h : Step g s (.tick moments) s')
    (hfile : s.app.configFile = some m) :
    let e := s.file.edits (moments 0).edits
    let e' := e.edits (moments 1).edits
    (¬ s.Polls ∧ s' = ⟨{ s.app with tickCount := s.app.tickCount + 1 }, s.file⟩) ∨
      (s.Polls ∧ e.mtime.getD m = m ∧
        s' = ⟨{ s.app with tickCount := s.app.tickCount + 1 }, e⟩) ∨
      (s.Polls ∧ ∃ m', e.mtime = some m' ∧ m' ≠ m ∧
        s' = ⟨⟨applied g e'.file s.app.config, some m', s.app.tickCount + 1⟩,
          { e' with unread := false }⟩) := by
  intro e e'
  cases h with
  | tick _ app' outcome tests h =>
      by_cases hpolls : s.Polls
      · obtain ⟨hrun, happ⟩ := run_onTick_of_polls (g := g) hpolls hfile moments
        rw [h, Option.map_some] at happ
        rw [hrun]
        by_cases hseen : e.mtime.getD m = m
        · rw [run_pollReload_of_seen hseen] at happ ⊢
          refine .inr (.inl ⟨hpolls, hseen, ?_⟩)
          obtain rfl := Option.some.inj happ
          exact congrArg (LiveConfig.mk · e)
            (congrArg (ConfiguredApp.mk s.app.config · _) hfile.symm)
        · obtain ⟨m', hm'⟩ : ∃ m', e.mtime = some m' := by
            cases hm : e.mtime with
            | none => rw [hm] at hseen; exact absurd rfl hseen
            | some m' => exact ⟨m', rfl⟩
          have hne : m' ≠ m := fun he ↦ hseen (by rw [hm', he]; rfl)
          rw [run_pollReload_of_new hm' hne] at happ ⊢
          refine .inr (.inr ⟨hpolls, m', hm', hne, ?_⟩)
          obtain ⟨outcome, houtcome, rfl⟩ := Option.map_eq_some_iff.mp happ.symm
          have hconfig := config_polled g m' e'.file s.app.config houtcome
          have hmtime : (parseContents g appConfigType.toMeta ⟨m', s.app.config.toInstance⟩
              (e'.file.map Prod.fst)).1.lastSeenMtime = m' := lastSeenMtime_parseContents _
          exact congrArg (LiveConfig.mk · _)
            (congrArg₂ (ConfiguredApp.mk · · _) hconfig (congrArg some hmtime))
      · have hrun := run_onTick_of_not_polls (g := g) hpolls moments
        rw [hrun] at h ⊢
        cases h
        exact .inl ⟨hpolls, rfl⟩

/-! ## The invariant -/

/-- The last save shows at the next poll, or it has been read and is in the config. -/
structure Live (g : Glaze) (s : LiveConfig M) : Prop where
  watched : ∃ m, s.app.configFile = some m ∧ Watched (⟨m, s.app.config.toInstance⟩, s.file)
  read : s.file.unread = false → applied g s.file.file s.app.config = s.app.config

theorem Step.live {ev : Event M} (h : Step g s ev s') (hs : Live g s) : Live g s' := by
  obtain ⟨m, hfile, hwatched⟩ := hs.watched
  cases ev with
  | edit x =>
      cases h with
      | edit => exact ⟨⟨m, hfile, watched_edit hwatched x⟩, nofun⟩
  | tick moments =>
      rcases h.tick_cases hfile with ⟨-, rfl⟩ | ⟨-, hseen, rfl⟩ | ⟨-, m', hm', -, rfl⟩
      · exact ⟨⟨m, hfile, hwatched⟩, hs.read⟩
      · rw [edits_eq_nil_of_seen hwatched hseen]
        exact ⟨⟨m, hfile, hwatched⟩, hs.read⟩
      · have hstamped := hwatched.stamped.edits (moments 0).edits
        refine ⟨⟨m', rfl, ?_, ?_, ?_, fun _ ↦ rfl⟩, fun _ ↦ applied_applied ..⟩
        · exact hstamped.edits (moments 1).edits
        · exact EditedFile.exists_mtime_edits hm' (moments 1).edits
        · exact EditedFile.used_edits _ _ (hstamped m' hm')

/-! ## While nothing is saved -/

/-- A tick in which nothing is saved leaves the config to come as it is, and a poll reaches
it. -/
theorem Step.quiet (h : Step g s (.tick moments) s') (hs : Live g s)
    (hquiet : ∀ n, (moments n).edits = []) :
    s'.file.file = s.file.file ∧ s'.app.tickCount = s.app.tickCount + 1 ∧
      applied g s'.file.file s'.app.config = applied g s.file.file s.app.config ∧
      (s.file.unread = false ∨ s.Polls → s'.file.unread = false) := by
  obtain ⟨m, hfile, hwatched⟩ := hs.watched
  have hsame : ∀ n, s.file.edits (moments n).edits = s.file := by
    intro n
    rw [hquiet n]
    rfl
  have hcases := h.tick_cases hfile
  simp only [hsame] at hcases
  rcases hcases with ⟨hno, rfl⟩ | ⟨-, hseen, rfl⟩ | ⟨-, m', -, -, rfl⟩
  · exact ⟨rfl, rfl, rfl, fun h ↦ h.resolve_right hno⟩
  · refine ⟨rfl, rfl, rfl, fun _ ↦ ?_⟩
    obtain ⟨m', hm'⟩ := hwatched.present
    change s.file.mtime = some m' at hm'
    rw [hm', Option.getD_some] at hseen
    exact hwatched.read (hm'.trans (congrArg some hseen))
  · exact ⟨rfl, rfl, applied_applied .., fun _ ↦ rfl⟩

theorem quiet_of_run {w : List (Event M)} (h : (system g epoch).Run s w s') (hs : Live g s)
    (hquiet : ∀ e ∈ w, e.IsQuiet) :
    s'.file.file = s.file.file ∧
      applied g s'.file.file s'.app.config = applied g s.file.file s.app.config ∧
      (s.file.unread = false ∨ (∃ i < w.length,
          (s.app.tickCount + UInt64.ofNat (i + 1)) % configPollIntervalTicks = 0) →
        s'.file.unread = false) := by
  induction h with
  | nil s =>
      refine ⟨rfl, rfl, ?_⟩
      rintro (h | ⟨i, hi, -⟩)
      · exact h
      · exact absurd hi (Nat.not_lt_zero i)
  | @cons s s'' s' ev w hstep hrun ih =>
      obtain ⟨hev, hquiet⟩ := List.forall_mem_cons.mp hquiet
      obtain ⟨hfile', happ', hread'⟩ := ih (Step.live hstep hs) hquiet
      cases ev with
      | edit x => exact hev.elim
      | tick moments =>
          obtain ⟨hfile, hcount, happ, hread⟩ := Step.quiet hstep hs hev
          refine ⟨hfile'.trans hfile, happ'.trans happ, fun h ↦ hread' ?_⟩
          rcases h with h | ⟨_ | i, hi, hpolls⟩
          · exact .inl (hread (.inl h))
          · exact .inl (hread (.inr hpolls))
          · refine .inr ⟨i, Nat.lt_of_succ_lt_succ hi, ?_⟩
            rw [hcount, UInt64.add_assoc, UInt64.add_comm 1, ← UInt64.ofNat_one,
              ← UInt64.ofNat_add]
            exact hpolls

/-- One of the next ticks polls. -/
theorem exists_polls (count : UInt64) :
    ∃ i < configPollIntervalTicks.toNat,
      (count + UInt64.ofNat (i + 1)) % configPollIntervalTicks = 0 := by
  let c : Cadence := ⟨UInt64.size, configPollIntervalTicks.toNat⟩
  have hpos : 0 < c.interval := by decide
  obtain ⟨i, hi, hdue⟩ := Cadence.exists_since_eq_zero hpos count.toNat
  refine ⟨i, hi, ?_⟩
  rw [← UInt64.toNat_inj, UInt64.toNat_mod, UInt64.toNat_add, UInt64.toNat_ofNat',
    Nat.add_mod_mod, ← Nat.add_assoc]
  exact hdue

variable {texts : JsonTexts}

theorem live_of_init (laws : g.Lawful texts) (h : (system g epoch).init s) : Live g s := by
  obtain ⟨directory, file, load, outcome, hdir, hmasked, hrun⟩ := h
  let c : ConfigState M := ⟨epoch, ({} : AppConfig).toInstance⟩
  have hwatched : Watched (session g appConfigType c file load []) :=
    watched_session ((serializable_appConfig {}).written laws) hmasked
  have hconfig := config_loadOrProvision laws epoch file load hmasked
  have hstart : ConfiguredApp.onStarted g epoch (.ok directory) =
      (loadOrProvision g appConfigType.toMeta c >>= fun x ↦
        pure (x.2.map fun outcome ↦ (⟨(AppConfig.ofInstance x.1.inst).clampToValid,
          some x.1.lastSeenMtime, 0⟩, some outcome))) := if_neg hdir
  rw [hstart, Prog.run_bind_pure] at hrun
  obtain ⟨hsome, hfile⟩ := Prod.mk.inj hrun
  obtain ⟨outcome', -, happ⟩ := Option.map_eq_some_iff.mp hsome
  have happ := (congrArg Prod.fst happ).symm
  change s.app = _ at happ
  refine ⟨⟨_, by rw [happ], ?_⟩, fun _ ↦ ?_⟩
  · rw [← hfile]
    exact ⟨hwatched.stamped, hwatched.present, hwatched.known, hwatched.read⟩
  · rw [← hfile, happ]
    show applied g _ (AppConfig.clampToValid _) = AppConfig.clampToValid _
    rw [hconfig, applied_applied]

/-- Whatever the editor has done before, once `kConfigPollIntervalTicks` ticks have gone by
in which it saved nothing: the config in use is what the file it left makes of the config
there was when it stopped.  A document is overlaid and clamped; of a file that is none,
nothing is used. -/
theorem edit_takes_effect (laws : g.Lawful texts) {s₀ s s' : LiveConfig M} {w w' : List (Event M)}
    (h₀ : (system g epoch).init s₀) (h : (system g epoch).Run s₀ w s)
    (h' : (system g epoch).Run s w' s') (hquiet : ∀ e ∈ w', e.IsQuiet)
    (hlong : configPollIntervalTicks.toNat ≤ w'.length) :
    s'.file.file = s.file.file ∧ s'.app.config = applied g s.file.file s.app.config := by
  have hs : Live g s := h.invariant Step.live (live_of_init laws h₀)
  have hs' : Live g s' := h'.invariant Step.live hs
  obtain ⟨hfile, happ, hread⟩ := quiet_of_run h' hs hquiet
  obtain ⟨i, hi, hpolls⟩ := exists_polls s.app.tickCount
  refine ⟨hfile, ?_⟩
  rw [← hs'.read (hread (.inr ⟨i, hi.trans_le hlong, hpolls⟩)), happ]

/-! ### A save -/

/-- A file that is a document ends no process. -/
theorem exists_tick (hs : Live g s)
    (hdoc : ((s.file.file.map Prod.fst).bind (document g.readJson appConfigType.fields)).isSome)
    (hquiet : ∀ n, (moments n).edits = []) : ∃ s', Step g s (.tick moments) s' := by
  have hrun : ∃ app', ((s.app.onTick g).run edited moments s.file).1.map Prod.fst = some app' := by
    by_cases hpolls : s.Polls
    · obtain ⟨m, hfile, hwatched⟩ := hs.watched
      obtain ⟨-, happ⟩ := run_onTick_of_polls (g := g) hpolls hfile moments
      obtain ⟨m', hm'⟩ := hwatched.present
      have hmtime : (s.file.edits (moments 0).edits).mtime = some m' := by
        rw [hquiet 0]
        exact hm'
      rw [happ]
      by_cases hne : m' = m
      · rw [run_pollReload_of_seen (by rw [hmtime, hne]; rfl)]
        exact ⟨_, rfl⟩
      · rw [run_pollReload_of_new hmtime hne, hquiet 0, hquiet 1]
        rcases parseContents_eq g appConfigType ⟨m', s.app.config.toInstance⟩
          (s.file.file.map Prod.fst) with ⟨members, -, hparse⟩ | ⟨hnone, -⟩
        · exact ⟨_, congrArg (Option.map _) (congrArg (Option.map _) (congrArg Prod.snd hparse))⟩
        · rw [hnone] at hdoc
          cases hdoc
    · rw [run_onTick_of_not_polls hpolls]
      exact ⟨_, rfl⟩
  obtain ⟨app', happ'⟩ := hrun
  obtain ⟨⟨_, outcome, tests⟩, hsome, rfl⟩ := Option.map_eq_some_iff.mp happ'
  exact ⟨_, .tick s _ _ outcome tests hsome⟩

theorem exists_quiet_run (epoch : M) (hs : Live g s)
    (hdoc : ((s.file.file.map Prod.fst).bind (document g.readJson appConfigType.fields)).isSome)
    (n : Nat) : ∃ w s', (system g epoch).Run s w s' ∧ (∀ e ∈ w, e.IsQuiet) ∧ w.length = n := by
  induction n generalizing s with
  | zero => exact ⟨[], s, .nil s, nofun, rfl⟩
  | succ n ih =>
      obtain ⟨t, ht⟩ : ∃ t, Step g s (.tick fun _ ↦ ⟨[], epoch⟩) t :=
        exists_tick hs hdoc fun _ ↦ rfl
      obtain ⟨hfile, -⟩ := Step.quiet ht hs fun _ ↦ rfl
      obtain ⟨w, s', hrun, hquiet, hlength⟩ := ih (Step.live ht hs) (by rw [hfile]; exact hdoc)
      exact ⟨_, s', .cons ht hrun, List.forall_mem_cons.mpr ⟨fun _ ↦ rfl, hquiet⟩,
        congrArg (· + 1) hlength⟩

end Runs

/-- A process can start on an empty directory. -/
theorem exists_init {directory : String} (hdir : directory ≠ "") :
    ∃ s, (system plainGlaze 0).init s := by
  let c : ConfigState Nat := ⟨0, ({} : AppConfig).toInstance⟩
  let load : Nat → Moment Nat := fun n ↦ ⟨[], n⟩
  have hwp : (loadOrProvision plainGlaze appConfigType.toMeta c).wp (Prog.scripted edited)
      (fun r _ ↦ r.2.isSome = true) (load, .found none) := by
    refine wp_loadOrProvision (fun _ _ ↦ rfl) (fun _ _ ↦ ⟨fun _ ↦ rfl, fun _ ↦ ?_⟩) fun _ ↦ nofun
    exact wp_writeFile.mpr fun _ ↦ ⟨fun _ _ ↦ ⟨fun _ ↦ wp_recordMtime.mpr fun _ ↦ rfl, fun _ ↦ rfl⟩,
      nofun⟩
  have hsome := Prog.wp.run_scripted
    (Q := fun (r : ConfigState Nat × Option LoadOutcome) (_ : EditedFile Nat) ↦ r.2.isSome = true)
    hwp
  obtain ⟨outcome, houtcome⟩ := Option.isSome_iff_exists.mp hsome
  have hstart : ConfiguredApp.onStarted plainGlaze 0 (.ok directory) =
      (loadOrProvision plainGlaze appConfigType.toMeta c >>= fun x ↦
        pure (x.2.map fun outcome ↦ (⟨(AppConfig.ofInstance x.1.inst).clampToValid,
          some x.1.lastSeenMtime, 0⟩, some outcome))) := if_neg hdir
  have hmasked : ¬ Masked (M := Nat) none load [] := by
    rintro ⟨-, -, hedited, -⟩
    exact hedited.elim (absurd rfl) (absurd rfl)
  let r := (loadOrProvision plainGlaze appConfigType.toMeta c).run edited load (.found none)
  have hrun : (ConfiguredApp.onStarted plainGlaze 0 (.ok directory)).run edited load
      (.found none) = (some (⟨(AppConfig.ofInstance r.1.1.inst).clampToValid,
        some r.1.1.lastSeenMtime, 0⟩, some outcome), r.2) := by
    rw [hstart, Prog.run_bind_pure, houtcome]
    rfl
  exact ⟨⟨_, r.2⟩, directory, none, load, some outcome, hdir, hmasked, hrun⟩

/-- The config file is saved with other intervals. -/
theorem edit_takes_effect_saved : ∃ (s s' : LiveConfig Nat) (w : List (Event Nat)),
    (system plainGlaze 0).Run s w s' ∧ (∀ e ∈ w, e.IsQuiet) ∧ w.length = 120 ∧
      s'.file.file = s.file.file ∧ s'.app.config = ⟨60, 90⟩ := by
  obtain ⟨s₀, h₀⟩ : ∃ s, (system plainGlaze 0).init s := exists_init (by decide : "/data" ≠ "")
  let text := metaComponentToJson plainGlaze appConfigType.toMeta (AppConfig.mk 60 90).toInstance
  let s : LiveConfig Nat := { s₀ with file := s₀.file.edit (laterEdit text) }
  have hsaved : (system plainGlaze 0).Run s₀ [.edit (laterEdit text)] s := .single (.edit s₀ _)
  have hs : Live plainGlaze s := hsaved.invariant Step.live (live_of_init plainGlaze_lawful h₀)
  have hdoc : ((s.file.file.map Prod.fst).bind
      (document plainGlaze.readJson appConfigType.fields)).isSome = true := by
    obtain ⟨members, hdoc, -⟩ := exists_document plainGlaze_lawful (AppConfig.mk 60 90)
    have htext : s.file.file.map Prod.fst = some text := rfl
    rw [htext, Option.bind_some, hdoc]
    rfl
  obtain ⟨w, s', hrun, hquiet, hlength⟩ := exists_quiet_run 0 hs hdoc 120
  obtain ⟨hfile, hconfig⟩ :=
    edit_takes_effect plainGlaze_lawful h₀ hsaved hrun hquiet hlength.ge
  refine ⟨s, s', w, hrun, hquiet, hlength, hfile, hconfig.trans ?_⟩
  rw [show s.file.file = some (text, _) from rfl, applied_written plainGlaze_lawful]
  decide

end LiveConfig

end Konative.App
