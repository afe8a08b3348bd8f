import Konative.App.Config.ConfigCalls

/-!
# Hot reload as a fold

A config file goes through a sequence of states, and is polled once in each.  What
the polls make of the instance is a fold: the instance is overlaid, in order, with the
documents that came under a new modification time and could be read (`foldsDocuments`).
Every other poll leaves it as it was, also when the parser stopped in the middle of
the fields or threw.
-/

namespace Konative.App.Config

open Reflect

variable {M : Type}

/-! ## Documents -/

/-- The instance with the fields a document mentions decoded from it. -/
def overlay (fields : List (String × FieldType)) (members : List (String × Json))
    (inst : Instance) : Instance := fun name ↦
  match fields.lookup name, members.lookup name with
  | some type, some v => decode type v
  | _, _ => inst name

open Classical in
/-- The members of a text that is a document for the fields. -/
noncomputable def document (readJson : String → Option Json) (fields : List (String × FieldType))
    (text : String) : Option (List (String × Json)) :=
  match readJson text with
  | some (.object members) =>
      if ∀ f ∈ fields, ∀ v, members.lookup f.1 = some v → Matches f.2 v then some members else none
  | _ => none

section Document

variable {readJson : String → Option Json} {type : ReflectedType} {text : String}
  {members : List (String × Json)} {inst inst' : Instance}

theorem document_eq_some {fields : List (String × FieldType)} :
    document readJson fields text = some members ↔ readJson text = some (.object members) ∧
      ∀ f ∈ fields, ∀ v, members.lookup f.1 = some v → Matches f.2 v := by
  unfold document
  split
  · rename_i members' h
    split
    · rename_i hall
      constructor
      · rintro ⟨⟩
        exact ⟨h, hall⟩
      · rintro ⟨h', -⟩
        rw [h] at h'
        cases h'
        rfl
    · rename_i hall
      constructor
      · rintro ⟨⟩
      · rintro ⟨h', hall'⟩
        rw [h] at h'
        cases h'
        exact absurd hall' hall
  · rename_i hobj
    constructor
    · rintro ⟨⟩
    · rintro ⟨h, -⟩
      exact absurd h (hobj members)

theorem lookup_eq_of_mem {fields : List (String × FieldType)} (hnd : (fields.map Prod.fst).Nodup)
    {f : String × FieldType} (hf : f ∈ fields) : fields.lookup f.1 = some f.2 := by
  induction fields with
  | nil => cases hf
  | cons g fields ih =>
      rw [List.map_cons, List.nodup_cons] at hnd
      rw [List.lookup_cons]
      rcases List.mem_cons.mp hf with rfl | hf
      · rw [beq_self_eq_true]
      · have hne : f.1 ≠ g.1 := fun he ↦ hnd.1 (he ▸ List.mem_map_of_mem hf)
        rw [beq_false_of_ne hne]
        exact ih hnd.2 hf

/-- The loop over the fields overlays the instance. -/
theorem overlay_eq (h : Updated type.fields members inst inst') :
    overlay type.fields members inst = inst' := by
  funext name
  unfold overlay
  split
  · rename_i t v ht hv
    have hf : (name, t) ∈ type.fields := by
      obtain ⟨l₁, l₂, hl, -⟩ := List.lookup_eq_some_iff.mp ht
      rw [hl]
      simp
    exact (h.1 _ hf v hv).symm
  · rename_i hnone
    refine (h.2 name ?_).symm
    rintro f hf rfl
    cases hv : members.lookup f.1 with
    | none => rfl
    | some v => exact absurd hv (hnone _ _ (lookup_eq_of_mem type.nodup hf))

/-- A document is read, and the instance overlaid with it. -/
theorem metaComponentFromJson_of_document (h : document readJson type.fields text = some members) :
    metaComponentFromJson readJson type.toMeta inst text =
      .returned true (overlay type.fields members inst) := by
  obtain ⟨hobj, hall⟩ := document_eq_some.mp h
  have hset := setFields_append [] hall inst
  rw [List.append_nil, setFields] at hset
  rw [overlay_eq (updated_passed type.nodup inst)]
  simp only [metaComponentFromJson, ReflectedType.toMeta, hobj]
  exact hset

/-- Of a text that is none, reading does not succeed. -/
theorem metaComponentFromJson_of_none (h : document readJson type.fields text = none) :
    metaComponentFromJson readJson type.toMeta inst text ≠ .returned true inst' := by
  unfold metaComponentFromJson ReflectedType.toMeta
  simp only
  split
  · rename_i members hobj
    rcases all_match_or_first type.fields members with
      hall | ⟨before, name, t, after, value, hf, hl, hm, hb⟩
    · rw [document_eq_some.mpr ⟨hobj, hall⟩] at h
      cases h
    · obtain ⟨inst'', ⟨-, hset⟩ | ⟨-, hset⟩⟩ := setFields_first hl hm hb after inst
      · rw [← hf, fieldData] at hset
        rw [hset]
        rintro ⟨⟩
      · rw [← hf, fieldData] at hset
        rw [hset]
        rintro ⟨⟩
  · rintro ⟨⟩

end Document

/-! ## One poll -/

/-- What is at the path. -/
inductive FileState (M : Type)
  | missing
  /-- Nothing can be read, its modification time perhaps. -/
  | unreadable (mtime : Option M)
  | content (text : String) (mtime : M)

namespace FileState

/-- The modification time that is reported. -/
def mtime : FileState M → Option M
  | missing => none
  | unreadable mtime => mtime
  | content _ mtime => some mtime

/-- The text that is read. -/
def contents : FileState M → Option String
  | missing | unreadable _ => none
  | content text _ => some text

/-- What calls answer in this state, which they do not change. -/
def answer (f : FileState M) : (c : FileCall) → c.Answer M
  | .fileExists => some (match f with | missing => false | unreadable _ | content _ _ => true)
  | .openWrite | .write _ => false
  | .lastWriteTime => f.mtime
  | .openRead => f.contents.isSome
  | .read => f.contents

/-- The file stays as it is. -/
def handler : Handler (FileCall.Answer M) Unit (FileState M) := fun f c _ ↦ (f.answer c, f)

end FileState

variable [DecidableEq M] (g : Glaze) (type : ReflectedType)

/-- One `poll_reload`. -/
def pollOn (f : FileState M) (s : ConfigState M) : ConfigState M × Option PollOutcome :=
  ((pollReload g type.toMeta s).run FileState.handler (fun _ ↦ ()) f).1

/-- One `poll_reload` in each of these states. -/
def polls : List (FileState M) → ConfigState M → ConfigState M × List (Option PollOutcome)
  | [], s => (s, [])
  | f :: fs, s =>
      let x := pollOn g type f s
      let y := polls fs x.1
      (y.1, x.2 :: y.2)

variable {g type} {f : FileState M} {s : ConfigState M}

/-- A poll that sees no new modification time does nothing. -/
theorem pollOn_of_seen (h : f.mtime.getD s.lastSeenMtime = s.lastSeenMtime) :
    pollOn g type f s = (s, some .unchanged) := by
  have hwp : (pollReload g type.toMeta s).wp FileState.handler
      (fun x _ ↦ x = (s, some .unchanged)) f := by
    refine wp_pollReload (fun _ _ ↦ rfl) fun _ m hm hne ↦ ?_
    have hf : f.mtime = some m := hm
    rw [hf] at h
    exact absurd h hne
  exact hwp.run fun _ ↦ ()

/-- A poll that sees a new one records it and reads the file. -/
theorem pollOn_of_new {m : M} (hf : f.mtime = some m) (hm : m ≠ s.lastSeenMtime) :
    pollOn g type f s =
      let x := parseContents g type.toMeta { s with lastSeenMtime := m } f.contents
      (x.1, x.2.map fun ok ↦ if ok then .reloaded else .failed) := by
  have hwp : (pollReload g type.toMeta s).wp FileState.handler (fun x _ ↦ x =
      let x := parseContents g type.toMeta { s with lastSeenMtime := m } f.contents
      (x.1, x.2.map fun ok ↦ if ok then .reloaded else .failed)) f := by
    refine wp_pollReload (fun _ hseen ↦ ?_) fun _ m' hm' _ ↦ ?_
    · have hseen : f.mtime.getD s.lastSeenMtime = s.lastSeenMtime := hseen
      rw [hf] at hseen
      exact absurd hseen hm
    · have hm' : f.mtime = some m' := hm'
      rw [hf] at hm'
      obtain rfl := Option.some.inj hm'
      refine wp_readContents.mpr fun _ ↦ ⟨fun _ _ ↦ rfl, fun hclosed ↦ ?_⟩
      have hclosed : f.contents.isSome = false := hclosed
      rw [Option.isNone_iff_eq_none.mp (Option.isSome_eq_false_iff.mp hclosed)]
  exact hwp.run fun _ ↦ ()

omit [DecidableEq M] in
/-- Reading a document overlays the instance, and reading anything else changes nothing. -/
theorem parseContents_eq (g : Glaze) (type : ReflectedType) (s : ConfigState M)
    (contents : Option String) :
    (∃ members, contents.bind (document g.readJson type.fields) = some members ∧
      parseContents g type.toMeta s contents =
        ({ s with inst := overlay type.fields members s.inst }, some true)) ∨
    (contents.bind (document g.readJson type.fields) = none ∧
      ∃ ok, parseContents g type.toMeta s contents = (s, ok) ∧ ok ≠ some true) := by
  cases contents with
  | none => exact .inr ⟨rfl, some false, rfl, by rintro ⟨⟩⟩
  | some text =>
      rw [Option.bind_some]
      cases hdoc : document g.readJson type.fields text with
      | some members =>
          refine .inl ⟨members, rfl, ?_⟩
          simp only [parseContents, parseFileInto, metaComponentFromJson_of_document hdoc]
      | none =>
          refine .inr ⟨rfl, ?_⟩
          cases hread : metaComponentFromJson g.readJson type.toMeta s.inst text with
          | threw inst =>
              exact ⟨none, by simp only [parseContents, parseFileInto, hread], by rintro ⟨⟩⟩
          | returned ok inst =>
              cases ok with
              | true => exact absurd hread (metaComponentFromJson_of_none hdoc)
              | false =>
                  exact ⟨some false, by simp only [parseContents, parseFileInto, hread],
                    by rintro ⟨⟩⟩

/-! ## Sequences of polls -/

/-- The document a poll finds under a new modification time. -/
noncomputable def newDocument (g : Glaze) (type : ReflectedType) (lastSeen : M) (f : FileState M) :
    Option (List (String × Json)) :=
  if f.mtime.getD lastSeen = lastSeen then none
  else f.contents.bind (document g.readJson type.fields)

/-- The documents of a sequence of file states, each under a modification time other than
the last one recorded. -/
noncomputable def newDocuments (g : Glaze) (type : ReflectedType) :
    M → List (FileState M) → List (List (String × Json))
  | _, [] => []
  | lastSeen, f :: fs =>
      (newDocument g type lastSeen f).toList ++ newDocuments g type (f.mtime.getD lastSeen) fs

/-- What a poll leaves, and what it says it did. -/
theorem pollOn_eq (g : Glaze) (type : ReflectedType) (f : FileState M) (s : ConfigState M) :
    ∃ outcome, pollOn g type f s = (⟨f.mtime.getD s.lastSeenMtime,
      (newDocument g type s.lastSeenMtime f).elim s.inst fun members ↦
        overlay type.fields members s.inst⟩, outcome) ∧
    (outcome = some .reloaded ↔ (newDocument g type s.lastSeenMtime f).isSome) ∧
    (f.mtime.getD s.lastSeenMtime = s.lastSeenMtime ↔ outcome = some .unchanged) := by
  unfold newDocument
  by_cases h : f.mtime.getD s.lastSeenMtime = s.lastSeenMtime
  · rw [if_pos h, pollOn_of_seen h, h]
    exact ⟨_, rfl, iff_of_false nofun nofun, iff_of_true rfl rfl⟩
  · rw [if_neg h]
    obtain ⟨m, hm⟩ : ∃ m, f.mtime = some m := by
      cases hm : f.mtime with
      | none => rw [hm] at h; exact absurd rfl h
      | some m => exact ⟨m, rfl⟩
    rw [hm, Option.getD_some] at h ⊢
    rw [pollOn_of_new hm h]
    have hreloaded := @map_ok_eq_some _ PollOutcome.reloaded .failed nofun
    have hchanged : ∀ ok : Option Bool,
        (ok.map fun ok ↦ if ok then PollOutcome.reloaded else .failed) ≠ some .unchanged := by
      rintro (_ | _ | _)
      · exact nofun
      · exact nofun
      · exact nofun
    have hparse := parseContents_eq g type { s with lastSeenMtime := m } f.contents
    rcases hparse with ⟨members, hdoc, hparse⟩ | ⟨hdoc, ok, hparse, hok⟩
    · rw [hdoc, hparse]
      exact ⟨_, rfl, iff_of_true (hreloaded.mpr rfl) rfl, iff_of_false h (hchanged _)⟩
    · rw [hdoc, hparse]
      exact ⟨_, rfl, iff_of_false (mt hreloaded.mp hok) nofun, iff_of_false h (hchanged ok)⟩

theorem polls_append (u v : List (FileState M)) (s : ConfigState M) :
    (polls g type (u ++ v) s).1 = (polls g type v (polls g type u s).1).1 := by
  induction u generalizing s with
  | nil => rfl
  | cons f u ih => exact ih _

/-- The modification time recorded is the last one seen. -/
theorem lastSeenMtime_polls (fs : List (FileState M)) (s : ConfigState M) :
    (polls g type fs s).1.lastSeenMtime =
      fs.foldl (fun m f ↦ f.mtime.getD m) s.lastSeenMtime := by
  induction fs generalizing s with
  | nil => rfl
  | cons f fs ih =>
      obtain ⟨outcome, h, -⟩ := pollOn_eq g type f s
      rw [polls, List.foldl_cons]
      refine (ih _).trans ?_
      rw [h]

omit [DecidableEq M] in
/-- As long as no other modification time is seen, it stays the last one. -/
theorem foldl_mtime {m : M} {fs : List (FileState M)}
    (h : ∀ f ∈ fs, f.mtime = some m ∨ f.mtime = none) :
    fs.foldl (fun m f ↦ f.mtime.getD m) m = m := by
  induction fs with
  | nil => rfl
  | cons f fs ih =>
      obtain ⟨hf, hfs⟩ := List.forall_mem_cons.mp h
      have hm : f.mtime.getD m = m := by
        rcases hf with hf | hf
        · rw [hf, Option.getD_some]
        · rw [hf, Option.getD_none]
      rw [List.foldl_cons, hm]
      exact ih hfs

/-- A sequence of polls folds the new documents over the instance. -/
theorem inst_polls (fs : List (FileState M)) (s : ConfigState M) :
    (polls g type fs s).1.inst = (newDocuments g type s.lastSeenMtime fs).foldl
      (fun inst members ↦ overlay type.fields members inst) s.inst := by
  induction fs generalizing s with
  | nil => rfl
  | cons f fs ih =>
      obtain ⟨outcome, h, -⟩ := pollOn_eq g type f s
      rw [polls, newDocuments, List.foldl_append]
      refine (ih _).trans ?_
      rw [h]
      cases newDocument g type s.lastSeenMtime f with
      | none => rfl
      | some members => rfl

/-- What hot reload does along a sequence of file states. -/
structure FoldsDocuments (g : Glaze) (type : ReflectedType) (s : ConfigState M)
    (fs : List (FileState M)) : Prop where
  /-- The documents that are new and accepted are overlaid in order. -/
  fold : (polls g type fs s).1.inst = (newDocuments g type s.lastSeenMtime fs).foldl
    (fun inst members ↦ overlay type.fields members inst) s.inst
  /-- Documents are what `meta_component_from_json` succeeds on, whatever the instance. -/
  documents : ∀ text inst inst', metaComponentFromJson g.readJson type.toMeta inst text =
    .returned true inst' ↔ ∃ members, document g.readJson type.fields text = some members ∧
      inst' = overlay type.fields members inst
  /-- Any other poll leaves the instance as it is. -/
  untouched : ∀ u f v, fs = u ++ f :: v →
    (pollOn g type f (polls g type u s).1).2 ≠ some .reloaded →
      (pollOn g type f (polls g type u s).1).1.inst = (polls g type u s).1.inst
  /-- Of polls in a row that see one modification time or none, only the first that sees
  it can fail. -/
  failedOnce : ∀ u f v f' w m, fs = u ++ f :: (v ++ f' :: w) → f.mtime = some m →
    (∀ x ∈ v, x.mtime = some m ∨ x.mtime = none) → f'.mtime = some m →
      (pollOn g type f' (polls g type (u ++ f :: v) s).1).2 = some .unchanged
  /-- So does a second poll of the same file. -/
  again : ∀ u f v, fs = u ++ f :: v →
    let t := (pollOn g type f (polls g type u s).1).1
    pollOn g type f t = (t, some .unchanged)

/-- Along any sequence of file states, from any instance and any recorded modification
time, hot reload folds the new documents over the instance. -/
theorem foldsDocuments (g : Glaze) (type : ReflectedType) (s : ConfigState M)
    (fs : List (FileState M)) : FoldsDocuments g type s fs where
  fold := inst_polls fs s
  documents text inst inst' := by
    cases hdoc : document g.readJson type.fields text with
    | none =>
        refine iff_of_false (metaComponentFromJson_of_none hdoc) ?_
        rintro ⟨_, ⟨⟩, -⟩
    | some members =>
        rw [metaComponentFromJson_of_document hdoc]
        constructor
        · rintro ⟨⟩
          exact ⟨members, rfl, rfl⟩
        · rintro ⟨_, ⟨⟩, rfl⟩
          rfl
  untouched u f v _ h := by
    obtain ⟨outcome, hpoll, hreloaded, -⟩ := pollOn_eq g type f (polls g type u s).1
    rw [hpoll] at h ⊢
    have hnone : newDocument g type (polls g type u s).1.lastSeenMtime f = none :=
      Option.not_isSome_iff_eq_none.mp fun hsome ↦ h (hreloaded.mpr hsome)
    rw [hnone]
    rfl
  failedOnce u f v f' w m _ hf hv hf' := by
    have hseen : (polls g type (u ++ f :: v) s).1.lastSeenMtime = m := by
      rw [polls_append, lastSeenMtime_polls, List.foldl_cons, hf, Option.getD_some]
      exact foldl_mtime hv
    rw [pollOn_of_seen]
    rw [hf', hseen, Option.getD_some]
  again u f v _ := by
    obtain ⟨outcome, hpoll, -⟩ := pollOn_eq g type f (polls g type u s).1
    refine pollOn_of_seen ?_
    rw [hpoll]
    cases f.mtime with
    | none => rfl
    | some m => rfl

end Konative.App.Config
