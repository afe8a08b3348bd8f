import Konative.Lib.Double
import Mathlib.Data.List.Basic

/-!
# Reading a reflected component from JSON

`meta_component_from_json` parses a document, walks over the fields the component
type reflects, and sets each one the document mentions.  The parser is Glaze's and
is a parameter; what it returns is a tree of JSON values whose numbers are doubles.

A field's value is taken out of the tree with `get<double>()` or `get<bool>()`.
On a value of another kind these throw `std::bad_variant_access`, and nothing
between there and the caller catches it.
-/

namespace Konative.Reflect

/-- A JSON number.  No JSON text denotes NaN. -/
structure JsonNumber where
  val : Float
  notNaN : val.isNaN = false

/-- `glz::generic`. -/
inductive Json
  | null
  | bool (b : Bool)
  | number (x : JsonNumber)
  | string (s : String)
  | array (elements : List Json)
  | object (members : List (String × Json))

/-- The type of a reflected field, as far as it can be read. -/
inductive FieldType
  | int
  | float
  | bool
  | double
  /-- Any other type. -/
  | other
deriving DecidableEq, Repr

/-- The value of a field. -/
inductive FieldValue
  | int (n : Int32)
  | float (x : Float32)
  | bool (b : Bool)
  | double (x : Float)
  /-- A value of a type that cannot be read. -/
  | other

/-- `entt::meta_data`: a field's recorded name, when it has one, and its type. -/
structure MetaData where
  name : Option String
  type : FieldType

/-- `entt::meta_type`: the fields it enumerates, unless it does not resolve. -/
abbrev MetaType := Option (List MetaData)

/-- An instance of the component, read by field name. -/
abbrev Instance := String → FieldValue

/-! ## One field -/

/-- `static_cast<double>(std::numeric_limits<int>::min())`. -/
def intMin : Float := .ofBits 0xC1E0000000000000

/-- `static_cast<double>(std::numeric_limits<int>::max())`. -/
def intMax : Float := .ofBits 0x41DFFFFFFFC00000

/-- `static_cast<double>(std::numeric_limits<float>::max())`. -/
def floatMax : Float := .ofBits 0x47EFFFFFE0000000

example : intMin.castInt = -2147483648 ∧ intMax.castInt = 2147483647 ∧
    floatMax.castSingle.toBits = 0x7F7FFFFF := by decide

/-- How `json_value_to_meta` ends. -/
inductive SetOutcome
  | set (v : FieldValue)
  | rejected
  /-- `std::bad_variant_access`. -/
  | threw

/-- `json_value_to_meta`. -/
def jsonValueToMeta : FieldType → Json → SetOutcome
  | .int, .number x =>
      if x.val < intMin ∨ x.val > intMax then .rejected else .set (.int x.val.castInt)
  | .float, .number x =>
      if x.val < -floatMax ∨ x.val > floatMax then .rejected else .set (.float x.val.castSingle)
  | .bool, .bool b => .set (.bool b)
  | .double, .number x => .set (.double x.val)
  | .other, _ => .rejected
  -- `get` of an alternative the variant does not hold
  | .int, _ | .float, _ | .bool, _ | .double, _ => .threw

/-! ## The component -/

/-- How `meta_component_from_json` ends, and the instance it leaves. -/
inductive FromJson
  | returned (ok : Bool) (inst : Instance)
  | threw (inst : Instance)

/-- The loop over `type.data()`. -/
def setFields (members : List (String × Json)) : List MetaData → Instance → FromJson
  | [], inst => .returned true inst
  | data :: rest, inst =>
      match data.name with
      | none => .returned false inst
      | some name =>
          match members.lookup name with
          | none => setFields members rest inst
          | some value =>
              match jsonValueToMeta data.type value with
              | .set v => setFields members rest (Function.update inst name v)
              | .rejected => .returned false inst
              | .threw => .threw inst

/-- `meta_component_from_json(type, instance, json)`. -/
def metaComponentFromJson (readJson : String → Option Json) (type : MetaType) (inst : Instance)
    (json : String) : FromJson :=
  match type with
  | none => .returned false inst
  | some data =>
      match readJson json with
      | some (.object members) => setFields members data inst
      | _ => .returned false inst

/-! ## What is expected of it -/

/-- A type reflected field by field: every field has a name and no two share one. -/
structure ReflectedType where
  fields : List (String × FieldType)
  nodup : (fields.map Prod.fst).Nodup

/-- What `entt::resolve` gives for it. -/
def ReflectedType.toMeta (type : ReflectedType) : MetaType :=
  some (type.fields.map fun f ↦ ⟨some f.1, f.2⟩)

/-- The value is of the field's kind, and in range for an `int` or a `float`. -/
def Matches : FieldType → Json → Prop
  | .int, .number x => intMin ≤ x.val ∧ x.val ≤ intMax
  | .float, .number x => -floatMax ≤ x.val ∧ x.val ≤ floatMax
  | .double, .number _ | .bool, .bool _ => True
  | _, _ => False

/-- The value is of another kind than the field's. -/
def WrongKind : FieldType → Json → Prop
  | .int, .number _ | .float, .number _ | .double, .number _ | .bool, .bool _ => False
  | .other, _ => False
  | _, _ => True

/-- What a matching value is decoded to. -/
def decode : FieldType → Json → FieldValue
  | .int, .number x => .int x.val.castInt
  | .float, .number x => .float x.val.castSingle
  | .double, .number x => .double x.val
  | .bool, .bool b => .bool b
  | _, _ => .other

/-- The document is an object, and each field it mentions has a matching value. -/
def Accepted (fields : List (String × FieldType)) (parsed : Option Json) : Prop :=
  ∃ members, parsed = some (.object members) ∧
    ∀ f ∈ fields, ∀ v, members.lookup f.1 = some v → Matches f.2 v

/-- The instance with the fields the document mentions decoded from it. -/
def Updated (fields : List (String × FieldType)) (members : List (String × Json))
    (inst inst' : Instance) : Prop :=
  (∀ f ∈ fields, ∀ v, members.lookup f.1 = some v → inst' f.1 = decode f.2 v) ∧
    ∀ name, (∀ f ∈ fields, f.1 = name → members.lookup name = none) → inst' name = inst name

/-- The contract of `meta_component_from_json`: it returns, returns `true` on the
accepted documents and no others, and then has updated the instance. -/
def MeetsContract (fields : List (String × FieldType)) (parsed : Option Json) (inst : Instance) :
    FromJson → Prop
  | .threw _ => False
  | .returned ok inst' =>
      (ok = true ↔ Accepted fields parsed) ∧
        (ok = true → ∃ members, parsed = some (.object members) ∧
          Updated fields members inst inst')

/-- Reading the fields in the order the type enumerates them, a value of the wrong
kind is met, and every value before it matched. -/
def WrongKindFirst (fields : List (String × FieldType)) (members : List (String × Json)) : Prop :=
  ∃ before name type after value, fields = before ++ (name, type) :: after ∧
    members.lookup name = some value ∧ WrongKind type value ∧
      ∀ f ∈ before, ∀ v, members.lookup f.1 = some v → Matches f.2 v

/-! ## What one field does -/

theorem isNaN_bounds : intMin.isNaN = false ∧ intMax.isNaN = false ∧
    (-floatMax).isNaN = false ∧ floatMax.isNaN = false := by decide

/-- The range checks, as written with `<` and `>`, test the range. -/
theorem in_range_iff (x : JsonNumber) {lo hi : Float} (hlo : lo.isNaN = false)
    (hhi : hi.isNaN = false) : ¬ (x.val < lo ∨ x.val > hi) ↔ lo ≤ x.val ∧ x.val ≤ hi := by
  rw [not_or, Float.not_lt_iff x.notNaN hlo]
  exact and_congr_right fun _ ↦ Float.not_lt_iff hhi x.notNaN

/-- A matching value is decoded. -/
theorem jsonValueToMeta_of_matches {t : FieldType} {v : Json} (h : Matches t v) :
    jsonValueToMeta t v = .set (decode t v) := by
  obtain ⟨h₁, h₂, h₃, h₄⟩ := isNaN_bounds
  cases t with
  | int =>
      cases v with
      | number x => exact if_neg ((in_range_iff x h₁ h₂).mpr h)
      | null | bool _ | string _ | array _ | object _ => exact h.elim
  | float =>
      cases v with
      | number x => exact if_neg ((in_range_iff x h₃ h₄).mpr h)
      | null | bool _ | string _ | array _ | object _ => exact h.elim
  | bool =>
      cases v with
      | bool b => rfl
      | null | number _ | string _ | array _ | object _ => exact h.elim
  | double =>
      cases v with
      | number x => rfl
      | null | bool _ | string _ | array _ | object _ => exact h.elim
  | other => cases v <;> exact h.elim

/-- A value of the wrong kind throws. -/
theorem jsonValueToMeta_of_wrongKind {t : FieldType} {v : Json} (h : WrongKind t v) :
    jsonValueToMeta t v = .threw := by
  cases t <;> cases v <;> first | rfl | exact h.elim

/-- What neither matches nor is of the wrong kind is rejected. -/
theorem jsonValueToMeta_of_neither {t : FieldType} {v : Json} (hm : ¬ Matches t v)
    (hw : ¬ WrongKind t v) : jsonValueToMeta t v = .rejected := by
  obtain ⟨h₁, h₂, h₃, h₄⟩ := isNaN_bounds
  cases t with
  | int =>
      cases v with
      | number x => exact if_pos (not_not.mp fun h ↦ hm ((in_range_iff x h₁ h₂).mp h))
      | null | bool _ | string _ | array _ | object _ => exact absurd trivial hw
  | float =>
      cases v with
      | number x => exact if_pos (not_not.mp fun h ↦ hm ((in_range_iff x h₃ h₄).mp h))
      | null | bool _ | string _ | array _ | object _ => exact absurd trivial hw
  | bool =>
      cases v with
      | bool b => exact absurd trivial hm
      | null | number _ | string _ | array _ | object _ => exact absurd trivial hw
  | double =>
      cases v with
      | number x => exact absurd trivial hm
      | null | bool _ | string _ | array _ | object _ => exact absurd trivial hw
  | other => rfl

/-! ## What the loop does -/

/-- The fields as the loop sees them. -/
def fieldData (fields : List (String × FieldType)) : List MetaData :=
  fields.map fun f ↦ ⟨some f.1, f.2⟩

variable {members : List (String × Json)} {fields : List (String × FieldType)}

/-- The instance the loop has built when it has passed `before`. -/
def passed (members : List (String × Json)) : List (String × FieldType) → Instance → Instance
  | [], inst => inst
  | f :: rest, inst =>
      match members.lookup f.1 with
      | none => passed members rest inst
      | some v => passed members rest (Function.update inst f.1 (decode f.2 v))

/-- The loop passes over fields whose values match. -/
theorem setFields_append {before : List (String × FieldType)} (after : List MetaData)
    (hb : ∀ f ∈ before, ∀ v, members.lookup f.1 = some v → Matches f.2 v) (inst : Instance) :
    setFields members (fieldData before ++ after) inst =
      setFields members after (passed members before inst) := by
  induction before generalizing inst with
  | nil => rfl
  | cons f before ih =>
      have ih := ih fun g hg ↦ hb g (List.mem_cons_of_mem _ hg)
      simp only [fieldData, List.map_cons, List.cons_append, setFields, passed]
      cases hl : members.lookup f.1 with
      | none => exact ih inst
      | some v =>
          simp only [jsonValueToMeta_of_matches (hb f List.mem_cons_self v hl)]
          exact ih _

/-- A name that is not among the fields passed keeps its value. -/
theorem passed_of_not_mem {name : String}
    (h : ∀ f ∈ fields, f.1 = name → members.lookup name = none) (inst : Instance) :
    passed members fields inst name = inst name := by
  induction fields generalizing inst with
  | nil => rfl
  | cons f fields ih =>
      have ih := ih fun g hg ↦ h g (List.mem_cons_of_mem _ hg)
      rw [passed]
      cases hl : members.lookup f.1 with
      | none => exact ih inst
      | some v =>
          refine (ih _).trans (Function.update_of_ne ?_ ..)
          rintro rfl
          rw [h f List.mem_cons_self rfl] at hl
          cases hl

/-- Passing all the fields updates the instance. -/
theorem updated_passed (hnd : (fields.map Prod.fst).Nodup) (inst : Instance) :
    Updated fields members inst (passed members fields inst) := by
  refine ⟨?_, fun name h ↦ passed_of_not_mem h inst⟩
  induction fields generalizing inst with
  | nil => exact nofun
  | cons f fields ih =>
      rw [List.map_cons, List.nodup_cons] at hnd
      obtain ⟨hf, hnd⟩ := hnd
      intro g hg v hv
      rw [passed]
      rcases List.mem_cons.mp hg with rfl | hg
      · simp only [hv]
        refine (passed_of_not_mem (fun g' hg' he ↦ ?_) _).trans (Function.update_self ..)
        exact absurd (he ▸ List.mem_map_of_mem hg') hf
      · cases members.lookup f.1 with
        | none => exact ih hnd inst g hg v hv
        | some w => exact ih hnd _ g hg v hv

/-- Either every value matches, or there is a first that does not. -/
theorem all_match_or_first (fields : List (String × FieldType)) (members : List (String × Json)) :
    (∀ f ∈ fields, ∀ v, members.lookup f.1 = some v → Matches f.2 v) ∨
      ∃ before name type after value, fields = before ++ (name, type) :: after ∧
        members.lookup name = some value ∧ ¬ Matches type value ∧
          ∀ f ∈ before, ∀ v, members.lookup f.1 = some v → Matches f.2 v := by
  induction fields with
  | nil => exact .inl nofun
  | cons f fields ih =>
      by_cases hf : ∀ v, members.lookup f.1 = some v → Matches f.2 v
      · rcases ih with hall | ⟨before, name, type, after, value, rfl, hl, hm, hb⟩
        · exact .inl (List.forall_mem_cons.mpr ⟨hf, hall⟩)
        · exact .inr ⟨f :: before, name, type, after, value, rfl, hl, hm,
            List.forall_mem_cons.mpr ⟨hf, hb⟩⟩
      · push Not at hf
        obtain ⟨v, hl, hm⟩ := hf
        exact .inr ⟨[], f.1, f.2, fields, v, rfl, hl, hm, nofun⟩

/-- What the loop does at the first value that does not match. -/
theorem setFields_first {before : List (String × FieldType)} {name : String}
    {type : FieldType} {value : Json} (hl : members.lookup name = some value)
    (hm : ¬ Matches type value)
    (hb : ∀ f ∈ before, ∀ v, members.lookup f.1 = some v → Matches f.2 v)
    (after : List (String × FieldType)) (inst : Instance) :
    ∃ inst', (WrongKind type value ∧
        setFields members (fieldData (before ++ (name, type) :: after)) inst = .threw inst') ∨
      (¬ WrongKind type value ∧
        setFields members (fieldData (before ++ (name, type) :: after)) inst =
          .returned false inst') := by
  have h := setFields_append (fieldData ((name, type) :: after)) hb inst
  rw [fieldData, List.map_append]
  refine ⟨passed members before inst, ?_⟩
  by_cases hw : WrongKind type value
  · refine .inl ⟨hw, h.trans ?_⟩
    simp only [fieldData, List.map_cons, setFields, hl, jsonValueToMeta_of_wrongKind hw]
  · refine .inr ⟨hw, h.trans ?_⟩
    simp only [fieldData, List.map_cons, setFields, hl, jsonValueToMeta_of_neither hm hw]

/-- Where the loop returns `true`, every value has matched. -/
theorem matches_of_returned {inst inst' : Instance}
    (h : setFields members (fieldData fields) inst = .returned true inst') :
    ∀ f ∈ fields, ∀ v, members.lookup f.1 = some v → Matches f.2 v := by
  rcases all_match_or_first fields members with
    hall | ⟨before, name, type, after, value, rfl, hl, hm, hb⟩
  · exact hall
  · obtain ⟨_, ⟨-, hset⟩ | ⟨-, hset⟩⟩ := setFields_first hl hm hb after inst
    · cases hset.symm.trans h
    · cases hset.symm.trans h

theorem not_matches_of_wrongKind {t : FieldType} {v : Json} (h : WrongKind t v) :
    ¬ Matches t v := by
  cases t <;> cases v <;> first | exact h.elim | exact id

/-- The first value that does not match decides whether one of the wrong kind comes
first. -/
theorem wrongKindFirst_iff {before : List (String × FieldType)} {name : String}
    {type : FieldType} {value : Json} (hl : members.lookup name = some value)
    (hm : ¬ Matches type value)
    (hb : ∀ f ∈ before, ∀ v, members.lookup f.1 = some v → Matches f.2 v)
    (after : List (String × FieldType)) :
    WrongKindFirst (before ++ (name, type) :: after) members ↔ WrongKind type value := by
  refine ⟨?_, fun hw ↦ ⟨before, name, type, after, value, rfl, hl, hw, hb⟩⟩
  rintro ⟨before', name', type', after', value', he, hl', hw', hb'⟩
  have hm' := not_matches_of_wrongKind hw'
  -- neither position is before the other, for a value before it would match
  rcases List.append_eq_append_iff.mp he with ⟨l, rfl, hl₂⟩ | ⟨l, rfl, hl₂⟩
  · cases l with
    | nil =>
        obtain ⟨hx, -⟩ := List.cons.inj hl₂
        obtain ⟨rfl, rfl⟩ := Prod.mk.inj hx
        obtain rfl := Option.some.inj (hl.symm.trans hl')
        exact hw'
    | cons f l =>
        obtain ⟨rfl, -⟩ := List.cons.inj hl₂
        exact absurd (hb' (name, type) (by simp) value hl) hm
  · cases l with
    | nil =>
        obtain ⟨hx, -⟩ := List.cons.inj hl₂
        obtain ⟨rfl, rfl⟩ := Prod.mk.inj hx
        obtain rfl := Option.some.inj (hl.symm.trans hl')
        exact hw'
    | cons f l =>
        obtain ⟨rfl, -⟩ := List.cons.inj hl₂
        exact absurd (hb (name', type') (by simp) value' hl') hm'

/-- `meta_component_from_json` meets its contract on exactly the documents in which
no value of the wrong kind comes first. -/
theorem meetsContract_iff (type : ReflectedType) (readJson : String → Option Json) (json : String)
    (inst : Instance) :
    MeetsContract type.fields (readJson json) inst
        (metaComponentFromJson readJson type.toMeta inst json) ↔
      ∀ members, readJson json = some (.object members) → ¬ WrongKindFirst type.fields members := by
  have hnot : (∀ members, readJson json ≠ some (.object members)) →
      metaComponentFromJson readJson type.toMeta inst json = .returned false inst := by
    intro hn
    unfold metaComponentFromJson
    split
    · rfl
    · split
      · exact absurd ‹_› (hn _)
      · rfl
  by_cases hobj : ∃ members, readJson json = some (.object members)
  · obtain ⟨members, hobj⟩ := hobj
    have hloop : metaComponentFromJson readJson type.toMeta inst json =
        setFields members (fieldData type.fields) inst := by
      simp only [metaComponentFromJson, ReflectedType.toMeta, hobj, fieldData]
    rw [hloop, hobj]
    rcases all_match_or_first type.fields members with
      hall | ⟨before, name, t, after, value, hf, hl, hm, hb⟩
    · have hset := setFields_append [] hall inst
      rw [List.append_nil, setFields] at hset
      rw [hset]
      refine iff_of_true ⟨iff_of_true rfl ⟨members, rfl, hall⟩, fun _ ↦ ?_⟩ ?_
      · exact ⟨members, rfl, updated_passed type.nodup inst⟩
      · rintro _ ⟨⟩ ⟨before, name, t, after, value, hf, hl, hw, -⟩
        exact not_matches_of_wrongKind hw (hall (name, t) (by rw [hf]; simp) value hl)
    · have hiff := wrongKindFirst_iff hl hm hb after
      obtain ⟨inst', ⟨hw, hset⟩ | ⟨hw, hset⟩⟩ := setFields_first hl hm hb after inst
      · rw [← hf] at hset hiff
        rw [hset]
        exact iff_of_false id fun h ↦ h members rfl (hiff.mpr hw)
      · rw [← hf] at hset hiff
        rw [hset]
        refine iff_of_true ⟨iff_of_false nofun ?_, nofun⟩ ?_
        · rintro ⟨_, ⟨⟩, hall⟩
          exact hm (hall (name, t) (by rw [hf]; simp) value hl)
        · rintro _ ⟨⟩ h
          exact hw (hiff.mp h)
  · have hn : ∀ members, readJson json ≠ some (.object members) := fun m h ↦ hobj ⟨m, h⟩
    rw [hnot hn]
    refine iff_of_true ⟨iff_of_false nofun ?_, nofun⟩ fun m h ↦ absurd h (hn m)
    rintro ⟨m, h, -⟩
    exact hn m h

end Konative.Reflect
