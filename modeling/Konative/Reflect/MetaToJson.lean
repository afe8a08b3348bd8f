import Konative.Reflect.MetaRegistry
import Konative.Lib.WholeDouble
import Konative.Lib.FlatJson
import Mathlib.Data.List.Forall2
import Mathlib.Data.List.Nodup
import Mathlib.Tactic.Choose

/-!
# Writing a reflected component to JSON

`meta_component_to_json` walks over the fields the component type reflects and writes
an object with a member for each.  Single keys and values are written by Glaze, which
is a parameter.  It is assumed of it that a text it writes for one is read as that
one, alone and in an object (`Glaze.Lawful`).  An `int` is read as the double of the
same value; `castInt_ofInt32` is what brings it back.

The writer and the reader dispatch on the type of a field independently, and agree, with
one exception.  The reader rejects a double outside the range of `float` before it
rounds it, and the shortest text of the greatest `float` denotes a double above it.  The
components that go there and back are those with no such field (`roundTrip_iff`).
-/

namespace Konative.Reflect

open FlatJson

/-! ## The writer -/

/-- What is used of Glaze: its writers, with `none` for an error, and its reader. -/
structure Glaze where
  writeInt : Int32 → Option String
  writeFloat : Float32 → Option String
  writeBool : Bool → Option String
  writeDouble : Float → Option String
  writeString : String → Option String
  readJson : String → Option Json

/-- The type of a value. -/
def FieldValue.type : FieldValue → FieldType
  | .int _ => .int
  | .float _ => .float
  | .bool _ => .bool
  | .double _ => .double
  | .other => .other

/-- `meta_value_to_json`; `none` is `false`. -/
def metaValueToJson (g : Glaze) : FieldValue → Option String
  | .int n => g.writeInt n
  | .float x => g.writeFloat x
  | .bool b => g.writeBool b
  | .double x => g.writeDouble x
  | .other => none

/-- The loop over `type.data()`. -/
def writeFields (g : Glaze) (inst : Instance) : List MetaData → Bool → String → String
  | [], _, json => json ++ "\x7d"
  | data :: rest, first, json =>
      match data.name with
      | none => ""
      | some name =>
          match metaValueToJson g (inst name) with
          | none => ""
          | some value =>
              match g.writeString name with
              | none => ""
              | some key =>
                  writeFields g inst rest false
                    ((if first then json else json ++ ",") ++ key ++ ":" ++ value)

/-- `meta_component_to_json(type, instance)`. -/
def metaComponentToJson (g : Glaze) (type : MetaType) (inst : Instance) : String :=
  match type with
  | none => ""
  | some data => writeFields g inst data true "\x7b"

/-! ## What Glaze is assumed to do -/

/-- Which texts are a key, and which a value. -/
structure JsonTexts where
  key : String → String → Prop
  value : String → Json → Prop

/-- The number an `int` is read as. -/
def JsonNumber.ofInt32 (n : Int32) : JsonNumber := ⟨.ofInt32 n, Float.isNaN_ofInt32 n⟩

/-- What is written is the text of what was to be written, and an object is read member
by member. -/
structure Glaze.Lawful (g : Glaze) (texts : JsonTexts) : Prop where
  writeString : ∀ s, ∃ t, g.writeString s = some t ∧ texts.key t s
  writeInt : ∀ n, ∃ t, g.writeInt n = some t ∧ texts.value t (.number (.ofInt32 n))
  writeBool : ∀ b, ∃ t, g.writeBool b = some t ∧ texts.value t (.bool b)
  readObject : ∀ (ms : List (String × String)) (members : List (String × Json)),
    List.Forall₂ (fun m x ↦ texts.key m.1 x.1 ∧ texts.value m.2 x.2) ms members →
    (members.map Prod.fst).Nodup →
    ∃ parsed, g.readJson (objectText ms) = some (.object parsed) ∧
      ∀ name, parsed.lookup name = members.lookup name

/-- A `float` is read as a number that rounds to it, and a `double` as itself. -/
def Glaze.WritesNumber (g : Glaze) (texts : JsonTexts) : FieldValue → Prop
  | .float x => ∃ t y, g.writeFloat x = some t ∧ texts.value t (.number y) ∧ y.val.castSingle = x
  | .double x => ∃ t y, g.writeDouble x = some t ∧ texts.value t (.number y) ∧ y.val = x
  | .int _ | .bool _ | .other => True

/-- The number the text of a `float` is read as is in the range of `float`. -/
def Glaze.ReadsInRange (g : Glaze) (texts : JsonTexts) : FieldValue → Prop
  | .float x => ∀ t y, g.writeFloat x = some t → texts.value t (.number y) →
      -floatMax ≤ y.val ∧ y.val ≤ floatMax
  | .int _ | .bool _ | .double _ | .other => True

/-- The value is a number, and then neither infinite nor NaN, or a `bool`. -/
def FieldValue.Finite : FieldValue → Prop
  | .float x => x.isFinite = true
  | .double x => x.isFinite = true
  | .int _ | .bool _ => True
  | .other => False

/-- Every field has a value of its type. -/
def WellTyped (fields : List (String × FieldType)) (inst : Instance) : Prop :=
  ∀ f ∈ fields, (inst f.1).type = f.2

variable {g : Glaze} {texts : JsonTexts} {fields : List (String × FieldType)} {x y : Instance}

/-! ## One field -/

theorem intMin_eq : intMin = .ofInt32 Int32.minValue := rfl

theorem intMax_eq : intMax = .ofInt32 Int32.maxValue := rfl

/-- A text is read as one value only. -/
theorem Glaze.Lawful.value_unique (laws : g.Lawful texts) {t : String} {v v' : Json}
    (hv : texts.value t v) (hv' : texts.value t v') : v = v' := by
  obtain ⟨key, -, hkey⟩ := laws.writeString ""
  have hread : ∀ v, texts.value t v → ∃ parsed,
      g.readJson (objectText [(key, t)]) = some (.object parsed) ∧ parsed.lookup "" = some v := by
    intro v hv
    obtain ⟨parsed, hparsed, hlookup⟩ := laws.readObject [(key, t)] [("", v)]
      (.cons ⟨hkey, hv⟩ .nil) (List.nodup_singleton _)
    exact ⟨parsed, hparsed, (hlookup "").trans List.lookup_cons_self⟩
  obtain ⟨parsed, hparsed, hlookup⟩ := hread v hv
  obtain ⟨parsed', hparsed', hlookup'⟩ := hread v' hv'
  obtain rfl := Json.object.inj (Option.some.inj (hparsed.symm.trans hparsed'))
  exact Option.some.inj (hlookup.symm.trans hlookup')

/-- A value is written as the text of a value that decodes to it.  The reader takes that
value unless it is the number of a `float` and out of range. -/
theorem metaValueToJson_eq_some (laws : g.Lawful texts) {v : FieldValue} (hv : v.Finite)
    (hnum : g.WritesNumber texts v) :
    ∃ t j, metaValueToJson g v = some t ∧ texts.value t j ∧ decode v.type j = v ∧
      (Matches v.type j ↔ g.ReadsInRange texts v) := by
  cases v with
  | int n =>
      obtain ⟨t, ht, hj⟩ := laws.writeInt n
      refine ⟨t, _, ht, hj, ?_, iff_of_true ⟨?_, ?_⟩ trivial⟩
      · exact congrArg FieldValue.int (Float.castInt_ofInt32 n)
      · exact intMin_eq ▸ Float.ofInt32_le n.minValue_le
      · exact intMax_eq ▸ Float.ofInt32_le n.le_maxValue
  | float x =>
      obtain ⟨t, y, ht, hj, rfl⟩ := hnum
      refine ⟨t, _, ht, hj, rfl, fun hrange t' y' ht' hj' ↦ ?_, fun h ↦ h t y ht hj⟩
      obtain rfl := Option.some.inj (ht.symm.trans ht')
      obtain rfl := Json.number.inj (laws.value_unique hj hj')
      exact hrange
  | bool b =>
      obtain ⟨t, ht, hj⟩ := laws.writeBool b
      exact ⟨t, _, ht, hj, rfl, .rfl⟩
  | double x =>
      obtain ⟨t, y, ht, hj, rfl⟩ := hnum
      exact ⟨t, _, ht, hj, rfl, .rfl⟩
  | other => exact hv.elim

/-! ## The loop -/

/-- The key and the value of a field are written, and what they are read as. -/
structure WritesField (g : Glaze) (texts : JsonTexts) (x : Instance) (f : String × FieldType)
    (m : String × String) (member : String × Json) : Prop where
  key : g.writeString f.1 = some m.1
  value : metaValueToJson g (x f.1) = some m.2
  keyText : texts.key m.1 member.1
  valueText : texts.value m.2 member.2
  name : member.1 = f.1
  decodes : decode f.2 member.2 = x f.1
  matches_iff : Matches f.2 member.2 ↔ g.ReadsInRange texts (x f.1)

theorem exists_writesField (laws : g.Lawful texts) {f : String × FieldType}
    (htype : (x f.1).type = f.2) (hfin : (x f.1).Finite) (hnum : g.WritesNumber texts (x f.1)) :
    ∃ m member, WritesField g texts x f m member := by
  obtain ⟨key, hkey, hkeyText⟩ := laws.writeString f.1
  obtain ⟨value, j, hvalue, hvalueText, hdecode, hmatch⟩ := metaValueToJson_eq_some laws hfin hnum
  rw [htype] at hdecode hmatch
  exact ⟨(key, value), (f.1, j), hkey, hvalue, hkeyText, hvalueText, rfl, hdecode, hmatch⟩

/-- With all fields written the loop has written an object. -/
theorem writeFields_eq {ms : List (String × String)}
    (h : List.Forall₂ (fun f m ↦ g.writeString f.1 = some m.1 ∧
      metaValueToJson g (x f.1) = some m.2) fields ms) (first : Bool) (json : String) :
    writeFields g x (fieldData fields) first json =
      json ++ (if first ∨ ms = [] then "" else ",") ++ membersText ms ++ "\x7d" := by
  induction h generalizing first json with
  | nil => simp [fieldData, writeFields, membersText]
  | @cons f m fields ms hf _ ih =>
      rw [fieldData, List.map_cons, writeFields]
      simp only [hf.1, hf.2]
      refine (ih false _).trans ?_
      rw [membersText_cons, member]
      by_cases hms : ms = []
      · subst hms
        cases first <;> simp [membersText, String.append_assoc]
      · cases first <;> simp [hms, String.append_assoc]

/-- With a field that cannot be written, nothing is. -/
theorem writeFields_eq_empty (h : ∃ f ∈ fields, metaValueToJson g (x f.1) = none) (first : Bool)
    (json : String) : writeFields g x (fieldData fields) first json = "" := by
  induction fields generalizing first json with
  | nil =>
      obtain ⟨f, hf, -⟩ := h
      cases hf
  | cons f fields ih =>
      rw [fieldData, List.map_cons, writeFields]
      cases hvalue : metaValueToJson g (x f.1) with
      | none => simp only [hvalue]
      | some value =>
          cases hkey : g.writeString f.1 with
          | none => simp only [hvalue, hkey]
          | some key =>
              simp only [hvalue, hkey]
              refine ih ?_ _ _
              obtain ⟨f', hf', hnone⟩ := h
              rcases List.mem_cons.mp hf' with rfl | hf'
              · rw [hvalue] at hnone
                cases hnone
              · exact ⟨f', hf', hnone⟩

/-! ## The fields in any order -/

section Registration

universe v

variable {Id : Type v} [DecidableEq Id] (hashName : String → Id)

/-- A field whose id is new is registered with its name and type, after the others. -/
theorem data_prop_addData {n : MetaNode Id} {id : Id} (hid : id ∉ n.data.map Prod.fst)
    (name : String) (type : FieldType) :
    ((n.addData id type).prop id name).data = n.data ++ [(id, ⟨some name, type⟩)] := by
  have hkeep : n.data.map (fun d ↦ if d.1 = id then (id, { d.2 with name := some name }) else d) =
      n.data := by
    refine (List.map_congr_left fun d hd ↦ if_neg ?_).trans (List.map_id _)
    rintro rfl
    exact hid (List.mem_map_of_mem hd)
  simp only [MetaNode.prop, MetaNode.addData, if_neg hid, List.map_append, hkeep]
  simp

theorem data_reflectFieldsAuto (hnd : (fields.map fun f ↦ hashName f.1).Nodup) (n : MetaNode Id)
    (hnew : ∀ f ∈ fields, hashName f.1 ∉ n.data.map Prod.fst) :
    (n.reflectFieldsAuto hashName fields).data =
      n.data ++ fields.map fun f ↦ (hashName f.1, ⟨some f.1, f.2⟩) := by
  induction fields generalizing n with
  | nil => simp [MetaNode.reflectFieldsAuto]
  | cons f fields ih =>
      have hf := data_prop_addData (hnew f List.mem_cons_self) f.1 f.2
      rw [List.map_cons, List.nodup_cons] at hnd
      refine (ih hnd.2 _ fun f' hf' ↦ ?_).trans ?_
      · rw [hf, List.map_append, List.mem_append, not_or]
        refine ⟨hnew f' (List.mem_cons_of_mem _ hf'), fun h ↦ hnd.1 ?_⟩
        have hid : hashName f'.1 = hashName f.1 := List.mem_singleton.mp h
        exact hid ▸ List.mem_map_of_mem (f := fun f ↦ hashName f.1) hf'
      · rw [hf, List.append_assoc]
        rfl

/-- However the data of a type are enumerated, they are the fields in some order. -/
theorem exists_order {id : Id} (hnd : (fields.map fun f ↦ hashName f.1).Nodup)
    {data : List MetaData} (hdata : data.Perm
      (((⟨id, []⟩ : MetaNode Id).reflectFieldsAuto hashName fields).data.map Prod.snd)) :
    ∃ order : List (String × FieldType), order.Perm fields ∧ data = fieldData order := by
  have hregistered := data_reflectFieldsAuto hashName hnd (⟨id, []⟩ : MetaNode Id)
    fun f _ hf ↦ nomatch hf
  rw [hregistered, List.nil_append, List.map_map] at hdata
  have hinv : ∀ d ∈ data, (⟨some (d.name.getD ""), d.type⟩ : MetaData) = d := by
    intro d hd
    obtain ⟨f, -, rfl⟩ := List.mem_map.mp (hdata.mem_iff.mp hd)
    rfl
  refine ⟨data.map fun d ↦ (d.name.getD "", d.type), ?_, ?_⟩
  · have hperm := hdata.map fun d ↦ (d.name.getD "", d.type)
    rw [List.map_map] at hperm
    exact hperm.trans (List.Perm.of_eq (List.map_id fields))
  · rw [fieldData, List.map_map]
    exact ((List.map_congr_left hinv).trans (List.map_id data)).symm

end Registration

/-! ## Round trip -/

/-- The text is an object with a member for each field and no others. -/
structure WritesObject (g : Glaze) (texts : JsonTexts) (data : List MetaData)
    (fields : List (String × FieldType)) (text : String) : Prop where
  nonempty : text ≠ ""
  /-- One member for each data, under its name. -/
  members : ∃ ms : List (String × String), text = objectText ms ∧
    List.Forall₂ (fun d m ↦ ∃ name, d.name = some name ∧ texts.key m.1 name) data ms
  object : ∃ parsed, g.readJson text = some (.object parsed) ∧
    ∀ name, (parsed.lookup name).isSome ↔ name ∈ fields.map Prod.fst

/-- And reading it into `y` gives every field the value it has in `x`. -/
structure RoundTrips (g : Glaze) (texts : JsonTexts) (data : List MetaData)
    (fields : List (String × FieldType)) (x y : Instance) (text : String) : Prop
    extends WritesObject g texts data fields text where
  reads : ∃ y', metaComponentFromJson g.readJson (some data) y text = .returned true y' ∧
    ∀ f ∈ fields, y' f.1 = x f.1

theorem isSome_lookup_iff {members : List (String × Json)} {name : String} :
    (members.lookup name).isSome ↔ name ∈ members.map Prod.fst := by
  induction members with
  | nil => simp
  | cons m members ih =>
      rw [List.lookup_cons, List.map_cons, List.mem_cons]
      by_cases hm : name = m.1
      · simp [hm]
      · rw [beq_false_of_ne hm, or_iff_right hm]
        exact ih

theorem lookup_eq_some {members : List (String × Json)} {name : String} {v : Json}
    (h : members.lookup name = some v) : (name, v) ∈ members := by
  induction members with
  | nil => cases h
  | cons m members ih =>
      rw [List.lookup_cons] at h
      by_cases hm : name = m.1
      · subst hm
        rw [beq_self_eq_true] at h
        obtain rfl := Option.some.inj h
        exact List.mem_cons_self
      · rw [beq_false_of_ne hm] at h
        exact List.mem_cons_of_mem _ (ih h)

/-- The writer writes the text of an object, with what it writes for each field as a
member. -/
theorem exists_written (laws : g.Lawful texts) (hx : WellTyped fields x)
    (hfin : ∀ f ∈ fields, (x f.1).Finite) (hnum : ∀ f ∈ fields, g.WritesNumber texts (x f.1)) :
    ∃ (m : String × FieldType → String × String) (member : String × FieldType → String × Json),
      (∀ f ∈ fields, WritesField g texts x f (m f) (member f)) ∧
      metaComponentToJson g (some (fieldData fields)) x = objectText (fields.map m) ∧
      List.Forall₂ (fun m x ↦ texts.key m.1 x.1 ∧ texts.value m.2 x.2) (fields.map m)
        (fields.map member) := by
  have hfield : ∀ f ∈ fields, ∃ m member, WritesField g texts x f m member := fun f hf ↦
    exists_writesField laws (hx f hf) (hfin f hf) (hnum f hf)
  have : Nonempty Json := ⟨.null⟩
  choose! m member hw using hfield
  have hall : List.Forall₂ (fun f m ↦ g.writeString f.1 = some m.1 ∧
      metaValueToJson g (x f.1) = some m.2) fields (fields.map m) := by
    rw [List.forall₂_map_right_iff, List.forall₂_same]
    exact fun f hf ↦ ⟨(hw f hf).key, (hw f hf).value⟩
  refine ⟨m, member, hw, ?_, ?_⟩
  · refine (writeFields_eq hall true _).trans ?_
    rw [if_pos (.inl rfl), String.append_empty]
    rfl
  · rw [List.forall₂_map_left_iff, List.forall₂_map_right_iff, List.forall₂_same]
    exact fun f hf ↦ ⟨(hw f hf).keyText, (hw f hf).valueText⟩

/-- What has been written is read as an object with those members. -/
theorem exists_parsed (laws : g.Lawful texts) (hnd : (fields.map Prod.fst).Nodup)
    {m : String × FieldType → String × String} {member : String × FieldType → String × Json}
    (hw : ∀ f ∈ fields, WritesField g texts x f (m f) (member f))
    (htexts : List.Forall₂ (fun m x ↦ texts.key m.1 x.1 ∧ texts.value m.2 x.2) (fields.map m)
      (fields.map member)) :
    ∃ parsed, g.readJson (objectText (fields.map m)) = some (.object parsed) ∧
      (∀ name, (parsed.lookup name).isSome ↔ name ∈ fields.map Prod.fst) ∧
      ∀ f ∈ fields, parsed.lookup f.1 = some (member f).2 := by
  have hnames : (fields.map member).map Prod.fst = fields.map Prod.fst := by
    rw [List.map_map]
    exact List.map_congr_left fun f hf ↦ (hw f hf).name
  obtain ⟨parsed, hparsed, hlookup⟩ := laws.readObject _ _ htexts (hnames ▸ hnd)
  have hsome : ∀ name, (parsed.lookup name).isSome ↔ name ∈ fields.map Prod.fst := by
    intro name
    rw [hlookup, isSome_lookup_iff, hnames]
  refine ⟨parsed, hparsed, hsome, fun f hf ↦ ?_⟩
  obtain ⟨v, hv⟩ := Option.isSome_iff_exists.mp ((hsome f.1).mpr (List.mem_map_of_mem hf))
  -- what is found under the name of a field was written for that field
  obtain ⟨f', hf', he⟩ := List.mem_map.mp (lookup_eq_some (hlookup f.1 ▸ hv))
  have hname : f'.1 = f.1 := by rw [← (hw f' hf').name, he]
  obtain rfl := List.inj_on_of_nodup_map hnd hf' hf hname
  rw [hv, he]

section Order

variable {order : List (String × FieldType)}

/-- What the writer writes of the fields, in the order they are enumerated in. -/
theorem writesObject_of_order (laws : g.Lawful texts) (hnd : (order.map Prod.fst).Nodup)
    (hx : WellTyped order x) (hfin : ∀ f ∈ order, (x f.1).Finite)
    (hnum : ∀ f ∈ order, g.WritesNumber texts (x f.1)) :
    WritesObject g texts (fieldData order) order
      (metaComponentToJson g (some (fieldData order)) x) := by
  obtain ⟨m, member, hw, htext, htexts⟩ := exists_written laws hx hfin hnum
  obtain ⟨parsed, hparsed, hsome, -⟩ := exists_parsed laws hnd hw htexts
  rw [htext]
  refine ⟨?_, ⟨order.map m, rfl, ?_⟩, ⟨parsed, hparsed, hsome⟩⟩
  · exact fun h ↦ by simpa [objectText] using congrArg String.toList h
  · rw [fieldData, List.forall₂_map_left_iff, List.forall₂_map_right_iff, List.forall₂_same]
    exact fun f hf ↦ ⟨f.1, rfl, (hw f hf).name ▸ (hw f hf).keyText⟩

/-- With every `float` read in range, the reader takes what is written. -/
theorem reads_of_inRange (laws : g.Lawful texts) (hnd : (order.map Prod.fst).Nodup)
    (hx : WellTyped order x) (hfin : ∀ f ∈ order, (x f.1).Finite)
    (hnum : ∀ f ∈ order, g.WritesNumber texts (x f.1))
    (hrange : ∀ f ∈ order, g.ReadsInRange texts (x f.1)) (y : Instance) :
    ∃ y', metaComponentFromJson g.readJson (some (fieldData order)) y
        (metaComponentToJson g (some (fieldData order)) x) = .returned true y' ∧
      ∀ f ∈ order, y' f.1 = x f.1 := by
  obtain ⟨m, member, hw, htext, htexts⟩ := exists_written laws hx hfin hnum
  obtain ⟨parsed, hparsed, -, hlookup⟩ := exists_parsed laws hnd hw htexts
  have hmatch : ∀ f ∈ order, ∀ v, parsed.lookup f.1 = some v → Matches f.2 v := by
    intro f hf v hv
    obtain rfl := Option.some.inj ((hlookup f hf).symm.trans hv)
    exact (hw f hf).matches_iff.mpr (hrange f hf)
  have hset := setFields_append [] hmatch y
  rw [List.append_nil, setFields] at hset
  refine ⟨passed parsed order y, ?_, fun f hf ↦ ?_⟩
  · rw [htext, metaComponentFromJson, hparsed]
    exact hset
  · rw [(updated_passed hnd y).1 f hf _ (hlookup f hf), (hw f hf).decodes]

/-- And it takes it only then. -/
theorem inRange_of_returned (laws : g.Lawful texts) (hnd : (order.map Prod.fst).Nodup)
    (hx : WellTyped order x) (hfin : ∀ f ∈ order, (x f.1).Finite)
    (hnum : ∀ f ∈ order, g.WritesNumber texts (x f.1)) {y y' : Instance}
    (h : metaComponentFromJson g.readJson (some (fieldData order)) y
      (metaComponentToJson g (some (fieldData order)) x) = .returned true y') :
    ∀ f ∈ order, g.ReadsInRange texts (x f.1) := by
  obtain ⟨m, member, hw, htext, htexts⟩ := exists_written laws hx hfin hnum
  obtain ⟨parsed, hparsed, -, hlookup⟩ := exists_parsed laws hnd hw htexts
  rw [htext, metaComponentFromJson, hparsed] at h
  intro f hf
  exact (hw f hf).matches_iff.mp (matches_of_returned h f hf _ (hlookup f hf))

end Order

/-- A component of `int`, `bool` and finite `float` and `double` fields is written as an
object, and goes through it unchanged exactly when no `float` is read out of range; one
with a field of another type is not written.  All of it whatever order its data are
enumerated in. -/
theorem roundTrip_iff {Id : Type*} [DecidableEq Id] (hashName : String → Id) (id : Id)
    (type : ReflectedType) (hhash : (type.fields.map fun f ↦ hashName f.1).Nodup)
    {data : List MetaData} (hdata : data.Perm
      (((⟨id, []⟩ : MetaNode Id).reflectFieldsAuto hashName type.fields).data.map Prod.snd))
    (g : Glaze) (x y : Instance) (hx : WellTyped type.fields x) :
    (∀ texts, g.Lawful texts → (∀ f ∈ type.fields, (x f.1).Finite) →
      (∀ f ∈ type.fields, g.WritesNumber texts (x f.1)) →
        WritesObject g texts data type.fields (metaComponentToJson g (some data) x) ∧
        (RoundTrips g texts data type.fields x y (metaComponentToJson g (some data) x) ↔
          ∀ f ∈ type.fields, g.ReadsInRange texts (x f.1))) ∧
    ((∃ f ∈ type.fields, f.2 = .other) → metaComponentToJson g (some data) x = "") := by
  obtain ⟨order, hperm, rfl⟩ := exists_order hashName hhash hdata
  have hmem : ∀ {f}, f ∈ order ↔ f ∈ type.fields := hperm.mem_iff
  constructor
  · intro texts laws hfin hnum
    have hnd : (order.map Prod.fst).Nodup := (hperm.map _).nodup_iff.mpr type.nodup
    have hx : WellTyped order x := fun f hf ↦ hx f (hmem.mp hf)
    have hfin : ∀ f ∈ order, (x f.1).Finite := fun f hf ↦ hfin f (hmem.mp hf)
    have hnum : ∀ f ∈ order, g.WritesNumber texts (x f.1) := fun f hf ↦ hnum f (hmem.mp hf)
    have hwrites : WritesObject g texts (fieldData order) type.fields
        (metaComponentToJson g (some (fieldData order)) x) := by
      obtain ⟨hne, hms, parsed, hparsed, hsome⟩ := writesObject_of_order laws hnd hx hfin hnum
      refine ⟨hne, hms, parsed, hparsed, fun name ↦ ?_⟩
      rw [hsome, (hperm.map _).mem_iff]
    refine ⟨hwrites, fun h f hf ↦ ?_, fun hrange ↦ ⟨hwrites, ?_⟩⟩
    · obtain ⟨y', hy', -⟩ := h.reads
      exact inRange_of_returned laws hnd hx hfin hnum hy' f (hmem.mpr hf)
    · obtain ⟨y', hy', heq⟩ := reads_of_inRange laws hnd hx hfin hnum
        (fun f hf ↦ hrange f (hmem.mp hf)) y
      exact ⟨y', hy', fun f hf ↦ heq f (hmem.mpr hf)⟩
  · rintro ⟨f, hf, hother⟩
    refine writeFields_eq_empty ⟨f, hmem.mpr hf, ?_⟩ true _
    have htype := hx f hf
    rw [hother] at htype
    cases hv : x f.1 with
    | other => rfl
    | int _ | float _ | bool _ | double _ => rw [hv] at htype; cases htype

/-! ## A small Glaze

Enough of it to see the assumptions met: it knows integers, `bool`s, one half and the
greatest `float`. -/

/-- The number `0.5`. -/
def oneHalf : JsonNumber := ⟨.ofBits 0x3FE0000000000000, rfl⟩

/-- The number `3.4028235E38`, which is above the greatest `float` and rounds to it. -/
def aboveFloatMax : JsonNumber := ⟨.ofBits 0x47EFFFFFE54DAFF8, rfl⟩

/-- Read a literal. -/
def readPlain (t : String) : Option Json :=
  if t = "true" then some (.bool true)
  else if t = "false" then some (.bool false)
  else if t = "0.5" then some (.number oneHalf)
  else if t = "3.4028235E38" then some (.number aboveFloatMax)
  else (readDecimal t).bind fun n ↦
    if -2147483648 ≤ n ∧ n ≤ 2147483647 then some (.number (.ofInt32 (.ofInt n))) else none

/-- Integers in decimal, and of the other numbers two, in the fewest digits. -/
def plainGlaze : Glaze where
  writeInt n := some (decimal n.toInt)
  writeFloat x :=
    if x.toBits = 0x3F000000 then some "0.5"
    else if x.toBits = 0x7F7FFFFF then some "3.4028235E38" else none
  writeBool b := some (if b then "true" else "false")
  writeDouble x := if x.toBits = 0x3FE0000000000000 then some "0.5" else none
  writeString s := some (quote s)
  readJson t := (read readPlain t).map .object

/-- Keys in quotes, and literals. -/
def plainTexts : JsonTexts := ⟨fun t s ↦ t = quote s, IsLiteral readPlain⟩

theorem decimal_ne {n : Int} {t : String} {c : Char} (hc : c ∈ t.toList)
    (h : ¬ (c = '-' ∨ c.isDigit = true)) : decimal n ≠ t := by
  rintro rfl
  exact h (mem_decimal hc)

theorem isLiteral_decimal (n : Int32) :
    IsLiteral readPlain (decimal n.toInt) (.number (.ofInt32 n)) := by
  refine ⟨fun c hc ↦ ?_, ?_⟩
  · rw [← Bool.not_eq_true]
    intro hd
    rcases of_decide_eq_true hd with rfl | rfl
    · exact absurd (mem_decimal hc) (by decide)
    · exact absurd (mem_decimal hc) (by decide)
  · have hlo := n.le_toInt
    have hhi := n.toInt_lt
    rw [readPlain, if_neg (decimal_ne (c := 't') (by decide) (by decide)),
      if_neg (decimal_ne (c := 'f') (by decide) (by decide)),
      if_neg (decimal_ne (c := '.') (by decide) (by decide)),
      if_neg (decimal_ne (c := 'E') (by decide) (by decide)), readDecimal_decimal,
      Option.bind_some, if_pos (by omega), Int32.ofInt_toInt]

/-- The texts of the members of an object, with what they are read as. -/
theorem exists_literals {ms : List (String × String)} {members : List (String × Json)}
    (h : List.Forall₂ (fun m x ↦ plainTexts.key m.1 x.1 ∧ plainTexts.value m.2 x.2) ms members) :
    ∃ l : List (String × String × Json), ms = FlatJson.texts l ∧ members = values l ∧
      ∀ m ∈ l, IsLiteral readPlain m.2.1 m.2.2 := by
  induction h with
  | nil => exact ⟨[], rfl, rfl, nofun⟩
  | @cons m x ms members hm _ ih =>
      obtain ⟨l, rfl, rfl, hl⟩ := ih
      refine ⟨(x.1, m.2, x.2) :: l, ?_, rfl, List.forall_mem_cons.mpr ⟨hm.2, hl⟩⟩
      exact congrArg (· :: FlatJson.texts l) (Prod.ext hm.1 rfl)

theorem plainGlaze_lawful : plainGlaze.Lawful plainTexts where
  writeString s := ⟨_, rfl, rfl⟩
  writeInt n := ⟨_, rfl, isLiteral_decimal n⟩
  writeBool b := by
    refine ⟨_, rfl, ?_⟩
    cases b with
    | true => exact ⟨by simp [isDelimiter], rfl⟩
    | false => exact ⟨by simp [isDelimiter], rfl⟩
  readObject ms members h _ := by
    obtain ⟨l, rfl, rfl, hl⟩ := exists_literals h
    exact ⟨_, congrArg (Option.map Json.object) (read_objectText hl), fun _ ↦ rfl⟩

/-- A type with a field of each kind. -/
def settingsType : ReflectedType where
  fields := [("count", .int), ("enabled", .bool), ("rate", .float), ("scale", .double)]
  nodup := by decide

/-- An instance of it. -/
def settings : Instance := fun name ↦
  if name = "count" then .int (-7)
  else if name = "enabled" then .bool true
  else if name = "rate" then .float (.ofBits 0x3F000000)
  else .double (.ofBits 0x3FE0000000000000)

/-- What is read of one half is one half. -/
theorem isLiteral_half : IsLiteral readPlain "0.5" (.number oneHalf) :=
  ⟨by simp [isDelimiter], rfl⟩

/-- A field of each kind goes there and back, enumerated from the last to the first. -/
theorem roundTrip_settings : ∃ data : List MetaData,
    data.map MetaData.name = [some "scale", some "rate", some "enabled", some "count"] ∧
      RoundTrips plainGlaze plainTexts data settingsType.fields settings (fun _ ↦ .other)
        (metaComponentToJson plainGlaze (some data) settings) := by
  have hhash : (settingsType.fields.map fun f ↦ id f.1).Nodup := settingsType.nodup
  refine ⟨(((⟨"settings", []⟩ : MetaNode String).reflectFieldsAuto id
    settingsType.fields).data.map Prod.snd).reverse, rfl, ?_⟩
  refine ((roundTrip_iff id "settings" settingsType hhash (List.reverse_perm _) plainGlaze
    settings (fun _ ↦ .other) ?_).1 plainTexts plainGlaze_lawful ?_ ?_).2.mpr ?_
  · simp [WellTyped, settingsType, settings, FieldValue.type]
  · simp only [settingsType, settings, List.forall_mem_cons]
    have hrate : (Float32.ofBits 0x3F000000).isFinite = true := by decide
    have hscale : (Float.ofBits 0x3FE0000000000000).isFinite = true := by decide
    exact ⟨trivial, trivial, hrate, hscale, nofun⟩
  · intro f hf
    simp only [settingsType, List.mem_cons, List.not_mem_nil, or_false] at hf
    rcases hf with rfl | rfl | rfl | rfl
    · trivial
    · trivial
    · exact ⟨_, oneHalf, rfl, isLiteral_half, rfl⟩
    · exact ⟨_, oneHalf, rfl, isLiteral_half, rfl⟩
  · intro f hf
    simp only [settingsType, List.mem_cons, List.not_mem_nil, or_false] at hf
    rcases hf with rfl | rfl | rfl | rfl
    · trivial
    · trivial
    · rintro t y ht hy
      obtain rfl : "0.5" = t := Option.some.inj ht
      obtain rfl := Json.number.inj (plainGlaze_lawful.value_unique isLiteral_half hy)
      decide
    · trivial

/-- A type with one `float`. -/
def gainType : ReflectedType := ⟨[("gain", .float)], by decide⟩

/-- The greatest `float`. -/
def greatest : Instance := fun _ ↦ .float (.ofBits 0x7F7FFFFF)

/-- The greatest `float` does not come back: its text is rejected. -/
theorem greatest_rejected :
    let data := ((⟨"gain", []⟩ : MetaNode String).reflectFieldsAuto id gainType.fields).data.map
      Prod.snd
    let text := metaComponentToJson plainGlaze (some data) greatest
    plainGlaze.Lawful plainTexts ∧ WellTyped gainType.fields greatest ∧
    (∀ f ∈ gainType.fields,
      (greatest f.1).Finite ∧ plainGlaze.WritesNumber plainTexts (greatest f.1)) ∧
    text = "\x7b\"gain\":3.4028235E38\x7d" ∧
    ∀ y, metaComponentFromJson plainGlaze.readJson (some data) y text = .returned false y ∧
      ¬ RoundTrips plainGlaze plainTexts data gainType.fields greatest y text := by
  intro data text
  have htext : text = "\x7b\"gain\":3.4028235E38\x7d" := rfl
  have hliteral : IsLiteral readPlain "3.4028235E38" (.number aboveFloatMax) :=
    ⟨by simp [isDelimiter], rfl⟩
  have hobject : plainGlaze.readJson text = some (.object [("gain", .number aboveFloatMax)]) := by
    have hmembers : ∀ m ∈ [("gain", "3.4028235E38", Json.number aboveFloatMax)],
        IsLiteral readPlain m.2.1 m.2.2 := List.forall_mem_singleton.mpr hliteral
    have hsame : objectText (FlatJson.texts [("gain", "3.4028235E38", Json.number aboveFloatMax)]) =
        text := rfl
    exact congrArg (Option.map Json.object) (hsame ▸ read_objectText hmembers)
  have hvalue : jsonValueToMeta .float (.number aboveFloatMax) = .rejected :=
    jsonValueToMeta_of_neither (fun h ↦ absurd h.2 (by decide)) id
  have hread : ∀ y, metaComponentFromJson plainGlaze.readJson (some data) y text =
      .returned false y := by
    intro y
    have hdata : data = fieldData gainType.fields := rfl
    simp only [metaComponentFromJson, hobject, hdata, fieldData, gainType, List.map_cons,
      setFields, List.lookup_cons_self, hvalue]
  refine ⟨plainGlaze_lawful, ?_, ?_, htext, fun y ↦ ⟨hread y, ?_⟩⟩
  · exact List.forall_mem_singleton.mpr rfl
  · exact List.forall_mem_singleton.mpr ⟨(by decide : Float32.isFinite _ = true),
      _, aboveFloatMax, rfl, hliteral, by decide⟩
  · rintro ⟨-, y', hy', -⟩
    rw [hread] at hy'
    cases hy'

end Konative.Reflect
