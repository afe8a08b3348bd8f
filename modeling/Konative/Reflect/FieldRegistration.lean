import Konative.Reflect.MetaRegistry
import Konative.Lib.Assoc

/-!
# Registering the fields of a component

`reflect_component_auto<T>(id)` with what the data members it installs do: each has a getter
and a setter of one field and carries the field's name.  The members of a type are kept by
their ids, which are the FNV-1a hashes of the names.

Two names with one hash are one id, and the field registered second takes the place of the
first.  Nothing notices: the guard of the registration is about the ids of types.
-/

namespace Konative.Reflect

open Assoc

universe u

/-! ## Aggregates -/

/-- The types of values: what JSON takes each for, and EnTT's `allow_cast`. -/
structure MetaTypes where
  Kind : Type
  Val : Kind → Type
  fieldType : Kind → FieldType
  allowCast : (Σ k, Val k) → (k : Kind) → Option (Val k)
  allowCast_self : ∀ k (v : Val k), allowCast ⟨k, v⟩ k = some v

/-- A reflectable aggregate: its fields, as Boost.PFR enumerates them. -/
structure Aggregate (V : MetaTypes) where
  arity : Nat
  kind : Fin arity → V.Kind
  name : Fin arity → String
  distinct : Function.Injective name

variable {V : MetaTypes}

namespace Aggregate

/-- An instance of the aggregate. -/
abbrev Value (A : Aggregate V) := ∀ i, V.Val (A.kind i)

variable (A : Aggregate V)

/-- `pfr_get_field<T, I>`. -/
def pfrGetField (i : Fin A.arity) (inst : A.Value) : V.Val (A.kind i) := inst i

/-- `pfr_set_field<T, I>`. -/
def pfrSetField (i : Fin A.arity) (inst : A.Value) (value : V.Val (A.kind i)) : A.Value :=
  Function.update inst i value

end Aggregate

/-- `entt::hashed_string`: FNV-1a over the bytes of a string, in 32 bits. -/
def fnv1a (s : String) : UInt32 :=
  (s.toList.flatMap String.utf8EncodeChar).foldl
    (fun h b ↦ (h ^^^ b.toUInt32) * 16777619) 2166136261

example : fnv1a "a" = 0xE40C292C := by decide

/-- `pfr_field_id<T, I>`. -/
def pfrFieldId (A : Aggregate V) (i : Fin A.arity) : UInt32 := fnv1a (A.name i)

/-! ## Nodes -/

/-- A data member of a node: its getter, its setter and its name property. -/
structure MetaMember (A : Aggregate V) where
  kind : V.Kind
  get : A.Value → Σ k, V.Val k
  set : A.Value → (Σ k, V.Val k) → Option A.Value
  name : Option String

/-- The member that `data<&pfr_set_field<T, I>, &pfr_get_field<T, I>>` makes. -/
def MetaMember.ofField (A : Aggregate V) (i : Fin A.arity) : MetaMember A where
  kind := A.kind i
  get inst := ⟨A.kind i, A.pfrGetField i inst⟩
  set inst value := (V.allowCast value (A.kind i)).map (A.pfrSetField i inst)
  name := none

/-- A node of the meta context, with its members by their ids. -/
structure TypeNode (A : Aggregate V) where
  id : UInt32
  data : List (UInt32 × MetaMember A)

namespace TypeNode

variable {A : Aggregate V}

/-- `.type(id)`. -/
def type (id : UInt32) (n : TypeNode A) : TypeNode A := { n with id }

/-- `.data<Setter, Getter>(id)`: the member takes the place of the one that had the id. -/
def addData (id : UInt32) (m : MetaMember A) (n : TypeNode A) : TypeNode A :=
  { n with data := insertOrAssign id m n.data }

/-- `.prop(kFieldNamePropId, name)`, of the member just made. -/
def prop (id : UInt32) (name : String) (n : TypeNode A) : TypeNode A :=
  { n with data := n.data.map fun d ↦ if d.1 = id then (id, { d.2 with name := some name }) else d }

/-- `reflect_fields_auto_impl`. -/
def reflectFieldsAuto (n : TypeNode A) : TypeNode A :=
  (List.finRange A.arity).foldl
    (fun n i ↦ (n.addData (pfrFieldId A i) (.ofField A i)).prop (pfrFieldId A i) (A.name i)) n

end TypeNode

/-! ## The context -/

/-- The component types of a program. -/
structure Components (Ty : Type u) (V : MetaTypes) where
  aggregate : Ty → Aggregate V
  /-- `entt::type_id<T>().hash()`. -/
  typeHash : Ty → UInt32

variable {Ty : Type u} [DecidableEq Ty]

/-- The meta context: the types that have a node, in the order in which they got it. -/
structure FieldContext (P : Components Ty V) where
  order : List Ty
  node : ∀ T, TypeNode (P.aggregate T)

namespace FieldContext

variable {P : Components Ty V}

/-- No type is reflected. -/
def empty (P : Components Ty V) : FieldContext P := ⟨[], fun T ↦ ⟨P.typeHash T, []⟩⟩

/-- `entt::resolve(id)`. -/
def resolve (ctx : FieldContext P) (id : UInt32) : Option Ty :=
  ctx.order.find? fun T ↦ (ctx.node T).id = id

/-- `entt::meta<T>()`. -/
def withType (T : Ty) (ctx : FieldContext P) : FieldContext P :=
  if T ∈ ctx.order then ctx
  else ⟨ctx.order ++ [T], Function.update ctx.node T ⟨P.typeHash T, []⟩⟩

/-- Change the node of a type. -/
def modify (T : Ty) (f : TypeNode (P.aggregate T) → TypeNode (P.aggregate T))
    (ctx : FieldContext P) : FieldContext P :=
  { ctx with node := Function.update ctx.node T (f (ctx.node T)) }

/-- The guard: an id that resolves is the type's own. -/
def idGuard (ctx : FieldContext P) (T : Ty) (id : UInt32) : Bool :=
  match ctx.resolve id with
  | some existing => existing = T
  | none => true

/-- `reflect_component<T>(id)`; `none` is an abort. -/
def reflectComponent (T : Ty) (id : UInt32) (ctx : FieldContext P) : Option (FieldContext P) :=
  if ctx.idGuard T id then some ((ctx.withType T).modify T (TypeNode.type id)) else none

/-- `reflect_component_auto<T>(id)`. -/
def reflectComponentAuto (T : Ty) (id : UInt32) (ctx : FieldContext P) :
    Option (FieldContext P) :=
  if ctx.idGuard T id then
    some (((ctx.withType T).modify T (TypeNode.type id)).modify T TypeNode.reflectFieldsAuto)
  else none

/-- Make a call. -/
def perform (c : ReflectCall Ty UInt32) (ctx : FieldContext P) : Option (FieldContext P) :=
  if c.auto then ctx.reflectComponentAuto c.type c.id else ctx.reflectComponent c.type c.id

/-- A sequence of calls, from the empty context. -/
def reflectAll (P : Components Ty V) (w : List (ReflectCall Ty UInt32)) :
    Option (FieldContext P) :=
  w.foldlM (fun ctx c ↦ ctx.perform c) (empty P)

end FieldContext

/-! ## What a registration is for -/

/-- The member is the one of a field. -/
structure MetaMember.Of {A : Aggregate V} (m : MetaMember A) (i : Fin A.arity) : Prop where
  name : m.name = some (A.name i)
  get : ∀ inst, m.get inst = ⟨A.kind i, inst i⟩
  /-- The setter sets the field, -/
  set : ∀ inst value, ∃ inst', m.set inst ⟨A.kind i, value⟩ = some inst' ∧ inst' i = value
  /-- and no other, whatever it is given. -/
  frame : ∀ inst value inst', m.set inst value = some inst' → ∀ j, j ≠ i → inst' j = inst j

/-- There is exactly one member for each field. -/
def TypeNode.Complete {A : Aggregate V} (n : TypeNode A) : Prop :=
  ∃ fields : List (Fin A.arity), fields.Perm (List.finRange A.arity) ∧
    List.Forall₂ (fun d i ↦ d.2.Of i) n.data fields

/-! ## The members -/

section Members

variable {A : Aggregate V} {n : TypeNode A} {i : Fin A.arity}

/-- The member of a field, with its name. -/
def MetaMember.named (A : Aggregate V) (i : Fin A.arity) : MetaMember A :=
  { MetaMember.ofField A i with name := some (A.name i) }

theorem MetaMember.named_of (A : Aggregate V) (i : Fin A.arity) :
    (MetaMember.named A i).Of i where
  name := rfl
  get _ := rfl
  set inst value := by
    refine ⟨Function.update inst i value, ?_, Function.update_self ..⟩
    exact congrArg (Option.map (A.pfrSetField i inst)) (V.allowCast_self _ value)
  frame inst value inst' h j hj := by
    obtain ⟨v, -, rfl⟩ := Option.map_eq_some_iff.mp h
    exact Function.update_of_ne hj ..

/-- The members are put in one after the other. -/
theorem TypeNode.data_reflectFieldsAuto (n : TypeNode A) : n.reflectFieldsAuto.data =
    insertAll (pfrFieldId A) (MetaMember.named A) (List.finRange A.arity) n.data := by
  rw [TypeNode.reflectFieldsAuto, insertAll]
  induction List.finRange A.arity generalizing n with
  | nil => rfl
  | cons i is ih =>
      rw [List.foldl_cons, List.foldl_cons, ih]
      congr 1
      exact map_insertOrAssign (V := MetaMember A) fun m ↦ { m with name := some (A.name i) }

theorem TypeNode.id_reflectFieldsAuto (n : TypeNode A) : n.reflectFieldsAuto.id = n.id := by
  rw [TypeNode.reflectFieldsAuto]
  induction List.finRange A.arity generalizing n with
  | nil => rfl
  | cons i is ih => exact ih _

/-- What holds of the members of a type at any time: their ids differ and are those of its
fields, and where the ids of its fields differ they are all there, or none is. -/
structure Members (A : Aggregate V) (l : List (UInt32 × MetaMember A)) : Prop where
  nodup : (l.map Prod.fst).Nodup
  keys : ∀ k ∈ l.map Prod.fst, ∃ i, k = pfrFieldId A i
  all : Function.Injective (pfrFieldId A) →
    l = [] ∨ l = (List.finRange A.arity).map fun i ↦ (pfrFieldId A i, MetaMember.named A i)

theorem Members.nil (A : Aggregate V) : Members A [] := ⟨List.nodup_nil, nofun, fun _ ↦ .inl rfl⟩

/-- Registering puts them all there. -/
theorem Members.data_eq (h : Members A n.data) (hinj : Function.Injective (pfrFieldId A)) :
    n.reflectFieldsAuto.data =
      (List.finRange A.arity).map fun i ↦ (pfrFieldId A i, MetaMember.named A i) := by
  rw [TypeNode.data_reflectFieldsAuto]
  rcases h.all hinj with hl | hl
  · rw [hl, insertAll_of_nodup ((List.nodup_finRange _).map hinj) fun _ _ ↦ List.not_mem_nil]
    rfl
  · rw [hl, insertAll_eq_self hinj (List.Subset.refl _)]

theorem Members.reflectFieldsAuto (h : Members A n.data) :
    Members A n.reflectFieldsAuto.data := by
  refine ⟨?_, fun k hk ↦ ?_, fun hinj ↦ .inr (h.data_eq hinj)⟩
  · rw [TypeNode.data_reflectFieldsAuto]
    exact nodup_keys_insertAll h.nodup
  · rw [TypeNode.data_reflectFieldsAuto] at hk
    exact (mem_keys_insertAll hk).elim (h.keys k) id

/-- With one member for each field the ids of the fields differ. -/
theorem Members.injective (h : Members A n.data) (hc : n.Complete) :
    Function.Injective (pfrFieldId A) := by
  obtain ⟨fields, hperm, hof⟩ := hc
  apply injective_of_length h.nodup h.keys
  rw [hof.length_eq, hperm.length_eq, List.length_finRange]

/-- All members are one for each field. -/
theorem TypeNode.complete_of_data_eq (h : n.data =
    (List.finRange A.arity).map fun i ↦ (pfrFieldId A i, MetaMember.named A i)) :
    n.Complete := by
  refine ⟨List.finRange A.arity, .refl _, ?_⟩
  rw [h, List.forall₂_map_left_iff]
  exact List.forall₂_same.mpr fun i _ ↦ MetaMember.named_of A i

end Members

/-! ## The context without what the members do -/

/-- What the types of a program and their fields hash to. -/
def Components.hashes (P : Components Ty V) : Hashes Ty UInt32 where
  type := P.typeHash
  name := fnv1a
  fields T := (List.finRange (P.aggregate T).arity).map fun i ↦
    ((P.aggregate T).name i, V.fieldType ((P.aggregate T).kind i))

/-- A member without its getter and its setter. -/
def MetaMember.forget {A : Aggregate V} (m : MetaMember A) : MetaData :=
  ⟨m.name, V.fieldType m.kind⟩

namespace TypeNode

variable {A : Aggregate V}

def forget (n : TypeNode A) : MetaNode UInt32 :=
  ⟨n.id, n.data.map fun d ↦ (d.1, d.2.forget)⟩

theorem forget_addData (k : UInt32) {m : MetaMember A} (hm : m.name = none) (n : TypeNode A) :
    (n.addData k m).forget = n.forget.addData k (V.fieldType m.kind) := by
  have hkeys : n.forget.data.map Prod.fst = n.data.map Prod.fst := by
    rw [forget, List.map_map]
    rfl
  have hforget : m.forget = ⟨none, V.fieldType m.kind⟩ := by rw [MetaMember.forget, hm]
  rw [MetaNode.addData, hkeys, addData, forget, insertOrAssign]
  split
  · simp only [forget, List.map_map]
    congr 1
    apply List.map_congr_left
    intro d _
    simp only [Function.comp_apply]
    split
    · rw [hforget]
    · rfl
  · simp only [forget, List.map_append, List.map_singleton, hforget]

theorem forget_prop (k : UInt32) (name : String) (n : TypeNode A) :
    (n.prop k name).forget = n.forget.prop k name := by
  simp only [prop, MetaNode.prop, forget, List.map_map]
  congr 1
  apply List.map_congr_left
  intro d _
  rw [Function.comp_apply, Function.comp_apply]
  split
  · rfl
  · rfl

theorem forget_reflectFieldsAuto (n : TypeNode A) :
    n.reflectFieldsAuto.forget = n.forget.reflectFieldsAuto fnv1a
      ((List.finRange A.arity).map fun i ↦ (A.name i, V.fieldType (A.kind i))) := by
  rw [reflectFieldsAuto, MetaNode.reflectFieldsAuto, List.foldl_map]
  induction List.finRange A.arity generalizing n with
  | nil => rfl
  | cons i is ih =>
      rw [List.foldl_cons, List.foldl_cons, ih, forget_prop, forget_addData _ rfl]
      rfl

end TypeNode

namespace FieldContext

variable {P : Components Ty V} {ctx ctx' : FieldContext P} {T T' : Ty} {i : UInt32}
  {c : ReflectCall Ty UInt32} {w : List (ReflectCall Ty UInt32)}

theorem node_modify_self {f : TypeNode (P.aggregate T) → TypeNode (P.aggregate T)} :
    (ctx.modify T f).node T = f (ctx.node T) := Function.update_self ..

theorem node_modify_of_ne {f : TypeNode (P.aggregate T) → TypeNode (P.aggregate T)}
    (h : T' ≠ T) : (ctx.modify T f).node T' = ctx.node T' := Function.update_of_ne h ..

theorem withType_of_mem (h : T ∈ ctx.order) : ctx.withType T = ctx := if_pos h

theorem withType_of_notMem (h : T ∉ ctx.order) : ctx.withType T =
    ⟨ctx.order ++ [T], Function.update ctx.node T ⟨P.typeHash T, []⟩⟩ := if_neg h

theorem mem_order_withType : T ∈ (ctx.withType T).order := by
  by_cases h : T ∈ ctx.order
  · rw [withType_of_mem h]
    exact h
  · rw [withType_of_notMem h]
    exact List.mem_append_right _ (List.mem_singleton.mpr rfl)

def forget (ctx : FieldContext P) : MetaContext Ty UInt32 :=
  ctx.order.map fun T ↦ (T, (ctx.node T).forget)

omit [DecidableEq Ty] in
theorem resolve_forget (ctx : FieldContext P) (i : UInt32) :
    ctx.forget.resolve i = ctx.resolve i := by
  rw [MetaContext.resolve, forget, List.find?_map, Option.map_map]
  exact Option.map_id_apply

theorem forget_withType (T : Ty) (ctx : FieldContext P) :
    (ctx.withType T).forget = ctx.forget.withType P.typeHash T := by
  have htypes : ctx.forget.map Prod.fst = ctx.order := by
    rw [forget, List.map_map]
    exact List.map_id _
  by_cases hT : T ∈ ctx.order
  · rw [withType_of_mem hT, MetaContext.withType, htypes, if_pos hT]
  · rw [withType_of_notMem hT, MetaContext.withType, htypes, if_neg hT]
    simp only [forget, List.map_append]
    congr 1
    · apply List.map_congr_left
      intro T' hT'
      rw [Function.update_of_ne]
      rintro rfl
      exact hT hT'
    · simp only [List.map_singleton, Function.update_self]
      rfl

theorem forget_modify {f : TypeNode (P.aggregate T) → TypeNode (P.aggregate T)}
    {g : MetaNode UInt32 → MetaNode UInt32} (hfg : ∀ n, (f n).forget = g n.forget)
    (ctx : FieldContext P) : (ctx.modify T f).forget = ctx.forget.modify T g := by
  rw [forget, forget, MetaContext.modify, List.map_map]
  apply List.map_congr_left
  intro T' _
  rw [Function.comp_apply]
  by_cases hT : T' = T
  · subst hT
    rw [if_pos rfl, node_modify_self, hfg]
  · rw [if_neg hT, node_modify_of_ne hT]

/-- A call does the same with and without what the members do. -/
theorem forget_perform (c : ReflectCall Ty UInt32) (ctx : FieldContext P) :
    (ctx.perform c).map forget = c.perform P.hashes ctx.forget := by
  have hguard : Reflect.idGuard ctx.forget c.type c.id = ctx.idGuard c.type c.id := by
    cases h : ctx.resolve c.id with
    | none => simp only [Reflect.idGuard, idGuard, resolve_forget, h]
    | some T => simp only [Reflect.idGuard, idGuard, resolve_forget, h]
  have htype : ((ctx.withType c.type).modify c.type (TypeNode.type c.id)).forget =
      (ctx.forget.withType P.typeHash c.type).modify c.type (MetaNode.type c.id) := by
    rw [forget_modify (g := MetaNode.type c.id) fun _ ↦ rfl, forget_withType]
  rw [perform, ReflectCall.perform]
  split
  · rw [reflectComponentAuto, Reflect.reflectComponentAuto, hguard]
    split
    · rw [Option.map_some, forget_modify TypeNode.forget_reflectFieldsAuto, htype]
      rfl
    · rfl
  · rw [reflectComponent, Reflect.reflectComponent, hguard]
    split
    · rw [Option.map_some, htype]
      rfl
    · rfl

theorem reflectAll_concat : reflectAll P (w ++ [c]) =
    (reflectAll P w).bind fun ctx ↦ ctx.perform c := by
  rw [reflectAll, List.foldlM_append]
  refine Option.bind_congr fun ctx _ ↦ ?_
  rw [List.foldlM_cons]
  exact bind_pure _

theorem forget_reflectAll (w : List (ReflectCall Ty UInt32)) :
    (reflectAll P w).map forget = Reflect.reflectAll P.hashes w := by
  induction w using List.reverseRecOn with
  | nil => rfl
  | append_singleton w c ih =>
      rw [reflectAll_concat, Reflect.reflectAll_concat, ← ih]
      cases reflectAll P w with
      | none => rfl
      | some ctx => exact forget_perform c ctx

/-! ## Runs -/

/-- A call keeps what holds of the members of every type. -/
theorem members_perform (hctx : ∀ T, Members (P.aggregate T) (ctx.node T).data)
    (h : ctx.perform c = some ctx') (T : Ty) : Members (P.aggregate T) (ctx'.node T).data := by
  have hwith : ∀ T T', Members (P.aggregate T) ((ctx.withType T').node T).data := by
    intro T T'
    by_cases hT' : T' ∈ ctx.order
    · rw [withType_of_mem hT']
      exact hctx T
    · rw [withType_of_notMem hT']
      by_cases hT : T = T'
      · subst hT
        change Members _ (Function.update ctx.node T _ T).data
        rw [Function.update_self]
        exact .nil _
      · change Members _ (Function.update ctx.node T' _ T).data
        rw [Function.update_of_ne hT]
        exact hctx T
  have htype : ∀ T T' i,
      Members (P.aggregate T) (((ctx.withType T').modify T' (TypeNode.type i)).node T).data := by
    intro T T' i
    by_cases hT : T = T'
    · subst hT
      rw [node_modify_self]
      exact hwith T T
    · rw [node_modify_of_ne hT]
      exact hwith T T'
  rw [perform, reflectComponentAuto, reflectComponent] at h
  split at h
  · split at h
    · obtain rfl := Option.some.inj h
      by_cases hT : T = c.type
      · subst hT
        rw [node_modify_self]
        exact (htype _ _ _).reflectFieldsAuto
      · rw [node_modify_of_ne hT]
        exact htype T c.type c.id
    · cases h
  · split at h
    · obtain rfl := Option.some.inj h
      exact htype T c.type c.id
    · cases h

theorem members_reflectAll (h : reflectAll P w = some ctx) (T : Ty) :
    Members (P.aggregate T) (ctx.node T).data := by
  induction w using List.reverseRecOn generalizing ctx T with
  | nil =>
      obtain rfl := Option.some.inj h
      exact .nil _
  | append_singleton w c ih =>
      rw [reflectAll_concat] at h
      obtain ⟨ctx₀, h₀, h⟩ := Option.bind_eq_some_iff.mp h
      exact members_perform (ih h₀) h T

/-- What an automatic registration leaves of the type. -/
theorem reflectComponentAuto_eq_some (h : ctx.reflectComponentAuto T i = some ctx') :
    T ∈ ctx'.order ∧ (ctx'.node T).id = i ∧
      ∃ n : TypeNode (P.aggregate T), (Members _ (ctx.node T).data → Members _ n.data) ∧
        ctx'.node T = n.reflectFieldsAuto := by
  rw [reflectComponentAuto] at h
  split at h
  · obtain rfl := Option.some.inj h
    refine ⟨mem_order_withType, ?_, _, fun hm ↦ ?_, node_modify_self⟩
    · rw [node_modify_self, TypeNode.id_reflectFieldsAuto, node_modify_self]
      rfl
    · rw [node_modify_self]
      by_cases hT : T ∈ ctx.order
      · rw [withType_of_mem hT]
        exact hm
      · rw [withType_of_notMem hT]
        change Members _ (Function.update ctx.node T _ T).data
        rw [Function.update_self]
        exact .nil _
  · cases h

/-- The guard lets a type have its own id again. -/
theorem idGuard_self (h : reflectAll P (w ++ [⟨true, T, i⟩]) = some ctx) :
    ctx.idGuard T i = true := by
  have hforget := forget_reflectAll (P := P) (w ++ [⟨true, T, i⟩])
  rw [h, Option.map_some] at hforget
  obtain ⟨hctx, hunique⟩ := represents_of_reflectAll hforget.symm
  have hlast : lastId (w ++ [(⟨true, T, i⟩ : ReflectCall Ty UInt32)]) T = some i := by
    rw [lastId_concat, Function.update_self]
  have hguard := (Reflect.idGuard_iff (T := T) (i := i) hctx hunique).mpr
    fun T' hT' ↦ hunique hT' hlast
  rw [Reflect.idGuard, resolve_forget] at hguard
  rw [idGuard, ← hguard]
  cases ctx.resolve i <;> rfl

/-- Registering once more changes nothing where all members are there. -/
theorem reflectComponentAuto_self (hg : ctx.idGuard T i = true) (hT : T ∈ ctx.order)
    (hi : (ctx.node T).id = i) (hdata : (ctx.node T).reflectFieldsAuto.data = (ctx.node T).data) :
    ctx.reflectComponentAuto T i = some ctx := by
  have htype : (ctx.node T).type i = ctx.node T := by rw [← hi]; rfl
  have hauto : (ctx.node T).reflectFieldsAuto = ctx.node T := by
    have hid := TypeNode.id_reflectFieldsAuto (ctx.node T)
    cases hn : (ctx.node T).reflectFieldsAuto with
    | mk id data =>
        rw [hn] at hid hdata
        obtain rfl := hid
        obtain rfl := hdata
        rfl
  rw [reflectComponentAuto, if_pos hg, withType_of_mem hT]
  simp only [modify, htype, hauto, Function.update_eq_self]

/-- After any calls, an automatic registration that returns is complete and can be repeated
if and only if the names of the type's fields have different hashes. -/
theorem reflectFields_complete_iff (w : List (ReflectCall Ty UInt32)) (T : Ty) (i : UInt32)
    (ctx : FieldContext P) (h : reflectAll P (w ++ [⟨true, T, i⟩]) = some ctx) :
    ((ctx.node T).Complete ∧ ctx.reflectComponentAuto T i = some ctx) ↔
      Function.Injective (pfrFieldId (P.aggregate T)) := by
  constructor
  · rintro ⟨hcomplete, -⟩
    exact (members_reflectAll h T).injective hcomplete
  · intro hinj
    have hall := members_reflectAll h T
    have hguard := idGuard_self h
    rw [reflectAll_concat] at h
    obtain ⟨ctx₀, h₀, h⟩ := Option.bind_eq_some_iff.mp h
    change ctx₀.reflectComponentAuto T i = some ctx at h
    obtain ⟨hT, hi, n, hn, heq⟩ := reflectComponentAuto_eq_some h
    have hdata : (ctx.node T).data = _ :=
      (congrArg TypeNode.data heq).trans ((hn (members_reflectAll h₀ T)).data_eq hinj)
    refine ⟨TypeNode.complete_of_data_eq hdata, reflectComponentAuto_self hguard hT hi ?_⟩
    rw [hall.data_eq hinj, hdata]

end FieldContext

/-! ## Two fields -/

/-- Fields are `int`s. -/
def intTypes : MetaTypes where
  Kind := Unit
  Val _ := Int32
  fieldType _ := .int
  allowCast v _ := some v.2
  allowCast_self _ _ := rfl

/-- The names of two fields. -/
def twoNames (a b : String) : Fin 2 → String
  | 0 => a
  | 1 => b

theorem twoNames_injective {a b : String} (h : a ≠ b) : Function.Injective (twoNames a b) := by
  intro i j hij
  match i, j with
  | 0, 0 | 1, 1 => rfl
  | 0, 1 => exact absurd hij h
  | 1, 0 => exact absurd hij.symm h

/-- A component of two fields. -/
def twoFields (a b : String) (h : a ≠ b) : Components Unit intTypes where
  aggregate _ := ⟨2, fun _ ↦ (), twoNames a b, twoNames_injective h⟩
  typeHash _ := 0

theorem reflectFields_complete_ab : ∃ ctx : FieldContext (twoFields "a" "b" (by decide)),
    FieldContext.reflectAll _ ([] ++ [⟨true, (), 1⟩]) = some ctx ∧
      (ctx.node ()).Complete ∧ ctx.reflectComponentAuto () 1 = some ctx := by
  refine ⟨_, rfl, (FieldContext.reflectFields_complete_iff [] () 1 _ rfl).mpr ?_⟩
  decide

/-- The names `costarring` and `liquid` have one hash, and one of the fields is lost. -/
theorem reflectFields_collision :
    ¬ ∀ ctx : FieldContext (twoFields "costarring" "liquid" (by decide)),
      FieldContext.reflectAll _ [⟨true, (), 1⟩] = some ctx →
        (ctx.node ()).Complete ∧ ctx.reflectComponentAuto () 1 = some ctx := by
  intro h
  obtain ⟨⟨fields, hperm, hof⟩, -⟩ := h _ rfl
  have hlen := hof.length_eq.trans hperm.length_eq
  exact absurd hlen (by decide)

end Konative.Reflect
