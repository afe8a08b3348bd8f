import Konative.Reflect.MetaJson
import Mathlib.Data.List.Induction

/-!
# Registering a reflected component

`reflect_component<T>(id)` and `reflect_component_auto<T>(id)` register a type in
EnTT's process-global meta context.  A type has one node there, and the node one id:
`type(id)` overwrites it.  Before that, both functions look up who owns the id now,
and abort if it is another type.

What the context says about ids is a `Naming`, the current id of each type.  A
registration gives one type one new id (`represents_register`), and takes its old one
away.  The guard therefore keeps two types from having one id at the same time, and
does not see a type that had the id before: it is exact as long as no type is
registered under a second id (`guardsIds_iff`).
-/

set_option linter.unusedSectionVars false

namespace Konative.Reflect

universe u v

variable {Ty : Type u} {Id : Type v} [DecidableEq Ty] [DecidableEq Id]

/-! ## The meta context -/

/-- A node of the meta context: the id of a type, and its data members by theirs. -/
structure MetaNode (Id : Type v) where
  id : Id
  data : List (Id × MetaData)

/-- The meta context: the reflected types and their nodes. -/
abbrev MetaContext (Ty : Type u) (Id : Type v) := List (Ty × MetaNode Id)

namespace MetaContext

/-- `entt::resolve(id)`: the type whose node has that id. -/
def resolve (ctx : MetaContext Ty Id) (id : Id) : Option Ty :=
  (ctx.find? fun x ↦ x.2.id = id).map Prod.fst

/-- `entt::meta<T>()`: the type has a node, whose id is at first the hash of the type. -/
def withType (hash : Ty → Id) (T : Ty) (ctx : MetaContext Ty Id) : MetaContext Ty Id :=
  if T ∈ ctx.map Prod.fst then ctx else ctx ++ [(T, ⟨hash T, []⟩)]

/-- Change the node of a type. -/
def modify (T : Ty) (f : MetaNode Id → MetaNode Id) (ctx : MetaContext Ty Id) :
    MetaContext Ty Id :=
  ctx.map fun x ↦ if x.1 = T then (T, f x.2) else x

end MetaContext

namespace MetaNode

/-- `.type(id)`. -/
def type (id : Id) (n : MetaNode Id) : MetaNode Id := { n with id }

/-- `.data<Setter, Getter>(id)`: a data member with no properties, in place of the one
that had the id. -/
def addData (id : Id) (type : FieldType) (n : MetaNode Id) : MetaNode Id :=
  { n with
    data :=
      if id ∈ n.data.map Prod.fst then
        n.data.map fun d ↦ if d.1 = id then (id, ⟨none, type⟩) else d
      else n.data ++ [(id, ⟨none, type⟩)] }

/-- `.prop(kFieldNamePropId, name)`, of the data member just made. -/
def prop (id : Id) (name : String) (n : MetaNode Id) : MetaNode Id :=
  { n with data := n.data.map fun d ↦ if d.1 = id then (id, { d.2 with name := some name }) else d }

/-- `reflect_fields_auto_impl`: a data member for each field, in the order of
declaration, under the hash of its name. -/
def reflectFieldsAuto (hashName : String → Id) (fields : List (String × FieldType))
    (n : MetaNode Id) : MetaNode Id :=
  fields.foldl (fun n f ↦ (n.addData (hashName f.1) f.2).prop (hashName f.1) f.1) n

end MetaNode

/-! ## The two functions -/

/-- What the types of a program and their fields hash to. -/
structure Hashes (Ty : Type u) (Id : Type v) where
  /-- `entt::type_id<T>().hash()`. -/
  type : Ty → Id
  /-- `entt::hashed_string` of a field's name. -/
  name : String → Id
  /-- The fields of a type, as Boost.PFR enumerates them. -/
  fields : Ty → List (String × FieldType)

variable (hashes : Hashes Ty Id)

/-- The guard both functions start with: an id that resolves is the type's own. -/
def idGuard (ctx : MetaContext Ty Id) (T : Ty) (id : Id) : Bool :=
  match ctx.resolve id with
  | some existing => existing = T
  | none => true

/-- `reflect_component<T>(id)`; `none` is an abort. -/
def reflectComponent (T : Ty) (id : Id) (ctx : MetaContext Ty Id) : Option (MetaContext Ty Id) :=
  if idGuard ctx T id then
    some ((ctx.withType hashes.type T).modify T (MetaNode.type id))
  else none

/-- `reflect_component_auto<T>(id)`. -/
def reflectComponentAuto (T : Ty) (id : Id) (ctx : MetaContext Ty Id) :
    Option (MetaContext Ty Id) :=
  if idGuard ctx T id then
    some (((ctx.withType hashes.type T).modify T (MetaNode.type id)).modify T
      (MetaNode.reflectFieldsAuto hashes.name (hashes.fields T)))
  else none

/-- A call of one of the two. -/
structure ReflectCall (Ty : Type u) (Id : Type v) where
  auto : Bool
  type : Ty
  id : Id

/-- Make a call. -/
def ReflectCall.perform (c : ReflectCall Ty Id) (ctx : MetaContext Ty Id) :
    Option (MetaContext Ty Id) :=
  if c.auto then reflectComponentAuto hashes c.type c.id ctx
  else reflectComponent hashes c.type c.id ctx

/-- A sequence of calls, from the empty context. -/
def reflectAll (w : List (ReflectCall Ty Id)) : Option (MetaContext Ty Id) :=
  w.foldlM (fun ctx c ↦ c.perform hashes ctx) []

/-! ## Names -/

/-- The name each item has at present. -/
abbrev Naming (Ty : Type u) (Id : Type v) := Ty → Option Id

/-- No two items have the same name. -/
def Naming.Unique (m : Naming Ty Id) : Prop :=
  ∀ {T T' : Ty} {i : Id}, m T = some i → m T' = some i → T = T'

/-- A name nobody else has can be given to an item. -/
theorem Naming.Unique.update {m : Naming Ty Id} (hm : m.Unique) {T : Ty} {i : Id}
    (h : ∀ T', m T' = some i → T' = T) : Naming.Unique (Function.update m T (some i)) := by
  intro T₁ T₂ j h₁ h₂
  by_cases hT₁ : T₁ = T <;> by_cases hT₂ : T₂ = T
  · rw [hT₁, hT₂]
  · subst hT₁
    rw [Function.update_self] at h₁
    rw [Function.update_of_ne hT₂, ← h₁] at h₂
    exact (h T₂ h₂).symm
  · subst hT₂
    rw [Function.update_self] at h₂
    rw [Function.update_of_ne hT₁, ← h₂] at h₁
    exact h T₁ h₁
  · rw [Function.update_of_ne hT₁] at h₁
    rw [Function.update_of_ne hT₂] at h₂
    exact hm h₁ h₂

/-- The ids in the context are those of the naming. -/
def MetaContext.Represents (ctx : MetaContext Ty Id) (m : Naming Ty Id) : Prop :=
  ∀ T i, (∃ n, (T, n) ∈ ctx ∧ n.id = i) ↔ m T = some i

variable {hashes} {ctx ctx' : MetaContext Ty Id} {m : Naming Ty Id} {T T' : Ty} {i j : Id}

/-- What resolves, resolves to the type that has the id now. -/
theorem MetaContext.Represents.resolve_eq_some (hctx : ctx.Represents m) (hm : m.Unique) :
    ctx.resolve i = some T ↔ m T = some i := by
  constructor
  · intro h
    obtain ⟨x, hx, rfl⟩ := Option.map_eq_some_iff.mp h
    exact (hctx x.1 i).mp ⟨x.2, List.mem_of_find?_eq_some hx,
      by simpa using List.find?_some hx⟩
  · intro h
    obtain ⟨n, hn, rfl⟩ := (hctx T i).mpr h
    cases hf : ctx.find? fun x ↦ x.2.id = n.id with
    | none => simpa using List.find?_eq_none.mp hf _ hn
    | some x =>
        have hx : m x.1 = some n.id :=
          (hctx x.1 _).mp ⟨x.2, List.mem_of_find?_eq_some hf, by simpa using List.find?_some hf⟩
        rw [resolve, hf, Option.map_some, hm h hx]

/-- The guard passes if nobody else has the id now. -/
theorem idGuard_iff (hctx : ctx.Represents m) (hm : m.Unique) :
    idGuard ctx T i = true ↔ ∀ T', m T' = some i → T' = T := by
  unfold idGuard
  cases h : ctx.resolve i with
  | none =>
      refine iff_of_true rfl fun T' hT' ↦ ?_
      rw [(hctx.resolve_eq_some hm).mpr hT'] at h
      cases h
  | some existing =>
      have hi := (hctx.resolve_eq_some hm).mp h
      simp only [decide_eq_true_eq]
      constructor
      · rintro rfl T' hT'
        exact hm hT' hi
      · exact fun h ↦ h existing hi

theorem mem_modify {f : MetaNode Id → MetaNode Id} {n : MetaNode Id} :
    (T', n) ∈ ctx.modify T f ↔
      (T' = T ∧ ∃ n₀, (T, n₀) ∈ ctx ∧ n = f n₀) ∨ (T' ≠ T ∧ (T', n) ∈ ctx) := by
  rw [MetaContext.modify, List.mem_map]
  constructor
  · rintro ⟨⟨T₀, n₀⟩, hx, he⟩
    by_cases hT : T₀ = T
    · subst hT
      rw [if_pos rfl] at he
      obtain ⟨rfl, rfl⟩ := Prod.mk.inj he
      exact .inl ⟨rfl, n₀, hx, rfl⟩
    · rw [if_neg hT] at he
      obtain ⟨rfl, rfl⟩ := Prod.mk.inj he
      exact .inr ⟨hT, hx⟩
  · rintro (⟨rfl, n₀, hx, rfl⟩ | ⟨hT, hx⟩)
    · exact ⟨_, hx, if_pos rfl⟩
    · exact ⟨_, hx, if_neg hT⟩

/-- Changing a node and keeping its id keeps all ids. -/
theorem represents_modify {f : MetaNode Id → MetaNode Id} (hf : ∀ n, (f n).id = n.id)
    (hctx : ctx.Represents m) : (ctx.modify T f).Represents m := by
  intro T' i
  rw [← hctx]
  constructor
  · rintro ⟨n, hn, rfl⟩
    rcases mem_modify.mp hn with ⟨rfl, n₀, hn₀, rfl⟩ | ⟨-, hn⟩
    · exact ⟨n₀, hn₀, (hf n₀).symm⟩
    · exact ⟨n, hn, rfl⟩
  · rintro ⟨n, hn, rfl⟩
    by_cases hT : T' = T
    · subst hT
      exact ⟨f n, mem_modify.mpr (.inl ⟨rfl, n, hn, rfl⟩), hf n⟩
    · exact ⟨n, mem_modify.mpr (.inr ⟨hT, hn⟩), rfl⟩

/-- A registration gives the type its new id. -/
theorem represents_register (hash : Ty → Id) (hctx : ctx.Represents m) :
    ((ctx.withType hash T).modify T (MetaNode.type i)).Represents
      (Function.update m T (some i)) := by
  have hnode : ∃ n, (T, n) ∈ ctx.withType hash T := by
    unfold MetaContext.withType
    split
    · rename_i h
      obtain ⟨⟨_, n⟩, hn, rfl⟩ := List.mem_map.mp h
      exact ⟨n, hn⟩
    · exact ⟨_, List.mem_append_right _ List.mem_cons_self⟩
  have hother : ∀ {T' n}, T' ≠ T → ((T', n) ∈ ctx.withType hash T ↔ (T', n) ∈ ctx) := by
    intro T' n hT
    unfold MetaContext.withType
    split
    · exact .rfl
    · simp [hT]
  intro T' j
  by_cases hT : T' = T
  · subst hT
    rw [Function.update_self]
    constructor
    · rintro ⟨n, hn, rfl⟩
      rcases mem_modify.mp hn with ⟨-, n₀, -, rfl⟩ | ⟨hT, -⟩
      · rfl
      · exact absurd rfl hT
    · rintro ⟨⟩
      obtain ⟨n, hn⟩ := hnode
      exact ⟨_, mem_modify.mpr (.inl ⟨rfl, n, hn, rfl⟩), rfl⟩
  · rw [Function.update_of_ne hT, ← hctx]
    constructor
    · rintro ⟨n, hn, rfl⟩
      rcases mem_modify.mp hn with ⟨rfl, -⟩ | ⟨-, hn⟩
      · exact absurd rfl hT
      · exact ⟨n, (hother hT).mp hn, rfl⟩
    · rintro ⟨n, hn, rfl⟩
      exact ⟨n, mem_modify.mpr (.inr ⟨hT, (hother hT).mpr hn⟩), rfl⟩

/-- The fields are registered under ids of their own. -/
theorem id_reflectFieldsAuto (hashName : String → Id) (fields : List (String × FieldType))
    (n : MetaNode Id) : (n.reflectFieldsAuto hashName fields).id = n.id := by
  induction fields generalizing n with
  | nil => rfl
  | cons f fields ih => exact ih _

/-- A call that returns found the id free, or the type's own, and gives it to the type. -/
theorem perform_eq_some {c : ReflectCall Ty Id} (hctx : ctx.Represents m) (hm : m.Unique)
    (h : c.perform hashes ctx = some ctx') :
    (∀ T', m T' = some c.id → T' = c.type) ∧
      ctx'.Represents (Function.update m c.type (some c.id)) := by
  have hreg := represents_register (T := c.type) (i := c.id) hashes.type hctx
  rw [← idGuard_iff hctx hm]
  unfold ReflectCall.perform reflectComponentAuto reflectComponent at h
  split at h
  · split at h
    · rename_i hg
      obtain rfl := Option.some.inj h
      exact ⟨hg, represents_modify (id_reflectFieldsAuto _ _) hreg⟩
    · cases h
  · split at h
    · rename_i hg
      obtain rfl := Option.some.inj h
      exact ⟨hg, hreg⟩
    · cases h

/-- A call whose id is free, or the type's own, returns. -/
theorem exists_perform {c : ReflectCall Ty Id} (hctx : ctx.Represents m) (hm : m.Unique)
    (h : ∀ T', m T' = some c.id → T' = c.type) : ∃ ctx', c.perform hashes ctx = some ctx' := by
  have hg := (idGuard_iff hctx hm).mpr h
  unfold ReflectCall.perform reflectComponentAuto reflectComponent
  rw [if_pos hg, if_pos hg]
  split
  · exact ⟨_, rfl⟩
  · exact ⟨_, rfl⟩

/-! ## Sequences of calls -/

/-- The id each type was registered under last. -/
def lastId (w : List (ReflectCall Ty Id)) : Naming Ty Id :=
  w.foldl (fun m c ↦ Function.update m c.type (some c.id)) fun _ ↦ none

variable {w u : List (ReflectCall Ty Id)} {c c' : ReflectCall Ty Id}

theorem lastId_concat : lastId (w ++ [c]) = Function.update (lastId w) c.type (some c.id) :=
  List.foldl_concat ..

theorem reflectAll_concat :
    reflectAll hashes (w ++ [c]) = (reflectAll hashes w).bind fun ctx ↦ c.perform hashes ctx := by
  rw [reflectAll, List.foldlM_append]
  refine Option.bind_congr fun ctx _ ↦ ?_
  rw [List.foldlM_cons]
  exact bind_pure _

theorem exists_of_lastId (h : lastId w T = some i) : ∃ c ∈ w, c.type = T ∧ c.id = i := by
  induction w using List.reverseRecOn with
  | nil => cases h
  | append_singleton w c ih =>
      rw [lastId_concat] at h
      by_cases hT : T = c.type
      · subst hT
        rw [Function.update_self] at h
        exact ⟨c, by simp, rfl, Option.some.inj h⟩
      · rw [Function.update_of_ne hT] at h
        obtain ⟨c', hc', hh⟩ := ih h
        exact ⟨c', List.mem_append_left _ hc', hh⟩

/-- While no call has aborted, the context holds every type's last id, and no two types
have the same. -/
theorem represents_of_reflectAll (h : reflectAll hashes w = some ctx) :
    ctx.Represents (lastId w) ∧ Naming.Unique (lastId w) := by
  induction w using List.reverseRecOn generalizing ctx with
  | nil =>
      obtain rfl := Option.some.inj h
      exact ⟨fun T i ↦ iff_of_false (fun ⟨_, hn, _⟩ ↦ nomatch hn) nofun, nofun⟩
  | append_singleton w c ih =>
      rw [reflectAll_concat] at h
      obtain ⟨ctx₀, h₀, h⟩ := Option.bind_eq_some_iff.mp h
      obtain ⟨hctx, hm⟩ := ih h₀
      obtain ⟨hg, hctx'⟩ := perform_eq_some hctx hm h
      rw [lastId_concat]
      exact ⟨hctx', hm.update hg⟩

/-- Two different types are registered under one id. -/
def Collides (w : List (ReflectCall Ty Id)) : Prop :=
  ∃ c ∈ w, ∃ c' ∈ w, c.id = c'.id ∧ c.type ≠ c'.type

theorem Collides.append_right (h : Collides u) (v : List (ReflectCall Ty Id)) :
    Collides (u ++ v) := by
  obtain ⟨c, hc, c', hc', hh⟩ := h
  exact ⟨c, List.mem_append_left _ hc, c', List.mem_append_left _ hc', hh⟩

/-- What the guard is for. -/
structure GuardsIds (hashes : Hashes Ty Id) (w : List (ReflectCall Ty Id)) : Prop where
  /-- Two types under one id: some call aborts. -/
  collision : Collides w → reflectAll hashes w = none
  /-- Every id for one type only: no call aborts. -/
  quiet : ¬ Collides w → ∃ ctx, reflectAll hashes w = some ctx
  /-- While no call has aborted, every id resolves to the type registered under it. -/
  resolves : ∀ u v ctx, w = u ++ v → reflectAll hashes u = some ctx →
    ∀ c ∈ u, ctx.resolve c.id = some c.type

/-- Before two types collide, no type is registered under two ids. -/
def OneIdEach (w : List (ReflectCall Ty Id)) : Prop :=
  ∀ u v, w = u ++ v → ¬ Collides u → ∀ c ∈ u, ∀ c' ∈ u, c.type = c'.type → c.id = c'.id

theorem OneIdEach.of_append {v : List (ReflectCall Ty Id)} (h : OneIdEach (u ++ v)) :
    OneIdEach u := fun u' v' hu ↦ h u' (v' ++ v) (by rw [hu, List.append_assoc])

/-- Without a collision no call aborts. -/
theorem exists_reflectAll (h : ¬ Collides w) : ∃ ctx, reflectAll hashes w = some ctx := by
  induction w using List.reverseRecOn with
  | nil => exact ⟨[], rfl⟩
  | append_singleton w c ih =>
      obtain ⟨ctx, hall⟩ := ih fun hw ↦ h (hw.append_right _)
      obtain ⟨hctx, hm⟩ := represents_of_reflectAll hall
      rw [reflectAll_concat, hall, Option.bind_some]
      refine exists_perform hctx hm fun T' hT' ↦ ?_
      obtain ⟨c', hc', rfl, hid⟩ := exists_of_lastId hT'
      by_contra hne
      exact h ⟨c', List.mem_append_left _ hc', c, by simp, hid, hne⟩

/-- With one id for each type, no call having aborted means no collision, and the ids
all stand. -/
theorem lastId_of_oneIdEach (hw : OneIdEach w) (h : reflectAll hashes w = some ctx) :
    ¬ Collides w ∧ ∀ c ∈ w, lastId w c.type = some c.id := by
  induction w using List.reverseRecOn generalizing ctx with
  | nil =>
      constructor
      · rintro ⟨_, hc, -⟩
        cases hc
      · exact nofun
  | append_singleton w c ih =>
      rw [reflectAll_concat] at h
      obtain ⟨ctx₀, h₀, h⟩ := Option.bind_eq_some_iff.mp h
      obtain ⟨hnc, hlast⟩ := ih hw.of_append h₀
      obtain ⟨hctx, hm⟩ := represents_of_reflectAll h₀
      obtain ⟨hg, -⟩ := perform_eq_some hctx hm h
      -- an earlier call with this id was for this type, or the guard would have seen it
      have hc : ∀ c' ∈ w, c'.id = c.id → c'.type = c.type := fun c' hc' hid ↦
        hg _ (hid ▸ hlast c' hc')
      have hnc' : ¬ Collides (w ++ [c]) := by
        rintro ⟨a, ha, b, hb, hid, hne⟩
        simp only [List.mem_append, List.mem_singleton] at ha hb
        rcases ha with ha | rfl <;> rcases hb with hb | rfl
        · exact hnc ⟨a, ha, b, hb, hid, hne⟩
        · exact hne (hc a ha hid)
        · exact hne (hc b hb hid.symm).symm
        · exact hne rfl
      refine ⟨hnc', fun c' hc' ↦ ?_⟩
      rw [lastId_concat]
      by_cases hT : c'.type = c.type
      · have hid := hw _ [] (List.append_nil _).symm hnc' c' hc' c (by simp) hT
        rw [hT, Function.update_self, hid]
      · rw [Function.update_of_ne hT]
        rcases List.mem_append.mp hc' with hc' | hc'
        · exact hlast c' hc'
        · exact absurd (by rw [List.mem_singleton.mp hc']) hT

/-- The guard does what it is for, along a sequence of calls, if and only if no type is
registered under two ids before two types collide. -/
theorem guardsIds_iff (hashes : Hashes Ty Id) (w : List (ReflectCall Ty Id)) :
    GuardsIds hashes w ↔ OneIdEach w := by
  constructor
  · rintro h u v rfl hu c hc c' hc' hT
    obtain ⟨ctx, hall⟩ : ∃ ctx, reflectAll hashes u = some ctx := exists_reflectAll hu
    obtain ⟨hctx, hm⟩ := represents_of_reflectAll hall
    have hid := (hctx.resolve_eq_some hm).mp (h.resolves u v ctx rfl hall c hc)
    have hid' := (hctx.resolve_eq_some hm).mp (h.resolves u v ctx rfl hall c' hc')
    rw [← hT, hid] at hid'
    exact Option.some.inj hid'
  · intro hw
    refine ⟨fun hc ↦ ?_, exists_reflectAll, ?_⟩
    · rw [Option.eq_none_iff_forall_ne_some]
      exact fun ctx h ↦ (lastId_of_oneIdEach hw h).1 hc
    · rintro u v ctx rfl hall c hc
      obtain ⟨hctx, hm⟩ := represents_of_reflectAll hall
      exact (hctx.resolve_eq_some hm).mpr ((lastId_of_oneIdEach hw.of_append hall).2 c hc)

/-! ## A second id -/

/-- Types and ids by number, of no fields. -/
def plainHashes : Hashes Nat Nat := ⟨(· + 100), String.length, fun _ ↦ []⟩

/-- A type is registered under two ids, and then another one under the first of them. -/
def secondId : List (ReflectCall Nat Nat) := [⟨true, 0, 1⟩, ⟨true, 0, 2⟩, ⟨true, 1, 1⟩]

/-- Two types were registered under the id 1, and no call has aborted. -/
theorem secondId_unguarded : Collides secondId ∧
    (reflectAll plainHashes secondId).isSome = true ∧ ¬ GuardsIds plainHashes secondId := by
  have hc : Collides secondId :=
    ⟨⟨true, 0, 1⟩, by simp [secondId], ⟨true, 1, 1⟩, by simp [secondId], rfl, by decide⟩
  have hsome : (reflectAll plainHashes secondId).isSome = true := rfl
  refine ⟨hc, hsome, fun h ↦ ?_⟩
  rw [h.collision hc] at hsome
  cases hsome

end Konative.Reflect
