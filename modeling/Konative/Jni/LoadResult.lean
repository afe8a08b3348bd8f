import Konative.Jni.LoadSteps

/-!
# What a load reports

A load that succeeds has made every call of its mandatory steps and none of them failed;
otherwise the error names the first step that did; and an upgrade that fails is as one of a
dex without the provider.  The last always holds, up to a null class that only shows in what
is looked up in it.  The others hold where the calls whose exception is not looked at show
by their results that they raised.
-/

namespace Konative.Jni

open Checklist

/-! ## The promise -/

/-- What the mandatory calls came to. -/
def behaviours (calls : List Event) : List Behaviour := (mandatory calls).map (·.behaviour)

/-- What the first mandatory step that failed is reported as. -/
def verdict (calls : List Event) : Option DexLoadError :=
  first (fun _ x ↦ x.failed) Step.error steps (behaviours calls)

/-- A call of the upgrade failed. -/
def UpgradeFails (calls : List Event) : Prop :=
  ∃ e ∈ optional calls, e.isFallback = false ∧ e.behaviour.failed = true

/-- The dex does not define the provider. -/
def LacksProvider (calls : List Event) : Prop :=
  ∃ e ∈ optional calls, e.call.look = .method ∧ e.behaviour.raises = true

/-- The plain loader is taken, with nothing pending. -/
def FallsBack (calls : List Event) : Prop :=
  ∃ n ∈ mandatory calls, n.call.isNewObject = true ∧
    ∃ e ∈ optional calls, e.call = .newLocalRef (some n.handle) ∧ e.pending = false

/-- The mandatory calls behave the same as far as both runs go, and so does the fallback. -/
structure Alike (calls calls' : List Event) : Prop where
  mandatory : behaviours calls <+: behaviours calls' ∨ behaviours calls' <+: behaviours calls
  fallback : ((optional calls).filter Event.isFallback).map (·.behaviour) =
    ((optional calls').filter Event.isFallback).map (·.behaviour)

/-- What a load promises of its result, where the environment behaves like `σ`. -/
structure Reports (dexBytes dexSize : Nat) (name : String) (σ : Nat → Behaviour) : Prop where
  /-- It succeeds only if every mandatory call was made and none failed. -/
  success : ∀ loaded, (loadRun dexBytes dexSize name σ).1 = .ok loaded →
    (mandatory (loadRun dexBytes dexSize name σ).2.calls).length = steps.length ∧
      ∀ e ∈ mandatory (loadRun dexBytes dexSize name σ).2.calls, e.behaviour.failed = false
  /-- Otherwise the error names the first step that failed. -/
  failure : ∀ X, verdict (loadRun dexBytes dexSize name σ).2.calls = some X →
    (loadRun dexBytes dexSize name σ).1 = .error X
  /-- An upgrade that fails is as one of a dex without the provider. -/
  upgrade : UpgradeFails (loadRun dexBytes dexSize name σ).2.calls →
    FallsBack (loadRun dexBytes dexSize name σ).2.calls ∧
      ∀ σ', LacksProvider (loadRun dexBytes dexSize name σ').2.calls →
        Alike (loadRun dexBytes dexSize name σ).2.calls
          (loadRun dexBytes dexSize name σ').2.calls →
        outcome (loadRun dexBytes dexSize name σ').1 =
          outcome (loadRun dexBytes dexSize name σ).1

/-- The calls whose exception is not looked at raise only where their result shows it. -/
structure Shown (calls : List Event) : Prop where
  methods : ∀ e ∈ mandatory calls, e.call.look = .method → e.behaviour.ok = true →
    e.behaviour.raises = false
  /-- Of the promotions it is enough that the result of one shows it. -/
  promotions : (∀ e ∈ mandatory calls, e.call.look = .promotion → e.behaviour.ok = true) →
    ∀ e ∈ mandatory calls, e.call.look = .promotion → e.behaviour.raises = false
  /-- What fails in the upgrade is not just a null class in which a method was found. -/
  upgrade : UpgradeFails calls → ∃ e ∈ optional calls, e.isFallback = false ∧ e.shows = true

/-! ## What is reported -/

namespace Ended

variable {o o' : Option DexLoadError} {ms us ms' us' : List Event} {i : Nat} {e : Event} {st : Step}

/-- The call of a step has the step's kind of look. -/
theorem look_eq (h : Ended o ms us) (he : ms[i]? = some e) (hst : steps[i]? = some st) :
    e.call.look = st.look := by
  have hl : i < ms.length := (List.getElem?_eq_some_iff.mp he).1
  have hlook := congrArg (·[i]?) h.along.look
  rw [List.getElem?_map, List.getElem?_map, he, List.getElem?_take_of_lt hl, hst] at hlook
  exact Option.some.inj hlook

/-- Every call is that of a step. -/
theorem step_of (h : Ended o ms us) (he : ms[i]? = some e) : ∃ st, steps[i]? = some st := by
  have hl : i < ms.length := (List.getElem?_eq_some_iff.mp he).1
  exact ⟨_, List.getElem?_eq_getElem (Nat.lt_of_lt_of_le hl h.along.length)⟩

/-- A call before the last and before the promotions was not noticed. -/
theorem not_noticed (h : Ended o ms us) (hi : i + 1 < ms.length) (hi' : i < 15)
    (he : ms[i]? = some e) (hst : steps[i]? = some st) :
    st.look.notices e.behaviour = false := by
  rw [Bool.eq_false_iff]
  intro hn
  have hx : ((ms.dropLast.take 15).map (·.behaviour))[i]? = some e.behaviour := by
    rw [List.getElem?_map, List.getElem?_take_of_lt hi', List.getElem?_dropLast,
      if_pos (Nat.lt_sub_of_add_lt hi), he]
    rfl
  have hstops : first (fun st x ↦ st.look.notices x) Step.error steps
      ((ms.dropLast.take 15).map (·.behaviour)) = none := h.stops
  exact first_ne_none hst hx hn hstops

/-- What the table of steps says of each row. -/
theorem of_steps {P : Nat → Step → Prop} (hP : ∀ k : Fin 17, P k.val (steps.get k))
    (hst : steps[i]? = some st) : P i st := by
  obtain ⟨hlt, rfl⟩ := List.getElem?_eq_some_iff.mp hst
  exact hP ⟨i, hlt⟩

theorem look_promotion_iff (hst : steps[i]? = some st) : st.look = .promotion ↔ 15 ≤ i :=
  of_steps (P := fun k st ↦ st.look = .promotion ↔ 15 ≤ k) (by decide) hst

theorem error_of_promotion (hst : steps[i]? = some st) (hi : 15 ≤ i) :
    st.error = .globalRefPromotionFailed :=
  of_steps (P := fun k st ↦ 15 ≤ k → st.error = .globalRefPromotionFailed) (by decide) hst hi

/-- The call of a method is the last step with its error. -/
theorem error_ne_of_method {j : Nat} {st' : Step} (hst : steps[i]? = some st)
    (hst' : steps[j]? = some st') (hlook : st.look = .method) (hij : i < j) :
    st'.error ≠ st.error := by
  have htable : ∀ k l : Fin 17, (steps.get k).look = .method → k.val < l.val →
      (steps.get l).error ≠ (steps.get k).error := by decide
  refine of_steps (P := fun l st' ↦ i < l → st'.error ≠ st.error) (fun l ↦ ?_) hst' hij
  exact of_steps (P := fun k st ↦ st.look = .method → k < l.val → _ ≠ st.error)
    (fun k ↦ htable k l) hst hlook

theorem loadClass_of_method (hst : steps[i]? = some st) (hlook : st.look = .method)
    (herror : st.error = .classNotFoundInDex) : 12 ≤ i :=
  of_steps (P := fun k st ↦ st.look = .method → st.error = .classNotFoundInDex → 12 ≤ k)
    (by decide) hst hlook herror

/-- What is noticed has failed. -/
theorem notices_of_not_failed {l : Look} {x : Behaviour} (h : x.failed = false) :
    l.notices x = false := by
  cases l with
  | exception => exact h
  | method | promotion => exact (Bool.or_eq_false_iff.mp h).2

theorem getElem?_behaviour {x : Behaviour} (h : (ms.map (·.behaviour))[i]? = some x) :
    ∃ e, ms[i]? = some e ∧ e.behaviour = x := by
  rw [List.getElem?_map] at h
  exact Option.map_eq_some_iff.mp h

theorem behaviour_getElem? (h : ms[i]? = some e) :
    (ms.map (·.behaviour))[i]? = some e.behaviour := by
  rw [List.getElem?_map, h]
  rfl

/-- The first call that is noticed is what a load comes to. -/
theorem outcome_of_noticed (h : Ended o ms us) (he : ms[i]? = some e) (hst : steps[i]? = some st)
    (hn : st.look.notices e.behaviour = true)
    (hbefore : ∀ j < i, ∀ st' e', steps[j]? = some st' → ms[j]? = some e' →
      st'.look.notices e'.behaviour = false) : o = some st.error := by
  have hX : noticed ms = some st.error :=
    first_eq hst (behaviour_getElem? he) hn fun j hj st' x' hst' hx' ↦ by
      obtain ⟨e', he', rfl⟩ := getElem?_behaviour hx'
      exact hbefore j hj st' e' hst' he'
  rw [h.outcome]
  split
  · rename_i hf
    -- it is the call that came last, after the fallback
    have hlen := h.late hf
    have hi := (List.getElem?_eq_some_iff.mp he).1
    have hlast : i = 11 := by
      by_contra hne
      rw [h.not_noticed (by omega) (by omega) he hst] at hn
      cases hn
    subst hlast
    obtain rfl := Option.some.inj hst
    rfl
  · exact hX

/-- A failure that is not noticed leaves a result. -/
theorem unnoticed {l : Look} {x : Behaviour} (hx : x.failed = true) (hl : l.notices x = false) :
    l ≠ .exception ∧ x.ok = true ∧ x.raises = true := by
  cases l with
  | exception => rw [Look.notices, hx] at hl; cases hl
  | method | promotion =>
      rw [Look.notices, Bool.not_eq_false'] at hl
      rw [Behaviour.failed, hl, Bool.not_true, Bool.or_false] at hx
      exact ⟨by rintro ⟨⟩, hl, hx⟩

/-- A promotion that raised and was not noticed is reported where the result of the other
shows it. -/
theorem outcome_of_promotion (h : Ended o ms us)
    (hpromotions : (∀ e ∈ ms, e.call.look = .promotion → e.behaviour.ok = true) →
      ∀ e ∈ ms, e.call.look = .promotion → e.behaviour.raises = false)
    (he : ms[i]? = some e) (hst : steps[i]? = some st) (hl : st.look = .promotion)
    (hraises : e.behaviour.raises = true)
    (hquiet : ∀ j ≤ i, ∀ st' e', steps[j]? = some st' → ms[j]? = some e' →
      st'.look.notices e'.behaviour = false) : o = some st.error := by
  have hi := (look_promotion_iff hst).mp hl
  have hlen := (List.getElem?_eq_some_iff.mp he).1
  have hlen17 := h.pair (Nat.lt_of_le_of_lt hi hlen)
  have hall : ¬ ∀ e ∈ ms, e.call.look = .promotion → e.behaviour.ok = true := by
    intro hall
    rw [hpromotions hall e (List.mem_of_getElem? he) ((h.look_eq he hst).trans hl)] at hraises
    cases hraises
  push Not at hall
  obtain ⟨e', hmem', hlook', hok'⟩ := hall
  obtain ⟨m, he'⟩ := List.getElem?_of_mem hmem'
  obtain ⟨st', hst'⟩ := h.step_of he'
  have hl' := (h.look_eq he' hst').symm.trans hlook'
  have hm := (look_promotion_iff hst').mp hl'
  have hm17 := (List.getElem?_eq_some_iff.mp he').1
  rw [error_of_promotion hst hi, ← error_of_promotion hst' hm]
  refine h.outcome_of_noticed he' hst' ?_ fun j hj st'' e'' hst'' he'' ↦ ?_
  · rw [hl', Look.notices, Bool.eq_false_of_not_eq_true hok']
    rfl
  -- there are two promotions, so what comes before the other is not behind this one
  · exact hquiet j (by omega) st'' e'' hst'' he''

/-- The first failure is reported where those not looked for show. -/
theorem failure (h : Ended o ms us)
    (hmethods : ∀ e ∈ ms, e.call.look = .method → e.behaviour.ok = true →
      e.behaviour.raises = false)
    (hpromotions : (∀ e ∈ ms, e.call.look = .promotion → e.behaviour.ok = true) →
      ∀ e ∈ ms, e.call.look = .promotion → e.behaviour.raises = false)
    {X : DexLoadError}
    (hX : first (fun _ x ↦ x.failed) Step.error steps (ms.map (·.behaviour)) = some X) :
    o = some X := by
  obtain ⟨i, st, x, hst, hx, hfailed, rfl, hbefore⟩ := first_eq_some hX
  obtain ⟨e, he, rfl⟩ := getElem?_behaviour hx
  have hquiet : ∀ j < i, ∀ st' e', steps[j]? = some st' → ms[j]? = some e' →
      st'.look.notices e'.behaviour = false := fun j hj st' e' hst' he' ↦
    notices_of_not_failed (hbefore j hj st' _ hst' (behaviour_getElem? he'))
  cases hn : st.look.notices e.behaviour with
  | true => exact h.outcome_of_noticed he hst hn hquiet
  | false =>
      obtain ⟨hlook, hok, hraises⟩ := unnoticed hfailed hn
      cases hl : st.look with
      | exception => exact absurd hl hlook
      | method =>
          have hcall := (h.look_eq he hst).trans hl
          rw [hmethods e (List.mem_of_getElem? he) hcall hok] at hraises
          cases hraises
      | promotion =>
          refine h.outcome_of_promotion hpromotions he hst hl hraises fun j hj st' e' hst' he' ↦ ?_
          rcases Nat.lt_or_eq_of_le hj with hlt | rfl
          · exact hquiet j hlt st' e' hst' he'
          · obtain rfl := Option.some.inj (hst.symm.trans hst')
            obtain rfl := Option.some.inj (he.symm.trans he')
            exact hn

/-- A load that comes to an error without the fallback failing has noticed a call. -/
theorem noticed_of_outcome (h : Ended o ms us) {X : DexLoadError} (ho : o = some X)
    (hf : fallbackFails us = false) :
    ∃ (j : Nat) (st : Step) (e : Event), ms[j]? = some e ∧ steps[j]? = some st ∧
      st.look.notices e.behaviour = true ∧ st.error = X := by
  have hX := h.outcome.symm.trans ho
  rw [hf, if_neg Bool.false_ne_true] at hX
  obtain ⟨j, st, x, hst, hx, hn, herror, -⟩ := first_eq_some hX
  obtain ⟨e, he, rfl⟩ := getElem?_behaviour hx
  exact ⟨j, st, e, he, hst, hn, herror⟩

section Converse

variable (h : Ended o ms us)
  (hfailure : ∀ X, first (fun _ x ↦ x.failed) Step.error steps (ms.map (·.behaviour)) = some X →
    o = some X)

include h hfailure

/-- Where a call fails, the load comes to the first that does. -/
theorem outcome_of_failed (he : ms[i]? = some e) (hx : e.behaviour.failed = true) :
    ∃ j ≤ i, ∃ st e', ms[j]? = some e' ∧ steps[j]? = some st ∧ e'.behaviour.failed = true ∧
      o = some st.error := by
  obtain ⟨st, hst⟩ := h.step_of he
  obtain ⟨X, hX⟩ := Option.ne_none_iff_exists'.mp
    (first_ne_none (p := fun _ x ↦ x.failed) hst (behaviour_getElem? he) hx)
  obtain ⟨j, st', x', hst', hx', hfailed, rfl, hbefore⟩ := first_eq_some hX
  obtain ⟨e', he', rfl⟩ := getElem?_behaviour hx'
  refine ⟨j, ?_, st', e', he', hst', hfailed, hfailure _ hX⟩
  by_contra hij
  rw [hbefore i (Nat.lt_of_not_le hij) st _ hst (behaviour_getElem? he)] at hx
  cases hx

theorem methods : ∀ e ∈ ms, e.call.look = .method → e.behaviour.ok = true →
    e.behaviour.raises = false := by
  intro e hmem hlook hok
  rw [Bool.eq_false_iff]
  intro hraises
  obtain ⟨i, he⟩ := List.getElem?_of_mem hmem
  have hi := (List.getElem?_eq_some_iff.mp he).1
  obtain ⟨st, hst⟩ := h.step_of he
  have hl := (h.look_eq he hst).symm.trans hlook
  have hi15 : i < 15 := by
    by_contra hge
    rw [(look_promotion_iff hst).mpr (Nat.le_of_not_lt hge)] at hl
    cases hl
  -- nothing is noticed up to `i`
  have hquiet : ∀ j ≤ i, ∀ e' st', ms[j]? = some e' → steps[j]? = some st' →
      st'.look.notices e'.behaviour = false := by
    intro j hj e' st' he' hst'
    rcases Nat.lt_or_eq_of_le hj with hlt | rfl
    · exact h.not_noticed (by omega) (by omega) he' hst'
    · obtain rfl := Option.some.inj (he.symm.trans he')
      obtain rfl := Option.some.inj (hst.symm.trans hst')
      rw [hl, Look.notices, hok]
      rfl
  obtain ⟨j, hj, st', e', he', hst', hx', ho⟩ := h.outcome_of_failed hfailure he
    (by rw [Behaviour.failed, hraises, Bool.true_or])
  have hmethod : st'.look = .method := by
    have hne := (unnoticed hx' (hquiet j hj e' st' he' hst')).1
    cases hl' : st'.look with
    | exception => exact absurd hl' hne
    | method => rfl
    | promotion => exact absurd ((look_promotion_iff hst').mp hl') (by omega)
  cases hf : fallbackFails us with
  | true =>
      have herror : st'.error = .classNotFoundInDex := by
        have hout := ho.symm.trans h.outcome
        rw [hf, if_pos rfl] at hout
        exact Option.some.inj hout
      have hge := loadClass_of_method hst' hmethod herror
      have hlen := h.late hf
      omega
  | false =>
      obtain ⟨m, st'', e'', he'', hst'', hn, herror⟩ := h.noticed_of_outcome ho hf
      rcases Nat.lt_or_ge i m with hlt | hge
      · exact error_ne_of_method hst' hst'' hmethod (Nat.lt_of_le_of_lt hj hlt) herror
      · rw [hquiet m hge e'' st'' he'' hst''] at hn
        cases hn

theorem promotions (hall : ∀ e ∈ ms, e.call.look = .promotion → e.behaviour.ok = true) :
    ∀ e ∈ ms, e.call.look = .promotion → e.behaviour.raises = false := by
  intro e hmem hlook
  rw [Bool.eq_false_iff]
  intro hraises
  obtain ⟨i, he⟩ := List.getElem?_of_mem hmem
  have hi := (List.getElem?_eq_some_iff.mp he).1
  obtain ⟨st, hst⟩ := h.step_of he
  have hi15 := (look_promotion_iff hst).mp ((h.look_eq he hst).symm.trans hlook)
  have hlen := h.pair (Nat.lt_of_le_of_lt hi15 hi)
  obtain ⟨j, -, st', e', -, -, -, ho⟩ := h.outcome_of_failed hfailure he
    (by rw [Behaviour.failed, hraises, Bool.true_or])
  have hf : fallbackFails us = false := by
    rw [Bool.eq_false_iff]
    intro hf
    have hlate := h.late hf
    omega
  obtain ⟨m, st'', e'', he'', hst'', hn, -⟩ := h.noticed_of_outcome ho hf
  rcases Nat.lt_or_ge m 15 with hlt | hge
  · rw [h.not_noticed (by omega) hlt he'' hst''] at hn
    cases hn
  · have hl := (look_promotion_iff hst'').mpr hge
    rw [hl, Look.notices, hall e'' (List.mem_of_getElem? he'')
      ((h.look_eq he'' hst'').trans hl)] at hn
    cases hn

end Converse

/-- A load that succeeds has made every call, and none of them failed. -/
theorem success (h : Ended none ms us)
    (hfailure : ∀ X, first (fun _ x ↦ x.failed) Step.error steps (ms.map (·.behaviour)) = some X →
      (none : Option DexLoadError) = some X) :
    ms.length = steps.length ∧ ∀ e ∈ ms, e.behaviour.failed = false := by
  refine ⟨h.complete rfl, fun e hmem ↦ ?_⟩
  rw [Bool.eq_false_iff]
  intro hx
  obtain ⟨i, he⟩ := List.getElem?_of_mem hmem
  obtain ⟨j, -, st, e', -, -, -, ho⟩ := h.outcome_of_failed hfailure he hx
  cases ho

/-! ## The upgrade -/

/-- The plain loader was taken, with nothing pending, where something showed. -/
theorem fallsBack (h : Ended o ms us) (hshows : ∃ u ∈ us, u.shows = true) :
    ∃ n ∈ ms, n.call.isNewObject = true ∧
      ∃ e ∈ us, e.call = .newLocalRef (some n.handle) ∧ e.pending = false := by
  obtain ⟨u, hu, hs⟩ := hshows
  rcases h.upgrade with rfl | ⟨n, hn, hnew, hquiet | ⟨bs, e, rfl, he, hp, -, -⟩⟩
  · exact absurd hu List.not_mem_nil
  · rw [(hquiet u hu).2] at hs
    cases hs
  · exact ⟨n, hn, hnew, e, List.mem_append_right _ (List.mem_singleton.mpr rfl), he, hp⟩

/-- The plain loader is taken only where something showed. -/
theorem shows_of_fallback (h : Ended o ms us) (he : e ∈ us) (hf : e.isFallback = true) :
    ∃ u ∈ us, u.isFallback = false ∧ u.shows = true := by
  rcases h.upgrade with rfl | ⟨n, hn, hnew, hquiet | ⟨bs, e, rfl, -, -, hbs, u, hu, hs⟩⟩
  · exact absurd he List.not_mem_nil
  · rw [(hquiet e he).1] at hf
    cases hf
  · exact ⟨u, List.mem_append_left _ hu, hbs u hu, hs⟩

theorem fallbackFails_eq (us : List Event) :
    fallbackFails us = ((us.filter Event.isFallback).map (·.behaviour)).any Behaviour.failed := by
  rw [fallbackFails, List.any_map, List.any_filter]
  rfl

/-- Two loads whose mandatory calls and fallback behave the same come to the same. -/
theorem outcome_eq_of_prefix (h : Ended o ms us) (h' : Ended o' ms' us')
    (hms : ms.map (·.behaviour) <+: ms'.map (·.behaviour))
    (hus : fallbackFails us = fallbackFails us') : o = o' := by
  have ho := h.outcome
  rw [h'.outcome, ← hus]
  cases hf : fallbackFails us with
  | true =>
      rw [hf] at ho
      exact ho
  | false =>
      rw [hf, if_neg Bool.false_ne_true] at ho
      rw [if_neg Bool.false_ne_true]
      cases hn : noticed ms with
      | some X => exact (ho.trans hn).trans (first_mono hms hn).symm
      | none =>
          have hlen := h.complete (ho.trans hn)
          rw [ho]
          refine (first_of_complete hms ?_).symm
          rw [List.length_map, hlen]

end Ended

/-- Two runs that are alike come to the same. -/
theorem Alike.outcome_eq {dexBytes dexSize : Nat} {name : String} {σ σ' : Nat → Behaviour}
    (h : Alike (loadRun dexBytes dexSize name σ).2.calls
      (loadRun dexBytes dexSize name σ').2.calls) :
    outcome (loadRun dexBytes dexSize name σ').1 = outcome (loadRun dexBytes dexSize name σ).1 := by
  have hend := loadRun_ended dexBytes dexSize name σ
  have hend' := loadRun_ended dexBytes dexSize name σ'
  have hus : fallbackFails (optional (loadRun dexBytes dexSize name σ).2.calls) =
      fallbackFails (optional (loadRun dexBytes dexSize name σ').2.calls) := by
    rw [Ended.fallbackFails_eq, h.fallback, ← Ended.fallbackFails_eq]
  rcases h.mandatory with hms | hms
  · exact (hend.outcome_eq_of_prefix hend' hms hus).symm
  · exact hend'.outcome_eq_of_prefix hend hms hus.symm

theorem outcome_eq_some {r : Except DexLoadError LoadedDexClass} {X : DexLoadError} :
    outcome r = some X ↔ r = .error X := by
  cases r with
  | ok loaded => exact ⟨nofun, nofun⟩
  | error Y => exact ⟨fun h ↦ congrArg _ (Option.some.inj h), fun h ↦ by cases h; rfl⟩

/-- However the environment behaves, a load reports what happened if and only if the calls
whose exception is not looked at show that they raised. -/
theorem loadRun_reports_iff (dexBytes dexSize : Nat) (name : String) (σ : Nat → Behaviour) :
    Reports dexBytes dexSize name σ ↔ Shown (loadRun dexBytes dexSize name σ).2.calls := by
  have hend := loadRun_ended dexBytes dexSize name σ
  constructor
  · intro h
    have hfailure : ∀ X, verdict (loadRun dexBytes dexSize name σ).2.calls = some X →
        outcome (loadRun dexBytes dexSize name σ).1 = some X :=
      fun X hX ↦ outcome_eq_some.mpr (h.failure X hX)
    refine ⟨hend.methods hfailure, hend.promotions hfailure, fun hfails ↦ ?_⟩
    obtain ⟨n, -, -, e, he, hcall, -⟩ := (h.upgrade hfails).1
    exact hend.shows_of_fallback he (by rw [Event.isFallback, hcall]; rfl)
  · intro h
    have hfailure : ∀ X, verdict (loadRun dexBytes dexSize name σ).2.calls = some X →
        outcome (loadRun dexBytes dexSize name σ).1 = some X :=
      fun X ↦ hend.failure h.methods h.promotions
    refine ⟨fun loaded hr ↦ ?_, fun X hX ↦ outcome_eq_some.mp (hfailure X hX), fun hfails ↦
      ⟨hend.fallsBack ?_, fun σ' _ halike ↦ halike.outcome_eq⟩⟩
    · rw [hr] at hend hfailure
      exact hend.success hfailure
    · obtain ⟨e, he, -, hs⟩ := h.upgrade hfails
      exact ⟨e, he, hs⟩

/-- `currentApplication` raises and returns a reference all the same. -/
theorem currentApplicationThrows_not_reports :
    ¬ ∀ (dexBytes dexSize : Nat) (name : String) (σ : Nat → Behaviour),
      Reports dexBytes dexSize name σ := by
  intro h
  let σ : Nat → Behaviour := fun n ↦ if n = 4 then ⟨true, true, ""⟩ else ⟨true, false, ""⟩
  have hv : verdict (loadRun 0 0 "" σ).2.calls = some .currentApplicationNull := by decide
  have ho : outcome (loadRun 0 0 "" σ).1 = none := by decide
  rw [(h 0 0 "" σ).failure _ hv] at ho
  cases ho

end Konative.Jni
