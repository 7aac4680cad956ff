import CallLowering.Proofs.Expr.Coerced
import CallLowering.Proofs.Expr.Computes

namespace CallLowering

/-- Two bare representations of which one holds truth values and the other does not. -/
def Rep.Apart (source target : Rep) : Prop :=
  source≠target ∧ source≠.boxed ∧ target≠.boxed ∧ (source=.bool ∨ target=.bool)

instance (source target : Rep) : Decidable (source.Apart target) :=
  inferInstanceAs (Decidable (_ ∧ _))

@[simp] theorem Rep.not_apart_boxed (source : Rep) : ¬source.Apart .boxed := fun h => h.2.2.1 rfl

@[simp] theorem Rep.not_boxed_apart (target : Rep) : ¬Rep.boxed.Apart target := fun h => h.2.1 rfl

namespace Slot

theorem convert_of_apart {s : Slot} {target : Rep} (h : s.rep.Apart target) :
    ∃ error, s.convert target=.error error := by
  obtain ⟨hne,hs,ht,hb⟩ := h
  cases s with
  | boxed v => exact absurd rfl hs
  | bool b =>
    cases target with
    | bool => exact absurd rfl hne
    | boxed => exact absurd rfl ht
    | _ => exact ⟨_,rfl⟩
  | int64 n =>
    cases target with
    | bool => exact ⟨_,rfl⟩
    | _ => simp [rep] at hb
  | float64 x =>
    cases target with
    | bool => exact ⟨_,rfl⟩
    | _ => simp [rep] at hb

end Slot

namespace Expr

variable {e e' : Expr} {target : Rep}

theorem Coerced.rep_eq (h : Coerced target e e') : e'.rep=target := by
  cases h with
  | same h => exact h
  | folded h => exact Slot.rep_of_convert h
  | boxed h => exact h.symm
  | unboxed => rfl
  | converted => rfl

/-- How a tree gets into a box. -/
inductive Boxed : Expr → Expr → Prop
  | already {e : Expr} : Boxed e e
  | constant {slot : Slot} : Boxed (const slot) (const slot.box)
  | node {e : Expr} : Boxed e (box e)

theorem exists_coerce_boxed (e : Expr) : ∃ e', Boxed e e' ∧ e.coerce .boxed=.ok e' := by
  rw [coerce]
  split
  · exact ⟨_,.already,rfl⟩
  · next hrep =>
    split
    · next folded hf =>
      cases e with
      | const slot =>
        rw [fold?,slot.convert_boxed] at hf
        cases hf
        exact ⟨_,.constant,rfl⟩
      | _ => cases hf
    · exact ⟨_,.node,if_pos rfl⟩

theorem coerce_of_apart (h : e.rep.Apart target) :
    e.coerce target=.error (.internal ("cannot coerce "++e.rep.text++" to "++target.text)) := by
  have unfolded : e.fold? target=none := by
    cases e with
    | const slot =>
      obtain ⟨error,hs⟩ := Slot.convert_of_apart h
      rw [fold?,hs]
      rfl
    | _ => rfl
  obtain ⟨hne,hs,ht,hb⟩ := h
  have foreign : ¬(e.rep.isNativeNumeric && target.isNativeNumeric)=true := by
    rw [Bool.and_eq_true]
    rintro ⟨numeric,numeric'⟩
    obtain hb|hb := hb
    · rw [hb] at numeric
      cases numeric
    · rw [hb] at numeric'
      cases numeric'
  rw [coerce,if_neg hne,unfolded]
  simp only [if_neg ht,if_neg hs,if_neg foreign]

theorem exists_coerce (h : ¬e.rep.Apart target) : ∃ e', e.coerce target=.ok e' := by
  rw [coerce]
  split
  · exact ⟨_,rfl⟩
  · next hne =>
    split
    · exact ⟨_,rfl⟩
    · by_cases ht : target=.boxed
      · exact ⟨_,if_pos ht⟩
      · rw [if_neg ht]
        by_cases hs : e.rep=.boxed
        · exact ⟨_,if_pos hs⟩
        · have numeric : (e.rep.isNativeNumeric && target.isNativeNumeric)=true := by
            cases hr : e.rep <;> cases target <;> simp_all [Rep.Apart,Rep.isNativeNumeric]
          rw [if_neg hs,if_pos numeric]
          exact ⟨_,rfl⟩

/-- Only a bare truth value on one of the two sides is in the way. -/
theorem coerce_error_iff : (∃ error, e.coerce target=.error error) ↔ e.rep.Apart target := by
  constructor
  · rintro ⟨error,h⟩
    by_contra hn
    obtain ⟨e',he'⟩ := exists_coerce hn
    rw [h] at he'
    cases he'
  · exact fun h => ⟨_,coerce_of_apart h⟩

theorem exists_coerce_int64 (h : e.rep≠.bool) : ∃ e', e.coerce .int64=.ok e' :=
  exists_coerce fun apart => apart.2.2.2.elim h nofun

/-- A bare truth value is no integer. -/
theorem coerce_int64_of_bool (h : e.rep=.bool) :
    e.coerce .int64=.error (.internal "cannot coerce bool to i64") := by
  have apart : e.rep.Apart .int64 := by
    rw [h]
    decide
  rw [coerce_of_apart apart,h]
  rfl

end Expr

theorem rep_of_coerceAll {es es' : List Expr} {params : List Rep} (hl : es.length=params.length)
    (h : coerceAll es params=.ok es') : es'.map Expr.rep=params := by
  induction es generalizing params es' with
  | nil =>
    cases h
    exact (List.length_eq_zero_iff.mp hl.symm).symm
  | cons e es ih =>
    cases params with
    | nil => cases hl
    | cons p params =>
      obtain ⟨e',he,h⟩ := Failure.bind_ok h
      obtain ⟨rest,hrest,h⟩ := Failure.bind_ok h
      cases h
      rw [List.map_cons,(Expr.coerced_of_coerce he).rep_eq,ih (Nat.succ.inj hl) hrest]

theorem Method.firstMisfit?_of_rep {m : Method} {index : Nat} {es : List Expr} {params : List Rep}
    (h : es.map Expr.rep=params) : m.firstMisfit? index es params=none := by
  induction es generalizing index params with
  | nil => rfl
  | cons e es ih =>
    cases h
    rw [List.map_cons,firstMisfit?,if_pos rfl,ih rfl]

/-- A call whose arguments have been brought into the representations of the parameters. -/
theorem Method.invoke_of_rep {m : Method} {es : List Expr} (h : es.map Expr.rep=m.params) :
    m.invoke es=.ok (.invoke m es) := by
  have count : es.length=m.arity := by
    rw [←List.length_map Expr.rep,h]
    rfl
  rw [invoke,if_neg (not_not.mpr count),firstMisfit?_of_rep h]

theorem coerceAll_boxed (es : List Expr) :
    ∃ es', List.Forall₂ Expr.Boxed es es' ∧ coerceAll es (es.map fun _ => .boxed)=.ok es' := by
  induction es with
  | nil => exact ⟨_,.nil,rfl⟩
  | cons e es ih =>
    obtain ⟨e',boxed,he⟩ := e.exists_coerce_boxed
    obtain ⟨es',rest,hes⟩ := ih
    rw [List.map_cons,coerceAll,he,hes]
    exact ⟨_,.cons boxed rest,rfl⟩

/-- Bringing arguments to integers fails just where one is a bare truth value. -/
theorem coerceAll_int64 (es : List Expr) : coerceAll es (es.map fun _ => .int64)=
      .error (.internal "cannot coerce bool to i64") ∧ (∃ e∈es, e.rep=.bool) ∨
    (∃ es', coerceAll es (es.map fun _ => .int64)=.ok es') ∧ ∀ e∈es, e.rep≠.bool := by
  induction es with
  | nil => exact .inr ⟨⟨_,rfl⟩,by simp⟩
  | cons e es ih =>
    rw [List.map_cons,coerceAll]
    by_cases hr : e.rep=.bool
    · rw [Expr.coerce_int64_of_bool hr]
      exact .inl ⟨rfl,e,by simp,hr⟩
    · obtain ⟨e',he⟩ := Expr.exists_coerce_int64 hr
      rw [he]
      obtain ⟨hes,d,hd,hb⟩|⟨⟨es',hes⟩,hn⟩ := ih
      · rw [hes]
        exact .inl ⟨rfl,d,by simp [hd],hb⟩
      · rw [hes]
        exact .inr ⟨⟨_,rfl⟩,by simpa [hr] using hn⟩

end CallLowering
