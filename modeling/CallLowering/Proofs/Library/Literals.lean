import CallLowering.Proofs.Fragment.Phrase
import CallLowering.Proofs.Library.Refused

namespace CallLowering.Library

open Text Fragment

/-- What becomes of the step of a range in JavaScript. -/
inductive StepUse
  | refused
  | verbatim
  | checked

/-- The step of the range from `x` to `y` is used in this way. -/
def StepUse.Holds (context : CallContext) (x y z : Phrase) (use : StepUse) : Prop :=
  let config := context.config.javaScript
  let callee := config.rangeLibrary++".range"
  let args := Phrase.fragments .javaScript [x,y,z]
  let lowered := RangeFunction.javaScript.lower context args
  let imports := RangeFunction.javaScript.imports context args
  match use with
  | refused => z.IsLiteral .javaScript 0 ∧ Refused lowered
  | verbatim =>
      (∃ v : Int64, v≠0 ∧ z.IsLiteral .javaScript v) ∧ lowered=.ok (JavaScript.call callee args) ∧
        (z.fragment .javaScript).within JavaScript.argumentFloor=(z.fragment .javaScript).text ∧
        config.runtimeLibrary∉imports
  | checked =>
      let check := Phrase.call (config.runtimeLibrary++".checkedStep") [z]
      lowered=.ok (JavaScript.call callee (Phrase.fragments .javaScript [x,y,check])) ∧ config.runtimeLibrary∈imports

/-- A step is used in one way only. -/
theorem StepUse.Holds.unique {context : CallContext} {x y z : Phrase} {u u' : StepUse}
    (h : u.Holds context x y z) (h' : u'.Holds context x y z) : u=u' := by
  have accepted {f : Fragment} {l : Except LowerError Fragment} (hl : l=.ok f) : ¬Refused l :=
    hl ▸ not_refused_ok f
  cases u <;> cases u'
  case refused.refused | verbatim.verbatim | checked.checked => rfl
  case refused.verbatim => exact absurd h.2 (accepted h'.2.1)
  case refused.checked => exact absurd h.2 (accepted h'.1)
  case verbatim.refused => exact absurd h'.2 (accepted h.2.1)
  case checked.refused => exact absurd h'.2 (accepted h.1)
  case verbatim.checked => exact absurd h'.2 h.2.2.2
  case checked.verbatim => exact absurd h.2 h'.2.2.2

/-- `randomInt` in a text language. -/
def randomIntText : Dialect → TextLowering
  | .javaScript => RandomInt.javaScript
  | .python => RandomInt.python

/-- The literals among phrases are found in their text, and nothing else is taken for one, if all that is called has
this property. -/
structure LiteralsFound (callees : String → Prop) : Prop where
  /-- By itself, and in parentheses where its place asks for them. -/
  read {d : Dialect} {t : Phrase} (h : t.Proper d callees) (v : Int64) :
    ((t.fragment d).integer?=some v ↔ t.IsLiteral d v) ∧
      ∀ floor p, (Fragment.mk ((t.fragment d).within floor) p).integer?=some v ↔ t.IsLiteral d v
  javaScript_step (context : CallContext) (x y : Phrase) {z : Phrase} (h : z.Proper .javaScript callees)
    (apart : context.config.javaScript.runtimeLibrary≠context.config.javaScript.rangeLibrary) :
    ∃! use : StepUse, use.Holds context x y z
  python_step (context : CallContext) {args : List Phrase} (h : ∀ t∈args, t.Proper .python callees)
    (count : 1≤args.length ∧ args.length≤3) (e : LowerError) :
    RangeFunction.python.lower context (Phrase.fragments .python args)=.error e ↔
      ∃ x y z, args=[x,y,z] ∧ z.IsLiteral .python 0 ∧ e=RangeFunction.zeroStep
  bound {d : Dialect} (context : CallContext) {t : Phrase} (h : t.Proper d callees) (e : LowerError) :
    (randomIntText d).lower context [t.fragment d]=.error e ↔
      ∃ v : Int64, v.toInt≤0 ∧ t.IsLiteral d v ∧
        e=.invalidArgument RandomInt.name ("upper bound must be positive, got "++Int64.text v)

section

variable {callees : String → Prop} (hc : ∀ s, callees s → Visible s.toList)

include hc

theorem exists_use (context : CallContext) (x y : Phrase) {z : Phrase} (h : z.Proper .javaScript callees)
    (apart : context.config.javaScript.runtimeLibrary≠context.config.javaScript.rangeLibrary) :
    ∃ use : StepUse, use.Holds context x y z := by
  have lowered : RangeFunction.javaScript.lower context (Phrase.fragments .javaScript [x,y,z])=(do
      let step ← RangeFunction.guardStep context.config.javaScript (z.fragment .javaScript)
      return JavaScript.call (context.config.javaScript.rangeLibrary++".range")
        [x.fragment .javaScript,y.fragment .javaScript,step]) := rfl
  have imports : RangeFunction.javaScript.imports context (Phrase.fragments .javaScript [x,y,z])=
      if (z.fragment .javaScript).integer?.isNone then
        [context.config.javaScript.rangeLibrary,context.config.javaScript.runtimeLibrary]
      else [context.config.javaScript.rangeLibrary] := rfl
  cases hz : (z.fragment .javaScript).integer? with
  | none =>
    refine ⟨.checked,?_,?_⟩
    · rw [lowered,RangeFunction.guardStep,hz]
      rfl
    · rw [imports,hz]
      simp
  | some v =>
    have literal := (Phrase.integer?_fragment hc h).mp hz
    by_cases zero : v=0
    · subst zero
      refine ⟨.refused,literal,RangeFunction.name,"step must be non-zero",?_⟩
      rw [lowered,RangeFunction.guardStep,hz]
      rfl
    · refine ⟨.verbatim,⟨v,zero,literal⟩,?_,literal.argument,?_⟩
      · rw [lowered,RangeFunction.guardStep,hz]
        simp only [if_neg zero]
        rfl
      · rw [imports,hz]
        simpa using apart

theorem range_python_step (context : CallContext) {args : List Phrase} (h : ∀ t∈args, t.Proper .python callees)
    (count : 1≤args.length ∧ args.length≤3) (e : LowerError) :
    RangeFunction.python.lower context (Phrase.fragments .python args)=.error e ↔
      ∃ x y z, args=[x,y,z] ∧ z.IsLiteral .python 0 ∧ e=RangeFunction.zeroStep := by
  obtain _|⟨x,_|⟨y,_|⟨z,_|⟨w,rest⟩⟩⟩⟩ := args
  · simp at count
  · constructor
    · rintro ⟨⟩
    · rintro ⟨_,_,_,⟨⟩,-⟩
  · constructor
    · rintro ⟨⟩
    · rintro ⟨_,_,_,⟨⟩,-⟩
  · have told : (z.fragment .python).integer?=some 0 ↔ z.IsLiteral .python 0 :=
      Phrase.integer?_fragment hc (h z (by simp))
    have lowered : RangeFunction.python.lower context (Phrase.fragments .python [x,y,z])=(do
        RangeFunction.checkStep (z.fragment .python).integer?
        return Python.call "list"
          [Python.call context.config.python.rangeBuiltin (Phrase.fragments .python [x,y,z])]) := rfl
    rw [lowered,Failure.bind_pure_error,RangeFunction.checkStep]
    by_cases zero : z.IsLiteral .python 0
    · rw [if_pos (told.mpr zero)]
      constructor
      · rintro ⟨⟩
        exact ⟨x,y,z,rfl,zero,rfl⟩
      · rintro ⟨_,_,_,-,-,rfl⟩
        rfl
    · rw [if_neg fun found => zero (told.mp found)]
      constructor
      · rintro ⟨⟩
      · rintro ⟨_,_,_,⟨⟩,literal,-⟩
        exact absurd literal zero
  · simp at count
    omega

theorem randomInt_bound {d : Dialect} (context : CallContext) {t : Phrase} (h : t.Proper d callees) (e : LowerError) :
    (randomIntText d).lower context [t.fragment d]=.error e ↔
      ∃ v : Int64, v.toInt≤0 ∧ t.IsLiteral d v ∧
        e=.invalidArgument RandomInt.name ("upper bound must be positive, got "++Int64.text v) := by
  have checked : (randomIntText d).lower context [t.fragment d]=.error e ↔
      RandomInt.checkBound (t.fragment d).integer?=.error e := by
    cases d <;> exact Failure.bind_pure_error
  rw [checked]
  constructor
  · intro refused
    cases hv : (t.fragment d).integer? with
    | none =>
      rw [hv] at refused
      cases refused
    | some v =>
      rw [hv,RandomInt.checkBound] at refused
      split at refused
      · next low =>
        cases refused
        exact ⟨v,low,(Phrase.integer?_fragment hc h).mp hv,rfl⟩
      · cases refused
  · rintro ⟨v,low,literal,rfl⟩
    rw [(Phrase.integer?_fragment hc h).mpr literal,RandomInt.checkBound,if_pos low]

end

theorem literals_found : LiteralsFound fun callee => Visible callee.toList := by
  have hc : ∀ callee : String, Visible callee.toList → Visible callee.toList := fun _ visible => visible
  exact {
    read h v := ⟨Phrase.integer?_fragment hc h,Phrase.integer?_within hc h⟩
    javaScript_step context x y _ h apart := by
      obtain ⟨use,holds⟩ := exists_use hc context x y h apart
      exact ⟨use,holds,fun other holds' => holds'.unique holds⟩
    python_step := range_python_step hc
    bound := randomInt_bound hc }

theorem literals_found_countdown :
    ∃! use : StepUse, use.Holds ⟨RangeFunction.name,.default⟩ (.integer 10) (.integer 0)
      (.unary JavaScript.negate (.integer 2)) :=
  literals_found.javaScript_step _ _ _ (.unary (by decide) (.integer 2)) (by decide)

/-- It is not enough that callees are not empty. One of white space is trimmed away, and leaves an argument between
parentheses behind. -/
theorem not_literals_found_nonempty : ¬LiteralsFound fun callee => callee≠"" := by
  intro found
  have proper : (Phrase.call " " [.integer 5]).Proper .javaScript fun callee => callee≠"" := by
    refine .call (by decide) fun t member => ?_
    rw [List.mem_singleton.mp member]
    exact .integer 5
  cases (found.read proper 5).1.mp (by cbv)

end CallLowering.Library
