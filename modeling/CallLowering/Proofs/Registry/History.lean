import CallLowering.Library.Registry
import CallLowering.Proofs.Failure
import Mathlib.Data.List.Induction

namespace CallLowering

/-- What a host asks of a registry while it is set up. -/
inductive Registration
  | declare (signature : Signature) (capabilities : Capabilities)
  | runtime (function owner : String)

namespace Registration

/-- The step of the setup that is asked for. -/
def step : Registration → Library.Setup Unit
  | declare signature capabilities => Library.declare signature capabilities
  | runtime function owner => Library.update fun r => r.registerRuntime function owner

/-- One step after the other, also behind those that fail, with the answer to each. -/
def attemptAll (asked : List Registration) : StateM Registry (List (Except LowerError Unit)) :=
  asked.mapM fun a => a.step.run

def declared? : Registration → Option String
  | declare signature _ => some signature.name
  | runtime _ _ => none

def owner? (function : String) : Registration → Option String
  | declare _ _ => none
  | runtime f owner => if f=function then some owner else none

/-- The names under which functions are declared, again and again if they are. -/
def declared (asked : List Registration) : List String := asked.filterMap declared?

/-- The owners that are registered for the function. -/
def owners (function : String) (asked : List Registration) : List String := asked.filterMap (owner? function)

/-- The first declaration under this name, with the owners that are registered for it behind that, each at its first
place. -/
def FirstDeclared (asked : List Registration) (name : String) (e : FunctionEntry) : Prop :=
  ∃ before after, asked=before++declare e.signature e.capabilities::after ∧ name∉declared before ∧
    e.signature.name=name ∧ e.runtimes=(owners name after).eraseDups

/-- The same, searched for. -/
def first? (name : String) : List Registration → Option FunctionEntry
  | [] => none
  | declare signature capabilities::asked =>
      if signature.name=name then some ⟨signature,capabilities,(owners name asked).eraseDups⟩ else first? name asked
  | runtime _ _::asked => first? name asked

/-- Which step is refused behind these, and with which error. -/
inductive Refused (before : List Registration) : Registration → LowerError → Prop
  | taken {signature : Signature} {capabilities : Capabilities} (h : signature.name∈declared before) :
      Refused before (declare signature capabilities) (.duplicateFunction signature.name)
  | undeclared {function owner : String} (h : function∉declared before) :
      Refused before (runtime function owner)
        (.configuration ("cannot register runtime "++owner++" for undeclared function '"++function++"'"))

variable {asked before : List Registration} {a : Registration} {e : FunctionEntry} {error error' : LowerError}
  {signature : Signature} {capabilities : Capabilities} {name function owner : String}

theorem Refused.unique (h : a.Refused before error) (h' : a.Refused before error') : error=error' := by
  cases h <;> cases h' <;> rfl

theorem mem_declared_cons : name∈declared (a::asked) ↔ a.declared?=some name ∨ name∈declared asked := by
  simp [declared,List.mem_filterMap]

theorem first?_cons_of_ne (h : a.declared?≠some name) : first? name (a::asked)=first? name asked := by
  cases a with
  | declare signature capabilities => exact if_neg fun same => h (congrArg some same)
  | runtime function owner => rfl

theorem first?_append (h : name∉declared before) : first? name (before++asked)=first? name asked := by
  induction before with
  | nil => rfl
  | cons a before ih =>
    rw [mem_declared_cons,not_or] at h
    rw [List.cons_append,first?_cons_of_ne h.1,ih h.2]

theorem first?_isSome_iff : (first? name asked).isSome ↔ name∈declared asked := by
  induction asked with
  | nil => exact ⟨nofun,nofun⟩
  | cons a asked ih =>
    by_cases here : a.declared?=some name
    · cases a with
      | declare signature capabilities =>
        cases here
        rw [first?,if_pos rfl,mem_declared_cons]
        exact ⟨fun _ => .inl rfl,fun _ => rfl⟩
      | runtime function owner => cases here
    · rw [first?_cons_of_ne here,ih,mem_declared_cons,or_iff_right here]

theorem firstDeclared_of_first? (h : first? name asked=some e) : FirstDeclared asked name e := by
  induction asked with
  | nil => cases h
  | cons a asked ih =>
    by_cases here : a.declared?=some name
    · cases a with
      | declare signature capabilities =>
        cases here
        rw [first?,if_pos rfl] at h
        cases h
        exact ⟨[],asked,rfl,nofun,rfl,rfl⟩
      | runtime function owner => cases here
    · rw [first?_cons_of_ne here] at h
      obtain ⟨before,after,rfl,first,named,runtimes⟩ := ih h
      refine ⟨a::before,after,rfl,?_,named,runtimes⟩
      rw [mem_declared_cons,not_or]
      exact ⟨here,first⟩

theorem first?_eq_some_iff : first? name asked=some e ↔ FirstDeclared asked name e := by
  refine ⟨firstDeclared_of_first?,?_⟩
  rintro ⟨before,after,rfl,first,rfl,runtimes⟩
  rw [first?_append first,first?,if_pos rfl,←runtimes]

theorem eraseDups_concat (l : List String) (s : String) :
    (l++[s]).eraseDups=if s∈l then l.eraseDups else l.eraseDups++[s] := by
  rw [List.eraseDups_append]
  by_cases h : s∈l
  · have none : [s].removeAll l=[] := by simp [List.removeAll,h]
    rw [if_pos h,none,List.eraseDups_nil,List.append_nil]
  · have all : [s].removeAll l=[s] := by simp [List.removeAll,h]
    rw [if_neg h,all]
    rfl

theorem declared_concat_declare :
    declared (asked++[declare signature capabilities])=declared asked++[signature.name] :=
  List.filterMap_append

theorem declared_concat_runtime : declared (asked++[runtime function owner])=declared asked := by
  rw [declared,List.filterMap_append]
  exact List.append_nil _

theorem owners_concat_declare : owners name (asked++[declare signature capabilities])=owners name asked := by
  rw [owners,List.filterMap_append]
  exact List.append_nil _

theorem owners_concat_runtime :
    owners name (asked++[runtime function owner])=
      if function=name then owners name asked++[owner] else owners name asked := by
  rw [owners,List.filterMap_append,List.filterMap_cons,owner?]
  by_cases h : function=name
  · rw [if_pos h,if_pos h]
    rfl
  · rw [if_neg h,if_neg h]
    exact List.append_nil _

/-- One more declaration counts if there was none. -/
theorem first?_concat_declare :
    first? name (asked++[declare signature capabilities])=
      (first? name asked).or (if signature.name=name then some ⟨signature,capabilities,[]⟩ else none) := by
  induction asked with
  | nil => rfl
  | cons a asked ih =>
    cases a with
    | declare first _ =>
      rw [List.cons_append,first?,first?,owners_concat_declare,ih]
      by_cases h : first.name=name
      · rw [if_pos h,if_pos h]
        rfl
      · rw [if_neg h,if_neg h]
    | runtime _ _ => rw [List.cons_append,first?,first?,ih]

/-- One more owner counts for a function that was declared, if it was not yet registered. -/
theorem first?_concat_runtime :
    first? name (asked++[runtime function owner])=
      if function=name then (first? name asked).map (·.addRuntime owner) else first? name asked := by
  induction asked with
  | nil => exact (ite_self none).symm
  | cons a asked ih =>
    cases a with
    | declare first _ =>
      rw [List.cons_append,first?,first?,owners_concat_runtime,ih]
      by_cases h : first.name=name
      · rw [if_pos h,if_pos h]
        by_cases hf : function=name
        · -- adding an owner looks among those that are kept, each once
          rw [if_pos hf,if_pos hf,eraseDups_concat,Option.map_some,FunctionEntry.addRuntime]
          simp only [List.contains_iff_mem,List.mem_eraseDups]
          split <;> rfl
        · rw [if_neg hf,if_neg hf]
      · rw [if_neg h,if_neg h]
    | runtime _ _ => rw [List.cons_append,first?,first?,ih]

end Registration

theorem Library.update_apply (f : Registry → Except LowerError Registry) (r : Registry) :
    Library.update f r=match f r with
      | .ok r' => (.ok (),r')
      | .error e => (.error e,r) := by
  change ((get : Library.Setup Registry) >>= fun r => liftM (f r) >>= fun r' => set r') r=_
  rw [Failure.bind_apply]
  change (liftM (f r) >>= fun r' => set r' : Library.Setup Unit) r=_
  rw [Failure.bind_apply]
  cases f r <;> rfl

namespace Registry

open Registration

variable {r : Registry} {config : Config} {asked : List Registration} {name : String}

theorem find?_declare (signature : Signature) (capabilities : Capabilities) (name : String) :
    find? {r with entries := r.entries++[⟨signature,capabilities,[]⟩]} name=
      (r.find? name).or (if signature.name=name then some ⟨signature,capabilities,[]⟩ else none) := by
  rw [find?,List.find?_append,List.find?_singleton]
  simp [find?]

theorem find?_addRuntime (function owner name : String) :
    find? {r with
        entries := r.entries.map fun e => if e.signature.name=function then e.addRuntime owner else e} name=
      if function=name then (r.find? name).map (·.addRuntime owner) else r.find? name := by
  let f (e : FunctionEntry) : FunctionEntry := if e.signature.name=function then e.addRuntime owner else e
  have named : (fun e => (f e).signature.name==name)=fun e => e.signature.name==name := by
    funext e
    dsimp only [f]
    split <;> simp
  have mapped : (r.entries.map f).find? (fun e => e.signature.name==name)=(r.find? name).map f := by
    rw [List.find?_map]
    exact congrArg (fun p => (r.entries.find? p).map f) named
  change (r.entries.map f).find? _=_
  rw [mapped]
  cases found : r.find? name with
  | none => exact (ite_self none).symm
  | some e =>
    have same : e.signature.name=name := by simpa using List.find?_some found
    cases same
    by_cases here : function=e.signature.name
    · rw [if_pos here]
      exact congrArg some (if_pos here.symm)
    · rw [if_neg here]
      exact congrArg some (if_neg (Ne.symm here))

theorem names_sorted (r : Registry) : r.names.Pairwise (· ≤ ·) := by
  have trans (a b c : String) : decide (a ≤ b) → decide (b ≤ c) → decide (a ≤ c) := by
    simpa only [decide_eq_true_eq] using String.le_trans
  have total (a b : String) : decide (a ≤ b) || decide (b ≤ a) := by
    simpa only [Bool.or_eq_true,decide_eq_true_eq] using String.le_total a b
  exact (List.pairwise_mergeSort trans total _).imp of_decide_eq_true

/-- The registry is what such a setup makes of an empty one. There is an entry for each name that was declared, in the
order of the first declarations. -/
structure Reflects (r : Registry) (config : Config) (asked : List Registration) : Prop where
  find? : ∀ name, r.find? name=first? name asked
  names : r.entries.map (fun e => e.signature.name)=(declared asked).eraseDups
  config : r.config=config

namespace Reflects

theorem empty : (Registry.empty config).Reflects config [] := ⟨fun _ => rfl,rfl,rfl⟩

theorem contains_iff (h : r.Reflects config asked) : r.contains name ↔ name∈declared asked := by
  rw [Registry.contains,h.find?,first?_isSome_iff]

/-- A registry that was not changed reflects also what was refused. -/
theorem refused (h : r.Reflects config asked) {a : Registration} {error : LowerError}
    (refused : a.Refused asked error) : r.Reflects config (asked++[a]) := by
  cases refused with
  | @taken signature capabilities taken =>
    refine ⟨fun name => ?_,?_,h.config⟩
    · rw [first?_concat_declare,h.find?]
      by_cases same : signature.name=name
      · rw [same] at taken
        exact (Option.or_of_isSome (first?_isSome_iff.mpr taken)).symm
      · rw [if_neg same,Option.or_none]
    · rw [declared_concat_declare,eraseDups_concat,if_pos taken,h.names]
  | @undeclared function owner undeclared =>
    refine ⟨fun name => ?_,?_,h.config⟩
    · rw [first?_concat_runtime,h.find?]
      by_cases same : function=name
      · rw [same,←first?_isSome_iff,Option.not_isSome_iff_eq_none] at undeclared
        rw [if_pos same,undeclared]
        rfl
      · rw [if_neg same]
    · rw [declared_concat_runtime,h.names]

theorem declare (h : r.Reflects config asked) {signature : Signature} (capabilities : Capabilities)
    (free : signature.name∉declared asked) :
    Reflects {r with entries := r.entries++[⟨signature,capabilities,[]⟩]} config
      (asked++[.declare signature capabilities]) := by
  refine ⟨fun name => ?_,?_,h.config⟩
  · rw [find?_declare,first?_concat_declare,h.find?]
  · rw [declared_concat_declare,eraseDups_concat,if_neg free,←h.names]
    exact List.map_append

theorem addRuntime (h : r.Reflects config asked) (function owner : String) :
    Reflects {r with
        entries := r.entries.map fun e => if e.signature.name=function then e.addRuntime owner else e}
      config (asked++[.runtime function owner]) := by
  refine ⟨fun name => ?_,?_,h.config⟩
  · rw [find?_addRuntime,first?_concat_runtime,h.find?]
  · rw [declared_concat_runtime,←h.names,List.map_map]
    apply List.map_congr_left
    intro e _
    rw [Function.comp_apply]
    split <;> simp

/-- A step is refused with one error and changes nothing, or it is done. -/
theorem step_outcome (h : r.Reflects config asked) (a : Registration) :
    (∃ error, a.Refused asked error ∧ a.step r=(.error error,r)) ∨
      (∀ error, ¬a.Refused asked error) ∧ ∃ r', a.step r=(.ok (),r') ∧ r'.Reflects config (asked++[a]) := by
  cases a with
  | declare signature capabilities =>
    rw [step,Library.declare,Library.update_apply,Registry.declare]
    by_cases taken : signature.name∈declared asked
    · rw [if_pos (h.contains_iff.mpr taken)]
      exact .inl ⟨_,.taken taken,rfl⟩
    · rw [if_neg (mt h.contains_iff.mp taken)]
      refine .inr ⟨fun error refused => ?_,_,rfl,h.declare capabilities taken⟩
      cases refused with
      | taken listed => exact taken listed
  | runtime function owner =>
    rw [step,Library.update_apply,Registry.registerRuntime]
    by_cases known : function∈declared asked
    · rw [if_pos (h.contains_iff.mpr known)]
      refine .inr ⟨fun error refused => ?_,_,rfl,h.addRuntime function owner⟩
      cases refused with
      | undeclared unlisted => exact unlisted known
    · rw [if_neg (mt h.contains_iff.mp known)]
      exact .inl ⟨_,.undeclared known,rfl⟩

end Reflects

end Registry

namespace Registration

variable {asked : List Registration}

theorem attemptAll_cons (a : Registration) (r : Registry) :
    attemptAll (a::asked) r=
      ((a.step r).1::(attemptAll asked (a.step r).2).1,(attemptAll asked (a.step r).2).2) := by
  rw [attemptAll,List.mapM_cons]
  rfl

theorem attemptAll_append (before : List Registration) (r : Registry) :
    attemptAll (before++asked) r=
      ((attemptAll before r).1++(attemptAll asked (attemptAll before r).2).1,
        (attemptAll asked (attemptAll before r).2).2) := by
  rw [attemptAll,List.mapM_append]
  rfl

theorem length_attemptAll (asked : List Registration) (r : Registry) :
    (attemptAll asked r).1.length=asked.length := by
  induction asked generalizing r with
  | nil => rfl
  | cons a asked ih => rw [attemptAll_cons,List.length_cons,List.length_cons,ih]

theorem attemptAll_reflects (config : Config) (asked : List Registration) :
    (attemptAll asked (.empty config)).2.Reflects config asked := by
  -- a step depends on all that was asked before it, so the induction takes the last one off
  induction asked using List.reverseRecOn with
  | nil => exact .empty
  | append_singleton asked a ih =>
    rw [attemptAll_append,attemptAll_cons]
    obtain ⟨error,refused,stepped⟩|⟨-,r,stepped,reflects⟩ := ih.step_outcome a
    · rw [stepped]
      exact ih.refused refused
    · rw [stepped]
      exact reflects

/-- How a step ends in the middle of a setup, and that what comes behind one that fails goes on as without it. -/
theorem attemptAll_step (config : Config) (before : List Registration) (a : Registration)
    (after : List Registration) : ∃ earlier answer later,
      (attemptAll (before++a::after) (.empty config)).1=earlier++answer::later ∧ earlier.length=before.length ∧
      (∀ error, answer=.error error ↔ a.Refused before error) ∧
      ∀ error, answer=.error error →
        attemptAll (before++after) (.empty config)=
          (earlier++later,(attemptAll (before++a::after) (.empty config)).2) := by
  have size := length_attemptAll before (.empty config)
  have reflects := attemptAll_reflects config before
  rw [attemptAll_append,attemptAll_append,attemptAll_cons]
  refine ⟨_,_,_,rfl,size,?_⟩
  obtain ⟨error,refused,stepped⟩|⟨accepted,r,stepped,-⟩ := reflects.step_outcome a
  · rw [stepped]
    refine ⟨fun error' => ⟨fun same => ?_,fun refused' => congrArg _ (refused.unique refused')⟩,fun _ _ => rfl⟩
    cases same
    exact refused
  · rw [stepped]
    exact ⟨fun error => ⟨nofun,fun refused => absurd refused (accepted error)⟩,nofun⟩

/-- A registry that is set up by one step after the other, some of which may fail, finds just the functions that were
declared, and lists their names sorted, each once. It has the first declaration of each, which may call the owners that
were registered for the function behind it, each where it came first. A declaration fails just if the name was declared
before, and registering an owner just if the function was not. Without a step that fails, the others are answered alike
and make the same registry. -/
theorem registry_reflects (config : Config) (asked : List Registration) :
    let answers := (attemptAll asked (.empty config)).1
    let r := (attemptAll asked (.empty config)).2
    (∀ name, (∃ e, r.resolve name=.ok e) ↔ name∈declared asked) ∧
    (∀ name e, r.resolve name=.ok e ↔ FirstDeclared asked name e) ∧
    (∀ name error, r.resolve name=.error error ↔ name∉declared asked ∧ error=.unknownFunction name) ∧
    r.names.Perm (declared asked).eraseDups ∧ r.names.Pairwise (· ≤ ·) ∧
    r.entries.length=(declared asked).eraseDups.length ∧ r.config=config ∧
    ∀ before a after, asked=before++a::after → ∃ earlier answer later,
      answers=earlier++answer::later ∧ earlier.length=before.length ∧
      (∀ error, answer=.error error ↔ a.Refused before error) ∧
      ∀ error, answer=.error error → attemptAll (before++after) (.empty config)=(earlier++later,r) := by
  intro answers r
  have reflects : r.Reflects config asked := attemptAll_reflects config asked
  refine ⟨fun name => ?_,fun name e => ?_,fun name error => ?_,?_,r.names_sorted,?_,reflects.config,?_⟩
  · simp only [Registry.resolve_ok_iff,reflects.find?,←Option.isSome_iff_exists,first?_isSome_iff]
  · rw [Registry.resolve_ok_iff,reflects.find?,first?_eq_some_iff]
  · rw [Registry.resolve_error_iff,reflects.find?,←Option.not_isSome_iff_eq_none,first?_isSome_iff]
  · rw [←reflects.names]
    exact List.mergeSort_perm _ _
  · rw [←reflects.names,List.length_map]
  · rintro before a after rfl
    exact attemptAll_step config before a after

/-- A function is declared twice, and owners are registered for it too early, again, and behind the declaration that
fails. -/
theorem registry_reflects_repeated :
    let f : Signature := ⟨"f",[⟨[.any],.int⟩],.pure⟩
    let g : Signature := ⟨"f",[⟨[],.int⟩],.impure⟩
    let described : Capabilities := ⟨none,none,none,some fun _ _ _ => .ok .null⟩
    let before := [runtime "f" "A",declare f described,runtime "f" "B"]
    let after := [runtime "f" "A",runtime "f" "B",declare ⟨"e",[⟨[],.int⟩],.pure⟩ .none]
    let r := (attemptAll (before++declare g .none::after) (.empty .default)).2
    r.resolve "f"=.ok ⟨f,described,["B","A"]⟩ ∧ r.resolve "g"=.error (.unknownFunction "g") ∧
      r.names.Perm ["f","e"] ∧ (attemptAll (before++after) (.empty .default)).2=r := by
  intro f g described before after r
  obtain ⟨-,found,missing,names,-,-,-,steps⟩ := registry_reflects .default (before++declare g .none::after)
  have first : FirstDeclared (before++declare g .none::after) "f" ⟨f,described,["B","A"]⟩ :=
    ⟨[runtime "f" "A"],runtime "f" "B"::declare g .none::after,rfl,nofun,rfl,rfl⟩
  refine ⟨(found _ _).mpr first,(missing _ _).mpr ⟨by decide,rfl⟩,names.trans (.of_eq (by decide)),?_⟩
  obtain ⟨earlier,answer,later,-,-,refused,without⟩ := steps before (declare g .none) after rfl
  have taken : Refused before (declare g .none) (.duplicateFunction "f") := .taken (by decide)
  rw [without _ ((refused _).mpr taken)]

end Registration

end CallLowering
