import CallLowering.Proofs.Fragment.Dialect
import CallLowering.Proofs.Library.Standard

namespace CallLowering

open Library

inductive BasicFunction
  | pure (f : PureFunction)
  | randomInt

def BasicFunction.name : BasicFunction → String
  | pure f => f.name
  | randomInt => RandomInt.name

def BasicFunction.capabilities : BasicFunction → Capabilities
  | pure .ceiling => standardCeiling.capabilities
  | pure .floor => standardFloor.capabilities
  | pure .range => standardRange.capabilities
  | pure .isNull => NullCheck.capabilities (standardNullCheck "isNull" false)
  | pure .isNonnull => NullCheck.capabilities (standardNullCheck "isNonnull" true)
  | pure .max => standardMax.capabilities
  | pure .min => standardMin.capabilities
  | randomInt => RandomInt.capabilities ⟨⟨randomIntRoutine,false⟩⟩

theorem BasicFunction.capability_standard (f : BasicFunction) {config : Config} {r : Registry} {e : FunctionEntry}
    (hr : build config RoutineTable.standard=.ok r) (he : r.find? f.name=some e) :
    e.capabilities=f.capabilities := by
  rw [build_standard] at hr
  cases hr
  cases f with
  | pure f =>
    cases f <;>
      · cases he
        rfl
  | randomInt =>
    cases he
    rfl

namespace JavaScript

/-- What a call of a basic function means, if it has as many arguments as it should. Ranges come from one
library; a step that is no literal is checked by another. -/
def basicTree (range check : List String) (literalStep : Bool) : BasicFunction → List Tree → Option Tree
  | .pure .ceiling,[t] => some (.call ["Math","ceil"] [t] [])
  | .pure .floor,[t] => some (.call ["Math","floor"] [t] [])
  | .pure .range,[t] => some (.call range [t] [])
  | .pure .range,[t,u] => some (.call range [t,u] [])
  | .pure .range,[t,u,v] => some (.call range [t,u,if literalStep then v else .call check [v] []] [])
  | .pure .isNull,[t] => some (.binary equal t .null)
  | .pure .isNonnull,[t] => some (.binary notEqual t .null)
  | .pure .max,[t,u] => some (.call ["Math","max"] [t,u] [])
  | .pure .min,[t,u] => some (.call ["Math","min"] [t,u] [])
  | .randomInt,[t] => some (.call ["Math","floor"] [.binary times (.call ["Math","random"] [] []) t] [])
  | _,_ => .none

end JavaScript

namespace Python

def basicTree (range : List String) : BasicFunction → List Tree → Option Tree
  | .pure .ceiling,[t] => some (.call ["int"] [.call ["math","ceil"] [t] []] [])
  | .pure .floor,[t] => some (.call ["int"] [.call ["math","floor"] [t] []] [])
  | .pure .range,[t] => some (.call ["list"] [.call range [t] []] [])
  | .pure .range,[t,u] => some (.call ["list"] [.call range [t,u] []] [])
  | .pure .range,[t,u,v] => some (.call ["list"] [.call range [t,u,v] []] [])
  | .pure .isNull,[t] => some (.binary is t .null)
  | .pure .isNonnull,[t] => some (.binary isNot t .null)
  | .pure .max,[t,u] => some (.call ["max"] [t,u] [])
  | .pure .min,[t,u] => some (.call ["min"] [t,u] [])
  | .randomInt,[t] => some (.call ["random","randint"] [.literal 0,.binary minus t (.literal 1)] [])
  | _,_ => .none

end Python

namespace Dialect

def capability (d : Dialect) (c : Capabilities) : Option TextLowering :=
  match d with
  | javaScript => c.javaScript
  | python => c.python

/-- What calls of `range` are lowered to calls of. -/
def rangeCallee (config : Config) : Dialect → String
  | javaScript => config.javaScript.rangeLibrary++".range"
  | python => config.python.rangeBuiltin

def checkCallee (config : Config) : String := config.javaScript.runtimeLibrary++".checkedStep"

/-- The names that a configuration gives are names of the language. -/
structure Configured (d : Dialect) (a : Alphabet) (config : Config) where
  range : List String
  check : List String
  range_names : d.language.Names a (d.rangeCallee config) range
  check_names : d=javaScript → d.language.Names a (checkCallee config) check

def basicTree {d : Dialect} {a : Alphabet} {config : Config} (c : d.Configured a config) (literalStep : Bool) :
    BasicFunction → List Tree → Option Tree :=
  match d with
  | javaScript => JavaScript.basicTree c.range c.check literalStep
  | python => Python.basicTree c.range

end Dialect

variable {a : Alphabet} {d : Dialect} {config : Config} {context : CallContext} {fs : List Fragment}
  {ts : List Tree} {g : Fragment}

namespace Library

/-- Functions of one argument find it. -/
theorem one_stands {function : String} {L : Language} {k : Fragment → Except LowerError Fragment}
    (hs : List.Forall₂ (Fragment.Stands a L) fs ts) (h : (do k (← one function fs))=.ok g) :
    ∃ f t, fs=[f] ∧ ts=[t] ∧ f.Stands a L t ∧ k f=.ok g := by
  obtain ⟨f,hone,h⟩ := Failure.bind_ok h
  cases one_ok hone
  obtain ⟨t,rest,hf,hrest,rfl⟩ := List.forall₂_cons_left_iff.mp hs
  cases hrest
  exact ⟨f,t,rfl,rfl,hf,h⟩

theorem two_stands {function : String} {L : Language} {k : Fragment × Fragment → Except LowerError Fragment}
    (hs : List.Forall₂ (Fragment.Stands a L) fs ts) (h : (do k (← two function fs))=.ok g) :
    ∃ t u x, ts=[t,u] ∧ k x=.ok g := by
  obtain ⟨x,htwo,h⟩ := Failure.bind_ok h
  cases two_ok htwo
  obtain ⟨t,rest,-,hrest,rfl⟩ := List.forall₂_cons_left_iff.mp hs
  obtain ⟨u,rest',-,hrest',rfl⟩ := List.forall₂_cons_left_iff.mp hrest
  cases hrest'
  exact ⟨t,u,x,rfl,h⟩

theorem Rounding.javaScript_stands (f : Rounding) {ws : List String}
    (hname : JavaScript.language.Names a f.scriptName ws)
    (hs : List.Forall₂ (Fragment.Stands a JavaScript.language) fs ts) (h : f.javaScript.lower context fs=.ok g) :
    ∃ t, ts=[t] ∧ g.Stands a JavaScript.language (.call ws [t] []) := by
  obtain ⟨e,t,rfl,rfl,he,h⟩ := one_stands hs h
  cases h
  exact ⟨t,rfl,.ofCall .javaScript hname (.cons he .nil)⟩

theorem Rounding.python_stands (f : Rounding) {ws : List String}
    (hname : Python.language.Names a f.pythonName ws)
    (hs : List.Forall₂ (Fragment.Stands a Python.language) fs ts) (h : f.python.lower context fs=.ok g) :
    ∃ t, ts=[t] ∧ g.Stands a Python.language (.call ["int"] [.call ws [t] []] []) := by
  obtain ⟨e,t,rfl,rfl,he,h⟩ := one_stands hs h
  cases h
  have conversion : Python.language.Names a "int" ["int"] := .ascii (by constructor <;> decide)
  have rounded := Fragment.Stands.ofCall .python hname (.cons he .nil)
  exact ⟨t,rfl,.ofCall .python conversion (.cons rounded .nil)⟩

theorem NullCheck.javaScript_stands (f : NullCheck) (hs : List.Forall₂ (Fragment.Stands a JavaScript.language) fs ts)
    (h : f.javaScript.lower context fs=.ok g) :
    ∃ t, ts=[t] ∧ g.Stands a JavaScript.language
      (.binary (if f.negated then JavaScript.notEqual else JavaScript.equal) t .null) := by
  obtain ⟨e,t,rfl,rfl,he,h⟩ := one_stands hs h
  cases h
  refine ⟨t,rfl,?_⟩
  have null : Fragment.Stands a JavaScript.language JavaScript.null .null := .ofNull .javaScript
  cases f.negated
  · exact .ofBinary .javaScript (by decide) he null
  · exact .ofBinary .javaScript (by decide) he null

theorem NullCheck.python_stands (f : NullCheck) (hs : List.Forall₂ (Fragment.Stands a Python.language) fs ts)
    (h : f.python.lower context fs=.ok g) :
    ∃ t, ts=[t] ∧ g.Stands a Python.language (.binary (if f.negated then Python.isNot else Python.is) t .null) := by
  obtain ⟨e,t,rfl,rfl,he,h⟩ := one_stands hs h
  cases h
  refine ⟨t,rfl,?_⟩
  have null : Fragment.Stands a Python.language Python.none .null := .ofNull .python
  cases f.negated
  · exact .ofBinary .python (by decide) he null
  · exact .ofBinary .python (by decide) he null

theorem Extremum.javaScript_stands (f : Extremum) {ws : List String}
    (hname : JavaScript.language.Names a ("Math."++f.name) ws)
    (hs : List.Forall₂ (Fragment.Stands a JavaScript.language) fs ts) (h : f.javaScript.lower context fs=.ok g) :
    ∃ t u, ts=[t,u] ∧ g.Stands a JavaScript.language (.call ws [t,u] []) := by
  obtain ⟨t,u,x,rfl,h⟩ := two_stands hs h
  cases h
  exact ⟨t,u,rfl,.ofCall .javaScript hname hs⟩

theorem Extremum.python_stands (f : Extremum) {ws : List String} (hname : Python.language.Names a f.name ws)
    (hs : List.Forall₂ (Fragment.Stands a Python.language) fs ts) (h : f.python.lower context fs=.ok g) :
    ∃ t u, ts=[t,u] ∧ g.Stands a Python.language (.call ws [t,u] []) := by
  obtain ⟨t,u,x,rfl,h⟩ := two_stands hs h
  cases h
  exact ⟨t,u,rfl,.ofCall .python hname hs⟩

theorem RandomInt.javaScript_stands (hs : List.Forall₂ (Fragment.Stands a JavaScript.language) fs ts)
    (h : RandomInt.javaScript.lower context fs=.ok g) :
    ∃ t, ts=[t] ∧ g.Stands a JavaScript.language
      (.call ["Math","floor"] [.binary JavaScript.times (.call ["Math","random"] [] []) t] []) := by
  obtain ⟨e,t,rfl,rfl,he,h⟩ := one_stands hs h
  obtain ⟨-,-,h⟩ := Failure.bind_ok h
  cases h
  have floor : JavaScript.language.Names a "Math.floor" ["Math","floor"] := .ascii (by constructor <;> decide)
  have source : JavaScript.language.Names a "Math.random" ["Math","random"] := .ascii (by constructor <;> decide)
  have random := Fragment.Stands.ofCall .javaScript source .nil
  have scaled := Fragment.Stands.ofBinary .javaScript (by decide : JavaScript.times∈JavaScript.binaryOperators)
    random he
  exact ⟨t,rfl,.ofCall .javaScript floor (.cons scaled .nil)⟩

theorem RandomInt.python_stands (hs : List.Forall₂ (Fragment.Stands a Python.language) fs ts)
    (h : RandomInt.python.lower context fs=.ok g) :
    ∃ t, ts=[t] ∧ g.Stands a Python.language
      (.call ["random","randint"] [.literal 0,.binary Python.minus t (.literal 1)] []) := by
  obtain ⟨e,t,rfl,rfl,he,h⟩ := one_stands hs h
  obtain ⟨-,-,h⟩ := Failure.bind_ok h
  cases h
  have source : Python.language.Names a "random.randint" ["random","randint"] :=
    .ascii (by constructor <;> decide)
  have first : Fragment.Stands a Python.language (Python.integer 0) (.literal 0) := .ofInteger .python 0
  have one : Fragment.Stands a Python.language (Python.integer 1) (.literal 1) := .ofInteger .python 1
  have last := Fragment.Stands.ofBinary .python (by decide : Python.minus∈Python.binaryOperators) he one
  exact ⟨t,rfl,.ofCallWith source (.cons first (.cons last .nil)) .nil⟩

/-- Is the step of a range, if it has one, a literal? -/
def RangeFunction.literalStep (fs : List Fragment) : Bool := (fs[2]?.bind Fragment.integer?).isSome

/-- A step that is no literal is put into a call of the check. -/
theorem RangeFunction.guardStep_stands {check : List String} {f f' : Fragment} {t : Tree}
    (hname : JavaScript.language.Names a (Dialect.checkCallee config) check)
    (hf : f.Stands a JavaScript.language t) (h : guardStep config.javaScript f=.ok f') :
    f'.Stands a JavaScript.language (if f.integer?.isSome then t else .call check [t] []) := by
  rw [guardStep] at h
  cases hn : f.integer? with
  | none =>
    rw [hn] at h
    cases h
    exact .ofCall .javaScript hname (.cons hf .nil)
  | some n =>
    rw [hn] at h
    simp only at h
    split at h
    · cases h
    · cases h
      exact hf

theorem RangeFunction.javaScript_stands (c : Dialect.javaScript.Configured a context.config)
    (hs : List.Forall₂ (Fragment.Stands a JavaScript.language) fs ts)
    (h : RangeFunction.javaScript.lower context fs=.ok g) :
    ∃ t, JavaScript.basicTree c.range c.check (literalStep fs) (.pure .range) ts=some t ∧
      g.Stands a JavaScript.language t := by
  obtain ⟨_,hcount,h⟩ := Failure.bind_ok h
  obtain ⟨x,t,hx,rfl,rfl⟩|⟨x,y,t,u,hx,hy,rfl,rfl⟩|⟨x,y,z,t,u,v,hx,hy,hz,rfl,rfl⟩ := upToThree_related hs hcount
  · cases h
    exact ⟨_,rfl,.ofCall .javaScript c.range_names hs⟩
  · cases h
    exact ⟨_,rfl,.ofCall .javaScript c.range_names hs⟩
  · obtain ⟨step,guarded,h⟩ := Failure.bind_ok h
    cases h
    have checked := guardStep_stands (c.check_names rfl) hz guarded
    exact ⟨_,rfl,.ofCall .javaScript c.range_names (.cons hx (.cons hy (.cons checked .nil)))⟩

theorem RangeFunction.python_stands (c : Dialect.python.Configured a context.config)
    (hs : List.Forall₂ (Fragment.Stands a Python.language) fs ts)
    (h : RangeFunction.python.lower context fs=.ok g) :
    ∃ t, Python.basicTree c.range (.pure .range) ts=some t ∧ g.Stands a Python.language t := by
  obtain ⟨_,hcount,h⟩ := Failure.bind_ok h
  have list : Python.language.Names a "list" ["list"] := .ascii (by constructor <;> decide)
  have range := Fragment.Stands.ofCall .python c.range_names hs
  have whole := Fragment.Stands.ofCall .python list (.cons range .nil)
  obtain ⟨x,t,-,rfl,rfl⟩|⟨x,y,t,u,-,-,rfl,rfl⟩|⟨x,y,z,t,u,v,-,-,-,rfl,rfl⟩ := upToThree_related hs hcount
  · cases h
    exact ⟨_,rfl,whole⟩
  · cases h
    exact ⟨_,rfl,whole⟩
  · obtain ⟨_,-,h⟩ := Failure.bind_ok h
    cases h
    exact ⟨_,rfl,whole⟩

end Library

namespace BasicFunction

theorem javaScript_stands (c : Dialect.javaScript.Configured a config) (f : BasicFunction) {l : TextLowering}
    (hl : f.capabilities.javaScript=some l) (hs : List.Forall₂ (Fragment.Stands a JavaScript.language) fs ts)
    (h : l.lower ⟨f.name,config⟩ fs=.ok g) :
    ∃ t, JavaScript.basicTree c.range c.check (RangeFunction.literalStep fs) f ts=some t ∧
      g.Stands a JavaScript.language t := by
  have ceil : JavaScript.language.Names a "Math.ceil" ["Math","ceil"] := .ascii (by constructor <;> decide)
  have floor : JavaScript.language.Names a "Math.floor" ["Math","floor"] := .ascii (by constructor <;> decide)
  have max : JavaScript.language.Names a "Math.max" ["Math","max"] := .ascii (by constructor <;> decide)
  have min : JavaScript.language.Names a "Math.min" ["Math","min"] := .ascii (by constructor <;> decide)
  cases f with
  | pure f =>
    cases f with
    | ceiling =>
      cases hl
      obtain ⟨t,rfl,stands⟩ := standardCeiling.javaScript_stands ceil hs h
      exact ⟨_,rfl,stands⟩
    | floor =>
      cases hl
      obtain ⟨t,rfl,stands⟩ := standardFloor.javaScript_stands floor hs h
      exact ⟨_,rfl,stands⟩
    | range =>
      cases hl
      exact RangeFunction.javaScript_stands c hs h
    | isNull =>
      cases hl
      obtain ⟨t,rfl,stands⟩ := NullCheck.javaScript_stands _ hs h
      exact ⟨_,rfl,stands⟩
    | isNonnull =>
      cases hl
      obtain ⟨t,rfl,stands⟩ := NullCheck.javaScript_stands _ hs h
      exact ⟨_,rfl,stands⟩
    | max =>
      cases hl
      obtain ⟨t,u,rfl,stands⟩ := standardMax.javaScript_stands max hs h
      exact ⟨_,rfl,stands⟩
    | min =>
      cases hl
      obtain ⟨t,u,rfl,stands⟩ := standardMin.javaScript_stands min hs h
      exact ⟨_,rfl,stands⟩
  | randomInt =>
    cases hl
    obtain ⟨t,rfl,stands⟩ := RandomInt.javaScript_stands hs h
    exact ⟨_,rfl,stands⟩

theorem python_stands (c : Dialect.python.Configured a config) (f : BasicFunction) {l : TextLowering}
    (hl : f.capabilities.python=some l) (hs : List.Forall₂ (Fragment.Stands a Python.language) fs ts)
    (h : l.lower ⟨f.name,config⟩ fs=.ok g) :
    ∃ t, Python.basicTree c.range f ts=some t ∧ g.Stands a Python.language t := by
  have ceil : Python.language.Names a "math.ceil" ["math","ceil"] := .ascii (by constructor <;> decide)
  have floor : Python.language.Names a "math.floor" ["math","floor"] := .ascii (by constructor <;> decide)
  have max : Python.language.Names a "max" ["max"] := .ascii (by constructor <;> decide)
  have min : Python.language.Names a "min" ["min"] := .ascii (by constructor <;> decide)
  cases f with
  | pure f =>
    cases f with
    | ceiling =>
      cases hl
      obtain ⟨t,rfl,stands⟩ := standardCeiling.python_stands ceil hs h
      exact ⟨_,rfl,stands⟩
    | floor =>
      cases hl
      obtain ⟨t,rfl,stands⟩ := standardFloor.python_stands floor hs h
      exact ⟨_,rfl,stands⟩
    | range =>
      cases hl
      exact RangeFunction.python_stands c hs h
    | isNull =>
      cases hl
      obtain ⟨t,rfl,stands⟩ := NullCheck.python_stands _ hs h
      exact ⟨_,rfl,stands⟩
    | isNonnull =>
      cases hl
      obtain ⟨t,rfl,stands⟩ := NullCheck.python_stands _ hs h
      exact ⟨_,rfl,stands⟩
    | max =>
      cases hl
      obtain ⟨t,u,rfl,stands⟩ := standardMax.python_stands max hs h
      exact ⟨_,rfl,stands⟩
    | min =>
      cases hl
      obtain ⟨t,u,rfl,stands⟩ := standardMin.python_stands min hs h
      exact ⟨_,rfl,stands⟩
  | randomInt =>
    cases hl
    obtain ⟨t,rfl,stands⟩ := RandomInt.python_stands hs h
    exact ⟨_,rfl,stands⟩

/-- What a basic function is lowered to is read as what the call means. -/
theorem text_stands (c : d.Configured a config) (f : BasicFunction) {l : TextLowering}
    (hl : d.capability f.capabilities=some l) (hs : List.Forall₂ (Fragment.Stands a d.language) fs ts)
    (h : l.lower ⟨f.name,config⟩ fs=.ok g) :
    ∃ t, d.basicTree c (RangeFunction.literalStep fs) f ts=some t ∧ g.Stands a d.language t := by
  cases d
  · exact javaScript_stands c f hl hs h
  · exact python_stands c f hl hs h

end BasicFunction

end CallLowering
