import CallLowering.Proofs.Fragment.Languages

namespace CallLowering

/-- The two text languages, side by side. -/
inductive Dialect
  | javaScript
  | python
  deriving DecidableEq

namespace Dialect

def language : Dialect → Language
  | javaScript => JavaScript.language
  | python => Python.language

def binaryOperators : Dialect → List Operator
  | javaScript => JavaScript.binaryOperators
  | python => Python.binaryOperators

def unaryOperators : Dialect → List Operator
  | javaScript => JavaScript.unaryOperators
  | python => Python.unaryOperators

def negate : Dialect → Operator
  | javaScript => JavaScript.negate
  | python => Python.negate

/-- What a value is compared to null with. -/
def same : Dialect → Operator
  | javaScript => JavaScript.equal
  | python => Python.is

def different : Dialect → Operator
  | javaScript => JavaScript.notEqual
  | python => Python.isNot

def integer : Dialect → Int64 → Fragment
  | javaScript => JavaScript.integer
  | python => Python.integer

def null : Dialect → Fragment
  | javaScript => JavaScript.null
  | python => Python.none

def conditional : Dialect → Fragment → Fragment → Fragment → Fragment
  | javaScript => JavaScript.conditional
  | python => Python.conditional

def call : Dialect → String → List Fragment → Fragment
  | javaScript => JavaScript.call
  | python => Python.call

def isNull : Dialect → Fragment → Fragment
  | javaScript => JavaScript.isNull
  | python => Python.isNone

def isNotNull : Dialect → Fragment → Fragment
  | javaScript => JavaScript.isNotNull
  | python => Python.isNotNone

/-- A negative integer is the negation of its absolute value. -/
def integerTree (d : Dialect) (n : Int64) : Tree :=
  if n.toInt < 0 then .unary d.negate (.literal n.toInt.natAbs) else .literal n.toInt.natAbs

theorem lawful (d : Dialect) : d.language.Lawful := by
  cases d
  · exact JavaScript.lawful
  · exact Python.lawful

theorem written (d : Dialect) (a : Alphabet) : d.language.Written a := by
  cases d
  · exact JavaScript.written a
  · exact Python.written a

theorem mem_binaries (d : Dialect) {o : Operator} (h : o∈d.binaryOperators) : ∃ s, (o,s)∈d.language.binaries := by
  have listed : ∀ d : Dialect, ∀ o∈d.binaryOperators, o∈d.language.binaries.map Prod.fst := by
    intro d
    cases d <;> decide
  obtain ⟨⟨o,s⟩,hs,rfl⟩ := List.mem_map.mp (listed d o h)
  exact ⟨s,hs⟩

theorem mem_unaries (d : Dialect) {o : Operator} (h : o∈d.unaryOperators) : ∃ s, (o,s)∈d.language.unaries := by
  have listed : ∀ d : Dialect, ∀ o∈d.unaryOperators, o∈d.language.unaries.map Prod.fst := by
    intro d
    cases d <;> decide
  obtain ⟨⟨o,s⟩,hs,rfl⟩ := List.mem_map.mp (listed d o h)
  exact ⟨s,hs⟩

theorem negate_mem (d : Dialect) : d.negate∈d.unaryOperators := by
  cases d <;> decide

theorem same_mem (d : Dialect) : d.same∈d.binaryOperators := by
  cases d <;> decide

theorem different_mem (d : Dialect) : d.different∈d.binaryOperators := by
  cases d <;> decide

end Dialect

namespace Fragment

/-- No space comes between the sign and the digits of a number. -/
theorem text_negated {o : Operator} (ho : o.symbol="-") (n : Nat) :
    (unary o (atom (toString n))).text="-"++toString n := by
  have tight : (atom (toString n)).within o.precedence=toString n :=
    if_neg (UInt8.not_lt.mpr (Precedence.le_atomic o.precedence))
  have apart : signsMeet "-" (toString n)=false := by
    obtain ⟨c,cs,hs,digit⟩ := Lexicon.digit_first n
    have plain : '-' ≠ c := fun eq => by rw [←eq] at digit; exact absurd digit (by decide)
    rw [signsMeet,hs]
    simp [plain]
  rw [unary,tight,ho,apart]
  rfl

/-- The sign of a negative integer is written as the operator before its absolute value would be. -/
theorem ofInt_eq {o : Operator} (ho : o.symbol="-") (n : Int64) :
    ofInt o.precedence n=
      if n.toInt < 0 then unary o (atom (toString n.toInt.natAbs)) else atom (toString n.toInt.natAbs) := by
  rw [ofInt,Int64.text]
  cases n.toInt with
  | ofNat m =>
    have nonneg : ¬Int.ofNat m < 0 := by simp
    rw [if_neg nonneg,if_neg nonneg]
    rfl
  | negSucc m =>
    have negative : Int.negSucc m < 0 := Int.negSucc_lt_zero m
    have signed : unary o (atom (toString (m+1)))=⟨"-"++toString (m+1),o.precedence⟩ :=
      congrArg (Fragment.mk · o.precedence) (text_negated ho (m+1))
    rw [if_pos negative,if_pos negative,Int.natAbs_negSucc,signed]
    rfl

theorem integer_eq (d : Dialect) (n : Int64) :
    d.integer n=
      if n.toInt < 0 then unary d.negate (atom (toString n.toInt.natAbs)) else atom (toString n.toInt.natAbs) := by
  cases d with
  | javaScript => exact ofInt_eq (o := JavaScript.negate) rfl n
  | python => exact ofInt_eq (o := Python.negate) rfl n

namespace Stands

variable {a : Alphabet} {f g h : Fragment} {t u v : Tree} (d : Dialect)

theorem ofBinary {o : Operator} (ho : o∈d.binaryOperators) (hf : f.Stands a d.language t)
    (hg : g.Stands a d.language u) : (Fragment.binary o f g).Stands a d.language (.binary o t u) := by
  obtain ⟨s,hs⟩ := d.mem_binaries ho
  exact binary (d.written a) hs hf hg

theorem ofUnary {o : Operator} (ho : o∈d.unaryOperators) (hf : f.Stands a d.language t) :
    (Fragment.unary o f).Stands a d.language (.unary o t) := by
  obtain ⟨s,hs⟩ := d.mem_unaries ho
  exact unary (d.written a) hs hf

theorem ofInteger (n : Int64) : (d.integer n).Stands a d.language (d.integerTree n) := by
  rw [integer_eq,Dialect.integerTree]
  have absolute := literal (d.written a) n.toInt.natAbs
  split
  · exact ofUnary d d.negate_mem absolute
  · exact absolute

theorem ofNull : d.null.Stands a d.language .null := by
  cases d
  · exact null (JavaScript.written a) rfl
  · exact null (Python.written a) rfl

theorem ofConditional (hf : f.Stands a d.language t) (hg : g.Stands a d.language u)
    (hh : h.Stands a d.language v) : (d.conditional f g h).Stands a d.language (.conditional t u v) := by
  cases d with
  | javaScript =>
    have operand := conditional (JavaScript.written a)
      (JavaScript.lexicon_lawful.spells_mark (by decide : "?"∈JavaScript.language.marks))
      (JavaScript.lexicon_lawful.spells_mark (by decide : ":"∈JavaScript.language.marks)) hf hg hh
    exact ⟨operand,rfl⟩
  | python =>
    have operand := conditional (Python.written a)
      (Python.lexicon_lawful.spells_word (by rfl : Python.language.isWord a "if"))
      (Python.lexicon_lawful.spells_word (by rfl : Python.language.isWord a "else")) hg hf hh
    exact ⟨operand,rfl⟩

theorem ofCall {callee : String} {ws : List String} (hname : d.language.Names a callee ws) {fs : List Fragment}
    {ts : List Tree} (hargs : List.Forall₂ (Fragment.Stands a d.language) fs ts) :
    (d.call callee fs).Stands a d.language (.call ws ts []) := by
  have stands := call (d.written a) hname hargs .nil (fun h => absurd rfl h)
  rw [List.map_nil,List.append_nil] at stands
  cases d <;> exact stands

theorem ofCallWith {callee : String} {ws : List String} (hname : Python.language.Names a callee ws)
    {fs : List Fragment} {ts : List Tree} (hargs : List.Forall₂ (Fragment.Stands a Python.language) fs ts)
    {xs : List (String × Fragment)} {ys : List (String × Tree)}
    (hnamed : List.Forall₂ (NamedArgument a Python.language) xs ys) :
    (Python.callWith callee fs xs).Stands a Python.language (.call ws ts ys) :=
  call (Python.written a) hname hargs hnamed fun _ => rfl

end Stands

end Fragment

end CallLowering
