import CallLowering.Proofs.Fragment.Literal

namespace CallLowering

open Text Fragment

/-- What is built of names and the forms of a language, kept beside the text that it becomes. -/
inductive Phrase
  | name (s : String)
  | integer (n : Int64)
  | null
  | binary (o : Operator) (lhs rhs : Phrase)
  | unary (o : Operator) (operand : Phrase)
  | conditional (condition whenTrue whenFalse : Phrase)
  | call (callee : String) (args : List Phrase)

namespace Dialect

theorem negate_symbol (d : Dialect) : d.negate.symbol="-" := by
  cases d <;> rfl

theorem visible_binary (d : Dialect) : ∀ o∈d.binaryOperators, Visible o.symbol.toList := by
  cases d <;> decide

theorem visible_unary (d : Dialect) : ∀ o∈d.unaryOperators, Visible o.symbol.toList := by
  cases d <;> decide

/-- What does not negate is a word or a mark that no number has. -/
theorem negates_or_wordy (d : Dialect) : ∀ o∈d.unaryOperators, o=d.negate ∨ Wordy o.symbol := by
  cases d <;> decide

theorem wordy_null (d : Dialect) : Wordy d.null.text := by
  cases d <;> decide

/-- The parentheses that end a call, whatever its arguments are. -/
theorem call_text (d : Dialect) (callee : String) (fs : List Fragment) :
    ∃ inner : String, (d.call callee fs).text=callee++"("++inner++")" := by
  cases d <;> exact ⟨_,rfl⟩

end Dialect

namespace Fragment

variable {d : Dialect}

theorem visible_within {f : Fragment} (h : Visible f.text.toList) (floor : Precedence) :
    Visible (f.within floor).toList := by
  rw [within]
  split
  · exact h.mono (by simp)
  · exact h

theorem compound_binary {o : Operator} (ho : o∈d.binaryOperators) (f : Fragment) {g : Fragment}
    (hg : Visible g.text.toList) : Compound (binary o f g).text := by
  have symbol := d.visible_binary o ho
  refine ⟨(f.within o.lhsFloor++" "++o.symbol).toList,' ',(g.within o.rhsFloor).toList,?_,rfl,?_,
    visible_within hg _⟩
  · simp [binary]
  · exact symbol.mono fun c member => by simp [member]

theorem compound_conditional (d : Dialect) (f g h : Fragment) : Compound (d.conditional f g h).text := by
  cases d with
  | javaScript =>
    let floor := JavaScript.conditionalOp.precedence
    refine ⟨(f.within floor.tighter++" ?").toList,' ',(g.within floor++" : "++h.within floor).toList,?_,rfl,
      ⟨'?',by simp,rfl⟩,⟨':',by simp,rfl⟩⟩
    simp [Dialect.conditional,JavaScript.conditional,floor]
  | python =>
    let floor := Python.conditionalOp.precedence
    refine ⟨(g.within floor.tighter++" if").toList,' ',(f.within floor.tighter++" else "++h.within floor).toList,?_,
      rfl,⟨'i',by simp,rfl⟩,⟨'e',by simp,rfl⟩⟩
    simp [Dialect.conditional,Python.conditional,floor]

theorem compound_call {callee : String} (h : Visible callee.toList) (fs : List Fragment) :
    Compound (d.call callee fs).text := by
  obtain ⟨inner,text⟩ := d.call_text callee fs
  exact ⟨callee.toList,'(',inner.toList++[')'],by simp [text],rfl,h,⟨')',by simp,rfl⟩⟩

end Fragment

namespace Phrase

mutual

/-- The text of the phrase. -/
def fragment (d : Dialect) : Phrase → Fragment
  | name s => .atom s
  | integer n => d.integer n
  | null => d.null
  | binary o lhs rhs => .binary o (lhs.fragment d) (rhs.fragment d)
  | unary o operand => .unary o (operand.fragment d)
  | conditional condition whenTrue whenFalse =>
      d.conditional (condition.fragment d) (whenTrue.fragment d) (whenFalse.fragment d)
  | call callee args => d.call callee (fragments d args)

def fragments (d : Dialect) : List Phrase → List Fragment
  | [] => []
  | t::ts => t.fragment d::fragments d ts

end

/-- A phrase of the language. Names begin as names do, and the callees have this property. -/
inductive Proper (d : Dialect) (callees : String → Prop) : Phrase → Prop
  | name {s : String} (h : Wordy s) : Proper d callees (.name s)
  | integer (n : Int64) : Proper d callees (.integer n)
  | null : Proper d callees .null
  | binary {o : Operator} {t u : Phrase} (ho : o∈d.binaryOperators) (ht : Proper d callees t)
      (hu : Proper d callees u) : Proper d callees (.binary o t u)
  | unary {o : Operator} {t : Phrase} (ho : o∈d.unaryOperators) (ht : Proper d callees t) :
      Proper d callees (.unary o t)
  | conditional {t u v : Phrase} (ht : Proper d callees t) (hu : Proper d callees u) (hv : Proper d callees v) :
      Proper d callees (.conditional t u v)
  | call {callee : String} {args : List Phrase} (h : callees callee) (hargs : ∀ t∈args, Proper d callees t) :
      Proper d callees (.call callee args)

/-- The phrase is this integer, with its sign if it has one or behind the operator that negates. -/
inductive IsLiteral (d : Dialect) (v : Int64) : Phrase → Prop
  | integer : IsLiteral d v (.integer v)
  | negated {w : Int64} (h : 0≤w.toInt) (opposite : v.toInt=-w.toInt) :
      IsLiteral d v (.unary d.negate (.integer w))

variable {d : Dialect} {callees : String → Prop} {t : Phrase} {v : Int64}

/-- Literals are digits with a sign before them, or else integers that have none. -/
theorem IsLiteral.spelled (h : t.IsLiteral d v) :
    (∃ n : Nat, v.toInt=-n ∧ (t.fragment d).text="-"++toString n) ∨
      ∃ n : Nat, v.toInt=n ∧ (t.fragment d).text=toString n ∧ t=.integer v := by
  cases h with
  | integer =>
    rw [fragment,integer_eq]
    split
    · exact .inl ⟨_,by omega,text_negated d.negate_symbol _⟩
    · exact .inr ⟨_,by omega,rfl,rfl⟩
  | @negated w nonneg opposite =>
    have absolute : d.integer w=atom (toString w.toInt.natAbs) := by
      rw [integer_eq,if_neg (by omega)]
    refine .inl ⟨w.toInt.natAbs,by omega,?_⟩
    rw [fragment,fragment,absolute,text_negated d.negate_symbol]

/-- What a literal is read as. -/
theorem IsLiteral.reads (h : t.IsLiteral d v) : Text.integer? (t.fragment d).text.toList=some v.toInt := by
  obtain ⟨n,value,text⟩|⟨n,value,text,-⟩ := h.spelled
  · rw [text,value,integer?_negated]
  · rw [text,value,integer?_toString]

theorem IsLiteral.core (h : t.IsLiteral d v) : core (t.fragment d).text=(t.fragment d).text.toList :=
  core_eq_self (inInteger_of_integer? h.reads)

/-- A literal binds tight enough to be an argument as it stands. -/
theorem IsLiteral.argument (h : t.IsLiteral .javaScript v) :
    (t.fragment .javaScript).within JavaScript.argumentFloor=(t.fragment .javaScript).text := by
  cases h with
  | integer =>
    rw [fragment,Dialect.integer,JavaScript.integer,ofInt]
    split
    · exact if_neg (by decide : ¬JavaScript.negate.precedence.rank < _)
    · exact if_neg (by decide : ¬Precedence.atomic.rank < _)
  | negated nonneg opposite => exact if_neg (by decide : ¬JavaScript.negate.precedence.rank < _)

theorem Proper.visible (h : t.Proper d callees) : Visible (t.fragment d).text.toList := by
  cases h with
  | name h => exact h.visible
  | integer n => exact visible_of_integer? (IsLiteral.integer (d := d) (v := n)).reads
  | null => exact d.wordy_null.visible
  | binary ho ht hu =>
    refine (d.visible_binary _ ho).mono fun c member => ?_
    simp [fragment,Fragment.binary,member]
  | unary ho ht =>
    refine (d.visible_unary _ ho).mono fun c member => ?_
    simp [fragment,Fragment.unary,member]
  | conditional ht hu hv => exact (compound_conditional d _ _ _).visible
  | @call callee args =>
    obtain ⟨inner,text⟩ := d.call_text callee (fragments d args)
    exact ⟨'(',by simp [fragment,text],rfl⟩

/-- A sign joins the digits of an integer that has none. Before all else it is strange. -/
theorem literal_or_strange_negated (h : t.Proper d callees)
    (ht : (∃ v, t.IsLiteral d v) ∨ Strange (t.fragment d).text) :
    (∃ v, (unary d.negate t).IsLiteral d v) ∨ Strange ((unary d.negate t).fragment d).text := by
  have inner := visible_within h.visible d.negate.precedence
  rw [fragment,Fragment.unary,d.negate_symbol]
  -- the operand may begin with a sign, stand between parentheses, or stand as it is
  by_cases meet : signsMeet "-" ((t.fragment d).within d.negate.precedence)
  · rw [if_pos meet]
    exact .inr (compound_apart inner).strange
  rw [if_neg meet,String.append_empty]
  rw [within] at meet ⊢
  split
  · exact .inr (compound_minus_group _).strange
  · next bare =>
    rw [if_neg bare] at meet
    obtain ⟨v,literal⟩|strange := ht
    · obtain ⟨n,-,text⟩|⟨n,value,-,rfl⟩ := literal.spelled
      · exact absurd (by rw [text]; simp [signsMeet]) meet
      · have upper := v.toInt_lt
        have value : (Int64.ofInt (-v.toInt)).toInt=-v.toInt :=
          Int64.toInt_ofInt_of_le (by omega) (by omega)
        exact .inl ⟨_,.negated (by omega) value⟩
    · exact .inr strange.minus

/-- By induction on the phrase; only what stands behind a sign asks for the induction hypothesis. -/
theorem literal_or_strange (hc : ∀ s, callees s → Visible s.toList) (h : t.Proper d callees) :
    (∃ v, t.IsLiteral d v) ∨ Strange (t.fragment d).text := by
  induction h with
  | name h => exact .inr h.strange
  | integer n => exact .inl ⟨n,.integer⟩
  | null => exact .inr d.wordy_null.strange
  | binary ho ht hu => exact .inr (compound_binary ho _ hu.visible).strange
  | unary ho ht ih =>
    obtain rfl|wordy := d.negates_or_wordy _ ho
    · exact literal_or_strange_negated ht ih
    · exact .inr ((wordy.append _).append _).strange
  | conditional ht hu hv => exact .inr (compound_conditional d _ _ _).strange
  | call h hargs => exact .inr (compound_call (hc _ h) _).strange

/-- A phrase is read as an integer, by itself or between parentheses, if and only if it is a literal for it. -/
theorem integer?_iff (hc : ∀ s, callees s → Visible s.toList) (h : t.Proper d callees) {s : String}
    (hs : s=(t.fragment d).text ∨ s="("++(t.fragment d).text++")") (p : Precedence) :
    (Fragment.mk s p).integer?=some v ↔ t.IsLiteral d v := by
  rw [integer?_eq]
  obtain ⟨w,literal⟩|strange := literal_or_strange hc h
  · have whole : core s=(t.fragment d).text.toList := by
      obtain rfl|rfl := hs
      · exact literal.core
      · exact core_group _
    rw [whole,literal.reads,Option.bind_some,Int64.ofInt?_toInt]
    constructor
    · rintro ⟨⟩
      exact literal
    · intro other
      have same := Option.some.inj (other.reads.symm.trans literal.reads)
      rw [Int64.toInt_inj.mp same]
  · have none : Text.integer? (core s)=none := by
      obtain rfl|rfl := hs
      · exact strange.integer?
      · exact strange.group.integer?
    rw [none]
    refine ⟨nofun,fun literal => ?_⟩
    cases strange.integer?.symm.trans (literal.core ▸ literal.reads)

theorem integer?_fragment (hc : ∀ s, callees s → Visible s.toList) (h : t.Proper d callees) :
    (t.fragment d).integer?=some v ↔ t.IsLiteral d v := integer?_iff hc h (.inl rfl) _

theorem integer?_within (hc : ∀ s, callees s → Visible s.toList) (h : t.Proper d callees) (floor p : Precedence) :
    (Fragment.mk ((t.fragment d).within floor) p).integer?=some v ↔ t.IsLiteral d v := by
  rw [within]
  split
  · exact integer?_iff hc h (.inr rfl) p
  · exact integer?_iff hc h (.inl rfl) p

/-- The sign of a negative number is kept apart from another, so that this is not taken for five. -/
example : ((Phrase.unary JavaScript.negate (.integer (-5))).fragment .javaScript).integer?=none := by cbv

end Phrase

end CallLowering
