import CallLowering.Fragment.Basic
import CallLowering.Proofs.Fragment.Lexer

namespace CallLowering

namespace Precedence

instance : LE Precedence := ⟨fun p q => p.rank ≤ q.rank⟩

instance (p q : Precedence) : Decidable (p ≤ q) := inferInstanceAs (Decidable (p.rank ≤ q.rank))

instance : LT Precedence := ⟨fun p q => p.rank < q.rank⟩

instance (p q : Precedence) : Decidable (p < q) := inferInstanceAs (Decidable (p.rank < q.rank))

/-- The rank of a whole expression. -/
def lowest : Precedence := ⟨0⟩

theorem le_refl (p : Precedence) : p ≤ p := UInt8.le_refl p.rank

theorem le_trans {p q r : Precedence} (h : p ≤ q) (h' : q ≤ r) : p ≤ r := UInt8.le_trans h h'

theorem lowest_le (p : Precedence) : lowest ≤ p := UInt8.le_iff_toNat_le.mpr (Nat.zero_le _)

theorem le_atomic (p : Precedence) : p ≤ atomic := by
  have := p.rank.toNat_lt
  exact UInt8.le_iff_toNat_le.mpr (Nat.le_of_lt_succ this)

theorem not_lt_of_le {p q : Precedence} (h : p ≤ q) : ¬q < p := UInt8.not_lt.mpr h

theorem tighter_toNat {p : Precedence} (h : p < atomic) : p.tighter.rank.toNat=p.rank.toNat+1 := by
  have below : p.rank.toNat < 255 := UInt8.lt_iff_toNat_lt.mp h
  have proper : p≠atomic := fun eq => by rw [eq] at below; exact absurd below (by decide)
  rw [tighter,if_neg proper]
  change (p.rank.toNat+1)%256=_
  omega

theorem lt_tighter {p : Precedence} (h : p < atomic) : p < p.tighter := by
  have := tighter_toNat h
  exact UInt8.lt_iff_toNat_lt.mpr (by omega)

theorem tighter_le {p q : Precedence} (h : p < q) : p.tighter ≤ q := by
  have below : p.rank.toNat < q.rank.toNat := UInt8.lt_iff_toNat_lt.mp h
  have bound := q.rank.toNat_lt
  have := tighter_toNat (UInt8.lt_iff_toNat_lt.mpr (show p.rank.toNat < 255 by omega))
  exact UInt8.le_iff_toNat_le.mpr (by omega)

theorem le_tighter (p : Precedence) : p ≤ p.tighter := by
  by_cases h : p=atomic
  · rw [tighter,if_pos h]
    exact p.le_refl
  · have bound := p.rank.toNat_lt
    have top : p.rank.toNat≠255 := fun eq => h (by cases p; congr; exact UInt8.toNat_inj.mp eq)
    have := tighter_toNat (UInt8.lt_iff_toNat_lt.mpr (show p.rank.toNat < 255 by omega))
    exact UInt8.le_iff_toNat_le.mpr (by omega)

end Precedence

namespace Operator

/-- May what binds at least this tight stand left of the operator? What groups to the left may hold its own rank
there. -/
def AdmitsLeft (o : Operator) (p : Precedence) : Prop :=
  match o.associativity with
  | .left => o.precedence ≤ p
  | .right => o.precedence < p
  | .neither => o.precedence < p

def AdmitsRight (o : Operator) (p : Precedence) : Prop :=
  match o.associativity with
  | .left => o.precedence < p
  | .right => o.precedence ≤ p
  | .neither => o.precedence < p

variable {o : Operator} {p : Precedence}

theorem AdmitsLeft.floor (h : o.AdmitsLeft p) : o.lhsFloor ≤ p := by
  rw [AdmitsLeft] at h
  cases ha : o.associativity <;> rw [ha] at h <;> simp only [lhsFloor,ha,if_true]
  · exact h
  · exact Precedence.tighter_le h
  · exact Precedence.tighter_le h

theorem AdmitsRight.floor (h : o.AdmitsRight p) : o.rhsFloor ≤ p := by
  rw [AdmitsRight] at h
  cases ha : o.associativity <;> rw [ha] at h <;> simp only [rhsFloor,ha,if_true]
  · exact Precedence.tighter_le h
  · exact h
  · exact Precedence.tighter_le h

theorem admitsLeft_lhsFloor (h : o.precedence < .atomic) : o.AdmitsLeft o.lhsFloor := by
  rw [AdmitsLeft,lhsFloor]
  cases o.associativity
  · exact o.precedence.le_refl
  · exact Precedence.lt_tighter h
  · exact Precedence.lt_tighter h

theorem admitsRight_rhsFloor (h : o.precedence < .atomic) : o.AdmitsRight o.rhsFloor := by
  rw [AdmitsRight,rhsFloor]
  cases o.associativity
  · exact Precedence.lt_tighter h
  · exact o.precedence.le_refl
  · exact Precedence.lt_tighter h

theorem le_lhsFloor (o : Operator) : o.precedence ≤ o.lhsFloor := by
  rw [lhsFloor]
  split
  · exact o.precedence.le_refl
  · exact o.precedence.le_tighter

theorem le_rhsFloor (o : Operator) : o.precedence ≤ o.rhsFloor := by
  rw [rhsFloor]
  split
  · exact o.precedence.le_refl
  · exact o.precedence.le_tighter

theorem AdmitsLeft.le (h : o.AdmitsLeft p) : o.precedence ≤ p := Precedence.le_trans o.le_lhsFloor h.floor

theorem AdmitsRight.le (h : o.AdmitsRight p) : o.precedence ≤ p := Precedence.le_trans o.le_rhsFloor h.floor

end Operator

/-- An expression, as its author means it. Names may have dots, and arguments of a call may have names. -/
inductive Tree
  | name (path : List String)
  | literal (n : Nat)
  | null
  | unary (o : Operator) (operand : Tree)
  | binary (o : Operator) (lhs rhs : Tree)
  | conditional (condition whenTrue whenFalse : Tree)
  | call (callee : List String) (args : List Tree) (named : List (String × Tree))

/-- A language of expressions. Operators come with the tokens that they are written as. -/
structure Language extends Lexicon where
  keywords : List String
  nullWord : String
  unaries : List (Operator × List Token)
  binaries : List (Operator × List Token)
  conditionalOp : Operator
  /-- What stands behind the first part of a conditional, and behind the second. -/
  separators : Token × Token
  /-- The rank that the second part needs. -/
  middle : Precedence
  /-- A conditional from its parts as they are written. -/
  arrange : Tree → Tree → Tree → Tree
  argument : Precedence
  namedArguments : Bool

namespace Language

variable (L : Language)

/-- The operators behind an operand. -/
def infixes : List (Operator × List Token) := (L.conditionalOp,[L.separators.1])::L.binaries

/-- The operator of a table that the tokens begin with, and the tokens behind it. -/
def operatorAt (table : List (Operator × List Token)) (ts : List Token) : Option (Operator × List Token) :=
  table.findSome? fun x => (x.2.isPrefixOf? ts).map fun rest => (x.1,rest)

def named (keys : List String) (tss : List (List Token)) : List (List Token) :=
  List.zipWith (fun k ts => .word k::.mark "="::ts) keys tss

/-- The tokens read as a tree whose operator, if it does not stand between parentheses, has at least this rank. -/
inductive Parses : Precedence → List Token → Tree → Prop
  | name {q : Precedence} {ws : List String} (hne : ws≠[]) (hws : ∀ w∈ws, w∉L.keywords) :
      Parses q (path ws) (.name ws)
  | literal (q : Precedence) (n : Nat) : Parses q [.number n] (.literal n)
  | null (q : Precedence) : Parses q [.word L.nullWord] .null
  | group (q : Precedence) {ts : List Token} {t : Tree} (h : Parses .lowest ts t) :
      Parses q (.mark "("::ts++[.mark ")"]) t
  | call {q : Precedence} {ws : List String} (hne : ws≠[]) (hws : ∀ w∈ws, w∉L.keywords)
      {tss vss : List (List Token)} {ts vs : List Tree} {keys : List String}
      (hargs : List.Forall₂ (Parses L.argument) tss ts) (hnamed : List.Forall₂ (Parses L.argument) vss vs)
      (hkeys : ∀ k∈keys, k∉L.keywords) (hlength : keys.length=vss.length)
      (hallowed : keys≠[] → L.namedArguments) :
      Parses q (path ws++.mark "("::separated (tss++named keys vss)++[.mark ")"]) (.call ws ts (keys.zip vs))
  | unary {q r : Precedence} {o : Operator} {s ts : List Token} {t : Tree} (ho : (o,s)∈L.unaries)
      (hq : q ≤ o.precedence) (hr : o.AdmitsRight r) (h : Parses r ts t) : Parses q (s++ts) (.unary o t)
  | binary {q l r : Precedence} {o : Operator} {s ts us : List Token} {t u : Tree} (ho : (o,s)∈L.binaries)
      (hq : q ≤ o.precedence) (hl : o.AdmitsLeft l) (hr : o.AdmitsRight r) (h : Parses l ts t)
      (h' : Parses r us u) : Parses q (ts++s++us) (.binary o t u)
  | conditional {q l r : Precedence} {ts us vs : List Token} {t u v : Tree} (hq : q ≤ L.conditionalOp.precedence)
      (hl : L.conditionalOp.AdmitsLeft l) (hr : L.conditionalOp.AdmitsRight r) (h : Parses l ts t)
      (h' : Parses L.middle us u) (h'' : Parses r vs v) :
      Parses q (ts++L.separators.1::us++L.separators.2::vs) (L.arrange t u v)

variable {L}

/-- What is read where a tight operand is needed is also read where a loose one will do. -/
theorem Parses.mono {p q : Precedence} {ts : List Token} {t : Tree} (h : L.Parses q ts t) (hpq : p ≤ q) :
    L.Parses p ts t := by
  cases h with
  | name hne hws => exact .name hne hws
  | literal _ n => exact .literal p n
  | null _ => exact .null p
  | group _ h => exact .group p h
  | call hne hws hargs hnamed hkeys hlength hallowed => exact .call hne hws hargs hnamed hkeys hlength hallowed
  | unary ho hq hr h => exact .unary ho (Precedence.le_trans hpq hq) hr h
  | binary ho hq hl hr h h' => exact .binary ho (Precedence.le_trans hpq hq) hl hr h h'
  | conditional hq hl hr h h' h'' => exact .conditional (Precedence.le_trans hpq hq) hl hr h h' h''

/-- Induction over how tokens are read gives the hypothesis for all arguments of a call. -/
theorem Parses.induction {motive : Precedence → List Token → Tree → Prop}
    (name : ∀ q {ws : List String}, ws≠[] → (∀ w∈ws, w∉L.keywords) → motive q (path ws) (.name ws))
    (literal : ∀ q n, motive q [.number n] (.literal n)) (null : ∀ q, motive q [.word L.nullWord] .null)
    (group : ∀ q {ts t}, motive .lowest ts t → motive q (.mark "("::ts++[.mark ")"]) t)
    (call : ∀ q {ws : List String} {tss vss : List (List Token)} {ts vs : List Tree} {keys : List String},
      ws≠[] → (∀ w∈ws, w∉L.keywords) → List.Forall₂ (motive L.argument) tss ts →
      List.Forall₂ (motive L.argument) vss vs → (∀ k∈keys, k∉L.keywords) → keys.length=vss.length →
      (keys≠[] → L.namedArguments) →
      motive q (path ws++.mark "("::separated (tss++named keys vss)++[.mark ")"]) (.call ws ts (keys.zip vs)))
    (unary : ∀ q {r o s ts t}, (o,s)∈L.unaries → q ≤ o.precedence → o.AdmitsRight r → motive r ts t →
      motive q (s++ts) (.unary o t))
    (binary : ∀ q {l r o s ts us t u}, (o,s)∈L.binaries → q ≤ o.precedence → o.AdmitsLeft l → o.AdmitsRight r →
      motive l ts t → motive r us u → motive q (ts++s++us) (.binary o t u))
    (conditional : ∀ q {l r ts us vs t u v}, q ≤ L.conditionalOp.precedence → L.conditionalOp.AdmitsLeft l →
      L.conditionalOp.AdmitsRight r → motive l ts t → motive L.middle us u → motive r vs v →
      motive q (ts++L.separators.1::us++L.separators.2::vs) (L.arrange t u v))
    {q : Precedence} {ts : List Token} {t : Tree} (h : L.Parses q ts t) : motive q ts t :=
  @Parses.rec L (fun q ts t _ => motive q ts t) (fun tss ts _ => List.Forall₂ (motive L.argument) tss ts)
    (@fun q _ hne hws => name q hne hws) (fun q n => literal q n) (fun q => null q)
    (@fun q _ _ _ ih => group q ih)
    (@fun q _ hne hws _ _ _ _ _ _ _ hkeys hlength hallowed ihs ihs' =>
      call q hne hws ihs ihs' hkeys hlength hallowed)
    (@fun q _ _ _ _ _ ho hq hr _ ih => unary q ho hq hr ih)
    (@fun q _ _ _ _ _ _ _ _ ho hq hl hr _ _ ih ih' => binary q ho hq hl hr ih ih')
    (@fun q _ _ _ _ _ _ _ _ hq hl hr _ _ _ ih ih' ih'' => conditional q hq hl hr ih ih' ih'') .nil
    (fun _ _ ih ihs => .cons ih ihs) q ts t h

/-- The tokens that an expression may begin with where this rank is needed. -/
inductive Starts (L : Language) (q : Precedence) : Token → Prop
  | name {w : String} (hw : w∉L.keywords) : Starts L q (.word w)
  | literal (n : Nat) : Starts L q (.number n)
  | null : Starts L q (.word L.nullWord)
  | group : Starts L q (.mark "(")
  | unary {o : Operator} {tok : Token} {s : List Token} (ho : (o,tok::s)∈L.unaries) (hq : q ≤ o.precedence) :
      Starts L q tok

theorem Starts.mono {p q : Precedence} {tok : Token} (h : L.Starts q tok) (hpq : p ≤ q) : L.Starts p tok := by
  cases h with
  | name hw => exact .name hw
  | literal n => exact .literal n
  | null => exact .null
  | group => exact .group
  | unary ho hq => exact .unary ho (Precedence.le_trans hpq hq)

theorem path_cons (w : String) (ws : List String) : ∃ ts, path (w::ws)=.word w::ts := by
  cases ws with
  | nil => exact ⟨[],rfl⟩
  | cons v ws => exact ⟨_,rfl⟩

theorem Parses.starts (hu : ∀ x∈L.unaries, x.2≠[]) {q : Precedence} {ts : List Token} {t : Tree}
    (h : L.Parses q ts t) : ∃ tok rest, ts=tok::rest ∧ L.Starts q tok := by
  refine Parses.induction (motive := fun q ts _ => ∃ tok rest, ts=tok::rest ∧ L.Starts q tok)
    ?name ?literal ?null ?group ?call ?unary ?binary ?conditional h
  case name =>
    intro q ws hne hws
    obtain ⟨w,ws,rfl⟩ := List.exists_cons_of_ne_nil hne
    obtain ⟨rest,hrest⟩ := path_cons w ws
    exact ⟨.word w,rest,hrest,.name (hws w (by simp))⟩
  case literal => exact fun q n => ⟨.number n,[],rfl,.literal n⟩
  case null => exact fun q => ⟨.word L.nullWord,[],rfl,.null⟩
  case group => exact fun q ts _ _ => ⟨.mark "(",ts++[.mark ")"],rfl,.group⟩
  case call =>
    intro q ws tss vss ts vs keys hne hws _ _ _ _ _
    obtain ⟨w,ws,rfl⟩ := List.exists_cons_of_ne_nil hne
    obtain ⟨rest,hrest⟩ := path_cons w ws
    exact ⟨.word w,_,by rw [hrest]; rfl,.name (hws w (by simp))⟩
  case unary =>
    intro q r o s ts t ho hq _ _
    obtain ⟨tok,rest,hs⟩ := List.exists_cons_of_ne_nil (hu _ ho)
    simp only at hs
    rw [hs] at ho ⊢
    exact ⟨tok,rest++ts,rfl,.unary ho hq⟩
  case binary =>
    intro q l r o s ts us t u ho hq hl _ ih _
    obtain ⟨tok,rest,rfl,starts⟩ := ih
    exact ⟨tok,rest++s++us,rfl,starts.mono (Precedence.le_trans hq hl.le)⟩
  case conditional =>
    intro q l r ts us vs t u v hq hl _ ih _ _
    obtain ⟨tok,rest,rfl,starts⟩ := ih
    exact ⟨tok,_,rfl,starts.mono (Precedence.le_trans hq hl.le)⟩

end Language

end CallLowering
