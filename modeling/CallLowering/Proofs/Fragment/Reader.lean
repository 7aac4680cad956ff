import CallLowering.Proofs.Fragment.Grammar
import Mathlib.Data.List.Forall2

namespace CallLowering.Language

def expect (tok : Token) : List Token → Option (List Token)
  | t::ts => if t=tok then some ts else none
  | [] => none

/-- What stands behind the first word of a name with dots, and the tokens behind the name. -/
def wordsAt : List Token → List String × List Token
  | .mark "."::.word w::ts => (w::(wordsAt ts).1,(wordsAt ts).2)
  | ts => ([],ts)

mutual

/-- An expression whose operators have at least this rank, as far as it goes, and the tokens behind it. -/
def readExpr (L : Language) (p : Precedence) (ts : List Token) : Option (Tree × List Token) := do
  let (t,ts) ← L |>.readOperand ts
  L |>.readRest p t ts
partial_fixpoint

def readOperand (L : Language) (ts : List Token) : Option (Tree × List Token) :=
  match operatorAt L.unaries ts with
  | some (o,ts) => do
      let (t,ts) ← L |>.readExpr o.precedence ts
      return (.unary o t,ts)
  | none =>
      match ts with
      | .number n::ts => some (.literal n,ts)
      | .word w::ts =>
          if w=L.nullWord then some (.null,ts) else L |>.readNamed (w::(wordsAt ts).1) (wordsAt ts).2
      | .mark s::ts => do
          let ts ← expect (.mark "(") (.mark s::ts)
          let (t,ts) ← L |>.readExpr .lowest ts
          return (t,← expect (.mark ")") ts)
      | [] => none
partial_fixpoint

def readNamed (L : Language) (ws : List String) (ts : List Token) : Option (Tree × List Token) :=
  match expect (.mark "(") ts with
  | some ts => do
      let ((args,named),ts) ← L |>.readArguments ts
      return (.call ws args named,ts)
  | none => some (.name ws,ts)
partial_fixpoint

def readArguments (L : Language) (ts : List Token) : Option ((List Tree × List (String × Tree)) × List Token) :=
  match expect (.mark ")") ts with
  | some ts => some (([],[]),ts)
  | none => do
      let (t,ts) ← L |>.readExpr L.argument ts
      match t,expect (.mark "=") ts with
      | .name [k],some ts => do
          let (v,ts) ← L |>.readExpr L.argument ts
          let ((args,named),ts) ← L |>.readMore ts
          return ((args,(k,v)::named),ts)
      | _,_ => do
          let ((args,named),ts) ← L |>.readMore ts
          return ((t::args,named),ts)
partial_fixpoint

def readMore (L : Language) (ts : List Token) : Option ((List Tree × List (String × Tree)) × List Token) :=
  match expect (.mark ",") ts with
  | some ts => L |>.readArguments ts
  | none => do return (([],[]),← expect (.mark ")") ts)
partial_fixpoint

/-- Goes on behind an operand. -/
def readRest (L : Language) (p : Precedence) (t : Tree) (ts : List Token) : Option (Tree × List Token) :=
  match operatorAt L.infixes ts with
  | none => some (t,ts)
  | some (o,us) =>
      if o.precedence < p then some (t,ts)
      else if o=L.conditionalOp then do
        let (u,us) ← L |>.readExpr L.middle us
        let us ← expect L.separators.2 us
        let (v,us) ← L |>.readExpr o.rhsFloor us
        L |>.readRest p (L.arrange t u v) us
      else do
        let (u,us) ← L |>.readExpr o.rhsFloor us
        L |>.readRest p (.binary o t u) us
partial_fixpoint

end

variable (L : Language)

/-- What keeps the operators of a language apart. -/
structure Lawful : Prop where
  nullWord : L.nullWord∈L.keywords
  /-- What stands before an operand is read as such, and nothing else is. -/
  unaryAt : ∀ x∈L.unaries, ∀ rest, operatorAt L.unaries (x.2++rest)=some (x.1,rest)
  unaries_written : ∀ x∈L.unaries, x.2≠[] ∧ ∀ tok∈x.2.head?, tok≠.mark ")"
  operandAt : ∀ tok rest, (∃ w, tok=.word w ∧ (w∉L.keywords ∨ w=L.nullWord)) ∨ (∃ n, tok=.number n) ∨
    tok=.mark "(" → operatorAt L.unaries (tok::rest)=none
  /-- What stands behind an operand is read as such. -/
  binaryAt : ∀ x∈L.binaries, ∀ tok rest, L.Starts x.1.rhsFloor tok →
    operatorAt L.infixes (x.2++tok::rest)=some (x.1,tok::rest)
  conditionalAt : ∀ rest, operatorAt L.infixes (L.separators.1::rest)=some (L.conditionalOp,rest)
  endAt : operatorAt L.infixes []=none
  closeAt : ∀ tok∈[.mark ")",.mark ",",.mark "=",L.separators.2], ∀ rest,
    operatorAt L.infixes (tok::rest)=none
  binary_ne : ∀ x∈L.binaries, x.1≠L.conditionalOp
  /-- Nothing that may follow a name makes it longer, or makes it a call. -/
  heads : ∀ x∈L.infixes, x.2≠[] ∧ ∀ tok∈x.2.head?, tok≠.mark "(" ∧ tok≠.mark "."
  second : L.separators.2≠.mark "(" ∧ L.separators.2≠.mark "."
  /-- What may follow an operand goes on behind it, and not inside it. -/
  unary_apart : ∀ x∈L.infixes, ∀ y∈L.unaries, x.1.lhsFloor ≤ y.1.precedence → x.1.precedence < y.1.precedence
  infix_apart : ∀ x∈L.infixes, ∀ y∈L.infixes, x.1.lhsFloor ≤ y.1.precedence → x.1.precedence < y.1.rhsFloor

/-- What may stand behind an expression that was read where this rank is needed. -/
structure Follows (q : Precedence) (ts : List Token) : Prop where
  head : ∀ tok∈ts.head?, tok≠.mark "(" ∧ tok≠.mark "."
  operator : ∀ o us, operatorAt L.infixes ts=some (o,us) → (∃ s, (o,s)∈L.infixes) ∧ o.lhsFloor ≤ q

variable {L} {p q : Precedence} {t : Tree}

theorem Follows.mono {ts : List Token} (h : L.Follows p ts) (hpq : p ≤ q) : L.Follows q ts :=
  ⟨h.head,fun o us ho => ⟨(h.operator o us ho).1,Precedence.le_trans (h.operator o us ho).2 hpq⟩⟩

theorem expect_cons (tok : Token) (ts : List Token) : expect tok (tok::ts)=some ts := if_pos rfl

theorem expect_of_head {tok : Token} {ts : List Token} (h : ∀ tok'∈ts.head?, tok'≠tok) :
    expect tok ts=none := by
  cases ts with
  | nil => rfl
  | cons tok' ts => exact if_neg (h tok' rfl)

theorem readRest_of_none {ts : List Token} (h : operatorAt L.infixes ts=none) :
    L.readRest p t ts=some (t,ts) := by
  rw [readRest,h]

/-- An operand ends where nothing follows that goes on inside it. -/
theorem Follows.readRest_stops {ts : List Token} (h : L.Follows q ts)
    (ho : ∀ x∈L.infixes, x.1.lhsFloor ≤ q → x.1.precedence < p) : L.readRest p t ts=some (t,ts) := by
  cases hx : operatorAt L.infixes ts with
  | none => exact readRest_of_none hx
  | some x =>
    obtain ⟨o,us⟩ := x
    obtain ⟨⟨s,hs⟩,hq⟩ := h.operator o us hx
    have loose : o.precedence < p := ho (o,s) hs hq
    rw [readRest,hx]
    simp only [if_pos loose]

theorem wordsAt_path (w : String) (ws : List String) {rest : List Token}
    (hr : ∀ tok∈rest.head?, tok≠.mark ".") :
    ∃ us, path (w::ws)++rest=.word w::us ∧ wordsAt us=(ws,rest) := by
  induction ws generalizing w with
  | nil =>
    refine ⟨rest,rfl,?_⟩
    cases rest with
    | nil => rfl
    | cons tok rest =>
      have dot := hr tok rfl
      cases tok with
      | mark s =>
        rw [wordsAt]
        intro v ts eq
        cases eq
        exact dot rfl
      | word v => rfl
      | number n => rfl
  | cons v ws ih =>
    obtain ⟨us,hpath,hwords⟩ := ih v
    refine ⟨.mark "."::.word v::us,?_,?_⟩
    · rw [←hpath]
      rfl
    · rw [wordsAt,hwords]

namespace Lawful

variable (hL : L.Lawful)
include hL

theorem readExpr_word {w : String} (hw : w∉L.keywords) (us : List Token) :
    L.readExpr p (.word w::us)=(do
      let (t,ts) ← L.readNamed (w::(wordsAt us).1) (wordsAt us).2
      L.readRest p t ts) := by
  have operand := hL.operandAt (.word w) us (.inl ⟨w,rfl,.inl hw⟩)
  have proper : w≠L.nullWord := fun eq => hw (eq ▸ hL.nullWord)
  rw [readExpr,readOperand,operand]
  simp only [if_neg proper]

theorem readExpr_name {ws : List String} (hne : ws≠[]) (hws : ∀ w∈ws, w∉L.keywords) {rest : List Token}
    (hr : ∀ tok∈rest.head?, tok≠.mark "(" ∧ tok≠.mark ".") :
    L.readExpr p (path ws++rest)=L.readRest p (.name ws) rest := by
  obtain ⟨w,ws,rfl⟩ := List.exists_cons_of_ne_nil hne
  obtain ⟨us,hpath,hwords⟩ := wordsAt_path w ws fun tok h => (hr tok h).2
  have plain : L.readNamed (w::ws) rest=some (.name (w::ws),rest) := by
    rw [readNamed,expect_of_head fun tok h => (hr tok h).1]
  rw [hpath,hL.readExpr_word (hws w (by simp)),hwords,plain]
  rfl

theorem readExpr_literal (n : Nat) (rest : List Token) :
    L.readExpr p (.number n::rest)=L.readRest p (.literal n) rest := by
  have operand := hL.operandAt (.number n) rest (.inr (.inl ⟨n,rfl⟩))
  rw [readExpr,readOperand,operand]
  rfl

theorem readExpr_null (rest : List Token) : L.readExpr p (.word L.nullWord::rest)=L.readRest p .null rest := by
  have operand := hL.operandAt (.word L.nullWord) rest (.inl ⟨_,rfl,.inr rfl⟩)
  rw [readExpr,readOperand,operand]
  simp only [if_true]
  rfl

theorem readExpr_group {ts rest : List Token}
    (h : L.readExpr .lowest (ts++.mark ")"::rest)=some (t,.mark ")"::rest)) :
    L.readExpr p (.mark "("::ts++[.mark ")"]++rest)=L.readRest p t rest := by
  have operand := hL.operandAt (.mark "(") (ts++.mark ")"::rest) (.inr (.inr rfl))
  have shape : .mark "("::ts++[.mark ")"]++rest=.mark "("::(ts++.mark ")"::rest) := by simp
  rw [shape,readExpr,readOperand,operand]
  simp only [expect_cons,Option.bind_eq_bind,Option.bind_some,h]
  rfl

theorem readExpr_unary {o : Operator} {s ts rest : List Token} (ho : (o,s)∈L.unaries)
    (h : L.readExpr o.precedence (ts++rest)=some (t,rest)) :
    L.readExpr p (s++ts++rest)=L.readRest p (.unary o t) rest := by
  have operand := hL.unaryAt (o,s) ho (ts++rest)
  rw [List.append_assoc,readExpr,readOperand.eq_def,operand]
  simp only [h]
  rfl

theorem binaryAt_parses {o : Operator} {s us : List Token} {u : Tree} (ho : (o,s)∈L.binaries)
    (hu : L.Parses o.rhsFloor us u) (rest : List Token) :
    operatorAt L.infixes (s++(us++rest))=some (o,us++rest) := by
  obtain ⟨tok,more,rfl,starts⟩ := hu.starts fun x hx => (hL.unaries_written x hx).1
  exact hL.binaryAt (o,s) ho tok (more++rest) starts

theorem readExpr_call {ws : List String} (hne : ws≠[]) (hws : ∀ w∈ws, w∉L.keywords) {ts rest : List Token}
    {args : List Tree × List (String × Tree)}
    (h : L.readArguments (ts++.mark ")"::rest)=some (args,rest)) :
    L.readExpr p (path ws++.mark "("::ts++[.mark ")"]++rest)=
      L.readRest p (.call ws args.1 args.2) rest := by
  obtain ⟨w,ws,rfl⟩ := List.exists_cons_of_ne_nil hne
  have opened : ∀ tok∈(Token.mark "("::(ts++.mark ")"::rest)).head?, tok≠.mark "." := by simp
  obtain ⟨us,hpath,hwords⟩ := wordsAt_path w ws opened
  have shape : path (w::ws)++.mark "("::ts++[.mark ")"]++rest=
      path (w::ws)++.mark "("::(ts++.mark ")"::rest) := by simp
  have call : L.readNamed (w::ws) (.mark "("::(ts++.mark ")"::rest))=
      some (.call (w::ws) args.1 args.2,rest) := by
    rw [readNamed,expect_cons]
    simp only [h,Option.bind_eq_bind,Option.bind_some]
    rfl
  rw [shape,hpath,hL.readExpr_word (hws w (by simp)),hwords,call]
  rfl

theorem readRest_binary {o : Operator} {s us rest : List Token} {u : Tree} (ho : (o,s)∈L.binaries)
    (hp : p ≤ o.precedence) (hu : L.Parses o.rhsFloor us u)
    (h : L.readExpr o.rhsFloor (us++rest)=some (u,rest)) :
    L.readRest p t (s++us++rest)=L.readRest p (.binary o t u) rest := by
  have tight : ¬o.precedence < p := Precedence.not_lt_of_le hp
  have proper : o≠L.conditionalOp := hL.binary_ne (o,s) ho
  rw [List.append_assoc,readRest,hL.binaryAt_parses ho hu]
  simp only [if_neg tight,if_neg proper,h]
  rfl

theorem readRest_conditional {us vs rest : List Token} {u v : Tree} (hp : p ≤ L.conditionalOp.precedence)
    (h : L.readExpr L.middle (us++L.separators.2::vs++rest)=some (u,L.separators.2::vs++rest))
    (h' : L.readExpr L.conditionalOp.rhsFloor (vs++rest)=some (v,rest)) :
    L.readRest p t (L.separators.1::us++L.separators.2::vs++rest)=L.readRest p (L.arrange t u v) rest := by
  have found := hL.conditionalAt (us++L.separators.2::vs++rest)
  have tight : ¬L.conditionalOp.precedence < p := Precedence.not_lt_of_le hp
  have shape : L.separators.1::us++L.separators.2::vs++rest=
      L.separators.1::(us++L.separators.2::vs++rest) := by simp
  rw [shape,readRest,found]
  simp only [if_neg tight,if_true,h,List.cons_append,Option.bind_eq_bind,Option.bind_some,expect_cons,h']

theorem follows_nil : L.Follows q [] :=
  ⟨by simp,fun o us h => by rw [hL.endAt] at h; cases h⟩

theorem follows_close {tok : Token} (htok : tok∈[.mark ")",.mark ",",.mark "=",L.separators.2])
    (rest : List Token) : L.Follows q (tok::rest) := by
  refine ⟨?_,fun o us h => by rw [hL.closeAt tok htok] at h; cases h⟩
  intro tok' h
  cases h
  simp only [List.mem_cons,List.not_mem_nil,or_false] at htok
  obtain rfl|rfl|rfl|rfl := htok
  · simp
  · simp
  · simp
  · exact hL.second

theorem follows_infix {o : Operator} {s us : List Token} (ho : (o,s)∈L.infixes) (hq : o.lhsFloor ≤ q)
    (h : operatorAt L.infixes (s++us)=some (o,us)) : L.Follows q (s++us) := by
  constructor
  · intro tok htok
    obtain ⟨hne,head⟩ := hL.heads (o,s) ho
    obtain ⟨tok',s',rfl⟩ := List.exists_cons_of_ne_nil hne
    cases htok
    exact head tok rfl
  · intro o' us' h'
    rw [h] at h'
    cases h'
    exact ⟨⟨s,ho⟩,hq⟩

omit hL in
theorem separated_cons (ts : List Token) (tss : List (List Token)) :
    separated (ts::tss)=ts++tss.flatMap (Token.mark ","::·) := by
  induction tss generalizing ts with
  | nil => simp [separated]
  | cons us tss ih =>
    have step : separated (ts::us::tss)=ts++.mark ","::separated (us::tss) := by simp [separated]
    rw [step,ih]
    rfl

theorem follows_argument (tss : List (List Token)) (rest : List Token) :
    L.Follows q (tss.flatMap (Token.mark ","::·)++.mark ")"::rest) ∧
      expect (.mark "=") (tss.flatMap (Token.mark ","::·)++.mark ")"::rest)=none := by
  cases tss with
  | nil => exact ⟨hL.follows_close (by simp) rest,by simp [expect]⟩
  | cons ts tss => exact ⟨hL.follows_close (by simp) _,by simp [expect]⟩

theorem readArguments_positional {ts behind rest : List Token} {args : List Tree × List (String × Tree)}
    (ht : L.Parses L.argument ts t) (h : L.readExpr L.argument (ts++behind)=some (t,behind))
    (heq : expect (.mark "=") behind=none) (hmore : L.readMore behind=some (args,rest)) :
    L.readArguments (ts++behind)=some ((t::args.1,args.2),rest) := by
  obtain ⟨tok,more,rfl,starts⟩ := ht.starts fun x hx => (hL.unaries_written x hx).1
  have proper : tok≠.mark ")" := by
    cases starts with
    | unary ho hq => exact (hL.unaries_written _ ho).2 tok rfl
    | _ => simp
  have opened : expect (.mark ")") (tok::more++behind)=none := if_neg proper
  rw [readArguments,opened]
  simp only [h,Option.bind_eq_bind,Option.bind_some,heq,hmore]
  rfl

theorem readArguments_named {k : String} {vs behind rest : List Token} {v : Tree}
    {args : List Tree × List (String × Tree)} (hk : k∉L.keywords)
    (h : L.readExpr L.argument (vs++behind)=some (v,behind)) (hmore : L.readMore behind=some (args,rest)) :
    L.readArguments (.word k::.mark "="::vs++behind)=some ((args.1,(k,v)::args.2),rest) := by
  have equals : L.Follows L.argument (.mark "="::(vs++behind)) := hL.follows_close (by simp) _
  have key : L.readExpr L.argument (path [k]++.mark "="::(vs++behind))=
      L.readRest L.argument (.name [k]) (.mark "="::(vs++behind)) :=
    hL.readExpr_name (by simp) (by simpa using hk) equals.head
  rw [readRest_of_none (hL.closeAt (.mark "=") (by simp) _)] at key
  have opened : expect (.mark ")") (.word k::.mark "="::vs++behind)=none := by simp [expect]
  have shape : path [k]++.mark "="::(vs++behind)=.word k::.mark "="::vs++behind := rfl
  rw [readArguments,opened]
  rw [shape] at key
  simp only [key,Option.bind_eq_bind,Option.bind_some,expect_cons,h,hmore]
  rfl

def Reads (L : Language) (q : Precedence) (ts : List Token) (t : Tree) : Prop :=
  ∀ p ≤ q, ∀ rest, L.Follows q rest → L.readExpr p (ts++rest)=L.readRest p t rest

omit hL in
theorem Reads.mono {ts : List Token} (h : Reads L q ts t) (hpq : p ≤ q) : Reads L p ts t :=
  fun _ hr rest hrest => h _ (Precedence.le_trans hr hpq) rest (hrest.mono hpq)

omit hL in
theorem Reads.stops {ts rest : List Token} (h : Reads L q ts t) (hr : L.Follows q rest)
    (hnone : operatorAt L.infixes rest=none) : L.readExpr q (ts++rest)=some (t,rest) :=
  (h q q.le_refl rest hr).trans (readRest_of_none hnone)

/-- Behind an argument stands a comma or the end of the call. -/
theorem Reads.argument {ts : List Token} (h : Reads L q ts t) (tss : List (List Token)) (rest : List Token) :
    L.readExpr q (ts++(tss.flatMap (Token.mark ","::·)++.mark ")"::rest))=
      some (t,tss.flatMap (Token.mark ","::·)++.mark ")"::rest) := by
  apply Reads.stops h (hL.follows_argument tss rest).1
  cases tss with
  | nil => exact hL.closeAt _ (by simp) _
  | cons ts tss => exact hL.closeAt _ (by simp) _

theorem readMore_named {keys : List String} {vss : List (List Token)} {vs : List Tree}
    (h : List.Forall₂ (Reads L L.argument) vss vs) (hkeys : ∀ k∈keys, k∉L.keywords)
    (hlength : keys.length=vss.length) (rest : List Token) :
    L.readMore ((named keys vss).flatMap (Token.mark ","::·)++.mark ")"::rest)=
      some (([],keys.zip vs),rest) := by
  induction h generalizing keys with
  | nil =>
    cases List.length_eq_zero_iff.mp hlength
    change L.readMore (.mark ")"::rest)=_
    rw [readMore,expect_of_head (by simp),expect_cons]
    rfl
  | @cons vs v vss ws hv _ ih =>
    cases keys with
    | nil => cases hlength
    | cons k keys =>
      have more := ih (fun k hk => hkeys k (by simp [hk])) (Nat.succ.inj hlength)
      have this := hL.readArguments_named (hkeys k (by simp))
        (Reads.argument hL hv (named keys vss) rest) more
      have shape : (named (k::keys) (vs::vss)).flatMap (Token.mark ","::·)++.mark ")"::rest=
          .mark ","::(.word k::.mark "="::vs++((named keys vss).flatMap (Token.mark ","::·)++.mark ")"::rest)) := by
        simp [named]
      rw [shape,readMore,expect_cons]
      exact this

theorem readMore_positional {tss nss : List (List Token)} {ts : List Tree} {named : List (String × Tree)}
    (hp : List.Forall₂ (L.Parses L.argument) tss ts) (h : List.Forall₂ (Reads L L.argument) tss ts)
    {rest : List Token} (hn : L.readMore (nss.flatMap (Token.mark ","::·)++.mark ")"::rest)=some (([],named),rest)) :
    L.readMore ((tss++nss).flatMap (Token.mark ","::·)++.mark ")"::rest)=some ((ts,named),rest) := by
  induction h with
  | nil => exact hn
  | @cons us t tss ts ht _ ih =>
    cases hp with
    | cons hp hps =>
      have more := ih hps
      have behind := hL.follows_argument (q := L.argument) (tss++nss) rest
      have this := hL.readArguments_positional hp (Reads.argument hL ht (tss++nss) rest) behind.2 more
      have shape : (us::tss++nss).flatMap (Token.mark ","::·)++.mark ")"::rest=
          .mark ","::(us++((tss++nss).flatMap (Token.mark ","::·)++.mark ")"::rest)) := by
        simp
      rw [shape,readMore,expect_cons]
      exact this

theorem readArguments_separated {tss vss : List (List Token)} {ts vs : List Tree} {keys : List String}
    (hp : List.Forall₂ (L.Parses L.argument) tss ts) (h : List.Forall₂ (Reads L L.argument) tss ts)
    (h' : List.Forall₂ (Reads L L.argument) vss vs) (hkeys : ∀ k∈keys, k∉L.keywords)
    (hlength : keys.length=vss.length) (rest : List Token) :
    L.readArguments (separated (tss++named keys vss)++.mark ")"::rest)=some ((ts,keys.zip vs),rest) := by
  have more := hL.readMore_positional hp h (hL.readMore_named h' hkeys hlength rest)
  cases hl : tss++named keys vss with
  | nil =>
    rw [hl] at more
    change L.readMore (.mark ")"::rest)=_ at more
    rw [readMore,expect_of_head (by simp),expect_cons] at more
    change L.readArguments (.mark ")"::rest)=_
    rw [readArguments,expect_cons]
    exact more
  | cons us uss =>
    -- with a comma in front, these would be more arguments
    rw [hl] at more
    have shape : (us::uss).flatMap (Token.mark ","::·)++.mark ")"::rest=
        .mark ","::(separated (us::uss)++.mark ")"::rest) := by
      rw [separated_cons]
      simp
    rw [shape,readMore,expect_cons] at more
    exact more

/-- Whatever the grammar admits is read. -/
theorem reads {ts : List Token} (h : L.Parses q ts t) : Reads L q ts t := by
  refine (Parses.induction (motive := fun q ts t => L.Parses q ts t ∧ Reads L q ts t)
    ?name ?literal ?null ?group ?call ?unary ?binary ?conditional h).2
  case name =>
    intro q ws hne hws
    exact ⟨.name hne hws,fun p _ rest hr => hL.readExpr_name hne hws hr.head⟩
  case literal => exact fun q n => ⟨.literal q n,fun p _ rest _ => hL.readExpr_literal n rest⟩
  case null => exact fun q => ⟨.null q,fun p _ rest _ => hL.readExpr_null rest⟩
  case group =>
    intro q ts t ih
    refine ⟨.group q ih.1,fun p _ rest _ => ?_⟩
    have close : operatorAt L.infixes (.mark ")"::rest)=none := hL.closeAt _ (by simp) rest
    exact hL.readExpr_group (ih.2.stops (hL.follows_close (by simp) rest) close)
  case call =>
    intro q ws tss vss ts vs keys hne hws ihs ihs' hkeys hlength hallowed
    have parses := ihs.imp fun _ _ h => h.1
    refine ⟨.call hne hws parses (ihs'.imp fun _ _ h => h.1) hkeys hlength hallowed,fun p _ rest _ => ?_⟩
    have arguments := hL.readArguments_separated parses (ihs.imp fun _ _ h => h.2) (ihs'.imp fun _ _ h => h.2)
      hkeys hlength rest
    exact hL.readExpr_call hne hws arguments
  case unary =>
    intro q r o s ts t ho hq hright ih
    refine ⟨.unary ho hq hright ih.1,fun p _ rest hr => ?_⟩
    have inside : L.Follows o.precedence rest := hr.mono hq
    apply hL.readExpr_unary ho
    exact ((Reads.mono ih.2 hright.le) _ o.precedence.le_refl rest inside).trans
      (inside.readRest_stops fun x hx => hL.unary_apart x hx (o,s) ho)
  case binary =>
    intro q l r o s ts us t u ho hq hleft hright ih ih'
    refine ⟨.binary ho hq hleft hright ih.1 ih'.1,fun p hp rest hr => ?_⟩
    have left : Reads L o.lhsFloor ts t := Reads.mono ih.2 hleft.floor
    have right : Reads L o.rhsFloor us u := Reads.mono ih'.2 hright.floor
    have parses : L.Parses o.rhsFloor us u := ih'.1.mono hright.floor
    have member : (o,s)∈L.infixes := List.mem_cons_of_mem _ ho
    have tight : p ≤ o.precedence := Precedence.le_trans hp hq
    have second : L.readExpr o.rhsFloor (us++rest)=some (u,rest) :=
      (right _ o.rhsFloor.le_refl rest (hr.mono (Precedence.le_trans hq o.le_rhsFloor))).trans
        ((hr.mono hq).readRest_stops fun x hx => hL.infix_apart x hx (o,s) member)
    have between : L.Follows o.lhsFloor (s++(us++rest)) :=
      hL.follows_infix member o.lhsFloor.le_refl (hL.binaryAt_parses ho parses rest)
    rw [List.append_assoc,List.append_assoc,
      left p (Precedence.le_trans tight o.le_lhsFloor) _ between,←List.append_assoc]
    exact hL.readRest_binary ho tight parses second
  case conditional =>
    intro q l r ts us vs t u v hq hleft hright ih ih' ih''
    refine ⟨.conditional hq hleft hright ih.1 ih'.1 ih''.1,fun p hp rest hr => ?_⟩
    let o := L.conditionalOp
    have left : Reads L o.lhsFloor ts t := Reads.mono ih.2 hleft.floor
    have right : Reads L o.rhsFloor vs v := Reads.mono ih''.2 hright.floor
    have member : (o,[L.separators.1])∈L.infixes := List.mem_cons_self
    have tight : p ≤ o.precedence := Precedence.le_trans hp hq
    have second : L.readExpr L.middle (us++L.separators.2::vs++rest)=some (u,L.separators.2::vs++rest) := by
      have close : operatorAt L.infixes (L.separators.2::(vs++rest))=none := hL.closeAt _ (by simp) _
      have read := ih'.2.stops (hL.follows_close (by simp) _) close
      simpa using read
    have third : L.readExpr o.rhsFloor (vs++rest)=some (v,rest) :=
      (right _ o.rhsFloor.le_refl rest (hr.mono (Precedence.le_trans hq o.le_rhsFloor))).trans
        ((hr.mono hq).readRest_stops fun x hx => hL.infix_apart x hx _ member)
    have between : L.Follows o.lhsFloor ([L.separators.1]++(us++L.separators.2::vs++rest)) :=
      hL.follows_infix member o.lhsFloor.le_refl (hL.conditionalAt _)
    have shape : ts++L.separators.1::us++L.separators.2::vs++rest=
        ts++([L.separators.1]++(us++L.separators.2::vs++rest)) := by simp
    rw [shape,left p (Precedence.le_trans tight o.le_lhsFloor) _ between]
    exact hL.readRest_conditional tight second third

/-- No tokens can be read as two trees. -/
theorem parses_unique {ts : List Token} {t u : Tree} (h : L.Parses .lowest ts t) (h' : L.Parses .lowest ts u) :
    t=u := by
  have whole {t : Tree} (h : L.Parses .lowest ts t) : L.readExpr .lowest ts=some (t,[]) := by
    have read := (hL.reads h).stops hL.follows_nil hL.endAt
    rwa [List.append_nil] at read
  have same := (whole h).symm.trans (whole h')
  cases same
  rfl

end Lawful

end CallLowering.Language
