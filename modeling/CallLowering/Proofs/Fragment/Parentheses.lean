import CallLowering.Proofs.Fragment.Built

namespace CallLowering

/-- What is not in the separator is found in what is separated. -/
theorem count_intercalate {α : Type} [BEq α] [LawfulBEq α] {x : α} {sep : List α} (h : x∉sep)
    (xss : List (List α)) : (sep.intercalate xss).count x=xss.flatten.count x := by
  induction xss with
  | nil => rfl
  | cons xs xss ih =>
    cases xss with
    | nil => simp
    | cons ys xss =>
      rw [List.intercalate_cons_cons,List.count_append,List.count_append,ih,List.count_eq_zero.mpr h,
        List.flatten_cons (l := xs),List.count_append]
      rfl

/-- The opening parentheses of a text. -/
def opening (s : String) : Nat := s.toList.count '('

theorem opening_append (s s' : String) : opening (s++s')=opening s+opening s' := by
  rw [opening,String.toList_append,List.count_append]
  rfl

theorem opening_intercalate (sep : String) (h : '('∉sep.toList) (parts : List String) :
    opening (sep.intercalate parts)=(parts.map String.toList).flatten.count '(' := by
  rw [opening,String.toList_intercalate,count_intercalate h]

namespace Lexicon

variable {a : Alphabet} {L : Lexicon}

theorem mark?_prefix {cs : List Char} {s : String} (h : L.mark? cs=some s) : s.toList <+: cs := by
  have listed := List.argmax_mem h
  rw [List.mem_filter] at listed
  exact List.isPrefixOf_iff_prefix.mp listed.2

/-- A mark that is an opening parenthesis takes one of the text. -/
theorem count_le_of_mark? {c : Char} {cs : List Char} {s : String} (h : L.mark? (c::cs)=some s) :
    [Token.mark s].count (.mark "(") ≤ [c].count '(' := by
  by_cases bracket : s="("
  · have begins := mark?_prefix h
    rw [bracket] at begins
    have same : '(' = c := (List.cons_prefix_cons.mp begins).1
    rw [bracket,←same]
    exact Nat.le_refl 1
  · simp [bracket]

/-- A token behind which the text goes on with what is left of it. -/
theorem count_le_of_cons {tok : Token} {c : Char} {cs rest : List Char} {ts : List Token} (shorter : rest.Sublist cs)
    (first : [tok].count (.mark "(") ≤ [c].count '(')
    (ih : ∀ {us : List Token}, L.lex a rest=some us → us.count (.mark "(") ≤ rest.count '(')
    (h : (do return tok::(← L.lex a rest))=some ts) : ts.count (.mark "(") ≤ (c::cs).count '(' := by
  obtain ⟨us,hus,eq⟩ := Option.bind_eq_some_iff.mp h
  cases eq
  change ([tok]++us).count (.mark "(") ≤ ([c]++cs).count '('
  rw [List.count_append,List.count_append]
  exact Nat.add_le_add first (Nat.le_trans (ih hus) (shorter.count_le '('))

theorem count_le_of_lex {cs : List Char} {ts : List Token} (h : L.lex a cs=some ts) :
    ts.count (.mark "(") ≤ cs.count '(' := by
  induction cs using lex.induct a L generalizing ts with
  | case1 =>
    rw [lex] at h
    cases h
    exact Nat.le_refl 0
  | case2 cs ih =>
    rw [lex,if_pos rfl] at h
    exact Nat.le_trans (ih h) ((List.sublist_cons_self ' ' cs).count_le '(')
  | case3 c cs space letter ih =>
    rw [lex,if_neg space,if_pos letter] at h
    exact count_le_of_cons (List.dropWhile_sublist _) (by simp) ih h
  | case4 c cs space letter digit ih =>
    rw [lex,if_neg space,if_neg letter,if_pos digit] at h
    obtain ⟨n,-,h⟩ := Option.bind_eq_some_iff.mp h
    exact count_le_of_cons (List.dropWhile_sublist _) (by simp) ih h
  | case5 c cs space letter digit ih =>
    rw [lex,if_neg space,if_neg letter,if_neg digit] at h
    obtain ⟨s,hs,h⟩ := Option.bind_eq_some_iff.mp h
    exact count_le_of_cons (List.drop_sublist _ _) (count_le_of_mark? hs) (ih s) h

end Lexicon

namespace Dialect

/-- The rank that the second operand of a conditional needs. -/
def whenTrueFloor : Dialect → Precedence
  | javaScript => JavaScript.conditionalOp.precedence
  | python => Python.conditionalOp.precedence.tighter

/-- Where this rank is needed, a tree that binds looser takes a pair of parentheses. -/
def groups (d : Dialect) (floor : Precedence) (t : Tree) : Nat := if t.precedence d.language < floor then 1 else 0

mutual

/-- The pairs of parentheses that the tree needs inside. -/
def pairs (d : Dialect) : Tree → Nat
  | .unary o t => d.groups o.precedence t+d.pairs t
  | .binary o t u => d.groups o.lhsFloor t+d.pairs t+(d.groups o.rhsFloor u+d.pairs u)
  | .conditional t u v =>
      d.groups d.language.conditionalOp.lhsFloor t+d.pairs t+(d.groups d.whenTrueFloor u+d.pairs u)+
        (d.groups d.language.conditionalOp.rhsFloor v+d.pairs v)
  | .call _ args named => 1+d.argumentPairs args+d.namedPairs named
  | _ => 0

def argumentPairs (d : Dialect) : List Tree → Nat
  | [] => 0
  | t::ts => d.groups d.language.argument t+d.pairs t+d.argumentPairs ts

def namedPairs (d : Dialect) : List (String × Tree) → Nat
  | [] => 0
  | (_,t)::xs => d.groups d.language.argument t+d.pairs t+d.namedPairs xs

end

/-- The pairs of parentheses that the tree needs where this rank is needed. -/
def pairsAt (d : Dialect) (floor : Precedence) (t : Tree) : Nat := d.groups floor t+d.pairs t

variable {a : Alphabet} {d : Dialect} {p q : Precedence} {t u v : Tree} {f : Fragment}

theorem groups_of_le (h : q ≤ t.precedence d.language) : d.groups q t=0 := if_neg (Precedence.not_lt_of_le h)

theorem pairsAt_of_le (h : q ≤ t.precedence d.language) : d.pairsAt q t=d.pairs t := by
  rw [pairsAt,groups_of_le h,Nat.zero_add]

theorem pairsAt_le (d : Dialect) (q : Precedence) (t : Tree) : d.pairsAt q t ≤ 1+d.pairs t := by
  rw [pairsAt,groups]
  split <;> omega

theorem pairsAt_mono (h : p ≤ q) : d.pairsAt p t ≤ d.pairsAt q t := by
  by_cases loose : t.precedence d.language < p
  · have looser : t.precedence d.language < q := UInt8.lt_of_lt_of_le loose h
    rw [pairsAt,pairsAt,groups,groups,if_pos loose,if_pos looser]
  · rw [pairsAt,groups,if_neg loose,Nat.zero_add]
    exact Nat.le_add_left _ _

/-- A conditional, with its parts as they are written. -/
theorem pairsAt_arrange (h : q ≤ d.language.conditionalOp.precedence) :
    d.pairsAt q (d.language.arrange t u v)=
      d.pairsAt d.language.conditionalOp.lhsFloor t+d.pairsAt d.language.middle u+
        d.pairsAt d.language.conditionalOp.rhsFloor v := by
  cases d with
  | javaScript =>
    rw [pairsAt_of_le h]
    rfl
  | python =>
    rw [pairsAt_of_le h,Nat.add_comm (pairsAt _ _ t)]
    rfl

/-- The parentheses of arguments are those of each. -/
theorem argumentPairs_le {tss : List (List Token)} {ts : List Tree}
    (h : List.Forall₂ (fun ts t => d.pairsAt d.language.argument t ≤ ts.count (.mark "(")) tss ts) :
    d.argumentPairs ts ≤ tss.flatten.count (.mark "(") := by
  induction h with
  | nil => exact Nat.le_refl 0
  | cons h _ ih =>
    rw [List.flatten_cons,List.count_append]
    exact Nat.add_le_add h ih

theorem namedPairs_le {vss : List (List Token)} {vs : List Tree}
    (h : List.Forall₂ (fun ts t => d.pairsAt d.language.argument t ≤ ts.count (.mark "(")) vss vs)
    (keys : List String) :
    d.namedPairs (keys.zip vs) ≤ (Language.named keys vss).flatten.count (.mark "(") := by
  induction h generalizing keys with
  | nil => simp [namedPairs]
  | cons h _ ih =>
    cases keys with
    | nil => simp [namedPairs]
    | cons k keys =>
      have value : ∀ ts : List Token, (.word k::.mark "="::ts).count (.mark "(")=ts.count (.mark "(") := by
        simp
      rw [Language.named,List.zipWith_cons_cons,List.flatten_cons,List.count_append,value]
      exact Nat.add_le_add h (ih keys)

/-- Whatever is read as the tree has the parentheses that the tree needs. A rule asks for an operand at least the
rank that a fragment asks for, and a group, which suits any rank, has brought its own pair. -/
theorem pairsAt_le_count {ts : List Token} (h : d.language.Parses q ts t) :
    d.pairsAt q t ≤ ts.count (.mark "(") := by
  refine Language.Parses.induction (motive := fun q ts t => d.pairsAt q t ≤ ts.count (.mark "("))
    ?name ?literal ?null ?group ?call ?unary ?binary ?conditional h
  case name => exact fun q _ _ _ => (pairsAt_of_le q.le_atomic).trans_le (Nat.zero_le _)
  case literal => exact fun q _ => (pairsAt_of_le q.le_atomic).trans_le (Nat.zero_le _)
  case null => exact fun q => (pairsAt_of_le q.le_atomic).trans_le (Nat.zero_le _)
  case group =>
    intro q ts t ih
    have inside : d.pairsAt .lowest t=d.pairs t := pairsAt_of_le (Precedence.lowest_le _)
    have most := d.pairsAt_le q t
    simp only [List.count_append,List.count_cons_self]
    omega
  case call =>
    intro q ws tss vss ts vs keys _ _ ihs ihs' _ _ _
    have positional := argumentPairs_le ihs
    have named := namedPairs_le ihs' keys
    have commas : (separated (tss++Language.named keys vss)).count (.mark "(")=_ := count_intercalate (by simp) _
    rw [List.flatten_append,List.count_append] at commas
    rw [pairsAt_of_le q.le_atomic,pairs]
    simp only [List.count_append,List.count_cons_self]
    omega
  case unary =>
    intro q r o s ts t _ hq hr ih
    have operand := Nat.le_trans (pairsAt_mono hr.le) ih
    rw [pairsAt_of_le hq,List.count_append]
    exact Nat.le_trans operand (Nat.le_add_left _ _)
  case binary =>
    intro q l r o s ts us t u _ hq hl hr ih ih'
    have left := Nat.le_trans (pairsAt_mono hl.floor) ih
    have right := Nat.le_trans (pairsAt_mono hr.floor) ih'
    rw [pairsAt_of_le hq,List.count_append,List.count_append]
    change d.pairsAt o.lhsFloor t+d.pairsAt o.rhsFloor u ≤ _
    omega
  case conditional =>
    intro q l r ts us vs t u v hq hl hr ih ih' ih''
    have first := Nat.le_trans (pairsAt_mono hl.floor) ih
    have last := Nat.le_trans (pairsAt_mono hr.floor) ih''
    rw [pairsAt_arrange hq]
    simp only [List.count_append,List.count_cons]
    omega

theorem opening_word {L : Lexicon} (hL : L.Lawful) {w : String} (hw : L.isWord a w) : opening w=0 := by
  have letter : L.letter '(' = false := hL.punctuation '(' (by simp)
  have outside : L.isLetter a '(' = false := by simp [Lexicon.isLetter,letter]
  rw [Lexicon.isWord] at hw
  rw [opening]
  split at hw
  · cases hw
  · next c cs heq =>
    simp only [Bool.and_eq_true,List.all_eq_true] at hw
    rw [heq,List.count_eq_zero]
    intro inside
    obtain rfl|inside := List.mem_cons.mp inside
    · cases outside.symm.trans hw.1
    · cases (hL.isPart_of_punctuation (a := a) (by simp)).symm.trans (hw.2 '(' inside)

theorem opening_name {L : Language} (hL : L.toLexicon.Lawful) {s : String} {ws : List String}
    (h : L.Names a s ws) : opening s=0 := by
  rw [h.text,opening_intercalate "." (by decide),List.count_eq_zero]
  intro inside
  obtain ⟨cs,hcs,hc⟩ := List.mem_flatten.mp inside
  obtain ⟨w,hw,rfl⟩ := List.mem_map.mp hcs
  exact List.count_eq_zero.mp (opening_word hL (h.words w hw).1) hc

theorem opening_number (n : Nat) : opening (toString n)=0 := by
  have written : (toString n).toList=Nat.toDigits 10 n := Nat.toList_repr
  rw [opening,written,List.count_eq_zero]
  exact fun inside => absurd (Lexicon.isDigit_toDigits n _ inside) (by decide)

theorem opening_binary_symbol (d : Dialect) : ∀ o∈d.binaryOperators, opening o.symbol=0 := by
  cases d <;> decide

theorem opening_unary_symbol (d : Dialect) : ∀ o∈d.unaryOperators, opening o.symbol=0 := by
  cases d <;> decide

/-- A fragment that says how tight it binds, and has the parentheses that its tree needs. -/
structure Counted (d : Dialect) (f : Fragment) (t : Tree) : Prop where
  precedence : f.precedence=t.precedence d.language
  opening_text : opening f.text=d.pairs t

namespace Counted

/-- A text is put between parentheses just where the tree needs them. -/
theorem within (h : Counted d f t) (floor : Precedence) : opening (f.within floor)=d.pairsAt floor t := by
  by_cases loose : t.precedence d.language < floor
  · have put : f.precedence.rank < floor.rank := h.precedence ▸ loose
    rw [Fragment.within,if_pos put,opening_append,opening_append,h.opening_text,pairsAt,groups,if_pos loose]
    rfl
  · have left : ¬f.precedence.rank < floor.rank := h.precedence ▸ loose
    rw [Fragment.within,if_neg left,h.opening_text,pairsAt,groups,if_neg loose,Nat.zero_add]

theorem binary {o : Operator} {g : Fragment} (ho : opening o.symbol=0) (hf : Counted d f t)
    (hg : Counted d g u) : Counted d (.binary o f g) (.binary o t u) := by
  refine ⟨rfl,?_⟩
  rw [Fragment.binary]
  simp only [opening_append,hf.within,hg.within,ho]
  rfl

theorem unary {o : Operator} (ho : opening o.symbol=0) (hf : Counted d f t) :
    Counted d (.unary o f) (.unary o t) := by
  refine ⟨rfl,?_⟩
  have blank : opening (if Fragment.signsMeet o.symbol (f.within o.precedence) then " " else "")=0 := by
    split <;> rfl
  rw [Fragment.unary]
  simp only [opening_append,hf.within,ho,blank]
  exact Nat.zero_add _

theorem literal (n : Nat) : Counted d (.atom (toString n)) (.literal n) := ⟨rfl,opening_number n⟩

theorem conditional {g h : Fragment} (hf : Counted d f t) (hg : Counted d g u) (hh : Counted d h v) :
    Counted d (d.conditional f g h) (.conditional t u v) := by
  cases d with
  | javaScript =>
    refine ⟨rfl,?_⟩
    change opening (JavaScript.conditional f g h).text=_
    simp only [JavaScript.conditional,opening_append,hf.within,hg.within,hh.within]
    rfl
  | python =>
    refine ⟨rfl,?_⟩
    change opening (Python.conditional f g h).text=
      python.pairsAt Python.conditionalOp.precedence.tighter t+
        python.pairsAt Python.conditionalOp.precedence.tighter u+python.pairsAt Python.conditionalOp.precedence v
    have blanks : opening " if "=0 ∧ opening " else "=0 := by decide
    simp only [Python.conditional,opening_append,hf.within,hg.within,hh.within,blanks]
    -- the condition is written second, but counted first
    omega

theorem arguments {fs : List Fragment} {ts : List Tree} (h : List.Forall₂ (Counted d) fs ts) :
    ((fs.map fun f => f.within d.language.argument).map String.toList).flatten.count '(' =
      d.argumentPairs ts := by
  induction h with
  | nil => rfl
  | cons h _ ih =>
    rw [List.map_cons,List.map_cons,List.flatten_cons,List.count_append,ih]
    exact congrArg (·+_) (h.within _)

theorem call {callee : String} {ws : List String} (hname : d.language.Names a callee ws)
    {fs : List Fragment} {ts : List Tree} (hargs : List.Forall₂ (Counted d) fs ts) :
    Counted d (d.call callee fs) (.call ws ts []) := by
  have written : d.call callee fs=.callText callee (fs.map fun f => f.within d.language.argument) := by
    cases d <;> rfl
  have parts := opening_intercalate ", " (by decide) (fs.map fun f => f.within d.language.argument)
  rw [arguments hargs] at parts
  rw [written]
  refine ⟨rfl,?_⟩
  change opening (callee++"("++", ".intercalate _++")")=1+d.argumentPairs ts
  rw [opening_append,opening_append,opening_append,parts,opening_name (d.written a).lexicon hname]
  rfl

end Counted

/-- The text is split into tokens that are read as the tree. -/
def Reads (a : Alphabet) (d : Dialect) (s : String) (t : Tree) : Prop :=
  ∃ ts, d.language.lex a s.toList=some ts ∧ d.language.Parses .lowest ts t

/-- A fragment that is built of names, integers and null with the operators, conditionals and calls of a
language. -/
inductive Composed (a : Alphabet) (d : Dialect) : Fragment → Tree → Prop
  | name {s : String} {ws : List String} (h : d.language.Names a s ws) : Composed a d (.atom s) (.name ws)
  | integer (n : Int64) : Composed a d (d.integer n) (d.integerTree n)
  | null : Composed a d d.null .null
  | binary {o : Operator} {f g : Fragment} {t u : Tree} (ho : o∈d.binaryOperators) (hf : Composed a d f t)
      (hg : Composed a d g u) : Composed a d (.binary o f g) (.binary o t u)
  | unary {o : Operator} {f : Fragment} {t : Tree} (ho : o∈d.unaryOperators) (hf : Composed a d f t) :
      Composed a d (.unary o f) (.unary o t)
  | conditional {f g h : Fragment} {t u v : Tree} (hf : Composed a d f t) (hg : Composed a d g u)
      (hh : Composed a d h v) : Composed a d (d.conditional f g h) (.conditional t u v)
  | call {callee : String} {ws : List String} {fs : List Fragment} {ts : List Tree}
      (hname : d.language.Names a callee ws) (hargs : List.Forall₂ (Composed a d) fs ts) :
      Composed a d (d.call callee fs) (.call ws ts [])

namespace Composed

/-- Induction over how a fragment was built gives the hypothesis for all arguments. -/
theorem induction {motive : Fragment → Tree → Prop}
    (name : ∀ {s ws}, d.language.Names a s ws → motive (.atom s) (.name ws))
    (integer : ∀ n, motive (d.integer n) (d.integerTree n)) (null : motive d.null .null)
    (binary : ∀ {o f g t u}, o∈d.binaryOperators → motive f t → motive g u → motive (.binary o f g) (.binary o t u))
    (unary : ∀ {o f t}, o∈d.unaryOperators → motive f t → motive (.unary o f) (.unary o t))
    (conditional : ∀ {f g h t u v}, motive f t → motive g u → motive h v →
      motive (d.conditional f g h) (.conditional t u v))
    (call : ∀ {callee ws fs ts}, d.language.Names a callee ws → List.Forall₂ motive fs ts →
      motive (d.call callee fs) (.call ws ts [])) (h : Composed a d f t) : motive f t :=
  @Composed.rec a d (fun f t _ => motive f t) (fun fs ts _ => List.Forall₂ motive fs ts) (fun h => name h) integer null
    (fun ho _ _ hf hg => binary ho hf hg) (fun ho _ hf => unary ho hf) (fun _ _ _ hf hg hh => conditional hf hg hh)
    (fun hname _ hargs => call hname hargs) .nil (fun _ _ hf hfs => .cons hf hfs) f t h

theorem stands (h : Composed a d f t) : f.Stands a d.language t :=
  h.induction (fun hname => .name (d.written a) hname) (.ofInteger d) (.ofNull d) (.ofBinary d) (.ofUnary d)
    (.ofConditional d) (fun hname hargs => .ofCall d hname hargs)

theorem counted (h : Composed a d f t) : Counted d f t := by
  refine h.induction (motive := Counted d) ?name ?integer ?null ?binary ?unary .conditional ?call
  case name => exact fun hname => ⟨rfl,opening_name (d.written a).lexicon hname⟩
  case integer =>
    intro n
    rw [Fragment.integer_eq,integerTree]
    split
    · exact .unary (d.opening_unary_symbol _ d.negate_mem) (.literal _)
    · exact .literal _
  case null => cases d <;> exact ⟨rfl,rfl⟩
  case binary => exact fun ho => .binary (d.opening_binary_symbol _ ho)
  case unary => exact fun ho => .unary (d.opening_unary_symbol _ ho)
  case call => exact fun hname hargs => .call hname hargs

/-- The text of a fragment is read as the tree that it was built for, and no text with fewer parentheses is. So
whichever pair is left out, one around an operand or one of a call, the rest is read as another tree or as none. -/
theorem needs_parentheses (h : Composed a d f t) :
    d.Reads a f.text t ∧ (∀ s, d.Reads a s t → opening f.text ≤ opening s) ∧
      ∀ before inside behind, f.text=before++"("++inside++")"++behind → ¬d.Reads a (before++inside++behind) t := by
  have needed {s : String} (hs : d.Reads a s t) : opening f.text ≤ opening s := by
    obtain ⟨ts,lexed,parsed⟩ := hs
    rw [h.counted.opening_text,←pairsAt_of_le (Precedence.lowest_le _)]
    exact Nat.le_trans (pairsAt_le_count parsed) (Lexicon.count_le_of_lex lexed)
  refine ⟨?_,fun s => needed,fun before inside behind eq hs => ?_⟩
  · obtain ⟨ts,lexed,parsed⟩ := h.stands.reads d.lawful
    exact ⟨ts,lexed,(parsed t).mpr rfl⟩
  · -- without the pair there is one opening parenthesis less, wherever the pair stood
    have bracket : opening "("=1 ∧ opening ")"=0 := by decide
    have fewer := needed hs
    rw [eq] at fewer
    simp only [opening_append,bracket] at fewer
    omega

/-- Neither the pair around a negation that is compared nor that around a difference that is taken away can be left
out. -/
theorem needs_parentheses_compared :
    let difference : Tree → Tree → Tree := .binary Python.minus
    let t : Tree := .binary Python.equal (.unary Python.not (.name ["a"]))
      (.call ["f"] [difference (.name ["b"]) (difference (.name ["c"]) (.literal 1))] [])
    (∃ f, f.text="(not a) == f(b - (c - 1))" ∧ Composed .ascii .python f t) ∧
      python.Reads .ascii "(not a) == f(b - (c - 1))" t ∧
      ¬python.Reads .ascii "not a == f(b - (c - 1))" t ∧ ¬python.Reads .ascii "(not a) == f(b - c - 1)" t := by
  intro difference t
  have a : Composed .ascii .python (.atom "a") (.name ["a"]) := .name (by constructor <;> decide)
  have b : Composed .ascii .python (.atom "b") (.name ["b"]) := .name (by constructor <;> decide)
  have c : Composed .ascii .python (.atom "c") (.name ["c"]) := .name (by constructor <;> decide)
  have callee : Python.language.Names .ascii "f" ["f"] := by constructor <;> decide
  have inner := binary (o := Python.minus) (by decide) c (integer 1)
  have outer := binary (o := Python.minus) (by decide) b inner
  have negated := unary (o := Python.not) (by decide) a
  have built := binary (o := Python.equal) (by decide) negated (call callee (.cons outer .nil))
  obtain ⟨reads,-,needed⟩ := needs_parentheses built
  exact ⟨⟨_,rfl,built⟩,reads,needed "" "not a" " == f(b - (c - 1))" rfl,
    needed "(not a) == f(b - " "c - 1" ")" rfl⟩

end Composed

end Dialect

end CallLowering
