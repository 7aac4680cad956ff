import CallLowering.Text.Integer
import Mathlib.Data.List.MinMax

namespace CallLowering

-- characters are checked one by one; there are too many to ask each whether it is one of them
instance (priority := high) decidableChars (p : Char → Prop) [DecidablePred p] (cs : List Char) :
    Decidable (∀ c∈cs, p c) := List.decidableBAll p cs

inductive Token
  | word (w : String)
  | number (n : Nat)
  | mark (s : String)
  deriving DecidableEq

/-- A name with dots. -/
def path (ws : List String) : List Token := [Token.mark "."].intercalate (ws.map fun w => [.word w])

/-- Arguments with commas between them. -/
def separated (tss : List (List Token)) : List Token := [Token.mark ","].intercalate tss

/-- The characters beyond ASCII that words may begin with, and go on with. -/
structure Alphabet where
  starts : Char → Bool
  continues : Char → Bool

def Alphabet.ascii : Alphabet := ⟨fun _ => false,fun _ => false⟩

/-- The marks of a language, and the ASCII characters that its words may begin with. -/
structure Lexicon where
  marks : List String
  letter : Char → Bool
  /-- The marks that may stand before an operand. -/
  signs : List Char

namespace Lexicon

variable (a : Alphabet) (L : Lexicon)

def isLetter (c : Char) : Bool := if c.toNat < 128 then L.letter c else a.starts c

/-- May a word go on with this character? -/
def isPart (c : Char) : Bool :=
  if c.toNat < 128 then L.letter c || c.isDigit else a.starts c || a.continues c

/-- A number goes on as far as any notation for numbers might. -/
def inNumber (c : Char) : Bool := L.isPart a c || c == '.'

def isWord (w : String) : Bool :=
  match w.toList with
  | [] => false
  | c::cs => L.isLetter a c && cs.all (L.isPart a)

/-- The longest mark that the text begins with. -/
def mark? (cs : List Char) : Option String :=
  (L.marks.filter fun s => s.toList.isPrefixOf cs).argmax String.length

/-- The tokens of a text. There are none if something in it is no token. -/
def lex : List Char → Option (List Token)
  | [] => some []
  | c::cs =>
      if c = ' ' then lex cs
      else if L.isLetter a c then do
        return .word (.ofList (c::cs.takeWhile (L.isPart a)))::(← lex (cs.dropWhile (L.isPart a)))
      else if c.isDigit then do
        let n ← Text.natural? (c::cs.takeWhile (L.inNumber a))
        return .number n::(← lex (cs.dropWhile (L.inNumber a)))
      else do
        let s ← L.mark? (c::cs)
        return .mark s::(← lex (cs.drop (s.length-1)))
termination_by cs => cs.length
decreasing_by
  · simp
  · exact Nat.lt_succ_of_le (List.dropWhile_sublist _).length_le
  · exact Nat.lt_succ_of_le (List.dropWhile_sublist _).length_le
  · exact Nat.lt_succ_of_le (List.drop_sublist _ _).length_le

/-- What keeps the tokens of a lexicon apart. -/
structure Lawful (L : Lexicon) : Prop where
  letter_of_isDigit : ∀ c, c.isDigit → L.letter c=false
  punctuation : ∀ c∈[' ','(',')',',','.','='], L.letter c=false
  plain : ∀ s∈L.marks, s≠"" ∧ ∀ c∈s.toList, c.toNat < 128 ∧ L.letter c=false ∧ c.isDigit=false ∧ c ≠ ' '
  alone : ∀ s∈L.marks, ∀ c∈['(',')',','], c∈s.toList → s.length=1
  delimiters : ∀ s∈["(",")",",",".","="], s∈L.marks
  equals_alone : ∀ s∈L.marks, ∀ c ∈ '('::L.signs, ¬['=',c] <+: s.toList

/-- What follows an expression in a text: nothing, or what is part of no other token. -/
def Stops (rest : List Char) : Prop := ∀ c∈rest.head?, c∈[' ',')',',']

/-- A piece of text that always gives these tokens, where it may stand. -/
def Spells (s : String) (ts : List Token) : Prop :=
  ∀ rest, Stops rest → L.lex a (s.toList++rest)=(L.lex a rest).map (ts++·)

/-- Does the text begin as an expression may? -/
def Opens (s : String) : Prop :=
  ∃ c cs, s.toList=c::cs ∧ (L.isLetter a c ∨ c.isDigit ∨ c ∈ '('::L.signs)

variable {a L}

theorem takeWhile_append {p : Char → Bool} {w rest : List Char} (hw : ∀ c∈w, p c)
    (hr : ∀ c∈rest.head?, p c=false) : (w++rest).takeWhile p=w := by
  rw [List.takeWhile_append_of_pos hw]
  cases rest with
  | nil => simp
  | cons c rest => simp [hr c rfl]

theorem dropWhile_append {p : Char → Bool} {w rest : List Char} (hw : ∀ c∈w, p c)
    (hr : ∀ c∈rest.head?, p c=false) : (w++rest).dropWhile p=rest := by
  rw [List.dropWhile_append_of_pos hw]
  cases rest with
  | nil => rfl
  | cons c rest => simp [hr c rfl]

theorem toNat_of_isDigit {c : Char} (h : c.isDigit) : c.toNat < 128 := by
  simp only [Char.isDigit,Bool.and_eq_true,decide_eq_true_eq] at h
  have := UInt32.le_iff_toNat_le.mp h.2
  exact Nat.lt_of_le_of_lt this (by decide)

theorem inNumber_of_isDigit {c : Char} (h : c.isDigit) : L.inNumber a c := by
  simp [inNumber,isPart,toNat_of_isDigit h,h]

theorem digitsValue?_eq {cs : List Char} (h : ∀ c∈cs, c.isDigit) (n : Nat) :
    Text.digitsValue? n cs=some (Nat.ofDigitChars 10 cs n) := by
  induction cs generalizing n with
  | nil => rfl
  | cons c cs ih =>
    have digit : c.isDigit := h c (by simp)
    rw [Text.digitsValue?,if_pos digit,ih (fun c hc => h c (by simp [hc])),Nat.ofDigitChars_cons]

theorem isDigit_toDigits (n : Nat) : ∀ c∈Nat.toDigits 10 n, c.isDigit :=
  fun _ hc => Nat.isDigit_of_mem_toDigits (by decide) (by decide) hc

theorem natural?_toDigits (n : Nat) : Text.natural? (Nat.toDigits 10 n)=some n := by
  have filled : (Nat.toDigits 10 n).isEmpty=false := by simp [Nat.toDigits_ne_nil]
  rw [Text.natural?,filled,if_neg Bool.false_ne_true,digitsValue?_eq (isDigit_toDigits n),Nat.ofDigitChars_ten_toDigits]

namespace Lawful

variable (hL : L.Lawful)
include hL

theorem isLetter_of_isDigit {c : Char} (h : c.isDigit) : L.isLetter a c=false := by
  simp [isLetter,toNat_of_isDigit h,hL.letter_of_isDigit c h]

theorem isPart_of_punctuation {c : Char} (h : c∈[' ','(',')',',','.','=']) : L.isPart a c=false := by
  have letter := hL.punctuation c h
  have digit : ∀ d∈[' ','(',')',',','.','='], d.toNat < 128 ∧ d.isDigit=false := by decide
  simp [isPart,digit c h,letter]

omit hL in
theorem lex_space (rest : List Char) : L.lex a (' '::rest)=L.lex a rest := by
  rw [lex,if_pos rfl]

theorem lex_word {w : String} (hw : L.isWord a w) {rest : List Char}
    (hr : ∀ c∈rest.head?, L.isPart a c=false) :
    L.lex a (w.toList++rest)=(L.lex a rest).map (Token.word w::·) := by
  rw [isWord] at hw
  split at hw
  · cases hw
  · next c cs heq =>
    simp only [Bool.and_eq_true,List.all_eq_true] at hw
    obtain ⟨hc,hcs⟩ := hw
    have space : c ≠ ' ' := by
      intro eq
      have := hL.punctuation ' ' (by simp)
      simp [eq,isLetter,this] at hc
    rw [heq,List.cons_append,lex,if_neg space,if_pos hc,takeWhile_append hcs hr,dropWhile_append hcs hr,←heq,
      String.ofList_toList]
    cases L.lex a rest <;> rfl

theorem lex_number (n : Nat) {rest : List Char} (hr : ∀ c∈rest.head?, L.inNumber a c=false) :
    L.lex a ((toString n).toList++rest)=(L.lex a rest).map (Token.number n::·) := by
  have written : (toString n).toList=Nat.toDigits 10 n := Nat.toList_repr
  have digits := isDigit_toDigits n
  have value := natural?_toDigits n
  rw [written]
  cases hd : Nat.toDigits 10 n with
  | nil => exact absurd hd Nat.toDigits_ne_nil
  | cons c cs =>
    rw [hd] at digits value
    have digit : c.isDigit := digits c (by simp)
    have letter : L.isLetter a c=false := hL.isLetter_of_isDigit digit
    have space : c ≠ ' ' := fun eq => by rw [eq] at digit; exact absurd digit (by decide)
    have rest : ∀ d∈cs, L.inNumber a d := fun d hd => inNumber_of_isDigit (digits d (by simp [hd]))
    rw [List.cons_append,lex,if_neg space,if_neg (by rw [letter]; decide),if_pos digit,
      takeWhile_append rest hr,dropWhile_append rest hr,value]
    cases L.lex a _ <;> rfl

omit hL in
theorem mark?_eq {s : String} (hs : s∈L.marks) {rest : List Char}
    (hr : ∀ c∈rest.head?, ∀ t∈L.marks, ¬s.toList++[c] <+: t.toList) :
    L.mark? (s.toList++rest)=some s := by
  have longest : ∀ t∈L.marks, t.toList <+: s.toList++rest → t.length ≤ s.length := by
    intro t ht hp
    by_contra hlong
    have shorter : s.toList <+: t.toList := by
      apply List.prefix_of_prefix_length_le (List.prefix_append _ _) hp
      rw [String.length_toList,String.length_toList]
      omega
    obtain ⟨more,hmore⟩ := shorter
    cases more with
    | nil =>
      rw [List.append_nil] at hmore
      exact hlong (by rw [String.toList_inj.mp hmore])
    | cons c more =>
      rw [←hmore,List.prefix_append_right_inj] at hp
      obtain ⟨tail,htail⟩ := hp
      have head : c∈rest.head? := by rw [←htail]; rfl
      exact hr c head t ht ⟨more,by rw [←hmore]; simp⟩
  rw [mark?,List.argmax_eq_some_iff]
  refine ⟨?_,?_,?_⟩
  · simp [hs]
  · intro t ht
    simp only [List.mem_filter,List.isPrefixOf_iff_prefix] at ht
    exact longest t ht.1 ht.2
  · intro t ht hle
    simp only [List.mem_filter,List.isPrefixOf_iff_prefix] at ht
    have shorter : s.toList.length ≤ t.toList.length := hle
    have same : s.toList=t.toList :=
      (List.prefix_of_prefix_length_le (List.prefix_append _ _) ht.2 shorter).eq_of_length_le
        (longest t ht.1 ht.2)
    rw [String.toList_inj.mp same]

/-- A mark that is not the beginning of a longer one with the next character. -/
theorem lex_mark {s : String} (hs : s∈L.marks) {rest : List Char}
    (hr : ∀ c∈rest.head?, ∀ t∈L.marks, ¬s.toList++[c] <+: t.toList) :
    L.lex a (s.toList++rest)=(L.lex a rest).map (Token.mark s::·) := by
  obtain ⟨filled,plain⟩ := hL.plain s hs
  have found := mark?_eq hs hr
  cases hd : s.toList with
  | nil => exact absurd (String.toList_inj.mp (hd.trans String.toList_empty.symm)) filled
  | cons c cs =>
    obtain ⟨small,letter,digit,space⟩ := plain c (by rw [hd]; simp)
    have size : s.length-1=cs.length := by rw [←String.length_toList,hd]; rfl
    have nonletter : L.isLetter a c=false := by simp [isLetter,small,letter]
    rw [hd,List.cons_append] at found
    rw [List.cons_append,lex,if_neg space,if_neg (by rw [nonletter]; decide),if_neg (by rw [digit]; decide),
      found]
    simp only [Option.bind_eq_bind,Option.bind_some,size,List.drop_left]
    cases L.lex a rest <;> rfl

theorem part_of_stops {rest : List Char} (h : Stops rest) : ∀ c∈rest.head?, L.isPart a c=false := by
  intro c hc
  apply hL.isPart_of_punctuation
  have := h c hc
  simp only [List.mem_cons] at this ⊢
  tauto

theorem inNumber_of_stops {rest : List Char} (h : Stops rest) : ∀ c∈rest.head?, L.inNumber a c=false := by
  intro c hc
  have apart : ∀ d∈[' ',')',','], (d == '.')=false := by decide
  simp [inNumber,hL.part_of_stops h c hc,apart c (h c hc)]

theorem spells_word {w : String} (hw : L.isWord a w) : L.Spells a w [.word w] :=
  fun _ hr => hL.lex_word hw (hL.part_of_stops hr)

theorem spells_number (n : Nat) : L.Spells a (toString n) [.number n] :=
  fun _ hr => hL.lex_number n (hL.inNumber_of_stops hr)

/-- A delimiter is a token of its own, whatever follows. -/
theorem lex_delimiter {s : String} (hs : s∈L.marks) (hd : ∃ c∈['(',')',','], s.toList=[c]) (rest : List Char) :
    L.lex a (s.toList++rest)=(L.lex a rest).map (Token.mark s::·) := by
  obtain ⟨d,hd,heq⟩ := hd
  apply hL.lex_mark hs
  intro c hc t ht hp
  have inside : d∈t.toList := hp.subset (by rw [heq]; simp)
  have single := hL.alone t ht d hd inside
  have long := hp.length_le
  rw [heq,String.length_toList,single] at long
  exact absurd long (by simp)

theorem lex_open (rest : List Char) : L.lex a ('('::rest)=(L.lex a rest).map (Token.mark "("::·) :=
  hL.lex_delimiter (hL.delimiters "(" (by simp)) ⟨'(',by simp,rfl⟩ rest

theorem lex_close (rest : List Char) : L.lex a (')'::rest)=(L.lex a rest).map (Token.mark ")"::·) :=
  hL.lex_delimiter (hL.delimiters ")" (by simp)) ⟨')',by simp,rfl⟩ rest

theorem lex_comma (rest : List Char) : L.lex a (','::rest)=(L.lex a rest).map (Token.mark ","::·) :=
  hL.lex_delimiter (hL.delimiters "," (by simp)) ⟨',',by simp,rfl⟩ rest

/-- A mark before a space, a comma or the end of a group. -/
theorem spells_mark {s : String} (hs : s∈L.marks) : L.Spells a s [.mark s] := by
  intro rest hr
  apply hL.lex_mark hs
  intro c hc t ht hp
  have inside : c∈t.toList := hp.subset (by simp)
  have plain := (hL.plain t ht).2 c inside
  have filled := (hL.plain s hs).1
  have stop := hr c hc
  simp only [List.mem_cons,List.not_mem_nil,or_false] at stop
  obtain space|stop := stop
  · exact plain.2.2.2 space
  · have single := hL.alone t ht c (by simp [stop]) inside
    have long := hp.length_le
    rw [String.length_toList,single,List.length_append,List.length_singleton] at long
    have none : s.toList.length=0 := by omega
    exact filled (String.toList_inj.mp ((List.length_eq_zero_iff.mp none).trans String.toList_empty.symm))

omit hL in
theorem map_append {ts us : List Token} (x : Option (List Token)) :
    (x.map (us++·)).map (ts++·)=x.map (ts++us++·) := by
  cases x <;> simp

omit hL in
/-- Tokens one after the other, with a space between them. -/
theorem spells_spaced {s s' : String} {ts ts' : List Token} (h : L.Spells a s ts) (h' : L.Spells a s' ts') :
    L.Spells a (s++" "++s') (ts++ts') := by
  intro rest hr
  have space : Stops (' '::(s'.toList++rest)) := by
    intro c hc
    cases hc
    simp
  have first := h _ space
  rw [lex_space,h' rest hr,map_append] at first
  simpa using first

theorem spells_group {s : String} {ts : List Token} (h : L.Spells a s ts) :
    L.Spells a ("("++s++")") (.mark "("::ts++[.mark ")"]) := by
  intro rest hr
  have close : Stops (')'::rest) := by
    intro c hc
    cases hc
    simp
  have inner := h _ close
  rw [hL.lex_close] at inner
  have outer := hL.lex_open (a := a) (s.toList++ ')'::rest)
  rw [inner] at outer
  simp only [String.toList_append,List.append_assoc]
  refine outer.trans ?_
  cases L.lex a rest <;> simp

omit hL in
theorem isLetter_of_word {w : String} (hw : L.isWord a w) : ∃ c cs, w.toList=c::cs ∧ L.isLetter a c := by
  rw [isWord] at hw
  split at hw
  · cases hw
  · next c cs heq =>
    simp only [Bool.and_eq_true] at hw
    exact ⟨c,cs,heq,hw.1⟩

/-- No mark contains what words begin with. -/
theorem not_isLetter {s : String} (hs : s∈L.marks) {c : Char} (hc : c∈s.toList) : L.isLetter a c=false := by
  obtain ⟨small,letter,-⟩ := (hL.plain s hs).2 c hc
  simp [isLetter,small,letter]

theorem lex_path {ws : List String} (hne : ws≠[]) (hws : ∀ w∈ws, L.isWord a w) {rest : List Char}
    (hr : ∀ c∈rest.head?, L.isPart a c=false) :
    L.lex a ((".".intercalate ws).toList++rest)=(L.lex a rest).map (path ws++·) := by
  induction ws with
  | nil => exact absurd rfl hne
  | cons w ws ih =>
    have word := hws w (by simp)
    cases ws with
    | nil =>
      rw [String.intercalate_singleton,hL.lex_word word hr]
      rfl
    | cons v ws =>
      have tail := ih (by simp) fun w hw => hws w (by simp [hw])
      obtain ⟨c,cs,hv,letter⟩ := isLetter_of_word (hws v (by simp))
      let behind := (".".intercalate (v::ws)).toList++rest
      have head : behind.head?=some c := by
        cases ws <;> simp [behind,hv]
      have dot : L.lex a ('.'::behind)=(L.lex a behind).map (Token.mark "."::·) := by
        apply hL.lex_mark (hL.delimiters "." (by simp))
        intro d hd t ht hp
        cases head.symm.trans hd
        have outside := hL.not_isLetter (a := a) ht (hp.subset (by simp) : c∈t.toList)
        rw [letter] at outside
        cases outside
      have ends : ∀ d∈('.'::behind).head?, L.isPart a d=false := by
        intro d hd
        cases hd
        exact hL.isPart_of_punctuation (by simp)
      have first := hL.lex_word word ends
      rw [dot,tail] at first
      simp only [String.intercalate_cons_cons,String.toList_append,List.append_assoc]
      refine first.trans ?_
      cases L.lex a rest <;> rfl

theorem spells_path {ws : List String} (hne : ws≠[]) (hws : ∀ w∈ws, L.isWord a w) :
    L.Spells a (".".intercalate ws) (path ws) :=
  fun _ hr => hL.lex_path hne hws (hL.part_of_stops hr)

theorem spells_separated {parts : List String} {tss : List (List Token)}
    (h : List.Forall₂ (L.Spells a) parts tss) : L.Spells a (", ".intercalate parts) (separated tss) := by
  induction h with
  | nil =>
    intro rest _
    have none : separated []=[] := rfl
    simp [none]
  | @cons s ts parts tss hs h ih =>
    cases h with
    | nil => simpa [separated] using hs
    | @cons s' ts' parts tss hs' h =>
      intro rest hr
      have tail := ih rest hr
      let behind := (", ".intercalate (s'::parts)).toList++rest
      have first := hs (',':: ' '::behind) (by
        intro c hc
        cases hc
        simp)
      rw [hL.lex_comma,lex_space,tail] at first
      simp only [String.intercalate_cons_cons,String.toList_append,List.append_assoc]
      refine first.trans ?_
      cases L.lex a rest <;> simp [separated]

theorem spells_call {ws parts : List String} {tss : List (List Token)} (hne : ws≠[])
    (hws : ∀ w∈ws, L.isWord a w) (h : List.Forall₂ (L.Spells a) parts tss) :
    L.Spells a (".".intercalate ws++"("++", ".intercalate parts++")")
      (path ws++.mark "("::separated tss++[.mark ")"]) := by
  intro rest hr
  have inner := hL.spells_group (hL.spells_separated h) rest hr
  let behind := ("("++", ".intercalate parts++")").toList++rest
  have ends : ∀ c∈behind.head?, L.isPart a c=false := by
    intro c hc
    have head : behind.head?=some '(' := by simp [behind]
    rw [head] at hc
    cases hc
    exact hL.isPart_of_punctuation (by simp)
  have outer := hL.lex_path hne hws ends
  rw [inner,map_append] at outer
  simp only [String.toList_append,List.append_assoc] at outer ⊢
  refine Eq.trans ?_ (outer.trans ?_)
  · simp [behind]
  · simp

theorem spells_named {k v : String} {ts : List Token} (hk : L.isWord a k) (hv : L.Spells a v ts)
    (ho : L.Opens a v) : L.Spells a (k++"="++v) (.word k::.mark "="::ts) := by
  intro rest hr
  obtain ⟨c,cs,heq,hc⟩ := ho
  have equals : L.lex a ('='::(v.toList++rest))=(L.lex a (v.toList++rest)).map (Token.mark "="::·) := by
    apply hL.lex_mark (hL.delimiters "=" (by simp))
    intro d hd t ht hp
    rw [heq] at hd
    cases hd
    have inside : c∈t.toList := hp.subset (by simp)
    obtain letter|digit|sign := hc
    · rw [hL.not_isLetter ht inside] at letter
      cases letter
    · have plain := ((hL.plain t ht).2 c inside).2.2.1
      rw [digit] at plain
      cases plain
    · exact hL.equals_alone t ht c sign hp
  have ends : ∀ d∈('='::(v.toList++rest)).head?, L.isPart a d=false := by
    intro d hd
    cases hd
    exact hL.isPart_of_punctuation (by simp)
  have first := hL.lex_word hk ends
  rw [equals,hv rest hr] at first
  simp only [String.toList_append,List.append_assoc]
  refine first.trans ?_
  cases L.lex a rest <;> rfl

end Lawful

end Lexicon

end CallLowering
