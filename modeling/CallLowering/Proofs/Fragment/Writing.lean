import CallLowering.Proofs.Fragment.Grammar
import Mathlib.Data.List.Forall2

namespace CallLowering

def Tree.precedence (L : Language) : Tree → Precedence
  | unary o _ => o.precedence
  | binary o _ _ => o.precedence
  | conditional _ _ _ => L.conditionalOp.precedence
  | _ => .atomic

variable {a : Alphabet} {L : Language}

namespace Lexicon

theorem Opens.append {K : Lexicon} {s : String} (h : K.Opens a s) (s' : String) : K.Opens a (s++s') := by
  obtain ⟨c,cs,hs,hc⟩ := h
  exact ⟨c,cs++s'.toList,by rw [String.toList_append,hs]; rfl,hc⟩

theorem opens_word {K : Lexicon} {w : String} (hw : K.isWord a w) : K.Opens a w := by
  obtain ⟨c,cs,hs,hc⟩ := Lawful.isLetter_of_word hw
  exact ⟨c,cs,hs,.inl hc⟩

/-- What is a word without letters beyond ASCII is one with them. -/
theorem isWord_ascii {K : Lexicon} {w : String} (hw : K.isWord .ascii w) :
    K.isWord a w := by
  have letter {c : Char} (hc : K.isLetter .ascii c) : K.isLetter a c := by
    rw [isLetter] at hc ⊢
    by_cases small : c.toNat < 128
    · rw [if_pos small] at hc ⊢
      exact hc
    · rw [if_neg small] at hc
      cases hc
  have part {c : Char} (hc : K.isPart .ascii c) : K.isPart a c := by
    rw [isPart] at hc ⊢
    by_cases small : c.toNat < 128
    · rw [if_pos small] at hc ⊢
      exact hc
    · rw [if_neg small] at hc
      cases hc
  rw [isWord] at hw ⊢
  split at hw
  · cases hw
  · simp only [Bool.and_eq_true,List.all_eq_true] at hw ⊢
    exact ⟨letter hw.1,fun c hc => part (hw.2 c hc)⟩

theorem opens_group (K : Lexicon) (s : String) : K.Opens a ("("++s) :=
  ⟨'(',s.toList,by simp,.inr (.inr (by simp))⟩

theorem digit_first (n : Nat) : ∃ c cs, (toString n).toList=c::cs ∧ c.isDigit := by
  have written : (toString n).toList=Nat.toDigits 10 n := Nat.toList_repr
  cases hd : Nat.toDigits 10 n with
  | nil => exact absurd hd Nat.toDigits_ne_nil
  | cons c cs => exact ⟨c,cs,written.trans hd,isDigit_toDigits n c (by rw [hd]; simp)⟩

theorem opens_number (K : Lexicon) (n : Nat) : K.Opens a (toString n) := by
  obtain ⟨c,cs,hs,digit⟩ := digit_first n
  exact ⟨c,cs,hs,.inr (.inl digit)⟩

/-- A sign directly before an operand, if no longer mark comes about. -/
theorem Lawful.spells_sign {K : Lexicon} (hK : K.Lawful) {s text : String} {ts : List Token} (hs : s∈K.marks)
    (h : K.Spells a text ts) (ho : K.Opens a text)
    (hsign : ∀ c ∈ '('::K.signs, text.toList.head?=some c → ∀ t∈K.marks, ¬s.toList++[c] <+: t.toList) :
    K.Spells a (s++text) (.mark s::ts) := by
  intro rest hr
  obtain ⟨c,cs,heq,hc⟩ := ho
  have mark : K.lex a (s.toList++(text.toList++rest))=(K.lex a (text.toList++rest)).map (Token.mark s::·) := by
    apply hK.lex_mark hs
    intro d hd t ht hp
    rw [heq] at hd
    cases hd
    have inside : c∈t.toList := hp.subset (by simp)
    obtain letter|digit|sign := hc
    · rw [hK.not_isLetter ht inside] at letter
      cases letter
    · have plain := ((hK.plain t ht).2 c inside).2.2.1
      rw [digit] at plain
      cases plain
    · exact hsign c sign (by rw [heq]; rfl) t ht hp
  rw [h rest hr] at mark
  rw [String.toList_append,List.append_assoc,mark]
  cases K.lex a rest <;> rfl

/-- A mark before an operand, as fragments are written: with a space where the two would run together. -/
theorem Lawful.spells_unary {K : Lexicon} (hK : K.Lawful) {s text : String} {ts : List Token} (hs : s∈K.marks)
    (h : K.Spells a text ts) (ho : K.Opens a text)
    (hsign : ∀ c ∈ '('::K.signs, (s.toList.getLast?=some c ∧ (c = '-' ∨ c = '+')) ∨
      ∀ t∈K.marks, ¬s.toList++[c] <+: t.toList) :
    K.Spells a (s++(if Fragment.signsMeet s text then " " else "")++text) (.mark s::ts) := by
  by_cases meet : Fragment.signsMeet s text
  · rw [if_pos meet]
    exact spells_spaced (hK.spells_mark hs) h
  · rw [if_neg meet,String.append_empty]
    apply hK.spells_sign hs h ho
    intro c hc head
    obtain ⟨last,sign⟩|apart := hsign c hc
    · obtain ⟨cs,text⟩ := List.head?_eq_some_iff.mp head
      rw [Fragment.signsMeet,last,text] at meet
      simp [sign] at meet
    · exact apart

end Lexicon

/-- How the operators of a language are written. -/
structure Language.Written (a : Alphabet) (L : Language) : Prop where
  lexicon : L.toLexicon.Lawful
  binary : ∀ x∈L.binaries, L.Spells a x.1.symbol x.2
  unary : ∀ x∈L.unaries, ∀ text ts, L.Spells a text ts → L.Opens a text →
    L.Spells a (x.1.symbol++(if Fragment.signsMeet x.1.symbol text then " " else "")++text) (x.2++ts)
  unary_opens : ∀ x∈L.unaries, L.Opens a x.1.symbol
  unary_right : ∀ x∈L.unaries, x.1.associativity=.right
  below_atomic : ∀ x∈L.infixes, x.1.precedence < .atomic

/-- A name, of words with dots between them that are no keywords. -/
structure Language.Names (a : Alphabet) (L : Language) (s : String) (ws : List String) : Prop where
  text : s=".".intercalate ws
  filled : ws≠[]
  words : ∀ w∈ws, L.isWord a w ∧ w∉L.keywords

/-- Names of ASCII characters are names whatever else is a letter. -/
theorem Language.Names.ascii {s : String} {ws : List String}
    (h : L.Names .ascii s ws) : L.Names a s ws :=
  ⟨h.text,h.filled,fun w hw => ⟨Lexicon.isWord_ascii (h.words w hw).1,(h.words w hw).2⟩⟩

/-- A text that may stand where an operand of this rank is needed, and is read as the tree. -/
structure Language.Operand (a : Alphabet) (L : Language) (q : Precedence) (s : String) (t : Tree) : Prop where
  reading : ∃ ts, L.Spells a s ts ∧ L.Parses q ts t
  opens : L.Opens a s

/-- A fragment that is read as the tree, and says how tight its outermost operator binds. -/
structure Fragment.Stands (a : Alphabet) (L : Language) (f : Fragment) (t : Tree) : Prop where
  operand : L.Operand a f.precedence f.text t
  precedence : f.precedence=t.precedence L

namespace Fragment.Stands

variable {f g h : Fragment} {t u v : Tree}

/-- Parentheses are put around what binds too loosely, and only there. -/
theorem within (hL : L.Written a) (hf : f.Stands a L t) (floor : Precedence) :
    L.Operand a floor (f.within floor) t := by
  obtain ⟨ts,spells,parses⟩ := hf.operand.reading
  rw [Fragment.within]
  by_cases loose : f.precedence.rank < floor.rank
  · rw [if_pos loose]
    have group := parses.mono f.precedence.lowest_le
    exact ⟨⟨_,hL.lexicon.spells_group spells,.group floor group⟩,(L.opens_group f.text).append ")"⟩
  · rw [if_neg loose]
    exact ⟨⟨ts,spells,parses.mono (UInt8.not_lt.mp loose)⟩,hf.operand.opens⟩

theorem binary (hL : L.Written a) {o : Operator} {s : List Token} (ho : (o,s)∈L.binaries)
    (hf : f.Stands a L t) (hg : g.Stands a L u) : (Fragment.binary o f g).Stands a L (.binary o t u) := by
  obtain ⟨⟨ts,spells,parses⟩,opens⟩ := hf.within hL o.lhsFloor
  obtain ⟨⟨us,spells',parses'⟩,-⟩ := hg.within hL o.rhsFloor
  have spelled := Lexicon.Lawful.spells_spaced (Lexicon.Lawful.spells_spaced spells (hL.binary (o,s) ho)) spells'
  have below : o.precedence < .atomic := hL.below_atomic (o,s) (List.mem_cons_of_mem _ ho)
  have parsed : L.Parses o.precedence (ts++s++us) (.binary o t u) :=
    .binary ho o.precedence.le_refl (o.admitsLeft_lhsFloor below) (o.admitsRight_rhsFloor below) parses parses'
  exact ⟨⟨⟨_,spelled,parsed⟩,
    (((opens.append " ").append o.symbol).append " ").append _⟩,rfl⟩

theorem unary (hL : L.Written a) {o : Operator} {s : List Token} (ho : (o,s)∈L.unaries)
    (hf : f.Stands a L t) : (Fragment.unary o f).Stands a L (.unary o t) := by
  obtain ⟨⟨ts,spells,parses⟩,opens⟩ := hf.within hL o.precedence
  have spelled := hL.unary (o,s) ho _ ts spells opens
  have admits : o.AdmitsRight o.precedence := by
    rw [Operator.AdmitsRight,hL.unary_right (o,s) ho]
    exact o.precedence.le_refl
  exact ⟨⟨⟨_,spelled,.unary ho o.precedence.le_refl admits parses⟩,
    ((hL.unary_opens (o,s) ho).append _).append _⟩,rfl⟩

theorem conditional (hL : L.Written a) {s s' : String} (hs : L.Spells a s [L.separators.1])
    (hs' : L.Spells a s' [L.separators.2]) (hf : f.Stands a L t) (hg : g.Stands a L u) (hh : h.Stands a L v) :
    L.Operand a L.conditionalOp.precedence
      (f.within L.conditionalOp.lhsFloor++(" "++s++" ")++g.within L.middle++(" "++s'++" ")++
        h.within L.conditionalOp.rhsFloor) (L.arrange t u v) := by
  obtain ⟨⟨ts,spells,parses⟩,opens⟩ := hf.within hL L.conditionalOp.lhsFloor
  obtain ⟨⟨us,spells',parses'⟩,-⟩ := hg.within hL L.middle
  obtain ⟨⟨vs,spells'',parses''⟩,-⟩ := hh.within hL L.conditionalOp.rhsFloor
  have first := Lexicon.Lawful.spells_spaced (Lexicon.Lawful.spells_spaced spells hs) spells'
  have whole := Lexicon.Lawful.spells_spaced (Lexicon.Lawful.spells_spaced first hs') spells''
  have shape : ts++[L.separators.1]++us++[L.separators.2]++vs=
      ts++L.separators.1::us++L.separators.2::vs := by simp
  rw [shape] at whole
  have below : L.conditionalOp.precedence < .atomic := hL.below_atomic (_,_) List.mem_cons_self
  have parsed := Language.Parses.conditional L.conditionalOp.precedence.le_refl
    (L.conditionalOp.admitsLeft_lhsFloor below) (L.conditionalOp.admitsRight_rhsFloor below) parses parses' parses''
  simp only [←String.append_assoc]
  exact ⟨⟨_,whole,parsed⟩,
    (((((((opens.append " ").append s).append " ").append _).append " ").append s').append " ").append _⟩

/-- Names start like words. -/
theorem names_opens {s : String} {ws : List String} (h : L.Names a s ws) : L.Opens a s := by
  obtain ⟨w,ws,rfl⟩ := List.exists_cons_of_ne_nil h.filled
  have word := Lexicon.opens_word (h.words w (by simp)).1
  rw [h.text]
  cases ws with
  | nil => exact String.intercalate_singleton ▸ word
  | cons v ws =>
    rw [String.intercalate_cons_cons]
    exact (word.append ".").append _

theorem name (hL : L.Written a) {s : String} {ws : List String} (h : L.Names a s ws) :
    (Fragment.atom s).Stands a L (.name ws) := by
  have spelled := hL.lexicon.spells_path h.filled fun w hw => (h.words w hw).1
  rw [←h.text] at spelled
  exact ⟨⟨⟨_,spelled,.name h.filled fun w hw => (h.words w hw).2⟩,names_opens h⟩,rfl⟩

theorem literal (hL : L.Written a) (n : Nat) : (Fragment.atom (toString n)).Stands a L (.literal n) :=
  ⟨⟨⟨_,hL.lexicon.spells_number n,.literal _ n⟩,L.opens_number n⟩,rfl⟩

theorem null (hL : L.Written a) (hw : L.isWord a L.nullWord) : (Fragment.atom L.nullWord).Stands a L .null :=
  ⟨⟨⟨_,hL.lexicon.spells_word hw,.null _⟩,Lexicon.opens_word hw⟩,rfl⟩

theorem operands {q : Precedence} {parts : List String} {ts : List Tree}
    (h : List.Forall₂ (L.Operand a q) parts ts) :
    ∃ tss, List.Forall₂ (L.Spells a) parts tss ∧ List.Forall₂ (L.Parses q) tss ts := by
  induction h with
  | nil => exact ⟨[],.nil,.nil⟩
  | cons h _ ih =>
    obtain ⟨us,spells,parses⟩ := h.reading
    obtain ⟨tss,spells',parses'⟩ := ih
    exact ⟨us::tss,.cons spells spells',.cons parses parses'⟩

/-- An argument with a name. -/
structure NamedArgument (a : Alphabet) (L : Language) (x : String × Fragment) (y : String × Tree) : Prop where
  key : x.1=y.1
  word : L.isWord a x.1 ∧ x.1∉L.keywords
  value : x.2.Stands a L y.2

theorem namedOperands (hL : L.Written a) {xs : List (String × Fragment)} {ys : List (String × Tree)}
    (h : List.Forall₂ (NamedArgument a L) xs ys) :
    ∃ vss, List.Forall₂ (L.Spells a) (xs.map fun x => x.1++"="++x.2.within L.argument)
        (Language.named (ys.map Prod.fst) vss) ∧ List.Forall₂ (L.Parses L.argument) vss (ys.map Prod.snd) := by
  induction h with
  | nil => exact ⟨[],.nil,.nil⟩
  | @cons x y xs ys h _ ih =>
    obtain ⟨⟨vs,spells,parses⟩,opens⟩ := h.value.within hL L.argument
    obtain ⟨vss,spells',parses'⟩ := ih
    have named := hL.lexicon.spells_named h.word.1 spells opens
    rw [h.key] at named
    exact ⟨vs::vss,.cons (h.key ▸ named) spells',.cons parses parses'⟩

theorem namedKeys {xs : List (String × Fragment)} {ys : List (String × Tree)}
    (h : List.Forall₂ (NamedArgument a L) xs ys) : ∀ k∈ys.map Prod.fst, k∉L.keywords := by
  induction h with
  | nil => simp
  | @cons x y xs ys h _ ih =>
    intro k hk
    obtain rfl|hk := List.mem_cons.mp hk
    · rw [←h.key]
      exact h.word.2
    · exact ih k hk

theorem call (hL : L.Written a) {callee : String} {ws : List String} (hname : L.Names a callee ws)
    {fs : List Fragment} {ts : List Tree} (hargs : List.Forall₂ (Fragment.Stands a L) fs ts)
    {xs : List (String × Fragment)} {ys : List (String × Tree)} (hnamed : List.Forall₂ (NamedArgument a L) xs ys)
    (hallowed : xs≠[] → L.namedArguments) :
    (Fragment.callText callee (fs.map (fun f => f.within L.argument)++
      xs.map fun x => x.1++"="++x.2.within L.argument)).Stands a L (.call ws ts ys) := by
  have parts : List.Forall₂ (L.Operand a L.argument) (fs.map fun f => f.within L.argument) ts := by
    rw [List.forall₂_map_left_iff]
    exact hargs.imp fun f t hf => hf.within hL L.argument
  obtain ⟨tss,spells,parses⟩ := operands parts
  obtain ⟨vss,spells',parses'⟩ := namedOperands hL hnamed
  have keys : ∀ k∈ys.map Prod.fst, k∉L.keywords := namedKeys hnamed
  have lengths : (ys.map Prod.fst).length=vss.length := by
    rw [parses'.length_eq,List.length_map,List.length_map]
  have allowed : ys.map Prod.fst≠[] → L.namedArguments := by
    intro hne
    apply hallowed
    intro none
    rw [none] at hnamed
    cases hnamed
    exact hne rfl
  have spelled := hL.lexicon.spells_call hname.filled (fun w hw => (hname.words w hw).1)
    (List.rel_append spells spells')
  have parsed : L.Parses .atomic _ _ := .call hname.filled (fun w hw => (hname.words w hw).2) parses parses'
    keys lengths allowed
  have pairs : (ys.map Prod.fst).zip (ys.map Prod.snd)=ys := by
    rw [←List.unzip_fst,←List.unzip_snd,List.zip_unzip]
  rw [pairs] at parsed
  rw [←hname.text] at spelled
  exact ⟨⟨⟨_,spelled,parsed⟩,(((names_opens hname).append "(").append _).append ")"⟩,rfl⟩

end Fragment.Stands

end CallLowering
