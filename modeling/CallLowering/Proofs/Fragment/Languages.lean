import CallLowering.Fragment.JavaScript
import CallLowering.Fragment.Python
import CallLowering.Proofs.Fragment.Reader
import CallLowering.Proofs.Fragment.Writing

namespace CallLowering

def Operator.marked (o : Operator) : Operator × List Token := (o,[.mark o.symbol])

theorem not_isAlpha_of_isDigit {c : Char} (h : c.isDigit) : c.isAlpha=false := by
  simp only [Char.isDigit,Bool.and_eq_true,decide_eq_true_eq] at h
  have high : c.val.toNat ≤ 57 := UInt32.le_iff_toNat_le.mp h.2
  have letters : c.isAlpha=
      (decide (c.val ≥ 65 ∧ c.val ≤ 90) || (decide (c.val ≥ 97) && decide (c.val ≤ 122))) := rfl
  simp only [letters,Bool.or_eq_false_iff,Bool.and_eq_false_iff,decide_eq_false_iff_not,ge_iff_le,
    UInt32.le_iff_toNat_le]
  have upper : ¬65 ≤ c.val.toNat := by omega
  have lower : ¬97 ≤ c.val.toNat := by omega
  exact ⟨fun h => upper h.1,.inl lower⟩

namespace JavaScript

def language : Language where
  marks := ["\x7b","\x7d","(",")","[","]",".","...",";",",","<",">","<=",">=","==","!=","===","!==","+","-","*","/",
    "%","**","++","--","<<",">>",">>>","&","|","^","!","~","&&","||","??","?","?.",":","=","+=","-=","*=","/=",
    "%=","**=","<<=",">>=",">>>=","&=","|=","^=","&&=","||=","??=","=>","//","/*","<!--","-->"]
  letter c := c.isAlpha || c == '_' || c == '$'
  signs := ['-','!']
  keywords := ["null"]
  nullWord := "null"
  unaries := unaryOperators.map Operator.marked
  binaries := binaryOperators.map Operator.marked
  conditionalOp := conditionalOp
  separators := (.mark "?",.mark ":")
  middle := conditionalOp.precedence
  arrange := .conditional
  argument := conditionalOp.precedence
  namedArguments := false

theorem lexicon_lawful : language.toLexicon.Lawful where
  letter_of_isDigit c h := by
    have alpha := not_isAlpha_of_isDigit h
    have underscore : c ≠ '_' := fun eq => by rw [eq] at h; exact absurd h (by decide)
    have dollar : c ≠ '$' := fun eq => by rw [eq] at h; exact absurd h (by decide)
    simp [language,alpha,underscore,dollar]
  punctuation := by decide
  plain := by decide
  alone := by decide
  delimiters := by decide
  equals_alone := by decide

theorem lawful : language.Lawful where
  nullWord := by decide
  unaryAt := by
    intro x hx rest
    simp only [language,unaryOperators,List.map_cons,List.map_nil,List.mem_cons,List.not_mem_nil,or_false] at hx
    obtain rfl|rfl := hx <;> rfl
  unaries_written := by decide
  operandAt := by
    intro tok rest h
    obtain ⟨w,rfl,-⟩|⟨n,rfl⟩|rfl := h <;> rfl
  binaryAt := by
    intro x hx tok rest _
    simp only [language,binaryOperators,List.map_cons,List.map_nil,List.mem_cons,List.not_mem_nil,or_false] at hx
    obtain rfl|rfl|rfl|rfl|rfl|rfl|rfl|rfl|rfl|rfl|rfl|rfl|rfl|rfl|rfl := hx <;> rfl
  conditionalAt rest := rfl
  endAt := rfl
  closeAt := by
    intro tok htok rest
    simp only [List.mem_cons,List.not_mem_nil,or_false] at htok
    obtain rfl|rfl|rfl|rfl := htok <;> rfl
  binary_ne := by decide
  heads := by decide
  second := by decide
  unary_apart := by decide
  infix_apart := by decide

theorem written (a : Alphabet) : language.Written a where
  lexicon := lexicon_lawful
  binary := by
    intro x hx
    obtain ⟨o,ho,rfl⟩ := List.mem_map.mp hx
    have marks : ∀ o∈binaryOperators, o.symbol∈language.marks := by decide
    exact lexicon_lawful.spells_mark (marks o ho)
  unary := by
    intro x hx text ts spells opens
    obtain ⟨o,ho,rfl⟩ := List.mem_map.mp hx
    have marks : ∀ o∈unaryOperators, o.symbol∈language.marks := by decide
    have apart : ∀ o∈unaryOperators, ∀ c ∈ '('::language.signs,
        (o.symbol.toList.getLast?=some c ∧ (c = '-' ∨ c = '+')) ∨
          ∀ t∈language.marks, ¬o.symbol.toList++[c] <+: t.toList := by decide
    exact lexicon_lawful.spells_unary (marks o ho) spells opens (apart o ho)
  unary_opens := by
    intro x hx
    simp only [language,unaryOperators,List.map_cons,List.map_nil,List.mem_cons,List.not_mem_nil,or_false] at hx
    obtain rfl|rfl := hx
    · exact ⟨'-',[],rfl,.inr (.inr (by decide))⟩
    · exact ⟨'!',[],rfl,.inr (.inr (by decide))⟩
  unary_right := by decide
  below_atomic := by decide

end JavaScript

namespace Python

def language : Language where
  marks := ["\x7b","\x7d","(",")","[","]",".","...",":",";",",","<",">","<=",">=","==","!","!=","+","-","*","/","//",
    "%","@","**","<<",">>","&","|","^","~",":=","=","->","+=","-=","*=","/=","//=","%=","@=","&=","|=","^=",
    ">>=","<<=","**=","#"]
  letter c := c.isAlpha || c == '_'
  signs := ['-']
  keywords := ["None","and","else","if","is","not","or"]
  nullWord := "None"
  unaries := [(not,[.word "not"]),negate.marked]
  binaries := [(or,[.word "or"]),(and,[.word "and"]),(isNot,[.word "is",.word "not"]),(is,[.word "is"]),
    equal.marked,notEqual.marked,lessThan.marked,lessThanOrEqual.marked,greaterThan.marked,
    greaterThanOrEqual.marked,plus.marked,minus.marked,times.marked,divide.marked,floorDivide.marked,mod.marked]
  conditionalOp := conditionalOp
  separators := (.word "if",.word "else")
  middle := or.precedence
  arrange whenTrue condition whenFalse := .conditional condition whenTrue whenFalse
  argument := conditionalOp.precedence
  namedArguments := true

theorem lexicon_lawful : language.toLexicon.Lawful where
  letter_of_isDigit c h := by
    have alpha := not_isAlpha_of_isDigit h
    have underscore : c ≠ '_' := fun eq => by rw [eq] at h; exact absurd h (by decide)
    simp [language,alpha,underscore]
  punctuation := by decide
  plain := by decide
  alone := by decide
  delimiters := by decide
  equals_alone := by decide

/-- Behind `is`, no operand begins with `not`: it binds too loosely. -/
theorem ne_not_of_starts {q : Precedence} (hq : not.precedence < q) {tok : Token} (h : language.Starts q tok) :
    tok≠.word "not" := by
  intro eq
  rw [eq] at h
  generalize htok : Token.word "not"=tok at h
  cases h with
  | name hw =>
    cases htok
    exact hw (by decide)
  | literal n => cases htok
  | null => exact absurd htok (by decide)
  | group => cases htok
  | unary ho hr =>
    have loose : ∀ x∈language.unaries, x.2.head?=some (.word "not") → x.1=not := by decide
    have same : _=not := loose _ ho (congrArg some htok.symm)
    simp only at same
    rw [same] at hr
    exact Precedence.not_lt_of_le hr hq

theorem lawful : language.Lawful where
  nullWord := by decide
  unaryAt := by
    intro x hx rest
    simp only [language,List.mem_cons,List.not_mem_nil,or_false] at hx
    obtain rfl|rfl := hx <;> rfl
  unaries_written := by decide
  operandAt := by
    intro tok rest h
    obtain ⟨w,rfl,hw⟩|⟨n,rfl⟩|rfl := h
    · have proper : w≠"not" := by
        obtain hw|rfl := hw
        · exact fun eq => hw (by rw [eq]; decide)
        · decide
      have first : (Token.word "not"==Token.word w)=false := by simpa using proper.symm
      have second : (Token.mark negate.symbol==Token.word w)=false := rfl
      simp [Language.operatorAt,language,Operator.marked,List.isPrefixOf?,first,second]
    · rfl
    · rfl
  binaryAt := by
    intro x hx tok rest h
    simp only [language,List.mem_cons,List.not_mem_nil,or_false] at hx
    obtain rfl|rfl|rfl|rfl|rfl|rfl|rfl|rfl|rfl|rfl|rfl|rfl|rfl|rfl|rfl|rfl := hx
    case inr.inr.inr.inl =>
      have proper := ne_not_of_starts (by decide) h
      have second : (Token.word "not"==tok)=false := by simpa using proper.symm
      simp [Language.operatorAt,Language.infixes,language,List.isPrefixOf?,second]
    all_goals rfl
  conditionalAt rest := rfl
  endAt := rfl
  closeAt := by
    intro tok htok rest
    simp only [List.mem_cons,List.not_mem_nil,or_false] at htok
    obtain rfl|rfl|rfl|rfl := htok <;> rfl
  binary_ne := by decide
  heads := by decide
  second := by decide
  unary_apart := by decide
  infix_apart := by decide

theorem written (a : Alphabet) : language.Written a where
  lexicon := lexicon_lawful
  binary := by
    intro x hx
    simp only [language,List.mem_cons,List.not_mem_nil,or_false] at hx
    have is : language.Spells a "is" [.word "is"] := lexicon_lawful.spells_word rfl
    have not : language.Spells a "not" [.word "not"] := lexicon_lawful.spells_word rfl
    obtain rfl|rfl|rfl|rfl|hx := hx
    · exact lexicon_lawful.spells_word rfl
    · exact lexicon_lawful.spells_word rfl
    · exact Lexicon.Lawful.spells_spaced is not
    · exact is
    · have marked : x∈[equal,notEqual,lessThan,lessThanOrEqual,greaterThan,greaterThanOrEqual,plus,minus,times,
          divide,floorDivide,mod].map Operator.marked := by simpa using hx
      obtain ⟨o,ho,rfl⟩ := List.mem_map.mp marked
      have marks : ∀ o∈[equal,notEqual,lessThan,lessThanOrEqual,greaterThan,greaterThanOrEqual,plus,minus,times,
          divide,floorDivide,mod], o.symbol∈language.marks := by decide
      exact lexicon_lawful.spells_mark (marks o ho)
  unary := by
    intro x hx text ts spells opens
    simp only [language,List.mem_cons,List.not_mem_nil,or_false] at hx
    obtain rfl|rfl := hx
    · have word : language.Spells a "not" [.word "not"] := lexicon_lawful.spells_word rfl
      have apart : Fragment.signsMeet "not " text=false := by
        cases hd : text.toList with
        | nil => simp [Fragment.signsMeet,hd]
        | cons c cs => simp [Fragment.signsMeet,hd]
      have spaced := Lexicon.Lawful.spells_spaced word spells
      simp only [not,apart]
      exact spaced
    · exact lexicon_lawful.spells_unary (by decide) spells opens (by decide)
  unary_opens := by
    intro x hx
    simp only [language,List.mem_cons,List.not_mem_nil,or_false] at hx
    obtain rfl|rfl := hx
    · exact ⟨'n',"ot ".toList,rfl,.inl rfl⟩
    · exact ⟨'-',[],rfl,.inr (.inr (by decide))⟩
  unary_right := by decide
  below_atomic := by decide

end Python

end CallLowering
