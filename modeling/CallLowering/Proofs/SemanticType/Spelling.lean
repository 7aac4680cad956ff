import CallLowering.Proofs.Fragment.Lexer
import CallLowering.SemanticType.Reader

namespace CallLowering.SemanticType

/-- White space that the reader passes. -/
def isSpace (c : Char) : Bool := Text.isBlank c && isSingleByte c

/-- White space that the reader is lost in. -/
def isWide (c : Char) : Bool := Text.isBlank c && !isSingleByte c

/-- The tokens of an annotation. -/
def tokens : SemanticType → List String
  | list element => "list"::"<"::(element.tokens++[">"])
  | map key value => "map"::"<"::(key.tokens++","::(value.tokens++[">"]))
  | t => [t.text]

/-- The text consists of these tokens, with white space before, between and behind them as one likes. -/
inductive Spaced : List String → List Char → Prop
  | nil {blank : List Char} (h : ∀ c∈blank, isSpace c) : Spaced [] blank
  | cons {blank cs : List Char} {token : String} {ts : List String} (h : ∀ c∈blank, isSpace c)
      (hs : Spaced ts cs) : Spaced (token::ts) (blank++token.toList++cs)

/-- What the reader passes before it looks at the next token: what some type begins with, and perhaps a word in
the place of a type, which it passes before it knows whether that is a keyword. -/
inductive Begins : List String → Prop
  | nil : Begins []
  | word {w : String} (filled : w≠"") (chars : ∀ c∈w.toList, isWordChar c) : Begins [w]
  | element {ts : List String} (h : Begins ts) : Begins ("list"::"<"::ts)
  | key {ts : List String} (h : Begins ts) : Begins ("map"::"<"::ts)
  | value (k : SemanticType) {ts : List String} (h : Begins ts) : Begins ("map"::"<"::(k.tokens++","::ts))
  | whole (t : SemanticType) : Begins t.tokens

/-- The text comes upon white space that takes more than a byte where the reader passes white space. -/
def Strays (s : List Char) : Prop :=
  ∃ ts before c behind, s=before++c::behind ∧ Begins ts ∧ Spaced ts before ∧ isWide c

theorem toNat_of_isWordChar {c : Char} (h : isWordChar c) : 0x20 < c.toNat ∧ c.toNat < 0x80 := by
  have chars : isWordChar c=
      (decide (c.val ≥ 65 ∧ c.val ≤ 90) || (decide (c.val ≥ 97) && decide (c.val ≤ 122)) ||
        (decide (c.val ≥ 48) && decide (c.val ≤ 57)) || c == '?') := rfl
  simp only [chars,Bool.or_eq_true,Bool.and_eq_true,decide_eq_true_eq,beq_iff_eq,ge_iff_le,
    UInt32.le_iff_toNat_le] at h
  have marks : (65 : UInt32).toNat=65 ∧ (90 : UInt32).toNat=90 ∧ (97 : UInt32).toNat=97 ∧ (122 : UInt32).toNat=122 ∧
      (48 : UInt32).toNat=48 ∧ (57 : UInt32).toNat=57 := by decide
  have code : c.toNat=c.val.toNat := rfl
  obtain range|rfl := h
  · omega
  · decide

theorem not_isBlank_of_isWordChar {c : Char} (h : isWordChar c) : Text.isBlank c=false := by
  obtain ⟨low,high⟩ := toNat_of_isWordChar h
  exact Text.not_isBlank_of_between low high

theorem not_isWordChar_of_isBlank {c : Char} (h : Text.isBlank c) : isWordChar c=false := by
  by_contra word
  rw [Bool.not_eq_false] at word
  cases h.symm.trans (not_isBlank_of_isWordChar word)

theorem isBlank_of_isSpace {c : Char} (h : isSpace c) : Text.isBlank c := (Bool.and_eq_true_iff.mp h).1

theorem isBlank_of_isWide {c : Char} (h : isWide c) : Text.isBlank c := (Bool.and_eq_true_iff.mp h).1

section Skipping

variable {s rest blank : List Char}

theorem skipBlank_append (h : ∀ c∈blank, isSpace c) (s : List Char) : skipBlank (blank++s)=skipBlank s := by
  induction blank with
  | nil => rfl
  | cons c blank ih =>
    have space := h c (by simp)
    rw [isSpace,Bool.and_eq_true] at space
    rw [List.cons_append,skipBlank,if_pos space.1,if_pos space.2]
    exact ih fun d hd => h d (by simp [hd])

theorem skipBlank_of_head (h : ∀ c∈s.head?, Text.isBlank c=false) : skipBlank s=some s := by
  cases s with
  | nil => rfl
  | cons c s =>
    have dark := h c rfl
    rw [skipBlank,dark]
    rfl

theorem skipBlank_wide {c : Char} (h : isWide c) (s : List Char) : skipBlank (c::s)=none := by
  rw [isWide,Bool.and_eq_true,Bool.not_eq_true'] at h
  rw [skipBlank,if_pos h.1,h.2]
  rfl

theorem skipBlank_some (h : skipBlank s=some rest) : ∃ blank, s=blank++rest ∧ ∀ c∈blank, isSpace c := by
  induction s with
  | nil =>
    cases h
    exact ⟨[],rfl,by simp⟩
  | cons c s ih =>
    rw [skipBlank] at h
    by_cases light : Text.isBlank c
    · by_cases single : isSingleByte c
      · rw [if_pos light,if_pos single] at h
        obtain ⟨blank,rfl,spaces⟩ := ih h
        refine ⟨c::blank,rfl,fun d hd => ?_⟩
        obtain rfl|hd := List.mem_cons.mp hd
        · exact Bool.and_eq_true_iff.mpr ⟨light,single⟩
        · exact spaces d hd
      · rw [if_pos light,if_neg single] at h
        cases h
    · rw [if_neg light] at h
      cases h
      exact ⟨[],rfl,by simp⟩

theorem skipBlank_none (h : skipBlank s=none) :
    ∃ blank c rest, s=blank++c::rest ∧ (∀ c∈blank, isSpace c) ∧ isWide c := by
  induction s with
  | nil => cases h
  | cons c s ih =>
    rw [skipBlank] at h
    by_cases light : Text.isBlank c
    · by_cases single : isSingleByte c
      · rw [if_pos light,if_pos single] at h
        obtain ⟨blank,d,rest,rfl,spaces,wide⟩ := ih h
        refine ⟨c::blank,d,rest,rfl,fun e he => ?_,wide⟩
        obtain rfl|he := List.mem_cons.mp he
        · exact Bool.and_eq_true_iff.mpr ⟨light,single⟩
        · exact spaces e he
      · exact ⟨[],c,s,rfl,by simp,by simp [isWide,light,single]⟩
    · rw [if_neg light] at h
      cases h

end Skipping

namespace Spaced

variable {ts us : List String} {p q s blank : List Char} {w : String}

theorem token (w : String) : Spaced [w] w.toList := by
  have spaced : Spaced [w] ([]++w.toList++[]) := .cons (by simp) (.nil (by simp))
  rwa [List.nil_append,List.append_nil] at spaced

theorem behind_blank (h : ∀ c∈blank, isSpace c) (hs : Spaced ts s) : Spaced ts (blank++s) := by
  have spaces {blank' : List Char} (h' : ∀ c∈blank', isSpace c) : ∀ c∈blank++blank', isSpace c := by
    intro c hc
    obtain hc|hc := List.mem_append.mp hc
    · exact h c hc
    · exact h' c hc
  cases hs with
  | nil h' => exact .nil (spaces h')
  | cons h' hs =>
    rw [←List.append_assoc,←List.append_assoc]
    exact .cons (spaces h') hs

theorem append (hp : Spaced ts p) (hq : Spaced us q) : Spaced (ts++us) (p++q) := by
  induction hp with
  | nil h => exact behind_blank h hq
  | cons h _ ih =>
    rw [List.append_assoc]
    exact .cons h ih

theorem split (ts : List String) (h : Spaced (ts++us) s) : ∃ p q, s=p++q ∧ Spaced ts p ∧ Spaced us q := by
  induction ts generalizing s with
  | nil => exact ⟨[],s,rfl,.nil (by simp),h⟩
  | cons t ts ih =>
    cases h with
    | cons h hs =>
      obtain ⟨p,q,rfl,hp,hq⟩ := ih hs
      exact ⟨_,q,(List.append_assoc _ _ _).symm,.cons h hp,hq⟩

/-- A keyword with the bracket behind it, and what is inside. -/
theorem opened (h : Spaced (w::"<"::ts) s) :
    ∃ p q u, s=p++(q++u) ∧ Spaced [w] p ∧ Spaced ["<"] q ∧ Spaced ts u := by
  obtain ⟨p,s,rfl,hp,h⟩ := split [w] h
  obtain ⟨q,u,rfl,hq,hu⟩ := split ["<"] h
  exact ⟨p,q,u,rfl,hp,hq,hu⟩

/-- White space behind the tokens belongs to them. -/
theorem before_blank (hs : Spaced ts s) (h : ∀ c∈blank, isSpace c) : Spaced ts (s++blank) := by
  have spaced := hs.append (.nil h)
  rwa [List.append_nil] at spaced

/-- A word ends where such tokens follow. -/
theorem ends_word (h : Spaced (w::ts) s) (hw : ∃ c cs, w.toList=c::cs ∧ isWordChar c=false) (rest : List Char) :
    ∀ c∈(s++rest).head?, isWordChar c=false := by
  cases h with
  | @cons blank _ _ _ h _ =>
    intro c hc
    cases blank with
    | nil =>
      obtain ⟨d,ds,hd,mark⟩ := hw
      rw [List.nil_append,hd] at hc
      cases hc
      exact mark
    | cons d blank =>
      cases hc
      exact not_isWordChar_of_isBlank (isBlank_of_isSpace (h c (by simp)))

end Spaced

theorem tokens_spaced_text (t : SemanticType) : Spaced t.tokens t.text.toList := by
  induction t with
  | list a ih =>
    have spaced := (Spaced.token "list").append ((Spaced.token "<").append (ih.append (.token ">")))
    simpa [text,tokens] using spaced
  | map k v ihk ihv =>
    have space : ∀ c∈[' '], isSpace c := by decide
    have comma : Spaced [","] ", ".toList := (Spaced.token ",").before_blank space
    have spaced := (Spaced.token "map").append
      ((Spaced.token "<").append (ihk.append (comma.append (ihv.append (.token ">")))))
    simpa [text,tokens] using spaced
  | _ => exact .token _

end CallLowering.SemanticType
