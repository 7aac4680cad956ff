import CallLowering.Proofs.Fragment.Dialect
import Mathlib.Data.List.DropRight

namespace CallLowering

namespace Text

/-- May the character stand in the text of an integer? -/
def inInteger (c : Char) : Bool := c.isDigit || c == '+' || c == '-'

theorem isDigit_of_digitsValue? {cs : List Char} {m n : Nat} (h : digitsValue? m cs=some n) :
    ∀ c∈cs, c.isDigit := by
  induction cs generalizing m with
  | nil => nofun
  | cons c cs ih =>
    rw [digitsValue?] at h
    split at h
    · next digit =>
      rintro d (_|⟨_,member⟩)
      · exact digit
      · exact ih h d member
    · cases h

theorem isDigit_of_natural? {cs : List Char} {n : Nat} (h : natural? cs=some n) : ∀ c∈cs, c.isDigit := by
  rw [natural?] at h
  split at h
  · cases h
  · exact isDigit_of_digitsValue? h

theorem inInteger_of_isDigit {c : Char} (h : c.isDigit) : inInteger c := by simp [inInteger,h]

theorem integer?_minus (cs : List Char) :
    integer? ('-'::cs)=(natural? cs).map fun n : Nat => -(n : Int) := by
  rw [integer?]
  cases natural? cs <;> rfl

theorem inInteger_of_integer? {cs : List Char} {n : Int} (h : integer? cs=some n) : ∀ c∈cs, inInteger c := by
  have digits {ds : List Char} {f : Nat → Int} (h : (natural? ds).map f=some n) : ∀ c∈ds, inInteger c := by
    obtain ⟨m,hm,-⟩ := Option.map_eq_some_iff.mp h
    exact fun c member => inInteger_of_isDigit (isDigit_of_natural? hm c member)
  by_cases minus : ∃ ds, cs = '-'::ds
  · obtain ⟨ds,rfl⟩ := minus
    exact List.forall_mem_cons.mpr ⟨rfl,digits (integer?_minus ds ▸ h)⟩
  by_cases plus : ∃ ds, cs = '+'::ds
  · obtain ⟨ds,rfl⟩ := plus
    exact List.forall_mem_cons.mpr ⟨rfl,digits h⟩
  rw [integer?] at h
  · exact digits h
  · exact fun ds eq => plus ⟨ds,eq⟩
  · exact fun ds eq => minus ⟨ds,eq⟩

theorem natural?_toString (n : Nat) : natural? (toString n).toList=some n := by
  have written : (toString n).toList=Nat.toDigits 10 n := Nat.toList_repr
  rw [written,Lexicon.natural?_toDigits]

theorem integer?_digits {c : Char} {cs : List Char} (h : c.isDigit) :
    integer? (c::cs)=(natural? (c::cs)).map Int.ofNat := by
  have plus : c ≠ '+' := fun eq => by rw [eq] at h; exact absurd h (by decide)
  have minus : c ≠ '-' := fun eq => by rw [eq] at h; exact absurd h (by decide)
  rw [integer?]
  · exact fun ds eq => plus (List.cons.inj eq).1
  · exact fun ds eq => minus (List.cons.inj eq).1

theorem integer?_toString (n : Nat) : integer? (toString n).toList=some (n : Int) := by
  have value := natural?_toString n
  obtain ⟨c,cs,hs,digit⟩ := Lexicon.digit_first n
  rw [hs] at value ⊢
  rw [integer?_digits digit,value]
  rfl

theorem integer?_negated (n : Nat) : integer? ("-"++toString n).toList=some (-(n : Int)) := by
  have whole : ("-"++toString n).toList = '-'::(toString n).toList := by simp
  rw [whole,integer?_minus,natural?_toString]
  rfl

theorem not_isBlank_of_inInteger {c : Char} (h : inInteger c) : isBlank c=false := by
  simp only [inInteger,Bool.or_eq_true,beq_iff_eq] at h
  obtain (digit|rfl)|rfl := h
  · simp only [Char.isDigit,Bool.and_eq_true,decide_eq_true_eq,ge_iff_le,UInt32.le_iff_toNat_le] at digit
    have marks : '0'.val.toNat=48 ∧ '9'.val.toNat=57 := by decide
    have code : c.toNat=c.val.toNat := rfl
    exact not_isBlank_of_between (by omega) (by omega)
  · decide
  · decide

/-- Is there anything to be seen of the text? -/
def Visible (cs : List Char) : Prop := ∃ c∈cs, isBlank c=false

instance (cs : List Char) : Decidable (Visible cs) :=
  decidable_of_iff (cs.any fun c => !isBlank c) (by simp [Visible])

theorem Visible.mono {cs ds : List Char} (h : Visible cs) (sub : cs⊆ds) : Visible ds := by
  obtain ⟨c,member,visible⟩ := h
  exact ⟨c,sub member,visible⟩

theorem visible_of_integer? {cs : List Char} {n : Int} (h : integer? cs=some n) : Visible cs := by
  cases cs with
  | nil => cases h
  | cons c cs => exact ⟨c,by simp,not_isBlank_of_inInteger (inInteger_of_integer? h c (by simp))⟩

theorem dropWhile_ne_nil {cs : List Char} (h : Visible cs) : cs.dropWhile isBlank≠[] := by
  obtain ⟨c,member,visible⟩ := h
  intro none
  cases visible.symm.trans (List.dropWhile_eq_nil_iff.mp none c member)

theorem rdropWhile_cons {c : Char} (h : isBlank c=false) (cs : List Char) :
    (c::cs).rdropWhile isBlank=c::cs.rdropWhile isBlank := by
  rw [List.rdropWhile,List.reverse_cons,List.dropWhile_append]
  split
  · next none =>
    rw [List.rdropWhile,List.isEmpty_iff.mp none,List.dropWhile_cons_of_neg (by rw [h]; decide)]
    rfl
  · rw [List.reverse_append]
    rfl

/-- Text that begins with what can be seen is only trimmed at its end. -/
theorem trim_cons {c : Char} (h : isBlank c=false) (cs : List Char) :
    trim (c::cs)=c::cs.rdropWhile isBlank := by
  rw [←rdropWhile_cons h,trim,List.dropWhile_cons_of_neg (by rw [h]; decide)]
  rfl

/-- What stands between visible characters is not trimmed. -/
theorem trim_between {m : Char} {xs ys : List Char} (hx : Visible xs) (hy : Visible ys) :
    ∃ xs' ys', trim (xs++m::ys)=xs'++m::ys' ∧ xs'≠[] ∧ ys'≠[] := by
  have left := dropWhile_ne_nil hx
  have right := dropWhile_ne_nil (hy.mono fun c member => List.mem_reverse.mpr member)
  refine ⟨xs.dropWhile isBlank,ys.rdropWhile isBlank,?_,left,List.reverse_ne_nil_iff.mpr right⟩
  have front : (xs++m::ys).dropWhile isBlank=xs.dropWhile isBlank++m::ys := by
    rw [List.dropWhile_append,if_neg (by rwa [List.isEmpty_iff])]
  rw [trim,front,List.reverse_append,List.reverse_cons,List.append_assoc,List.dropWhile_append,
    if_neg (by rwa [List.isEmpty_iff]),List.reverse_append,List.reverse_append,List.reverse_reverse,List.append_assoc]
  rfl

/-- Trimming takes as much off the end as if the front were left alone. -/
theorem trim_subset (cs : List Char) : trim cs⊆cs.rdropWhile isBlank := by
  have halves : cs.takeWhile isBlank++cs.dropWhile isBlank=cs := List.takeWhile_append_dropWhile
  intro c member
  have inner : c∈(cs.dropWhile isBlank).reverse.dropWhile isBlank := List.mem_reverse.mp member
  rw [←halves,List.rdropWhile,List.mem_reverse,List.reverse_append,List.dropWhile_append]
  split
  · next none => cases List.isEmpty_iff.mp none ▸ inner
  · exact List.mem_append_left _ inner

end Text

namespace Fragment

open Text

/-- What is read as an integer, if it is one. -/
def core (s : String) : List Char := stripGroup (trim s.toList)

theorem integer?_eq (f : Fragment) : f.integer?=(Text.integer? (core f.text)).bind Int64.ofInt? := rfl

/-- What stands between visible characters is read. -/
theorem mem_core {s : String} {m : Char} {xs ys : List Char} (h : s.toList=xs++m::ys) (hx : Visible xs)
    (hy : Visible ys) : m∈core s := by
  obtain ⟨xs',ys',trimmed,left,right⟩ := trim_between hx hy (m := m)
  obtain ⟨x,xs',rfl⟩ := List.exists_cons_of_ne_nil left
  rw [core,h,trimmed,List.cons_append]
  unfold stripGroup
  split
  · next cs hcs =>
    obtain ⟨-,rfl⟩ := List.cons.inj hcs
    split
    · rw [List.dropLast_append_of_ne_nil (by simp),List.dropLast_cons_of_ne_nil right]
      simp
    · simp
  · simp

/-- A pair of parentheses is taken off, and nothing more. -/
theorem core_group (s : String) : core ("("++s++")")=s.toList := by
  have ends : (s.toList++[')']).rdropWhile isBlank=s.toList++[')'] :=
    List.rdropWhile_concat_neg _ _ _ (by decide)
  have whole : ("("++s++")").toList = '('::(s.toList++[')']) := by simp
  rw [core,whole,trim_cons (by decide),ends,stripGroup,if_pos (by simp),List.dropLast_concat]

/-- A number is read as it stands. -/
theorem core_eq_self {s : String} (h : ∀ c∈s.toList, inInteger c) : core s=s.toList := by
  have visible : ∀ c∈s.toList, isBlank c=false := fun c member => not_isBlank_of_inInteger (h c member)
  rw [core]
  cases hs : s.toList with
  | nil => rfl
  | cons c cs =>
    rw [hs] at h visible
    have ends : cs.rdropWhile isBlank=cs := by
      refine List.rdropWhile_eq_self_iff.mpr fun filled blank => ?_
      cases blank.symm.trans (visible _ (List.mem_cons_of_mem _ (List.getLast_mem filled)))
    rw [trim_cons (visible c (by simp)),ends,stripGroup]
    intro ds eq
    obtain ⟨rfl,-⟩ := List.cons.inj eq
    exact absurd (h '(' (by simp)) (by decide)

theorem stripGroup_subset (cs : List Char) : stripGroup cs⊆cs := by
  unfold stripGroup
  split
  · split
    · exact fun c member => List.mem_cons_of_mem _ (List.dropLast_subset _ member)
    · exact fun c member => member
  · exact fun c member => member

theorem mem_of_mem_core {s : String} {c : Char} (h : c∈core s) : c∈s.toList.rdropWhile isBlank :=
  trim_subset _ (stripGroup_subset _ h)

/-- Is something read that stands in no number? -/
def Strange (s : String) : Prop := ∃ c∈core s, inInteger c=false

theorem Strange.integer? {s : String} (h : Strange s) : Text.integer? (core s)=none := by
  obtain ⟨c,member,strange⟩ := h
  cases hn : Text.integer? (core s) with
  | none => rfl
  | some n => cases strange.symm.trans (inInteger_of_integer? hn c member)

/-- What is strange by itself is strange between parentheses. -/
theorem Strange.group {s : String} (h : Strange s) : Strange ("("++s++")") := by
  obtain ⟨c,member,strange⟩ := h
  refine ⟨c,?_,strange⟩
  rw [core_group]
  exact (List.rdropWhile_prefix _ (p := isBlank)).subset (mem_of_mem_core member)

/-- What is strange by itself is strange behind a sign. -/
theorem Strange.minus {s : String} (h : Strange s) : Strange ("-"++s) := by
  obtain ⟨c,member,strange⟩ := h
  refine ⟨c,?_,strange⟩
  have whole : ("-"++s).toList = '-'::s.toList := by simp
  rw [core,whole,trim_cons (by decide)]
  exact List.mem_cons_of_mem _ (mem_of_mem_core member)

/-- Does something that stands in no number come between what can be seen? -/
def Compound (s : String) : Prop :=
  ∃ xs m ys, s.toList=xs++m::ys ∧ inInteger m=false ∧ Visible xs ∧ Visible ys

theorem Compound.strange {s : String} (h : Compound s) : Strange s := by
  obtain ⟨xs,m,ys,hs,strange,left,right⟩ := h
  exact ⟨m,mem_core hs left right,strange⟩

theorem Compound.visible {s : String} (h : Compound s) : Visible s.toList := by
  obtain ⟨xs,m,ys,hs,-,left,-⟩ := h
  exact left.mono (by simp [hs])

/-- A sign that stands apart is read with the space behind it. -/
theorem compound_apart {s : String} (h : Visible s.toList) : Compound ("-"++" "++s) :=
  ⟨['-'],' ',s.toList,by simp,rfl,⟨'-',by simp,rfl⟩,h⟩

/-- A sign before a group is read with the parentheses. -/
theorem compound_minus_group (s : String) : Compound ("-"++("("++s++")")) :=
  ⟨['-'],'(',s.toList++[')'],by simp,rfl,⟨'-',by simp,rfl⟩,⟨')',by simp,rfl⟩⟩

/-- Does the text begin as neither numbers nor groups do? -/
def Wordy (s : String) : Prop := ∃ c∈s.toList.head?, isBlank c=false ∧ c ≠ '(' ∧ inInteger c=false

instance (s : String) : Decidable (Wordy s) :=
  decidable_of_iff (s.toList.head?.any fun c => !isBlank c && c != '(' && !inInteger c)
    (by simp [Wordy,Option.any_eq_true,and_assoc])

theorem Wordy.strange {s : String} (h : Wordy s) : Strange s := by
  obtain ⟨c,first,visible,group,strange⟩ := h
  obtain ⟨cs,hs⟩ := List.head?_eq_some_iff.mp first
  refine ⟨c,?_,strange⟩
  rw [core,hs,trim_cons visible,stripGroup]
  · exact List.mem_cons_self
  · exact fun ds eq => group (List.cons.inj eq).1

theorem Wordy.visible {s : String} (h : Wordy s) : Visible s.toList := by
  obtain ⟨c,first,visible,-⟩ := h
  exact ⟨c,List.mem_of_mem_head? first,visible⟩

theorem Wordy.append {s : String} (h : Wordy s) (t : String) : Wordy (s++t) := by
  obtain ⟨c,first,rest⟩ := h
  obtain ⟨cs,hs⟩ := List.head?_eq_some_iff.mp first
  exact ⟨c,by rw [String.toList_append,hs]; rfl,rest⟩

end Fragment

end CallLowering
