import CallLowering.Proofs.Signature.Ordered
import CallLowering.Registry
import Mathlib.Data.List.Forall2

namespace CallLowering

/-- The argument at this place is the first that its parameter does not accept. -/
structure FirstRefused (params args : List SemanticType) (index : Nat) (p a : SemanticType) : Prop where
  param : params[index]?=some p
  arg : args[index]?=some a
  refused : p.accepts a=false
  before : ∀ j < index, ∀ q b, params[j]?=some q → args[j]?=some b → q.accepts b

namespace FirstRefused

variable {params args : List SemanticType} {index index' : Nat} {p q a b : SemanticType}

theorem head (h : p.accepts a=false) : FirstRefused (p::params) (a::args) 0 p a :=
  ⟨rfl,rfl,h,nofun⟩

theorem cons (h : p.accepts a) (rest : FirstRefused params args index q b) :
    FirstRefused (p::params) (a::args) (index+1) q b := by
  refine ⟨rest.param,rest.arg,rest.refused,fun j hj q b hq hb => ?_⟩
  cases j with
  | zero =>
    cases hq
    cases hb
    exact h
  | succ j => exact rest.before j (Nat.lt_of_succ_lt_succ hj) q b hq hb

theorem le (h : FirstRefused params args index p a) (h' : FirstRefused params args index' q b) :
    index ≤ index' := by
  by_contra earlier
  have accepted := h.before index' (Nat.lt_of_not_le earlier) q b h'.param h'.arg
  cases accepted.symm.trans h'.refused

theorem unique (h : FirstRefused params args index p a) (h' : FirstRefused params args index' q b) :
    index=index' ∧ p=q ∧ a=b := by
  obtain rfl := Nat.le_antisymm (h.le h') (h'.le h)
  exact ⟨rfl,Option.some.inj (h.param.symm.trans h'.param),Option.some.inj (h.arg.symm.trans h'.arg)⟩

theorem not_forall₂ (h : FirstRefused params args index p a) :
    ¬List.Forall₂ (fun p a => p.accepts a) params args := by
  intro all
  obtain ⟨hp,rfl⟩ := List.getElem?_eq_some_iff.mp h.param
  obtain ⟨ha,rfl⟩ := List.getElem?_eq_some_iff.mp h.arg
  have accepted := (List.forall₂_iff_get.mp all).2 index hp ha
  cases Eq.trans accepted.symm h.refused

end FirstRefused

/-- As many arguments as parameters are either all accepted, or there is a first that is not. -/
theorem Overload.firstMismatch_outcome {params args : List SemanticType} (hl : args.length=params.length)
    (index : Nat) :
    List.Forall₂ (fun p a => p.accepts a) params args ∧ firstMismatch index params args=none ∨
      ∃ i p a, FirstRefused params args i p a ∧
        firstMismatch index params args=some (.mismatch (index+i) p a) := by
  induction params generalizing args index with
  | nil =>
    rw [List.length_eq_zero_iff.mp hl]
    exact .inl ⟨.nil,rfl⟩
  | cons p params ih =>
    cases args with
    | nil => cases hl
    | cons a args =>
      rw [firstMismatch]
      cases accepted : p.accepts a with
      | false => exact .inr ⟨0,p,a,.head accepted,rfl⟩
      | true =>
        obtain ⟨all,none⟩|⟨i,q,b,first,some⟩ := ih (Nat.succ.inj hl) (index+1)
        · exact .inl ⟨.cons accepted all,none⟩
        · refine .inr ⟨i+1,q,b,first.cons accepted,?_⟩
          rw [if_pos rfl,some,Nat.add_right_comm,Nat.add_assoc]

theorem Overload.check_outcome {o : Overload} {args : List SemanticType} (hl : args.length=o.arity) :
    List.Forall₂ (fun p a => p.accepts a) o.params args ∧ o.check args=.ok () ∨
      ∃ index p a, FirstRefused o.params args index p a ∧ o.check args=.error (.mismatch index p a) := by
  have count : args.length=o.params.length := hl
  rw [check,if_neg (not_not.mpr count)]
  obtain ⟨all,none⟩|⟨index,p,a,first,some⟩ := firstMismatch_outcome hl 0
  · rw [none]
    exact .inl ⟨all,rfl⟩
  · rw [some,Nat.zero_add]
    exact .inr ⟨index,p,a,first,rfl⟩

namespace Signature

theorem exists_declare {name : String} {purity : Purity} {overloads : List Overload} (inhabited : overloads≠[])
    (distinct : (overloads.map Overload.arity).Nodup) : ∃ s, declare name overloads purity=.ok s := by
  rw [declare,List.isEmpty_eq_false_iff.mpr inhabited,repeatedArity?_nil.mpr distinct]
  exact ⟨_,rfl⟩

/-- How looking for the overload of a call ends, for any signature. -/
theorem select_outcome (s : Signature) (args : List SemanticType) :
    s.overload? args.length=none ∧
        s.select args=.error (.arityMismatch s.name (describeArities s.arities) args.length) ∨
      ∃ o, s.overload? args.length=some o ∧
        (List.Forall₂ (fun p a => p.accepts a) o.params args ∧ s.select args=.ok o ∨
          ∃ index p a, FirstRefused o.params args index p a ∧
            s.select args=.error (.typeMismatch s.name index p.text a.text)) := by
  rw [select]
  cases found : s.overload? args.length with
  | none => exact .inl ⟨rfl,rfl⟩
  | some o =>
    have arity : o.arity=args.length := by simpa using List.find?_some found
    obtain ⟨all,checked⟩|⟨index,p,a,first,checked⟩ := Overload.check_outcome arity.symm
    · exact .inr ⟨o,rfl,.inl ⟨all,by simp only [checked]⟩⟩
    · exact .inr ⟨o,rfl,.inr ⟨index,p,a,first,by simp only [checked]⟩⟩

theorem select_ok {s : Signature} {args : List SemanticType} {o : Overload} (h : s.select args=.ok o) :
    s.overload? args.length=some o ∧ List.Forall₂ (fun p a => p.accepts a) o.params args := by
  obtain ⟨-,missing⟩|⟨o',found,⟨all,taken⟩|⟨index,p,a,-,refused⟩⟩ := s.select_outcome args
  · cases missing.symm.trans h
  · cases taken.symm.trans h
    exact ⟨found,all⟩
  · cases refused.symm.trans h

theorem select_not_internal (s : Signature) (args : List SemanticType) (message : String) :
    s.select args≠.error (.internal message) := by
  obtain ⟨-,missing⟩|⟨o,-,⟨-,taken⟩|⟨index,p,a,-,refused⟩⟩ := s.select_outcome args
  · rw [missing]
    nofun
  · rw [taken]
    nofun
  · rw [refused]
    nofun

namespace Ordered

variable {s : Signature} {args : List SemanticType}

/-- The overload for a number of arguments is the only one that has as many parameters. -/
theorem overload?_of_mem (h : s.Ordered) {o : Overload} (ho : o∈s.overloads) (arity : o.arity=args.length) :
    s.overload? args.length=some o := h.overload?_iff.mpr ⟨ho,arity⟩

theorem select_ok_iff (h : s.Ordered) {o : Overload} :
    s.select args=.ok o ↔ o∈s.overloads ∧ List.Forall₂ (fun p a => p.accepts a) o.params args := by
  constructor
  · intro taken
    obtain ⟨found,all⟩ := select_ok taken
    exact ⟨(h.overload?_iff.mp found).1,all⟩
  · rintro ⟨ho,all⟩
    have found := h.overload?_of_mem ho all.length_eq
    obtain ⟨none,-⟩|⟨o',found',⟨-,taken⟩|⟨index,p,a,first,-⟩⟩ := s.select_outcome args
    · cases none.symm.trans found
    · cases found'.symm.trans found
      exact taken
    · cases found'.symm.trans found
      exact absurd all first.not_forall₂

theorem select_error_iff (h : s.Ordered) {e : LowerError} : s.select args=.error e ↔
    (∀ o∈s.overloads, o.arity≠args.length) ∧
        e=.arityMismatch s.name (describeArities s.arities) args.length ∨
      ∃ o∈s.overloads, o.arity=args.length ∧ ∃ index p a, FirstRefused o.params args index p a ∧
        e=.typeMismatch s.name index p.text a.text := by
  obtain ⟨none,missing⟩|⟨o,found,⟨all,taken⟩|⟨index,p,a,first,refused⟩⟩ := s.select_outcome args
  · have lacking : ∀ o∈s.overloads, o.arity≠args.length := fun o ho arity => by
      cases none.symm.trans (h.overload?_of_mem ho arity)
    rw [missing]
    constructor
    · rintro ⟨⟩
      exact .inl ⟨lacking,rfl⟩
    · rintro (⟨-,rfl⟩|⟨o,ho,arity,-⟩)
      · rfl
      · exact absurd arity (lacking o ho)
  · obtain ⟨ho,arity⟩ := h.overload?_iff.mp found
    rw [taken]
    refine ⟨nofun,?_⟩
    rintro (⟨lacking,-⟩|⟨o',ho',arity',index,p,a,first,-⟩)
    · exact absurd arity (lacking o ho)
    · cases found.symm.trans (h.overload?_of_mem ho' arity')
      exact absurd all first.not_forall₂
  · obtain ⟨ho,arity⟩ := h.overload?_iff.mp found
    rw [refused]
    constructor
    · rintro ⟨⟩
      exact .inr ⟨o,ho,arity,index,p,a,first,rfl⟩
    · rintro (⟨lacking,-⟩|⟨o',ho',arity',index',p',a',first',rfl⟩)
      · exact absurd arity (lacking o ho)
      · cases found.symm.trans (h.overload?_of_mem ho' arity')
        obtain ⟨rfl,rfl,rfl⟩ := first.unique first'
        rfl

end Ordered

/-- Overloads can be declared just if there are any and no two have the same number of parameters, and then their
order makes no difference. A call takes the overload with as many parameters as there are arguments that all accept
them. If none has as many, that is the error; otherwise it names the first argument that is refused. An internal
error is no answer, whatever the signature. -/
theorem dispatch_exact (name : String) (overloads : List Overload) (purity : Purity) :
    ((∃ s, declare name overloads purity=.ok s) ↔ overloads≠[] ∧ (overloads.map Overload.arity).Nodup) ∧
    (∀ s, declare name overloads purity=.ok s →
      (∀ overloads', overloads'.Perm overloads → declare name overloads' purity=.ok s) ∧
      ∀ args,
        (∀ o, s.select args=.ok o ↔
          o∈overloads ∧ List.Forall₂ (fun p a => p.accepts a) o.params args) ∧
        ∀ e, s.select args=.error e ↔
          (∀ o∈overloads, o.arity≠args.length) ∧
              e=.arityMismatch name (describeArities s.arities) args.length ∨
            ∃ o∈overloads, o.arity=args.length ∧ ∃ index p a, FirstRefused o.params args index p a ∧
              e=.typeMismatch name index p.text a.text) ∧
    ∀ (s : Signature) (args : List SemanticType) (message : String), s.select args≠.error (.internal message) := by
  refine ⟨?_,fun s declared => ?_,select_not_internal⟩
  · constructor
    · rintro ⟨s,declared⟩
      obtain ⟨-,-,perm,ordered⟩ := declare_eq_ok.mp declared
      refine ⟨?_,(perm.map Overload.arity).nodup_iff.mp ordered.distinct⟩
      rintro rfl
      exact ordered.nonempty perm.eq_nil
    · rintro ⟨inhabited,distinct⟩
      exact exists_declare inhabited distinct
  · obtain ⟨rfl,rfl,perm,ordered⟩ := declare_eq_ok.mp declared
    refine ⟨fun overloads' perm' => declare_eq_ok.mpr ⟨rfl,rfl,perm.trans perm'.symm,ordered⟩,fun args => ?_⟩
    have member (o : Overload) : o∈s.overloads ↔ o∈overloads := perm.mem_iff
    refine ⟨fun o => ?_,fun e => ?_⟩
    · rw [ordered.select_ok_iff,member]
    · rw [ordered.select_error_iff]
      simp only [member]

/-- Two overloads that are not declared in order, with a call that is accepted and one of each kind that is not. -/
theorem dispatch_exact_disordered :
    let one : Overload := ⟨[.number],.int⟩
    let two : Overload := ⟨[.number,.list .int],.list .int⟩
    let s : Signature := ⟨"f",[one,two],.pure⟩
    declare "f" [two,one] .pure=.ok s ∧ declare "f" [one,two] .pure=.ok s ∧
      s.select [.int,.unknown]=.ok two ∧
      s.select [.int,.list .string]=.error (.typeMismatch "f" 1 "list<int>" "list<string>") ∧
      s.select []=.error (.arityMismatch "f" "1 or 2" 0) := by
  intro one two s
  obtain ⟨-,exact,-⟩ := dispatch_exact "f" [two,one] .pure
  have inOrder : s.Ordered := ⟨nofun,by decide,by decide⟩
  have declared : declare "f" [two,one] .pure=.ok s := declare_eq_ok.mpr ⟨rfl,rfl,.swap _ _ _,inOrder⟩
  obtain ⟨permuted,select⟩ := exact s declared
  refine ⟨declared,permuted _ (.swap _ _ _),((select _).1 two).mpr ⟨by simp,.cons rfl (.cons rfl .nil)⟩,?_,?_⟩
  · have first : FirstRefused two.params [.int,.list .string] 1 (.list .int) (.list .string) :=
      .cons rfl (.head rfl)
    exact ((select _).2 _).mpr (.inr ⟨two,by simp,rfl,1,_,_,first,rfl⟩)
  · have lacking : ∀ o∈[two,one], o.arity≠0 := by decide
    have listed : describeArities s.arities="1 or 2" := by cbv
    exact ((select _).2 _).mpr (.inl ⟨lacking,by rw [listed]; rfl⟩)

end Signature

end CallLowering
