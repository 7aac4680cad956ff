import CallLowering.Signature.Encoding
import Mathlib.Data.List.Nodup

namespace CallLowering

section

variable {α : Type} {read : Json → Option α} {write : α → Json}

theorem Json.listOf?_map (h : ∀ a, read (write a)=some a) (as : List α) :
    Json.listOf? read (.array (as.map write))=some as := by
  rw [listOf?,List.mapM_map]
  induction as with
  | nil => rfl
  | cons a as ih =>
    rw [List.mapM_cons,ih,Function.comp_apply,h]
    rfl

end

theorem SemanticType.toJson_ne_null (t : SemanticType) : t.toJson≠.null := by
  cases t <;> nofun

theorem SemanticType.ofJson?_toJson (t : SemanticType) : ofJson? t.toJson=some t := by
  induction t with
  | list t ih =>
    rw [toJson,ofJson?,ih]
    · rfl
    · exact t.toJson_ne_null
  | map k v ihk ihv =>
    rw [toJson,ofJson?,ihk,ihv]
    rfl
  | _ => rfl

theorem Purity.ofJson?_toJson (p : Purity) : ofJson? p.toJson=some p := by
  cases p <;> rfl

theorem Overload.ofJson?_toJson (o : Overload) : ofJson? o.toJson=some o := by
  have params := Json.listOf?_map SemanticType.ofJson?_toJson o.params
  have returns := SemanticType.ofJson?_toJson o.returns
  change (do
    let params ← Json.listOf? SemanticType.ofJson? (.array (o.params.map SemanticType.toJson))
    let returns ← SemanticType.ofJson? o.returns.toJson
    some (Overload.mk params returns))=_
  rw [params,returns]
  rfl

namespace Signature

theorem ofJson?_toJson (s : Signature) : ofJson? s.toJson=some s := by
  have overloads := Json.listOf?_map Overload.ofJson?_toJson s.overloads
  have purity := Purity.ofJson?_toJson s.purity
  change (do
    let overloads ← Json.listOf? Overload.ofJson? (.array (s.overloads.map Overload.toJson))
    let purity ← Purity.ofJson? s.purity.toJson
    some (Signature.mk s.name overloads purity))=_
  rw [overloads,purity]
  rfl

/-- There is an overload, no two have the same arity, and those with fewer parameters come first. -/
structure Ordered (s : Signature) : Prop where
  nonempty : s.overloads≠[]
  distinct : s.arities.Nodup
  sorted : s.arities.Pairwise (· ≤ ·)

variable {s : Signature} {overloads : List Overload}

namespace Ordered

theorem ascending (h : s.Ordered) : s.arities.Pairwise (· < ·) :=
  (h.sorted.and h.distinct).imp fun ⟨le,ne⟩ => Nat.lt_of_le_of_ne le ne

/-- The overload that is found for an arity is the only one that has it. -/
theorem overload?_iff (h : s.Ordered) {arity : Nat} {o : Overload} :
    s.overload? arity=some o ↔ o∈s.overloads ∧ o.arity=arity := by
  constructor
  · intro found
    exact ⟨List.mem_of_find?_eq_some found,by simpa using List.find?_some found⟩
  · rintro ⟨member,rfl⟩
    cases found : s.overload? o.arity with
    | none =>
      have other := List.find?_eq_none.mp found o member
      simp at other
    | some o' =>
      have same : o'.arity=o.arity := by simpa using List.find?_some found
      have only := List.inj_on_of_nodup_map h.distinct (List.mem_of_find?_eq_some found) member same
      rw [only]

end Ordered

theorem repeatedArity?_eq_none {seen : List Nat} : repeatedArity? seen overloads=none ↔
    (overloads.map Overload.arity).Nodup ∧ ∀ o∈overloads, o.arity∉seen := by
  induction overloads generalizing seen with
  | nil => simp [repeatedArity?]
  | cons o os ih =>
    by_cases hs : o.arity∈seen
    · simp [repeatedArity?,hs]
    · rw [repeatedArity?,if_neg hs,ih,List.map_cons,List.nodup_cons]
      constructor
      · rintro ⟨distinct,unseen⟩
        refine ⟨⟨?_,distinct⟩,?_⟩
        · intro repeated
          obtain ⟨o',member,same⟩ := List.mem_map.mp repeated
          exact unseen o' member (same ▸ List.mem_cons_self)
        · rintro o' (_|⟨_,member⟩)
          · exact hs
          · exact fun seen => unseen o' member (List.mem_cons_of_mem _ seen)
      · rintro ⟨⟨new,distinct⟩,unseen⟩
        refine ⟨distinct,fun o' member seen => ?_⟩
        obtain same|seen := List.mem_cons.mp seen
        · exact new (List.mem_map.mpr ⟨o',member,same⟩)
        · exact unseen o' (List.mem_cons_of_mem _ member) seen

theorem repeatedArity?_nil : repeatedArity? [] overloads=none ↔ (overloads.map Overload.arity).Nodup := by
  rw [repeatedArity?_eq_none]
  exact and_iff_left fun _ _ => List.not_mem_nil

/-- Lists sorted by arity, with each arity once, are the same if they have the same overloads. -/
theorem Ordered.overloads_unique (h : s.Ordered) (perm : s.overloads.Perm overloads)
    (sorted : (overloads.map Overload.arity).Pairwise (· ≤ ·)) : s.overloads=overloads := by
  refine perm.eq_of_pairwise ?_ (List.pairwise_map.mp h.sorted) (List.pairwise_map.mp sorted)
  intro a b ha hb le ge
  exact List.inj_on_of_nodup_map h.distinct ha (perm.mem_iff.mpr hb) (Nat.le_antisymm le ge)

theorem mergeSort_sorted (overloads : List Overload) :
    ((overloads.mergeSort fun a b => decide (a.arity ≤ b.arity)).map Overload.arity).Pairwise (· ≤ ·) := by
  let le (a b : Overload) : Bool := decide (a.arity ≤ b.arity)
  have trans (a b c : Overload) (hab : le a b) (hbc : le b c) : le a c :=
    decide_eq_true (Nat.le_trans (of_decide_eq_true hab) (of_decide_eq_true hbc))
  have total (a b : Overload) : (le a b || le b a)=true := by simpa [le] using Nat.le_total a.arity b.arity
  rw [List.pairwise_map]
  exact (List.pairwise_mergeSort trans total overloads).imp of_decide_eq_true

/-- Declaring overloads gives the signature with those overloads in order, if there is one. -/
theorem declare_eq_ok {name : String} {purity : Purity} : declare name overloads purity=.ok s ↔
    s.name=name ∧ s.purity=purity ∧ s.overloads.Perm overloads ∧ s.Ordered := by
  have perm := List.mergeSort_perm overloads fun a b => decide (a.arity ≤ b.arity)
  constructor
  · intro h
    rw [declare] at h
    split at h
    · cases h
    · next inhabited =>
      split at h
      · cases h
      · next unrepeated =>
        cases h
        refine ⟨rfl,rfl,perm,?_,?_,mergeSort_sorted overloads⟩
        · intro none
          rw [List.isEmpty_iff] at inhabited
          exact inhabited (List.Perm.nil_eq (none ▸ perm)).symm
        · exact ((perm.map Overload.arity).nodup_iff).mpr (repeatedArity?_nil.mp unrepeated)
  · rintro ⟨rfl,rfl,same,ordered⟩
    have inhabited : overloads.isEmpty=false := by
      rw [List.isEmpty_eq_false_iff]
      rintro rfl
      exact ordered.nonempty same.eq_nil
    have unrepeated : repeatedArity? [] overloads=none :=
      repeatedArity?_nil.mpr ((same.map Overload.arity).nodup_iff.mp ordered.distinct)
    have sorted := ordered.overloads_unique (same.trans perm.symm) (mergeSort_sorted overloads)
    rw [declare,inhabited,unrepeated,← sorted]
    rfl

theorem ordered_iff_declare : s.Ordered ↔ declare s.name s.overloads s.purity=.ok s := by
  rw [declare_eq_ok]
  simp

/-- Which signatures there are. Declaring overloads gives the one that has them in order, and none if there is no
overload or an arity is repeated; in order, each arity has the one overload that is found for it. Each signature
can be read from JSON, and one that was read is in order just if declaring its overloads gives it back. -/
theorem declared_and_read (s : Signature) :
    (∀ name overloads purity, declare name overloads purity=.ok s ↔
      s.name=name ∧ s.purity=purity ∧ s.overloads.Perm overloads ∧ s.Ordered) ∧
    (s.Ordered → s.arities.Pairwise (· < ·) ∧
      ∀ arity o, s.overload? arity=some o ↔ o∈s.overloads ∧ o.arity=arity) ∧
    ofJson? s.toJson=some s ∧ (s.Ordered ↔ declare s.name s.overloads s.purity=.ok s) :=
  ⟨fun _ _ _ => declare_eq_ok,fun h => ⟨h.ascending,fun _ _ => h.overload?_iff⟩,s.ofJson?_toJson,
    ordered_iff_declare⟩

theorem declared_and_read_twoArities :
    let one : Overload := ⟨[.int],.int⟩
    let two : Overload := ⟨[.int,.int],.float⟩
    let s : Signature := ⟨"f",[one,two],.pure⟩
    declare "f" [two,one] .pure=.ok s ∧ s.arities.Pairwise (· < ·) ∧ s.overload? 2=some two := by
  intro one two s
  obtain ⟨declared,ordered,-,-⟩ := declared_and_read s
  have inOrder : s.Ordered := ⟨nofun,by decide,by decide⟩
  obtain ⟨ascending,found⟩ := ordered inOrder
  exact ⟨(declared _ _ _).mpr ⟨rfl,rfl,.swap _ _ _,inOrder⟩,ascending,
    (found 2 two).mpr ⟨List.mem_cons_of_mem _ List.mem_cons_self,rfl⟩⟩

/-- A signature with two overloads of one arity is read. -/
theorem not_read_ordered : ¬∀ (j : Json) (s : Signature), ofJson? j=some s → s.Ordered := by
  intro h
  let repeated : Signature := ⟨"f",[⟨[.int],.int⟩,⟨[.float],.int⟩],.pure⟩
  have ordered : repeated.Ordered := h repeated.toJson repeated repeated.ofJson?_toJson
  have distinct : [1,1].Nodup := ordered.distinct
  cases distinct with
  | cons unequal _ => exact unequal 1 List.mem_cons_self rfl

end Signature

end CallLowering
