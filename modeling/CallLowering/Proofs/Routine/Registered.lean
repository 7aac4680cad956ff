import CallLowering.Routine.Table
import Mathlib.Data.Finset.Card
import Mathlib.Data.List.Nodup

namespace CallLowering

/-- What a routine is looked up by. -/
def Routine.key (r : Routine) : String × String × List Rep := (r.owner,r.name,r.params)

/-- Of the routines that were registered, this is the first whose place was taken. -/
def Routine.FirstTaken (r : Routine) (rs : List Routine) : Prop :=
  ∃ before after, rs=before++r::after ∧ (before.map key).Nodup ∧ r.key∈before.map key

namespace Routine.FirstTaken

variable {r r' : Routine} {rs : List Routine}

theorem last (distinct : (rs.map key).Nodup) (h : r.key∈rs.map key) : r.FirstTaken (rs++[r]) :=
  ⟨rs,[],rfl,distinct,h⟩

theorem append (h : r.FirstTaken rs) (rs' : List Routine) : r.FirstTaken (rs++rs') := by
  obtain ⟨before,after,rfl,distinct,taken⟩ := h
  exact ⟨before,after++rs',by rw [List.append_assoc]; rfl,distinct,taken⟩

theorem not_nodup (h : r.FirstTaken rs) : ¬(rs.map key).Nodup := by
  obtain ⟨before,after,rfl,-,taken⟩ := h
  rw [List.map_append,List.map_cons,List.nodup_append]
  rintro ⟨-,-,apart⟩
  exact apart r.key taken r.key List.mem_cons_self rfl

theorem unique (h : r.FirstTaken rs) (h' : r'.FirstTaken rs) : r=r' := by
  -- of two such routines, the later one would have a key twice before it
  obtain ⟨before,after,rfl,distinct,taken⟩ := h
  obtain ⟨before',after',same,distinct',taken'⟩ := h'
  obtain ⟨between,rfl,rest⟩|⟨between,rfl,rest⟩ := List.append_eq_append_iff.mp same
  · cases between with
    | nil => exact (List.cons.inj rest).1
    | cons s between =>
      cases (List.cons.inj rest).1
      exact absurd distinct' (not_nodup ⟨before,between,rfl,distinct,taken⟩)
  · cases between with
    | nil => exact (List.cons.inj rest).1.symm
    | cons s between =>
      cases (List.cons.inj rest).1
      exact absurd distinct (not_nodup ⟨before',between,rfl,distinct',taken'⟩)

end Routine.FirstTaken

namespace RoutineGroups

variable (g : (String × String) × List Routine) (gs : RoutineGroups) (rs : List Routine) (key : String × String)

theorem overloads_cons : overloads (g::gs) key=if g.1=key then g.2 else gs.overloads key := by
  rw [overloads,List.lookup_cons]
  by_cases here : g.1=key
  · rw [if_pos here,here,BEq.rfl]
    rfl
  · have apart : (key==g.1)=false := beq_false_of_ne (Ne.symm here)
    rw [if_neg here,apart]
    rfl

theorem overloads_put (key' : String × String) :
    (put key rs gs).overloads key'=if key=key' then rs else gs.overloads key' := by
  induction gs with
  | nil => rw [put,overloads_cons]
  | cons g gs ih =>
    rw [put]
    by_cases here : g.1=key
    · rw [if_pos here,overloads_cons,overloads_cons,here]
      split <;> rfl
    · rw [if_neg here,overloads_cons,overloads_cons,ih]
      by_cases same : key=key'
      · have other : g.1≠key' := same ▸ here
        rw [if_pos same,if_pos same,if_neg other]
      · rw [if_neg same,if_neg same]

/-- What stood under the key is replaced, and nothing else. -/
theorem size_put : size (put key rs gs)+(gs.overloads key).length=gs.size+rs.length := by
  induction gs with
  | nil => simp [put,size,overloads]
  | cons g gs ih =>
    rw [put,overloads_cons]
    by_cases here : g.1=key
    · rw [if_pos here,if_pos here]
      change rs.length+size gs+g.2.length=g.2.length+size gs+rs.length
      omega
    · rw [if_neg here,if_neg here,size,size]
      omega

theorem any_put (owner : String) :
    (put key rs gs).any (fun g => g.1.1==owner)=(gs.any (fun g => g.1.1==owner) || key.1==owner) := by
  induction gs with
  | nil => exact Bool.or_comm _ _
  | cons g gs ih =>
    rw [put]
    by_cases here : g.1=key
    · rw [if_pos here,List.any_cons,List.any_cons,here,Bool.or_right_comm,Bool.or_self]
    · rw [if_neg here,List.any_cons,List.any_cons,ih,Bool.or_assoc]

theorem put_ne_nil : put key rs gs≠[] := by
  cases gs with
  | nil => nofun
  | cons g gs =>
    rw [put]
    split <;> nofun

/-- Who has routines is an owner. -/
theorem any_of_overloads {key : String × String} (h : gs.overloads key≠[]) : gs.any fun g => g.1.1==key.1 := by
  induction gs with
  | nil => exact absurd rfl h
  | cons g gs ih =>
    rw [overloads_cons] at h
    rw [List.any_cons,Bool.or_eq_true]
    by_cases here : g.1=key
    · exact .inl (beq_iff_eq.mpr (congrArg Prod.fst here))
    · rw [if_neg here] at h
      exact .inr (ih h)

end RoutineGroups

namespace RoutineTable

theorem lookup_eq (t : RoutineTable) (owner name : String) (params : List Rep) :
    t.lookup owner name params=(t.groups.overloads (owner,name)).find? fun r => r.params==params := by
  rw [lookup,RoutineGroups.overloads]
  cases t.groups.lookup (owner,name) <;> rfl

namespace Draft

variable {d : Draft} {r : Routine}

/-- Is the place of the routine taken? -/
def Taken (d : Draft) (r : Routine) : Prop := (d.build.lookup r.owner r.name r.params).isSome

theorem register_of_taken (h : d.Taken r) :
    d.register r={d with firstError := d.firstError.or (some (.duplicateRoutine r.owner r.name))} := by
  rw [Taken,lookup_eq,List.isSome_find?] at h
  exact if_pos h

theorem register_of_free (h : ¬d.Taken r) :
    d.register r={d with
      groups := d.groups.put (r.owner,r.name) (d.groups.overloads (r.owner,r.name)++[r])} := by
  rw [Taken,lookup_eq,List.isSome_find?] at h
  exact if_neg h

/-- A routine is found under its key, unless another was found there before. -/
theorem lookup_register (owner name : String) (params : List Rep) :
    (d.register r).build.lookup owner name params=
      (d.build.lookup owner name params).or ([r].find? fun r => r.key=(owner,name,params)) := by
  have alone : [r].find? (fun r => r.key=(owner,name,params))=
      if r.key=(owner,name,params) then some r else none := by
    rw [List.find?_singleton]
    simp
  rw [alone]
  by_cases taken : d.Taken r
  · rw [register_of_taken taken]
    split
    · next same =>
      rw [Taken] at taken
      cases same
      exact (Option.or_of_isSome taken).symm
    · exact (Option.or_none).symm
  · rw [register_of_free taken,lookup_eq,lookup_eq]
    change ((d.groups.put _ _).overloads _).find? _=((d.groups.overloads _).find? _).or _
    rw [RoutineGroups.overloads_put]
    by_cases place : (r.owner,r.name)=(owner,name)
    · rw [if_pos place,List.find?_append,←place,List.find?_singleton]
      cases place
      simp [Routine.key]
    · have other : r.key≠(owner,name,params) := fun same => place (by cases same; rfl)
      rw [if_neg place,if_neg other,Option.or_none]

theorem size_register_of_free (h : ¬d.Taken r) : (d.register r).build.size=d.build.size+1 := by
  rw [register_of_free h]
  have replaced := d.groups.size_put (d.groups.overloads (r.owner,r.name)++[r]) (r.owner,r.name)
  rw [List.length_append,List.length_singleton] at replaced
  change RoutineGroups.size (d.groups.put _ _)=d.groups.size+1
  omega

theorem hasOwner_register (owner : String) :
    (d.register r).build.hasOwner owner=(d.build.hasOwner owner || r.owner==owner) := by
  by_cases taken : d.Taken r
  · rw [register_of_taken taken]
    have filled : d.groups.overloads (r.owner,r.name)≠[] := by
      rw [Taken,lookup_eq,List.isSome_find?] at taken
      intro none
      rw [build,none] at taken
      cases taken
    have present := d.groups.any_of_overloads filled
    by_cases same : r.owner=owner
    · rw [same] at present
      change d.groups.any _=(d.groups.any _ || _)
      rw [present,Bool.true_or]
    · rw [beq_false_of_ne same,Bool.or_false]
      rfl
  · rw [register_of_free taken]
    exact d.groups.any_put _ _ owner

/-- A draft that is made by registering these routines, as its table shows it. -/
structure Records (d : Draft) (rs : List Routine) : Prop where
  lookup : ∀ owner name params, d.build.lookup owner name params=rs.find? fun r => r.key=(owner,name,params)
  size : d.build.size=(rs.map Routine.key).toFinset.card
  hasOwner : ∀ owner, d.build.hasOwner owner ↔ ∃ r∈rs, r.owner=owner
  isEmpty : d.build.isEmpty ↔ rs=[]
  firstError : (rs.map Routine.key).Nodup ∧ d.firstError=none ∨
    ∃ r, Routine.FirstTaken r rs ∧ d.firstError=some (.duplicateRoutine r.owner r.name)

namespace Records

variable {rs : List Routine}

theorem empty : Draft.empty.Records [] where
  lookup _ _ _ := rfl
  size := rfl
  hasOwner _ := ⟨nofun,nofun⟩
  isEmpty := ⟨fun _ => rfl,fun _ => rfl⟩
  firstError := .inl ⟨List.nodup_nil,rfl⟩

theorem taken_iff (h : d.Records rs) : d.Taken r ↔ r.key∈rs.map Routine.key := by
  rw [Taken,h.lookup,List.find?_isSome,List.mem_map]
  simp [Routine.key]

theorem register (h : d.Records rs) (r : Routine) : (d.register r).Records (rs++[r]) where
  lookup owner name params := by rw [lookup_register,h.lookup,List.find?_append]
  size := by
    have keys : ((rs++[r]).map Routine.key).toFinset=insert r.key (rs.map Routine.key).toFinset := by
      rw [List.map_append,List.toFinset_append,Finset.union_comm]
      rfl
    rw [keys]
    by_cases taken : d.Taken r
    · have listed := List.mem_toFinset.mpr (h.taken_iff.mp taken)
      rw [Finset.insert_eq_of_mem listed,register_of_taken taken]
      exact h.size
    · have unlisted := fun listed => taken (h.taken_iff.mpr (List.mem_toFinset.mp listed))
      rw [Finset.card_insert_of_notMem unlisted,size_register_of_free taken,h.size]
  hasOwner owner := by
    rw [hasOwner_register,Bool.or_eq_true,h.hasOwner,beq_iff_eq]
    simp [or_and_right,exists_or]
  isEmpty := by
    have inhabited : rs++[r]≠[] := List.append_ne_nil_of_right_ne_nil rs nofun
    refine ⟨fun bare => ?_,fun none => absurd none inhabited⟩
    by_cases taken : d.Taken r
    · rw [register_of_taken taken] at bare
      cases h.isEmpty.mp bare
      cases h.taken_iff.mp taken
    · rw [register_of_free taken] at bare
      exact absurd (List.isEmpty_iff.mp bare) (RoutineGroups.put_ne_nil _ _ _)
  firstError := by
    by_cases taken : d.Taken r
    · right
      rw [register_of_taken taken]
      obtain ⟨distinct,none⟩|⟨r',first,some⟩ := h.firstError
      · exact ⟨r,.last distinct (h.taken_iff.mp taken),by rw [none]; rfl⟩
      · exact ⟨r',first.append [r],by rw [some]; rfl⟩
    · rw [register_of_free taken]
      obtain ⟨distinct,none⟩|⟨r',first,some⟩ := h.firstError
      · left
        refine ⟨?_,none⟩
        rw [List.map_append,List.map_singleton,List.nodup_append]
        refine ⟨distinct,List.nodup_singleton _,?_⟩
        rintro key listed key' (_|⟨_,⟨⟩⟩) rfl
        exact taken (h.taken_iff.mpr listed)
      · exact .inr ⟨r',first.append [r],some⟩

theorem foldl (rs : List Routine) : (rs.foldl Draft.register .empty).Records rs := by
  induction rs using List.reverseRecOn with
  | nil => exact .empty
  | append_singleton rs r ih =>
    rw [List.foldl_append]
    exact ih.register r

end Records

end Draft

/-- A table that was filled by registering routines one after the other finds the first that has the owner, the name
and the parameters; it counts the keys that were registered, and knows their owners. Building it strictly gives the
same table if no key was registered twice, and otherwise fails with the owner and the name of the first routine that
found its place taken. -/
theorem registered_first (rs : List Routine) :
    let d := rs.foldl Draft.register .empty
    (∀ owner name params, d.build.lookup owner name params=rs.find? fun r => r.key=(owner,name,params)) ∧
    d.build.size=(rs.map Routine.key).toFinset.card ∧
    (d.build.isEmpty ↔ d.build.size=0) ∧
    (∀ owner, d.build.hasOwner owner ↔ ∃ r∈rs, r.owner=owner) ∧
    ((∃ e, d.tryBuild=.error e) ↔ ¬(rs.map Routine.key).Nodup) ∧
    (∀ e, d.tryBuild=.error e ↔ ∃ r, Routine.FirstTaken r rs ∧ e=.duplicateRoutine r.owner r.name) ∧
    (d.tryBuild=.ok d.build ↔ (rs.map Routine.key).Nodup) := by
  intro d
  have records : d.Records rs := Draft.Records.foldl rs
  have isEmpty : d.build.isEmpty ↔ d.build.size=0 := by
    rw [records.isEmpty,records.size,Finset.card_eq_zero,List.toFinset_eq_empty_iff,List.map_eq_nil_iff]
  refine ⟨records.lookup,records.size,isEmpty,records.hasOwner,?_⟩
  obtain ⟨distinct,none⟩|⟨r,first,some⟩ := records.firstError
  · have built : d.tryBuild=.ok d.build := by rw [Draft.tryBuild,none]
    rw [built]
    refine ⟨⟨nofun,fun repeated => absurd distinct repeated⟩,fun e => ⟨nofun,?_⟩,fun _ => distinct,fun _ => rfl⟩
    rintro ⟨r,first,-⟩
    exact absurd distinct first.not_nodup
  · have failed : d.tryBuild=.error (.duplicateRoutine r.owner r.name) := by rw [Draft.tryBuild,some]
    rw [failed]
    refine ⟨⟨fun _ => first.not_nodup,fun _ => ⟨_,rfl⟩⟩,fun e => ⟨fun same => ?_,?_⟩,nofun,
      fun distinct => absurd distinct first.not_nodup⟩
    · cases same
      exact ⟨r,first,rfl⟩
    · rintro ⟨r',first',rfl⟩
      rw [first.unique first']

end RoutineTable

end CallLowering
