import CallLowering.Proofs.Chunk.Patching
import CallLowering.Proofs.Chunk.Ranges

namespace CallLowering

variable {σ : Type} {host : Host σ} {c : Chunk} {args : List Slot}

namespace Machine

/-- The places that a machine visits from a state of the host on, and how this ends: with a fault or with a
machine that has left the code. -/
inductive Walk (host : Host σ) (c : Chunk) (args : List Slot) :
    Machine → σ → List Nat → Except Fault Machine × σ → Prop
  | done {m : Machine} {s : σ} (h : c.code[m.place]?=none) : Walk host c args m s [] (.ok m,s)
  | fault {m : Machine} {i : Instr} {s t : σ} {e : Fault} (hi : c.code[m.place]?=some i)
      (h : m.step host c args i s=(.error e,t)) : Walk host c args m s [m.place] (.error e,t)
  | step {m m' : Machine} {i : Instr} {s t : σ} {places : List Nat} {ending : Except Fault Machine × σ}
      (hi : c.code[m.place]?=some i) (h : m.step host c args i s=(.ok m',t))
      (rest : Walk host c args m' t places ending) : Walk host c args m s (m.place::places) ending

/-- The result after a walk. -/
def conclude : Except Fault Machine × σ → Except Fault Slot × σ
  | (.ok m,s) => m.finish s
  | (.error e,s) => (.error e,s)

namespace Walk

variable {m : Machine} {s : σ} {places places' : List Nat} {ending ending' : Except Fault Machine × σ}

/-- There is no more than one walk from a machine. -/
theorem unique (h : Walk host c args m s places ending) (h' : Walk host c args m s places' ending') :
    places'=places ∧ ending'=ending := by
  induction h generalizing places' with
  | done hn =>
    cases h' with
    | done _ => exact ⟨rfl,rfl⟩
    | fault hi _ => cases hn.symm.trans hi
    | step hi _ _ => cases hn.symm.trans hi
  | fault hi hs =>
    cases h' with
    | done hn => cases hn.symm.trans hi
    | fault hi' hs' =>
      cases hi.symm.trans hi'
      cases hs.symm.trans hs'
      exact ⟨rfl,rfl⟩
    | step hi' hs' _ =>
      cases hi.symm.trans hi'
      cases hs.symm.trans hs'
  | step hi hs rest ih =>
    cases h' with
    | done hn => cases hn.symm.trans hi
    | fault hi' hs' =>
      cases hi.symm.trans hi'
      cases hs.symm.trans hs'
    | step hi' hs' rest' =>
      cases hi.symm.trans hi'
      cases hs.symm.trans hs'
      obtain ⟨rfl,rfl⟩ := ih rest'
      exact ⟨rfl,rfl⟩

/-- A bounded run with enough steps ends as the walk does. -/
theorem run_eq (h : Walk host c args m s places ending) {steps : Nat} (hl : places.length ≤ steps) :
    m.run host c args steps s=conclude ending := by
  induction h generalizing steps with
  | @done m s hn =>
    cases steps with
    | zero =>
      have hp : ¬m.place < c.code.size := by simpa using hn
      rw [run,if_neg hp]
      rfl
    | succ steps =>
      simp only [run,hn]
      rfl
  | fault hi hs =>
    cases steps with
    | zero => cases hl
    | succ steps =>
      simp only [run,hi,Failure.bind_apply,hs]
      rfl
  | step hi hs rest ih =>
    cases steps with
    | zero => cases hl
    | succ steps =>
      simp only [run,hi,Failure.bind_apply,hs]
      exact ih (Nat.le_of_succ_le_succ hl)

theorem within (hf : Instr.Forward c.code) (h : Walk host c args m s places ending) :
    ∀ p∈places, m.place ≤ p := by
  induction h with
  | done _ => simp
  | fault _ _ => simp
  | step hi hs _ ih =>
    have later := step_forward hf hi hs
    intro p hp
    rcases List.mem_cons.mp hp with rfl|hp
    · exact Nat.le_refl _
    · exact Nat.le_trans (Nat.le_of_lt later) (ih p hp)

/-- Each place comes after the one before it. -/
theorem ascending (hf : Instr.Forward c.code) (h : Walk host c args m s places ending) :
    places.Pairwise (· < ·) := by
  induction h with
  | done _ => exact .nil
  | fault _ _ => exact List.pairwise_singleton ..
  | step hi hs rest ih =>
    have later := step_forward hf hi hs
    exact .cons (fun p hp => Nat.lt_of_lt_of_le later (rest.within hf p hp)) ih

/-- No more instructions are executed than stand from the first place on. -/
theorem length_le (hf : Instr.Forward c.code) (h : Walk host c args m s places ending) :
    places.length ≤ c.code.size-m.place := by
  induction h with
  | done _ => exact Nat.zero_le _
  | fault hi _ =>
    have hlt := (Array.getElem?_eq_some_iff.mp hi).1
    simp only [List.length_singleton]
    omega
  | step hi hs _ ih =>
    have hlt := (Array.getElem?_eq_some_iff.mp hi).1
    have later := step_forward hf hi hs
    simp only [List.length_cons]
    omega

end Walk

/-- Every walk through code that only jumps forward ends. -/
theorem exists_walk (hf : Instr.Forward c.code) (host : Host σ) (args : List Slot) (m : Machine) (s : σ) :
    ∃ places ending, Walk host c args m s places ending := by
  generalize hn : c.code.size-m.place=n
  induction n using Nat.strongRecOn generalizing m s with
  | ind n ih =>
    cases hi : c.code[m.place]? with
    | none => exact ⟨_,_,.done hi⟩
    | some i =>
      rcases hs : m.step host c args i s with ⟨e|m',t⟩
      · exact ⟨_,_,.fault hi hs⟩
      · have hlt := (Array.getElem?_eq_some_iff.mp hi).1
        have later := step_forward hf hi hs
        obtain ⟨places,ending,rest⟩ := ih _ (by omega) m' t rfl
        exact ⟨_,_,.step hi hs rest⟩

end Machine

namespace Expr

open Machine

theorem emitPatching_eq (mark : Instr) (e : Expr) : e.emitPatching mark=e.emit := by
  rw [emitPatching,emit,Emitter.emitPatching_eq]

/-- Emitted code has no open jump, whatever had marked them, and every jump in it leads forward and not beyond
the end. So there is one walk through it from each state of the host: it visits places in ascending order, no
more than there are, and the run bounded by the size of the code ends as this walk does. -/
theorem emit_runs_forward {e : Expr} (h : e.emit=.ok c) :
    (∀ mark, e.emitPatching mark=.ok c) ∧
    (∀ (place : Nat) (i : Instr) (target : UInt32), c.code[place]?=some i → i.target?=some target →
      place < target.toNat ∧ target.toNat ≤ c.code.size) ∧
    ∀ {σ : Type} (host : Host σ) (args : List Slot) (s : σ), ∃ places ending,
      Walk host c args (start c) s places ending ∧
      (∀ places' ending', Walk host c args (start c) s places' ending' → places'=places ∧ ending'=ending) ∧
      places.Pairwise (· < ·) ∧ places.length ≤ c.code.size ∧
      c.run host args c.code.size s=conclude ending := by
  have realizes := emit_realizes h
  refine ⟨fun mark => (emitPatching_eq mark e).trans h,fun _ _ _ => realizes.target,?_⟩
  intro σ host args s
  obtain ⟨places,ending,walk⟩ := exists_walk realizes.forward host args (start c) s
  have short := walk.length_le realizes.forward
  exact ⟨places,ending,walk,fun _ _ => walk.unique,walk.ascending realizes.forward,short,walk.run_eq short⟩

/-- A choice with choices in its condition and in both branches. -/
def nestedChoice : Expr :=
  .select (.select (.isNull (.arg 0 .boxed)) (.bool false) (.arg 1 .bool))
    (.select (.arg 1 .bool) (.int 1) (.int 2)) (.select (.isNull (.arg 0 .boxed)) (.int 3) (.int 4))

theorem emit_runs_forward_nestedChoice :
    let args : List Slot := [.boxed .null,.bool true]
    ∃ c, nestedChoice.emit=.ok c ∧ (∀ mark, nestedChoice.emitPatching mark=.ok c) ∧
      (∀ (place : Nat) (i : Instr) (target : UInt32), c.code[place]?=some i → i.target?=some target →
        place < target.toNat ∧ target.toNat ≤ c.code.size) ∧
      ∃ places ending, Walk countingHost c args (start c) [] places ending ∧
        (∀ places' ending', Walk countingHost c args (start c) [] places' ending' →
          places'=places ∧ ending'=ending) ∧
        places.Pairwise (· < ·) ∧ places.length ≤ c.code.size ∧
        c.run countingHost args c.code.size []=conclude ending := by
  intro args
  obtain ⟨c,hc⟩ : ∃ c, nestedChoice.emit=.ok c := ⟨_,by cbv⟩
  obtain ⟨closed,targets,walks⟩ := emit_runs_forward hc
  exact ⟨c,hc,closed,targets,walks countingHost args []⟩

end Expr

end CallLowering
