import CallLowering.Proofs.Number.Canonical
import CallLowering.Slot

namespace CallLowering

mutual

theorem Value.equals_self : ∀ {a b : Value}, a.equals b → b.equals b
  | .undefined,.undefined,_ => rfl
  | .null,.null,_ => rfl
  | .bool _,.bool _,_ => by simp [Value.equals]
  | .int _,.int _,_ => by simp [Value.equals]
  | .string _,.string _,_ => by simp [Value.equals]
  | .float _,.float _,h => Binary64.equals_self (by simpa only [Value.equals] using h)
  | .list _,.list _,h => Value.equalsAll_self (by simpa only [Value.equals] using h)

theorem Value.equalsAll_self : ∀ {as bs : List Value}, Value.equalsAll as bs → Value.equalsAll bs bs
  | [],[],_ => rfl
  | _::_,_::_,h => by
    simp only [Value.equalsAll,Bool.and_eq_true] at h ⊢
    exact ⟨Value.equals_self h.1,Value.equalsAll_self h.2⟩

end

theorem Slot.equals_self {a b : Slot} (h : a.equals b) : b.equals b := by
  cases a <;> cases b <;> first | cases h | skip
  · simp [Slot.equals]
  · exact Binary64.equals_self h
  · simp [Slot.equals]
  · exact Value.equals_self h

end CallLowering
